import RecordFilter.Text.Quoted

/-! # JSON documents

    A document is a JSON value with the order of its entries, and with the
    text of its numbers, so that no digit is lost.  An object may repeat a
    key; `Document.collapse` keeps the last value of a repeated key, at the
    place of the first.  `Document.print` is the compact text. -/

namespace RecordFilter.Json

/-- A JSON value. -/
inductive Document where
  | null
  | bool (b : Bool)
  | number (spelling : String)
  | string (s : String)
  | array (items : List Document)
  | object (entries : List (String × Document))
deriving Repr

namespace Document

/-- An induction over documents: arrays may assume the statement of their
    items, and objects that of their values. -/
@[elab_as_elim, induction_eliminator]
theorem induct {motive : Document → Prop} (null : motive .null) (bool : ∀ b, motive (.bool b))
    (number : ∀ s, motive (.number s)) (string : ∀ s, motive (.string s))
    (array : ∀ items, (∀ d ∈ items, motive d) → motive (.array items))
    (object : ∀ entries : List (String × Document),
      (∀ key d, (key, d) ∈ entries → motive d) → motive (.object entries)) :
    ∀ d, motive d
  | .null => null
  | .bool b => bool b
  | .number s => number s
  | .string s => string s
  | .array items =>
      array items fun d _ => induct null bool number string array object d
  | .object entries =>
      object entries fun key d h =>
        have : sizeOf d < 1 + sizeOf entries := by
          have := List.sizeOf_lt_of_mem h
          rw [Prod.mk.sizeOf_spec] at this
          omega
        induct null bool number string array object d

mutual

/-- Decides whether two documents are equal. -/
def decEq : (d e : Document) → Decidable (d = e)
  | .null, e =>
      match e with
      | .null => isTrue rfl
      | .bool _ | .number _ | .string _ | .array _ | .object _ => isFalse nofun
  | .bool b, e =>
      match e with
      | .bool c => decidable_of_iff (b = c) (by rw [Document.bool.injEq])
      | .null | .number _ | .string _ | .array _ | .object _ => isFalse nofun
  | .number s, e =>
      match e with
      | .number t => decidable_of_iff (s = t) (by rw [Document.number.injEq])
      | .null | .bool _ | .string _ | .array _ | .object _ => isFalse nofun
  | .string s, e =>
      match e with
      | .string t => decidable_of_iff (s = t) (by rw [Document.string.injEq])
      | .null | .bool _ | .number _ | .array _ | .object _ => isFalse nofun
  | .array xs, e =>
      match e with
      | .array ys =>
          have := decEqItems xs ys
          decidable_of_iff (xs = ys) (by rw [Document.array.injEq])
      | .null | .bool _ | .number _ | .string _ | .object _ => isFalse nofun
  | .object xs, e =>
      match e with
      | .object ys =>
          have := decEqEntries xs ys
          decidable_of_iff (xs = ys) (by rw [Document.object.injEq])
      | .null | .bool _ | .number _ | .string _ | .array _ => isFalse nofun

/-- Decides whether two lists of items are equal. -/
def decEqItems : (ds es : List Document) → Decidable (ds = es)
  | [], [] => isTrue rfl
  | [], _ :: _ | _ :: _, [] => isFalse nofun
  | d :: ds, e :: es =>
      have := decEq d e
      have := decEqItems ds es
      decidable_of_iff (d = e ∧ ds = es) (by rw [List.cons.injEq])

/-- Decides whether two lists of entries are equal. -/
def decEqEntries : (ds es : List (String × Document)) → Decidable (ds = es)
  | [], [] => isTrue rfl
  | [], _ :: _ | _ :: _, [] => isFalse nofun
  | (k, d) :: ds, (l, e) :: es =>
      have := decEq d e
      have := decEqEntries ds es
      decidable_of_iff ((k = l ∧ d = e) ∧ ds = es)
        (by rw [List.cons.injEq, Prod.mk.injEq])

end

instance : DecidableEq Document := decEq

/-- Entries with the value of a key replaced, or the key put at the end. -/
def put (key : String) (value : Document) :
    List (String × Document) → List (String × Document)
  | [] => [(key, value)]
  | (k, v) :: rest => if k = key then (k, value) :: rest else (k, v) :: put key value rest

mutual

/-- The document with the last value of every repeated key. -/
def collapse : Document → Document
  | .array items => .array (collapseItems items)
  | .object entries => .object (collapseEntries [] entries)
  | d => d

/-- The items of an array, collapsed one by one. -/
def collapseItems : List Document → List Document
  | [] => []
  | d :: rest => d.collapse :: collapseItems rest

/-- The entries of an object, put in one by one. -/
def collapseEntries (done : List (String × Document)) :
    List (String × Document) → List (String × Document)
  | [] => done
  | (key, d) :: rest => collapseEntries (put key d.collapse done) rest

end

/-- A character inside the string of a JSON text. -/
def escapedChar (c : Char) : List Char :=
  match c with
  | '"' => ['\\', '"']
  | '\\' => ['\\', '\\']
  | '\x08' => ['\\', 'b']
  | '\x0c' => ['\\', 'f']
  | '\n' => ['\\', 'n']
  | '\r' => ['\\', 'r']
  | '\t' => ['\\', 't']
  | c =>
      if c < ' ' then
        ['\\', 'u', '0', '0', Nat.digitChar (c.toNat / 16), Nat.digitChar (c.toNat % 16)]
      else [c]

/-- A string of a JSON text. -/
def stringChars (s : String) : List Char :=
  '"' :: (s.toList.flatMap escapedChar ++ ['"'])

mutual

/-- The compact text of a document, as characters. -/
def chars : Document → List Char
  | .null => ['n', 'u', 'l', 'l']
  | .bool true => ['t', 'r', 'u', 'e']
  | .bool false => ['f', 'a', 'l', 's', 'e']
  | .number spelling => spelling.toList
  | .string s => stringChars s
  | .array items => '[' :: itemsChars items
  | .object entries => '{' :: entriesChars entries

/-- The items of an array and the bracket that closes it. -/
def itemsChars : List Document → List Char
  | [] => [']']
  | [d] => d.chars ++ [']']
  | d :: rest => d.chars ++ ',' :: itemsChars rest

/-- The entries of an object and the brace that closes it. -/
def entriesChars : List (String × Document) → List Char
  | [] => ['}']
  | [(key, d)] => stringChars key ++ ':' :: (d.chars ++ ['}'])
  | (key, d) :: rest => stringChars key ++ ':' :: (d.chars ++ ',' :: entriesChars rest)

end

/-- The compact text of a document. -/
def print (d : Document) : String := String.ofList d.chars

end Document

end RecordFilter.Json
