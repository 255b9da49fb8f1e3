import RecordFilter.Json.Document
import RecordFilter.Json.Numeral

/-! # What is read of a JSON text

    A text may depart from the grammar somewhere, and what a reader makes of
    it may fail earlier than that.  So a text is first taken apart as far as
    it goes: a `Reading` is a JSON value up to the place of the first fault,
    with the fault in that place.  A reader of a particular form walks over it
    in reading order and meets either the fault or a mismatch first.
    No key of an object has a meaning before a form asks for it: an object is
    read as an object, whatever its first key is.

    Values that nobody asks for are passed over with less care than the ones
    that are read: their nesting has no limit, and surrogates inside their
    strings need no partner.  A `Break` therefore holds two faults, one for a
    reader and one for a passer-by. -/

namespace RecordFilter.Json

/-- A place where a text departs from the grammar: the fault if the value is
    read, and the fault if it is passed over. -/
structure Break where
  whenRead : Fault
  whenPassed : Fault
deriving DecidableEq, Repr

/-- A break that is the same in both cases. -/
def Break.plain (fault : Fault) : Break := ⟨fault, fault⟩

/-- How the items of an array or the entries of an object come to an end: with
    the closing bracket, or at a break. -/
inductive Ending where
  | closed
  | broken (b : Break)
deriving DecidableEq, Repr

/-- A string as it is read; its surrogates may not fit together. -/
abbrev Label := Except Fault String

/-- A JSON value up to the first fault.  `misspelt` is a word or a number that
    is begun but broken, `broken` a place where no value could be read. -/
inductive Reading where
  | null
  | bool (b : Bool)
  | number (n : Numeral)
  | string (s : Label)
  | array (items : List Reading) (ending : Ending)
  | object (entries : List (Label × Reading)) (ending : Ending)
  | misspelt (b : Break)
  | broken (b : Break)

/-- The fault of an ending for a reader of items or of entries. -/
def Ending.read : Ending → Except Fault Unit
  | .closed => .ok ()
  | .broken b => .error b.whenRead

/-- The fault of an ending for a passer-by. -/
def Ending.pass : Ending → Except Fault Unit
  | .closed => .ok ()
  | .broken b => .error b.whenPassed

/-- How many more brackets may be opened. -/
inductive Room where
  | unlimited
  | atMost (brackets : Nat)
deriving DecidableEq, Repr

/-- The room of a text that is read with the usual limit. -/
def Room.usual : Room := .atMost 127

/-- Opens a bracket. -/
def Room.enter : Room → Except Fault Room
  | .unlimited => .ok .unlimited
  | .atMost 0 => .error .tooDeep
  | .atMost (n + 1) => .ok (.atMost n)

namespace Reading

/-- An induction over readings: arrays may assume the statement of their items,
    and objects that of their values. -/
@[elab_as_elim, induction_eliminator]
theorem induct {motive : Reading → Prop} (null : motive .null) (bool : ∀ b, motive (.bool b))
    (number : ∀ n, motive (.number n)) (string : ∀ s, motive (.string s))
    (array : ∀ items ending, (∀ r ∈ items, motive r) → motive (.array items ending))
    (object : ∀ (entries : List (Label × Reading)) ending,
      (∀ label r, (label, r) ∈ entries → motive r) → motive (.object entries ending))
    (misspelt : ∀ b, motive (.misspelt b)) (broken : ∀ b, motive (.broken b)) :
    ∀ r, motive r
  | .null => null
  | .bool b => bool b
  | .number n => number n
  | .string s => string s
  | .array items ending =>
      array items ending fun r _ =>
        induct null bool number string array object misspelt broken r
  | .object entries ending =>
      object entries ending fun label r h =>
        have : sizeOf r < 1 + sizeOf entries := by
          have := List.sizeOf_lt_of_mem h
          rw [Prod.mk.sizeOf_spec] at this
          omega
        induct null bool number string array object misspelt broken r
  | .misspelt b => misspelt b
  | .broken b => broken b

mutual

/-- Passes over a value. -/
def pass : Reading → Except Fault Unit
  | .array items ending => do
      passItems items
      ending.pass
  | .object entries ending => do
      passEntries entries
      ending.pass
  | .misspelt b => .error b.whenPassed
  | .broken b => .error b.whenPassed
  | _ => .ok ()

/-- Passes over items. -/
def passItems : List Reading → Except Fault Unit
  | [] => .ok ()
  | r :: rest => do
      r.pass
      passItems rest

/-- Passes over entries. -/
def passEntries : List (Label × Reading) → Except Fault Unit
  | [] => .ok ()
  | (_, r) :: rest => do
      r.pass
      passEntries rest

end

mutual

/-- Reads a value as a document. -/
def document (room : Room) : Reading → Except Fault Document
  | .null => .ok .null
  | .bool b => .ok (.bool b)
  | .number n => .ok (.number n.text)
  | .string s => s.map .string
  | .array items ending => do
      let room ← room.enter
      let ds ← documentItems room items
      ending.read
      pure (.array ds)
  | .object entries ending => do
      let room ← room.enter
      let ds ← documentEntries room entries
      ending.read
      pure (.object ds)
  | .misspelt b => .error b.whenRead
  | .broken b => .error b.whenRead

/-- Reads items as documents. -/
def documentItems (room : Room) : List Reading → Except Fault (List Document)
  | [] => .ok []
  | r :: rest => do
      let d ← r.document room
      let ds ← documentItems room rest
      pure (d :: ds)

/-- Reads entries as keys and documents. -/
def documentEntries (room : Room) :
    List (Label × Reading) → Except Fault (List (String × Document))
  | [] => .ok []
  | (label, r) :: rest => do
      let key ← label
      let d ← r.document room
      let ds ← documentEntries room rest
      pure ((key, d) :: ds)

end

/-- What a message names when the value is of the wrong kind.  Of an array or
    an object only the bracket is looked at. -/
def found : Reading → Except Fault Found
  | .null => .ok .null
  | .bool b => .ok (.bool b)
  | .number n => .ok ((n.integer?.map Found.integer).getD .number)
  | .string s => s.map .string
  | .array _ _ => .ok .array
  | .object _ _ => .ok .object
  | .misspelt b => .error b.whenRead
  | .broken b => .error b.whenRead

end Reading

end RecordFilter.Json
