import RecordFilter.Filter.Error
import RecordFilter.Filter.Limits
import RecordFilter.Filter.Node
import RecordFilter.Json.Document

/-! # From documents to filter trees

    A node of a document is an object with one entry.  Under a combinator's
    keyword it has an array of nodes; under any other key, which names a
    field, it has an object with one operator and its operand.  The rules are
    checked from the outside inwards and from left to right, and the first one
    that is violated is the error.  Fields are not looked up here. -/

namespace RecordFilter.Filter

open Json

/-- The literal of a JSON scalar other than null. -/
def literalOf? : Document → Option Literal
  | .bool b => some (.bool b)
  | .number spelling => some (.number spelling)
  | .string s => some (.text s)
  | _ => none

/-- The literals of the elements of a set, from an index on. -/
def parseElements (op : Operator) (path : Path) (i : Nat) :
    List Document → Except Error (List Literal)
  | [] => .ok []
  | d :: rest =>
      match literalOf? d with
      | none => refuse (.notScalars op) (path.index i)
      | some l => (parseElements op path (i + 1) rest).map (l :: ·)

/-- The operand of an operator that takes a set. -/
def parseSet (limits : Limits) (op : Operator) (path : Path) : Document → Except Error Operand
  | .array [] => refuse (.emptySet op) path
  | .array items =>
      if limits.maxSetLength < items.length then
        refuse (.setTooLong op limits.maxSetLength) path
      else (parseElements op path 0 items).map .set
  | _ => refuse (.setExpected op) path

/-- The operand of an operator that takes one value. -/
def parseScalar (op : Operator) (path : Path) : Document → Except Error Operand
  | .null => .ok .null
  | d =>
      match literalOf? d with
      | some l => .ok (.scalar l)
      | none => refuse (.scalarExpected op) path

/-- The operand of an operator. -/
def parseOperand (limits : Limits) (op : Operator) (path : Path) (d : Document) :
    Except Error Operand :=
  if op.isSet then parseSet limits op path d else parseScalar op path d

/-- The leaf of a field at the place of the field. -/
def parseLeaf (limits : Limits) (field : String) (path : Path) : Document → Except Error Node
  | .object [] => refuse .missingOperator path
  | .object [(token, operand)] =>
      let path := path.key token
      match Operator.ofToken? token with
      | none => refuse (.unsupportedOperator token) path
      | some op => (parseOperand limits op path operand).map fun x => .leaf field op x path
  | .object _ => refuse .severalOperators path
  | _ => refuse .objectExpected path

mutual

/-- The node at a place inside of `depth` combinators. -/
def parseNode (limits : Limits) (depth : Nat) (path : Path) : Document → Except Error Node
  | .object [] => refuse .emptyNode path
  | .object [(key, d)] =>
      match Combinator.ofKeyword? key with
      | some k => parseCombinator limits depth k (path.key key) d
      | none => parseLeaf limits key (path.key key) d
  | .object _ => refuse .severalPredicates path
  | _ => refuse .objectExpected path

/-- The combinator whose children stand at a place. -/
def parseCombinator (limits : Limits) (depth : Nat) (k : Combinator) (path : Path)
    (d : Document) : Except Error Node :=
  if limits.maxDepth ≤ depth then refuse .tooDeep path
  else
    match d with
    | .array [] => refuse (.noConditions k) path
    | .array items =>
        (parseChildren limits (depth + 1) path 0 items).map fun ns => .combinator k ns path
    | _ => refuse (.conditionsNotArray k) path

/-- The children of a combinator from an index on. -/
def parseChildren (limits : Limits) (depth : Nat) (path : Path) (i : Nat) :
    List Document → Except Error (List Node)
  | [] => .ok []
  | d :: rest =>
      match parseNode limits depth (path.index i) d with
      | .error e => .error e
      | .ok n => (parseChildren limits depth path (i + 1) rest).map (n :: ·)

end

theorem parseNode_of_ne_object {limits : Limits} {depth : Nat} {path : Path} {d : Document}
    (h : ∀ entries, d ≠ .object entries) :
    parseNode limits depth path d = refuse .objectExpected path := by
  cases d with
  | object entries => exact absurd rfl (h entries)
  | null => rfl
  | bool b => rfl
  | number s => rfl
  | string s => rfl
  | array ds => rfl

theorem parseCombinator_of_ne_array {limits : Limits} {depth : Nat} {k : Combinator}
    {path : Path} {d : Document} (hdepth : depth < limits.maxDepth)
    (h : ∀ items, d ≠ .array items) :
    parseCombinator limits depth k path d = refuse (.conditionsNotArray k) path := by
  rw [parseCombinator.eq_def, if_neg (Nat.not_le.mpr hdepth)]
  cases d with
  | array items => exact absurd rfl (h items)
  | _ => rfl

/-- A child that is refused hides those behind it. -/
theorem parseChildren_cons (limits : Limits) (depth : Nat) (path : Path) (i : Nat)
    (d : Document) (rest : List Document) :
    parseChildren limits depth path i (d :: rest)
      = (parseNode limits depth (path.index i) d).bind fun n =>
          (parseChildren limits depth path (i + 1) rest).map (n :: ·) := by
  rw [parseChildren]
  cases parseNode limits depth (path.index i) d <;> rfl

/-- A combinator around one node has the tree of that node as its only child. -/
theorem parseCombinator_singleton {limits : Limits} {depth : Nat} (h : depth < limits.maxDepth)
    (k : Combinator) (path : Path) (d : Document) :
    parseCombinator limits depth k path (.array [d])
      = (parseNode limits (depth + 1) (path.index 0) d).map fun n => .combinator k [n] path := by
  rw [parseCombinator.eq_def, if_neg (Nat.not_le.mpr h)]
  dsimp only
  rw [parseChildren_cons]
  cases parseNode limits (depth + 1) (path.index 0) d <;> rfl

/-- The filter tree of a document. -/
def parse (limits : Limits) (d : Document) : Except Error Node := parseNode limits 0 .root d

end RecordFilter.Filter
