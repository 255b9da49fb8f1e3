import RecordFilter.Predicate.Basic
import RecordFilter.Value.Form

/-! # Predicates in JSON

    A predicate is written as an object whose only key says what it is: a
    comparison, a set or a question of absence with its field and its values,
    or a combinator with the list of its children. -/

namespace RecordFilter.Predicate

open Json

/-- What a key of the JSON form stands for. -/
inductive Variant where
  | comparison (c : Comparison)
  | membership (negated : Bool)
  | absence (negated : Bool)
  | compound (k : Combinator)
deriving DecidableEq, Repr

namespace Variant

/-- Every variant, in the order in which messages list them. -/
def all : List Variant :=
  [.comparison .eq, .comparison .ne, .comparison .lt, .comparison .le, .comparison .gt,
    .comparison .ge, .membership false, .membership true, .absence false, .absence true,
    .compound .and, .compound .or]

/-- The key of a variant. -/
def key : Variant → String
  | .comparison .eq => "eq"
  | .comparison .ne => "ne"
  | .comparison .lt => "lt"
  | .comparison .le => "le"
  | .comparison .gt => "gt"
  | .comparison .ge => "ge"
  | .membership false => "in"
  | .membership true => "not_in"
  | .absence false => "is_null"
  | .absence true => "is_not_null"
  | .compound .and => "and"
  | .compound .or => "or"

/-- The name of a variant in messages. -/
def name : Variant → String
  | .comparison .eq => "Eq"
  | .comparison .ne => "Ne"
  | .comparison .lt => "Lt"
  | .comparison .le => "Le"
  | .comparison .gt => "Gt"
  | .comparison .ge => "Ge"
  | .membership false => "In"
  | .membership true => "NotIn"
  | .absence false => "IsNull"
  | .absence true => "IsNotNull"
  | .compound .and => "And"
  | .compound .or => "Or"

/-- The variants under their keys. -/
def table : List (String × Variant) := all.map fun v => (v.key, v)

/-- What messages call the content of a leaf. -/
def formName (v : Variant) : String := "struct variant Predicate::" ++ v.name

end Variant

mutual

/-- The JSON form of a predicate. -/
def toDocument : Predicate → Document
  | .comparison c field value =>
      .object [((Variant.comparison c).key,
        .object [("field", .string field), ("value", value.toDocument)])]
  | .membership negated field values =>
      .object [((Variant.membership negated).key,
        .object [("field", .string field), ("values", .array (values.map Value.toDocument))])]
  | .absence negated field =>
      .object [((Variant.absence negated).key, .object [("field", .string field)])]
  | .compound k children =>
      .object [((Variant.compound k).key, .array (toDocuments children))]

/-- The JSON forms of predicates. -/
def toDocuments : List Predicate → List Document
  | [] => []
  | p :: rest => p.toDocument :: toDocuments rest

end

/-- The compact JSON text of a predicate. -/
def toText (p : Predicate) : String := p.toDocument.print

/-- Reads the content of a comparison. -/
def comparisonForm (c : Comparison) : Form Predicate :=
  (twoFields (Variant.comparison c).formName "field" stringForm "value" Value.form
    (Predicate.comparison c)).read

/-- Reads the content of a set. -/
def membershipForm (negated : Bool) : Form Predicate :=
  (twoFields (Variant.membership negated).formName "field" stringForm "values"
    (sequenceForm Value.form) (Predicate.membership negated)).read

/-- Reads the content of a question of absence. -/
def absenceForm (negated : Bool) : Form Predicate :=
  (oneField (Variant.absence negated).formName "field" stringForm
    (Predicate.absence negated)).read

/-- The error of a variant that is written as its name alone. -/
def bareName (name : String) : Except Error Predicate := do
  match ← variantName Variant.table name with
  | .compound _ => failed (.invalidType .bareVariant "newtype variant")
  | _ => failed (.invalidType .bareVariant "struct variant")

mutual

/-- Reads a predicate. -/
def form (room : Room) : Reading → Except Error Predicate
  | .object ((label, content) :: rest) ending => do
      let room ← ofFault room.enter
      let name ← ofFault label
      let variant ← variantName Variant.table name
      let p ←
        match variant with
        | .comparison c => comparisonForm c room content
        | .membership negated => membershipForm negated room content
        | .absence negated => absenceForm negated room content
        | .compound k => (children room content).map (Predicate.compound k)
      endOfVariant rest ending
      pure p
  | .object [] ending => do
      let _ ← ofFault room.enter
      noVariant ending
  | .string s => (ofFault s).bind bareName
  | r => notVariant r

/-- Reads the children of a node. -/
def children (room : Room) : Reading → Except Error (List Predicate)
  | .array items ending => do
      let room ← ofFault room.enter
      let ps ← forms room items
      ofFault ending.read
      pure ps
  | r => wrongType r "a sequence"

/-- Reads predicates one by one. -/
def forms (room : Room) : List Reading → Except Error (List Predicate)
  | [] => .ok []
  | r :: rest => do
      let p ← form room r
      let ps ← forms room rest
      pure (p :: ps)

end

/-- Reads the text of a predicate. -/
def ofText (text : String) : Except Error Predicate :=
  (readText text).decode fun r => form .usual r

end RecordFilter.Predicate
