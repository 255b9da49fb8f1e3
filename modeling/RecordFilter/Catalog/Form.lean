import RecordFilter.Catalog.Bundle
import RecordFilter.Json.Form

/-! # Schemas in JSON

    A bundle is written as an object with its entities under their names, an
    entity as its name and the list of its fields, and a field as its name and
    its type.  A text is read in two steps: first its form, where of two
    entities under one key the later one stays, then what a schema promises:
    every entity stands under its own name, and its fields have distinct
    names. -/

namespace RecordFilter

open Json

/-- The field types under their names. -/
def FieldType.table : List (String × FieldType) := FieldType.all.map fun t => (t.name, t)

/-- Reads a field type. -/
def FieldType.form : Form FieldType := bareVariantForm FieldType.table

/-- Reads the text of a field type. -/
def FieldType.ofText (text : String) : Except Json.Error FieldType :=
  (readText text).decode fun r => FieldType.form .usual r

/-- The JSON form of a field. -/
def Field.toDocument (f : Field) : Document :=
  .object [("name", .string f.name), ("type", .string f.type.name)]

/-- Reads a field. -/
def Field.form : Form Field :=
  (twoFields "struct FieldDef" "name" stringForm "type" FieldType.form Field.mk).read

/-- The JSON form of an entity. -/
def Entity.toDocument (e : Entity) : Document :=
  .object [("name", .string e.name), ("fields", .array (e.fields.map Field.toDocument))]

/-- Reads an entity. -/
def Entity.form : Form Entity :=
  (twoFields "struct EntityDef" "name" stringForm "fields" (sequenceForm Field.form)
    Entity.mk).read

/-- Why a schema text is refused. -/
inductive SchemaError where
  | json (reason : Json.Error)
  | invalid (reason : SchemaFault)
deriving DecidableEq, Repr

/-- The wording of a schema error. -/
def SchemaError.message : SchemaError → String
  | .json reason => "schema parse error: " ++ reason.message
  | .invalid reason => reason.message

namespace Bundle

/-- The JSON form of a bundle. -/
def toDocument (b : Bundle) : Document :=
  .object [("entities", .object (b.toList.map fun entry => (entry.1, entry.2.toDocument)))]

/-- The compact JSON text of a bundle. -/
def toText (b : Bundle) : String := b.toDocument.print

/-- Puts one entity more under the key that it is written with. -/
def entityField (room : Room) (entities : Std.TreeMap String Entity) (key : String)
    (r : Reading) : Except Json.Error (Std.TreeMap String Entity) :=
  (Entity.form room r).map fun e => entities.insert key e

/-- Reads the entities of a bundle. -/
def entitiesForm : Form (Std.TreeMap String Entity)
  | room, .object entries ending => do
      let room ← ofFault room.enter
      let entities ← readFields entityField room ∅ entries
      ofFault ending.read
      pure entities
  | _, r => wrongType r "a map"

/-- How a bundle is read; one without entities need not say so. -/
def record : RecordForm (Option (Std.TreeMap String Entity)) Bundle where
  expected := "struct SchemaBundle"
  start := none
  field room state key r :=
    if key = "entities" then readOnce key entitiesForm room state r
    else (passOver r).map fun _ => state
  finish state := .ok ⟨state.getD ∅⟩
  items room items ending :=
    match items with
    | [] => (ofFault ending.read).map fun _ => ({}, [])
    | r :: rest => (entitiesForm room r).map fun entities => (⟨entities⟩, rest)

/-- Reads the form of a bundle. -/
def form : Form Bundle := record.read

/-- Checks what a schema promises. -/
def validate (b : Bundle) : Except SchemaFault Unit :=
  match b.toList.find? fun entry => entry.1 != entry.2.name with
  | some (key, e) => .error (.wrongKey key e.name)
  | none => b.toList.forM fun entry => entry.2.validate

/-- Reads a schema text. -/
def ofText (text : String) : Except SchemaError Bundle :=
  match (readText text).decode fun r => form .usual r with
  | .error reason => .error (.json reason)
  | .ok b =>
      match b.validate with
      | .error reason => .error (.invalid reason)
      | .ok () => .ok b

end Bundle

end RecordFilter
