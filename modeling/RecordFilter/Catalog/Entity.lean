import RecordFilter.FieldType

/-! # Entities

    An entity declares fields with their types.  The names of its fields
    should be distinct; `Entity.validate` finds the first name that comes
    again, and looking a name up gives the first field that has it. -/

namespace RecordFilter

/-- A declared field. -/
structure Field where
  name : String
  type : FieldType
deriving DecidableEq, Repr

/-- A named list of fields. -/
structure Entity where
  name : String
  fields : List Field := []
deriving DecidableEq, Repr

/-- Why a schema is refused. -/
inductive SchemaFault where
  | repeatedField (field entity : String)
  | wrongKey (key entity : String)
deriving DecidableEq, Repr

/-- The wording of a schema fault. -/
def SchemaFault.message : SchemaFault → String
  | .repeatedField field entity =>
      "invalid schema: duplicate field '" ++ field ++ "' in entity '" ++ entity ++ "'"
  | .wrongKey key entity =>
      "invalid schema: entity key '" ++ key ++ "' does not match entity name '" ++ entity ++ "'"

namespace Entity

/-- Declares one more field. -/
def addField (e : Entity) (name : String) (type : FieldType) : Entity :=
  { e with fields := e.fields ++ [⟨name, type⟩] }

/-- Declares more fields. -/
def addFields (e : Entity) (fields : List Field) : Entity :=
  { e with fields := e.fields ++ fields }

/-- The names of the fields, in order. -/
def fieldNames (e : Entity) : List String := e.fields.map Field.name

/-- The first field of a name. -/
def getField? (e : Entity) (name : String) : Option Field :=
  e.fields.find? fun f => f.name == name

/-- The type of the first field of a name. -/
def fieldType? (e : Entity) (name : String) : Option FieldType :=
  (e.getField? name).map Field.type

/-- The first name of a list that stands in front of its place already, or is
    one of `seen`. -/
def firstRepeated? (seen : List String) : List String → Option String
  | [] => none
  | name :: rest =>
      if name ∈ seen then some name else firstRepeated? (name :: seen) rest

/-- Checks that no two fields have the same name. -/
def validate (e : Entity) : Except SchemaFault Unit :=
  match firstRepeated? [] e.fieldNames with
  | none => .ok ()
  | some field => .error (.repeatedField field e.name)

end Entity

end RecordFilter
