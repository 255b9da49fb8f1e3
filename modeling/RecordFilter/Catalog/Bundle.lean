import RecordFilter.Catalog.Entity
import Std.Data.TreeMap

/-! # Schema bundles and resolution

    A bundle holds entities under their names; adding an entity replaces the
    one that has its name.  A resolver answers which type a field of an entity
    has.  A bundle resolves the fields of all its entities, and an entity
    alone resolves its own. -/

namespace RecordFilter

/-- Entities under their names. -/
structure Bundle where
  entities : Std.TreeMap String Entity := ∅

namespace Bundle

/-- Adds an entity under its name. -/
def add (b : Bundle) (e : Entity) : Bundle := ⟨b.entities.insert e.name e⟩

/-- The entity of a name. -/
def entity? (b : Bundle) (name : String) : Option Entity := b.entities[name]?

/-- The names of the entities, in increasing order. -/
def names (b : Bundle) : List String := b.entities.keys

/-- The entities, in increasing order of their names. -/
def toList (b : Bundle) : List (String × Entity) := b.entities.toList

/-- The bundle of entities that are added one by one. -/
def ofList (es : List Entity) : Bundle := es.foldl add {}

end Bundle

/-- Why a field cannot be resolved. -/
inductive ResolveError where
  | unknownEntity (entity : String)
  | unknownField (entity field : String)
deriving DecidableEq, Repr

/-- The wording of a resolve error. -/
def ResolveError.message : ResolveError → String
  | .unknownEntity entity => "unknown entity '" ++ entity ++ "'"
  | .unknownField entity field =>
      "unknown field '" ++ field ++ "' on entity '" ++ entity ++ "'"

/-- The type of a field of an entity, or why there is none. -/
abbrev Resolver := (entity field : String) → Except ResolveError FieldType

/-- An entity resolves its own fields. -/
def Entity.resolver (e : Entity) : Resolver := fun entity field =>
  if entity = e.name then
    match e.fieldType? field with
    | some t => .ok t
    | none => .error (.unknownField entity field)
  else .error (.unknownEntity entity)

/-- A bundle resolves the fields of the entity that it holds under a name. -/
def Bundle.resolver (b : Bundle) : Resolver := fun entity field =>
  match b.entity? entity with
  | some e => e.resolver entity field
  | none => .error (.unknownEntity entity)

end RecordFilter
