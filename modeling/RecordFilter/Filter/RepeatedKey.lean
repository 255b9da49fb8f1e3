import RecordFilter.Filter.Error
import RecordFilter.Json.Document

/-! # Repeated keys

    An object of a filter document must not repeat a key, wherever it stands.
    The first repetition in reading order is the error, at the place of the
    object that repeats the key; the wording depends on what that object is in
    the filter. -/

namespace RecordFilter.Filter

open Json

/-- What a JSON value is in a filter document. -/
inductive Role where
  | node
  | conditions
  | operators
  | other
deriving DecidableEq, Repr

namespace Role

/-- The role of the value under a key. -/
def ofEntry (role : Role) (key : String) : Role :=
  match role with
  | .node => if (Combinator.ofKeyword? key).isSome then .conditions else .operators
  | _ => .other

/-- The role of an item. -/
def ofItem : Role → Role
  | .conditions => .node
  | _ => .other

/-- The problem of an object that repeats a key. -/
def problem (role : Role) (key : String) : Problem :=
  match role with
  | .node => .severalPredicates
  | .operators => .severalOperators
  | _ => .repeatedKey key

end Role

mutual

/-- The first repetition of a key in a value. -/
def repetition? (role : Role) (path : Path) : Document → Option Error
  | .array items => repetitionInItems? role path 0 items
  | .object entries => repetitionInEntries? role path [] entries
  | _ => none

/-- The first repetition in the items of an array, from an index on. -/
def repetitionInItems? (role : Role) (path : Path) (i : Nat) : List Document → Option Error
  | [] => none
  | d :: rest =>
      (repetition? role.ofItem (path.index i) d).or (repetitionInItems? role path (i + 1) rest)

/-- The first repetition in the entries of an object, behind those with the
    given keys. -/
def repetitionInEntries? (role : Role) (path : Path) (seen : List String) :
    List (String × Document) → Option Error
  | [] => none
  | (key, d) :: rest =>
      if key ∈ seen then some ⟨role.problem key, path⟩
      else
        (repetition? (role.ofEntry key) (path.key key) d).or
          (repetitionInEntries? role path (key :: seen) rest)

end

/-- The first repetition of a key in a filter document. -/
def firstRepetition? (d : Document) : Option Error := repetition? .node .root d

end RecordFilter.Filter
