import RecordFilter.Value.Basic
import Std.Data.HashMap
import Std.Data.TreeMap

/-! # Records

    A record answers which value a field has, if any; that is all a predicate
    can ask of it.  Rows and maps of values are records.  A row that repeats a
    name answers with the first of its values, and a map with the last one that
    was put into it. -/

namespace RecordFilter

/-- Something with named fields. -/
structure Record where
  field? : String → Option Value

/-- Names with values, in order. -/
abbrev Row := List (String × Value)

namespace Record

/-- The record of a row. -/
def ofRow (row : Row) : Record := ⟨fun name => row.lookup name⟩

/-- The record of an array of entries, which is read as a row. -/
def ofArray (entries : Array (String × Value)) : Record := ofRow entries.toList

/-- The record of a hash map. -/
def ofHashMap (values : Std.HashMap String Value) : Record := ⟨fun name => values[name]?⟩

/-- The record of an ordered map. -/
def ofTreeMap (values : Std.TreeMap String Value) : Record := ⟨fun name => values[name]?⟩

/-- What refers to a record asks that record. -/
def reference (r : Record) : Record := ⟨fun name => r.field? name⟩

end Record

namespace Row

/-- A hash map of the row; a later value of a name replaces an earlier one. -/
def toHashMap (row : Row) : Std.HashMap String Value :=
  row.foldl (fun values entry => values.insert entry.1 entry.2) ∅

/-- An ordered map of the row; a later value of a name replaces an earlier one. -/
def toTreeMap (row : Row) : Std.TreeMap String Value :=
  row.foldl (fun values entry => values.insert entry.1 entry.2) ∅

end Row

/-- What a row can be put into. -/
inductive Container where
  | list
  | array
  | hashMap
  | treeMap
  | reference (c : Container)
deriving DecidableEq, Repr

/-- The record of a row in a container. -/
def Container.record : Container → Row → Record
  | .list, row => .ofRow row
  | .array, row => .ofArray row.toArray
  | .hashMap, row => .ofHashMap row.toHashMap
  | .treeMap, row => .ofTreeMap row.toTreeMap
  | .reference c, row => (c.record row).reference

end RecordFilter
