import Mathlib.Data.List.Perm.Basic
import RecordFilter.Record

/-! # The containers of a row

    A list, and an array, answer for a name with its first entry, and a map of either kind with
    its last one, which is the first one of the reversed row (`record_field?`).  Where the names
    are distinct a name has one entry only, so it is found in whatever container the row and
    its permutations are put into (`record_eq_of_perm`). -/

namespace RecordFilter

namespace Row

/-! ## Looking names up -/

/-- Where names are distinct, the values that are found are those of the entries. -/
theorem lookup_eq_some_iff_mem {α : Type} {row : List (String × α)}
    (h : (row.map Prod.fst).Nodup) {name : String} {v : α} :
    row.lookup name = some v ↔ (name, v) ∈ row := by
  rw [List.lookup_eq_some_iff]
  constructor
  · rintro ⟨before, after, rfl, -⟩
    exact List.mem_append_right before (List.mem_cons_self ..)
  · intro hmem
    obtain ⟨before, after, rfl⟩ := List.append_of_mem hmem
    refine ⟨before, after, rfl, fun entry hentry => bne_iff_ne.mpr ?_⟩
    -- an entry in front with the same name would be a second one
    rw [List.map_append, List.nodup_append] at h
    exact (h.2.2 entry.1 (List.mem_map_of_mem hentry) name (List.mem_cons_self ..)).symm

/-- The order of entries counts for nothing where names are distinct. -/
theorem lookup_eq_of_perm {row row' : Row} (h : (row.map Prod.fst).Nodup) (hperm : row'.Perm row)
    (name : String) : row'.lookup name = row.lookup name := by
  have h' : (row'.map Prod.fst).Nodup := (hperm.map Prod.fst).nodup_iff.mpr h
  refine Option.ext fun v => ?_
  rw [lookup_eq_some_iff_mem h', lookup_eq_some_iff_mem h, hperm.mem_iff]

/-- **THE LAST ENTRY STAYS**: what a store has under a name after entries were put into it one
    by one is the last one of the name, or else what it had before. -/
theorem find_foldl {α Store : Type} (put : Store → String → α → Store)
    (find : Store → String → Option α)
    (hput : ∀ s key v name, find (put s key v) name = if key = name then some v else find s name)
    (row : List (String × α)) (s : Store) (name : String) :
    find (row.foldl (fun s entry => put s entry.1 entry.2) s) name
      = (row.reverse.lookup name).or (find s name) := by
  induction row generalizing s with
  | nil => rfl
  | cons entry row ih =>
      obtain ⟨key, v⟩ := entry
      rw [List.foldl_cons, ih, List.reverse_cons, List.lookup_append, Option.or_assoc, hput]
      refine congrArg ((row.reverse.lookup name).or ·) ?_
      by_cases hkey : key = name
      · subst hkey
        rw [if_pos rfl, List.lookup_cons_self, Option.some_or]
      · rw [if_neg hkey, List.lookup_cons, beq_false_of_ne (Ne.symm hkey), List.lookup_nil,
          Option.none_or]

theorem getElem?_toHashMap (row : Row) (name : String) :
    row.toHashMap[name]? = row.reverse.lookup name := by
  have hput : ∀ (m : Std.HashMap String Value) key v name,
      (m.insert key v)[name]? = if key = name then some v else m[name]? := by
    intro m key v name
    simp only [Std.HashMap.getElem?_insert, beq_iff_eq]
  rw [toHashMap, find_foldl Std.HashMap.insert (·[·]?) hput, Std.HashMap.getElem?_empty,
    Option.or_none]

theorem getElem?_toTreeMap (row : Row) (name : String) :
    row.toTreeMap[name]? = row.reverse.lookup name := by
  have hput : ∀ (m : Std.TreeMap String Value) key v name,
      (m.insert key v)[name]? = if key = name then some v else m[name]? := by
    intro m key v name
    simp only [Std.TreeMap.getElem?_insert, Std.compare_eq_iff_eq]
  rw [toTreeMap, find_foldl Std.TreeMap.insert (·[·]?) hput, Std.TreeMap.getElem?_emptyc,
    Option.or_none]

end Row

namespace Container

/-! ## Records -/

/-- The container is a map, or refers to one. -/
def isMap : Container → Bool
  | .list | .array => false
  | .hashMap | .treeMap => true
  | .reference c => c.isMap

/-- **WHAT CONTAINERS ANSWER**: the first entry of a name, in a map that of the reversed row. -/
theorem record_field? (c : Container) (row : Row) (name : String) :
    (c.record row).field? name = (if c.isMap then row.reverse else row).lookup name := by
  induction c with
  | list => rfl
  | array => rfl
  | hashMap => exact row.getElem?_toHashMap name
  | treeMap => exact row.getElem?_toTreeMap name
  | reference c ih => exact ih

/-- Rows with distinct names are one record in all containers and in any order. -/
theorem record_eq_of_perm {row row' : Row} (h : (row.map Prod.fst).Nodup)
    (hperm : row'.Perm row) (c c' : Container) : c'.record row' = c.record row := by
  have hlookup : ∀ (c : Container) {row' : Row}, row'.Perm row → ∀ name,
      (c.record row').field? name = row.lookup name := by
    intro c row' hperm name
    rw [record_field?]
    cases c.isMap with
    | false => exact Row.lookup_eq_of_perm h hperm name
    | true => exact Row.lookup_eq_of_perm h (row'.reverse_perm.trans hperm) name
  refine congrArg Record.mk (funext fun name => ?_)
  exact (hlookup c' hperm name).trans (hlookup c (.refl row) name).symm

/-- A list of entries is the map of its reverse, also where names are repeated. -/
theorem record_reverse (row : Row) {c c' : Container} (h : c.isMap = false)
    (h' : c'.isMap = true) : c'.record row.reverse = c.record row := by
  refine congrArg Record.mk (funext fun name => ?_)
  rw [record_field?, record_field?, h, h', if_pos rfl, if_neg Bool.false_ne_true,
    List.reverse_reverse]

end Container

end RecordFilter
