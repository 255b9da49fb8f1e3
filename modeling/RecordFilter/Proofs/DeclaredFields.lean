import RecordFilter.Proofs.DeclaredEntities
import RecordFilter.Proofs.ReferencedFields
import RecordFilter.Proofs.Rereading

/-! # Filtering by declared fields

    A schema may declare a field under any name, as long as no other field of the entity has
    it.  A filter document names a field by a key, and two keys are taken: what stands under
    `AND` and `OR` are the conditions of a combinator, whatever the entity declares.

    A leaf is written for a value by its literal text, so what it becomes rests on the text
    being read back (`Value.exists_reread`).  Every declared field has such leaves, with every
    operator that suits its type, but for the fields under the two keywords: no predicate that
    is compiled refers to these (`name_ne_keyword_of_referenced`). -/

namespace RecordFilter

open Json

/-! ## Accepted schemas -/

namespace Bundle

/-- Printed entries under their names are accepted, if no field of an entity comes twice. -/
theorem ofText_print {entries : List (String × Entity)}
    (hname : ∀ entry ∈ entries, entry.2.name = entry.1)
    (hfields : ∀ entry ∈ entries, entry.2.fieldNames.Nodup) :
    ofText (documentOf entries).print = .ok (ofEntries entries) := by
  have hmem : ∀ key e, (ofEntries entries).entity? key = some e → (key, e) ∈ entries := by
    intro key e he
    rw [entity?_ofEntries] at he
    obtain ⟨before, after, hentries, -⟩ := List.lookup_eq_some_iff.mp he
    refine List.mem_reverse.mp ?_
    rw [hentries]
    exact List.mem_append_right before (List.mem_cons_self ..)
  refine ofText_eq_ok_iff_declared.mpr ⟨entries, declared_print entries, rfl, ?_, ?_⟩
  · intro key e he
    exact hname (key, e) (hmem key e he)
  · intro key e he
    exact hfields (key, e) (hmem key e he)

/-- A declared field has its type for the bundle and for the entity alone. -/
theorem resolves_of_declared {text key : String} {b : Bundle} {e : Entity} {f : Field}
    (hb : ofText text = .ok b) (he : (key, e) ∈ b.toList) (hf : f ∈ e.fields) :
    b.resolver e.name f.name = .ok f.type ∧ e.resolver e.name f.name = .ok f.type := by
  obtain ⟨hkeys, hdistinct⟩ := validate_eq_ok_iff.mp (ofText_eq_ok_iff.mp hb).2
  have hentity := mem_toList.mp he
  obtain rfl : e.name = key := hkeys key e hentity
  have htype : e.fieldType? f.name = some f.type :=
    (e.fieldType?_eq_some_iff (hdistinct e.name e hentity)).mpr hf
  have hresolve : e.resolver e.name f.name = .ok f.type :=
    Entity.resolver_eq_ok_iff.mpr ⟨rfl, htype⟩
  exact ⟨(resolver_eq_of_entity? hentity f.name).trans hresolve, hresolve⟩

end Bundle

namespace Filter

/-! ## Leaves that are written for a value -/

namespace Operator

/-- A text as the operand, alone in an array if the operator takes a set. -/
def written (s : String) : Operator → Document
  | .compare _ => .string s
  | .member _ => .array [.string s]

/-- The operand that a written text is parsed as. -/
def operand (s : String) : Operator → Operand
  | .compare _ => .scalar (.text s)
  | .member _ => .set [.text s]

/-- The condition of the operator with one value. -/
def condition (field : String) (v : Value) : Operator → Predicate
  | .compare c => .comparison c field v
  | .member negated => .membership negated field [v]

end Operator

/-- The filter document with one leaf: a field, an operator and a text as its operand. -/
def leafDocument (field : String) (op : Operator) (s : String) : Document :=
  .object [(field, .object [(op.token, op.written s)])]

/-- The field can be filtered by the value: the leaf that has its literal text compiles to the
    condition with this value. -/
def FiltersBy (c : Compiler) (op : Operator) (field : String) (v : Value) : Prop :=
  ∃ w, c.compileDocument (leafDocument field op v.literalText) = .ok (op.condition field w)
    ∧ v.same w = true

theorem parseOperand_written {limits : Limits} (h : 1 ≤ limits.maxSetLength) (op : Operator)
    (s : String) (path : Path) :
    parseOperand limits op path (op.written s) = .ok (op.operand s) := by
  cases op with
  | compare c => rfl
  | member negated =>
      show (if limits.maxSetLength < 1 then _ else _) = _
      rw [if_neg (Nat.not_lt.mpr h)]
      rfl

theorem parse_leafDocument {limits : Limits} {field : String} (hand : field ≠ "AND")
    (hor : field ≠ "OR") (h : 1 ≤ limits.maxSetLength) (op : Operator) (s : String) :
    parse limits (leafDocument field op s)
      = .ok (.leaf field op (op.operand s) ((Path.root.key field).key op.token)) := by
  rw [parse, leafDocument, parseNode, ofKeyword?_eq_none.mpr ⟨hand, hor⟩]
  dsimp only
  rw [parseLeaf, Operator.ofToken?_token]
  dsimp only
  rw [parseOperand_written h]
  rfl

theorem expresses_written {t : FieldType} {s : String} {v : Value}
    (h : t.coerceText s = .ok v) (field : String) (op : Operator) :
    Expresses t field op (op.operand s) (op.condition field v) := by
  cases op with
  | compare c => exact .comparison h
  | member negated => exact .membership (List.cons_ne_nil _ _) (.cons h .nil)

/-- A leaf of a known field becomes the condition with the value that its text is read as. -/
theorem compileDocument_leafDocument {c : Compiler} {field : String} {t : FieldType}
    {op : Operator} {s : String} {v : Value} (hand : field ≠ "AND") (hor : field ≠ "OR")
    (hset : 1 ≤ c.limits.maxSetLength) (ht : c.resolver c.entity field = .ok t)
    (hsuits : op.isOrdering = true → t.isOrderable = true) (hs : t.coerceText s = .ok v) :
    c.compileDocument (leafDocument field op s) = .ok (op.condition field v) := by
  obtain ⟨-, hbuild⟩ := compileDocument_of_parse_ok (parse_leafDocument hand hor hset op s)
  rw [hbuild, build]
  exact leafCondition_of_expresses ht hsuits (expresses_written hs field op) _

/-! ## Keywords -/

/-- No leaf of a filter document is about a field whose name is a keyword. -/
theorem ne_keyword_of_filtersOn {d : Document} {field : String} (h : FiltersOn d field) :
    field ≠ "AND" ∧ field ≠ "OR" := by
  induction h with
  | leaf hand hor => exact ⟨hand, hor⟩
  | inside _ _ _ ih => exact ih

/-- **NO PREDICATE REFERS TO A KEYWORD**, if it is compiled from a document. -/
theorem name_ne_keyword_of_referenced {c : Compiler} {d : Document} {p : Predicate}
    {field : String} (h : c.compileDocument d = .ok p) (hfield : field ∈ p.referencedFields) :
    field ≠ "AND" ∧ field ≠ "OR" := by
  obtain ⟨n, hn, hbuild⟩ := exists_of_compileDocument_ok h
  exact ne_keyword_of_filtersOn (((refersTo_of_parse_ok hn hbuild).exactly field).mp hfield)

theorem mem_referencedFields_condition (op : Operator) (field : String) (v : Value) :
    field ∈ (op.condition field v).referencedFields := by
  cases op with
  | compare c => exact List.mem_singleton_self field
  | member negated => exact List.mem_singleton_self field

/-- A keyword asks for an array, so an object with an operator is refused. -/
theorem compileDocument_keyword {c : Compiler} {k : Combinator} {d : Document}
    (hdepth : 1 ≤ c.limits.maxDepth) (hd : ∀ items, d ≠ .array items) :
    c.compileDocument (.object [(k.keyword, d)])
      = refuse (.conditionsNotArray k) (Path.root.key k.keyword) := by
  refine compileDocument_of_parse_error ?_
  rw [parse, parseNode, Combinator.ofKeyword?_keyword]
  exact parseCombinator_of_ne_array hdepth hd

/-! ## Declared fields -/

/-- **DECLARED FIELDS CAN BE FILTERED BY, UNLESS THEY ARE KEYWORDS**: for every entity of an
    accepted schema and every field of it, a leaf with the literal text of a value that was
    coerced to the type of the field compiles to the condition on the field with this value,
    exactly if the field is not named `AND` or `OR`.  This holds for every operator that suits
    the type, so for `eq`, `!eq`, `in` and `!in` whatever the type is.  Under the name of one of
    these two fields anything but an array is refused, and nothing that compiles refers to it. -/
theorem declared_fields_can_be_filtered {text key : String} {b : Bundle} {e : Entity} {f : Field}
    (c : Compiler) (hb : Bundle.ofText text = .ok b) (he : (key, e) ∈ b.toList)
    (hf : f ∈ e.fields) (hentity : c.entity = e.name)
    (hresolver : c.resolver = b.resolver ∨ c.resolver = e.resolver)
    (hdepth : 1 ≤ c.limits.maxDepth) (hset : 1 ≤ c.limits.maxSetLength) :
    (∀ (op : Operator) (x : String) (v : Value), f.type ≠ .float →
        (op.isOrdering = true → f.type.isOrderable = true) → f.type.coerceText x = .ok v →
          (FiltersBy c op f.name v ↔ f.name ≠ "AND" ∧ f.name ≠ "OR"))
      ∧ ∀ k : Combinator, f.name = k.keyword →
        (∀ d, (∀ items, d ≠ .array items) →
          c.compileDocument (.object [(f.name, d)])
            = refuse (.conditionsNotArray k) (Path.root.key f.name))
        ∧ ∀ d p, c.compileDocument d = .ok p → f.name ∉ p.referencedFields := by
  have htype : c.resolver c.entity f.name = .ok f.type := by
    obtain ⟨hbundle, halone⟩ := Bundle.resolves_of_declared hb he hf
    rw [hentity]
    -- the bundle and the entity resolve the field alike
    rcases hresolver with h | h
    · rw [h, hbundle]
    · rw [h, halone]
  constructor
  · intro op x v hfloat hsuits hv
    constructor
    · rintro ⟨w, hcompiles, -⟩
      exact name_ne_keyword_of_referenced hcompiles (mem_referencedFields_condition op f.name w)
    · rintro ⟨hand, hor⟩
      -- the text of the value is read back as the value
      have hkind := (FieldType.of_coerceText_ok hv).1
      obtain ⟨w, hw⟩ := Value.exists_reread (v := v) (by rwa [hkind])
      have hread : f.type.coerceText v.literalText = .ok w := hkind ▸ hw.read
      refine ⟨w, compileDocument_leafDocument hand hor hset htype hsuits hread, ?_⟩
      exact hw.same_iff.mpr (Value.isWhole_of_coerceText_ok hv)
  · intro k hk
    rw [hk]
    refine ⟨fun d hd => compileDocument_keyword hdepth hd, ?_⟩
    intro d p hp hmem
    obtain ⟨hand, hor⟩ := name_ne_keyword_of_referenced hp hmem
    rcases keyword_eq k with hkeyword | hkeyword
    · exact hand hkeyword
    · exact hor hkeyword

/-- Of the fields of one type in an accepted schema, the empty name and a keyword in small
    letters are like others, and the one in capitals is lost. -/
theorem declared_fields_can_be_filtered_by_decimals :
    let bill : Entity := ⟨"Bill", [⟨"", .decimal⟩, ⟨"and", .date⟩, ⟨"OR", .decimal⟩]⟩
    let text := (Bundle.documentOf [("Bill", bill)]).print
    let c : Compiler := ⟨bill.resolver, "Bill", { maxDepth := 1, maxSetLength := 1 }⟩
    let sum : Value := .decimal { unscaled := 100, scale := -15 }
    let day : Value := .date { year := 2024, month := 2, day := 29 }
    (∃ b, Bundle.ofText text = .ok b ∧ ("Bill", bill) ∈ b.toList)
      ∧ FieldType.decimal.coerceText "100e15" = .ok sum
      ∧ FieldType.date.coerceText "2024-02-29" = .ok day
      ∧ FiltersBy c (.compare .gt) "" sum ∧ FiltersBy c (.member true) "and" day
      ∧ ¬ FiltersBy c (.member false) "OR" sum
      ∧ c.compileDocument (leafDocument "OR" (.compare .eq) "1")
        = refuse (.conditionsNotArray .or) (Path.root.key "OR") := by
  intro bill text c sum day
  have hb : Bundle.ofText text = .ok (.ofEntries [("Bill", bill)]) := by
    refine Bundle.ofText_print ?_ ?_
    · simp [bill]
    · simp [bill, Entity.fieldNames]
  have he : ("Bill", bill) ∈ (Bundle.ofEntries [("Bill", bill)]).toList :=
    Bundle.mem_toList_ofEntries (by simp) (List.mem_singleton_self _)
  have hsum : FieldType.decimal.coerceText "100e15" = .ok sum := rfl
  have hday : FieldType.date.coerceText "2024-02-29" = .ok day := by decide +kernel
  have hfield := fun f (hf : f ∈ bill.fields) =>
    declared_fields_can_be_filtered (f := f) c hb he hf rfl (Or.inr rfl) le_rfl le_rfl
  obtain ⟨hempty, -⟩ := hfield ⟨"", .decimal⟩ (by simp [bill])
  obtain ⟨hsmall, -⟩ := hfield ⟨"and", .date⟩ (by simp [bill])
  obtain ⟨hcapital, hkeyword⟩ := hfield ⟨"OR", .decimal⟩ (by simp [bill])
  refine ⟨⟨_, hb, he⟩, hsum, hday, ?_, ?_, ?_, ?_⟩
  · exact (hempty (.compare .gt) "100e15" sum (by simp) (by simp [FieldType.isOrderable,
      FieldType.isNumeric]) hsum).mpr (by simp)
  · exact (hsmall (.member true) "2024-02-29" day (by simp) (by simp [Operator.isOrdering])
      hday).mpr (by simp)
  · intro hfilters
    exact ((hcapital (.member false) "100e15" sum (by simp) (by simp [Operator.isOrdering])
      hsum).mp hfilters).2 rfl
  · exact (hkeyword .or rfl).1 _ (by simp)

/-- A schema with a field `AND` is accepted, and a filter by this field is refused: the value
    under its name is not an array of conditions. -/
theorem keyword_fields_cannot_be_filtered :
    let gate : Entity := ⟨"P", [⟨"AND", .int32⟩]⟩
    let text := "\x7b\"entities\":\x7b\"P\":\x7b\"name\":\"P\","
      ++ "\"fields\":[\x7b\"name\":\"AND\",\"type\":\"int32\"\x7d]\x7d\x7d\x7d"
    ∃ b, Bundle.ofText text = .ok b ∧ ("P", gate) ∈ b.toList ∧ ⟨"AND", .int32⟩ ∈ gate.fields
      ∧ FieldType.int32.coerceText "1" = .ok (.int32 1)
      ∧ leafDocument "AND" (.compare .eq) (Value.int32 1).literalText
        = .object [("AND", .object [("eq", .string "1")])]
      ∧ Compiler.compileDocument ⟨b.resolver, "P", .usual⟩
          (.object [("AND", .object [("eq", .string "1")])])
        = .error ⟨.conditionsNotArray .and, Path.root.key "AND"⟩
      ∧ ¬ FiltersBy ⟨b.resolver, "P", .usual⟩ (.compare .eq) "AND" (.int32 1) := by
  intro gate text
  have hprint : (Bundle.documentOf [("P", gate)]).print = text := by decide +kernel
  have hb : Bundle.ofText text = .ok (.ofEntries [("P", gate)]) := by
    rw [← hprint]
    refine Bundle.ofText_print ?_ ?_
    · simp [gate]
    · simp [gate, Entity.fieldNames]
  have hleaf : leafDocument "AND" (.compare .eq) (Value.int32 1).literalText
      = .object [("AND", .object [("eq", .string "1")])] := by decide +kernel
  have hrefused : Compiler.compileDocument
      ⟨(Bundle.ofEntries [("P", gate)]).resolver, "P", .usual⟩
      (.object [("AND", .object [("eq", .string "1")])])
      = .error ⟨.conditionsNotArray .and, Path.root.key "AND"⟩ := rfl
  refine ⟨_, hb, ?_, List.mem_singleton_self _, by decide +kernel, hleaf, hrefused, ?_⟩
  · exact Bundle.mem_toList_ofEntries (by simp) (List.mem_singleton_self _)
  · rintro ⟨w, hcompiles, -⟩
    rw [hleaf, hrefused] at hcompiles
    cases hcompiles

end Filter

end RecordFilter
