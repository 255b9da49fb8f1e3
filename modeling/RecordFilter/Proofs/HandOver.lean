import RecordFilter.Proofs.Alignment
import RecordFilter.Proofs.EntryPoints
import RecordFilter.Proofs.NormalForm
import RecordFilter.Proofs.Rereading
import RecordFilter.Proofs.RoundTrip

/-! # Handing compiled predicates over

    A predicate is handed over as JSON, and the reader on the other side has room for 127
    brackets like the one that has read the filter.  A predicate takes two brackets for each
    of its combinators, as the filter did, but three for a comparison and four for a set,
    where the filter had two and three.  Nothing that is built is nested deeper than its filter
    (`depth_le_of_build_ok`), so all but the deepest filters make up for the difference: the
    one predicate for which there is no room is that of a set inside of 62 combinators. -/

namespace RecordFilter

namespace Predicate

open Json Document

/-! ## Depth -/

mutual

/-- How many combinators are nested in each other at most. -/
def depth : Predicate → Nat
  | .compound _ children => 1 + greatestDepth children
  | _ => 0

/-- The greatest depth of predicates. -/
def greatestDepth : List Predicate → Nat
  | [] => 0
  | p :: rest => max p.depth (greatestDepth rest)

end

/-- Predicates are no deeper than a bound if each of them is. -/
theorem greatestDepth_le_iff {b : Nat} {ps : List Predicate} :
    greatestDepth ps ≤ b ↔ ∀ p ∈ ps, p.depth ≤ b := by
  induction ps with
  | nil => exact iff_of_true (Nat.zero_le b) fun _ hp => (nomatch hp)
  | cons p ps ih => rw [greatestDepth, Nat.max_le, ih, List.forall_mem_cons]

theorem depth_le_greatestDepth {p : Predicate} {ps : List Predicate} (h : p ∈ ps) :
    p.depth ≤ greatestDepth ps := greatestDepth_le_iff.mp (Nat.le_refl _) p h

/-- What a predicate brings along is nested no deeper. -/
theorem depth_le_of_mem_parts {k : Combinator} {p q : Predicate} (h : q ∈ p.parts k) :
    q.depth ≤ p.depth := by
  rcases parts_cases k p with heq | ⟨-, hparts⟩
  · have hq := depth_le_greatestDepth h
    rw [heq, depth]
    omega
  · rw [hparts] at h
    rw [List.mem_singleton.mp h]

/-- Combining adds one combinator at most. -/
theorem depth_combine {k : Combinator} {ps : List Predicate} {p : Predicate}
    (h : combine k ps = some p) : p.depth ≤ 1 + greatestDepth ps := by
  rcases combine_cases h with rfl | ⟨first, q, qs, rfl, rfl⟩
  · rw [greatestDepth, greatestDepth]
    omega
  · rw [depth]
    -- the parts of the first predicate are no deeper than itself, so merging adds nothing
    refine Nat.add_le_add_left (greatestDepth_le_iff.mpr fun x hx => ?_) 1
    rcases List.mem_append.mp hx with hx | hx
    · exact Nat.le_trans (depth_le_of_mem_parts hx) (depth_le_greatestDepth (List.mem_cons_self ..))
    · exact depth_le_greatestDepth (List.mem_cons_of_mem _ hx)

/-! ## Brackets -/

theorem nesting_le_of_mem {α : Type} {write : α → Document} {as : List α} {a : α} (h : a ∈ as) :
    (write a).nesting ≤ nestingOfItems (as.map write) :=
  nestingOfItems_map_le_iff.mp (Nat.le_refl _) a h

/-- A set takes four brackets at most. -/
theorem nesting_membership_le {negated : Bool} {field : String} {vs : List Value}
    (hvs : ∀ v ∈ vs, v.fieldType ≠ .float) :
    (membership negated field vs).toDocument.nesting ≤ 4 := by
  rw [nesting_membership]
  exact Nat.add_le_add_right (nestingOfItems_map_le_iff.mpr fun v hv =>
    Nat.le_of_eq (Value.nesting_toDocument (hvs v hv))) 3

/-- **TWO BRACKETS FOR EACH COMBINATOR**, and four at most for a leaf. -/
theorem nesting_le_depth {p : Predicate} (hp : FloatFree p) :
    p.toDocument.nesting ≤ 2 * p.depth + 4 := by
  induction p with
  | comparison c field v =>
      rw [nesting_comparison (floatFree_comparison.mp hp)]
      omega
  | membership negated field vs =>
      exact Nat.le_trans (nesting_membership_le (floatFree_membership.mp hp))
        (Nat.le_add_left 4 _)
  | absence negated field =>
      rw [nesting_absence]
      omega
  | compound k ps ih =>
      have hitems : nestingOfItems (ps.map toDocument) ≤ 2 * greatestDepth ps + 4 := by
        refine nestingOfItems_map_le_iff.mpr fun p hmem => ?_
        have := ih p hmem (floatFree_compound.mp hp p hmem)
        have := depth_le_greatestDepth hmem
        omega
      rw [nesting_compound, depth]
      omega

/-- A set with values inside of so many combinators. -/
inductive SetInside : Nat → Predicate → Prop where
  | set {negated : Bool} {field : String} {vs : List Value} :
      vs ≠ [] → SetInside 0 (.membership negated field vs)
  | compound {n : Nat} {k : Combinator} {p : Predicate} {ps : List Predicate} :
      p ∈ ps → SetInside n p → SetInside (n + 1) (.compound k ps)

theorem le_nesting_of_setInside {p : Predicate} {n : Nat} (hp : FloatFree p)
    (h : SetInside n p) : 2 * n + 4 ≤ p.toDocument.nesting := by
  induction h with
  | @set negated field vs hvs =>
      rw [nesting_membership]
      obtain ⟨v, hv⟩ := List.exists_mem_of_ne_nil vs hvs
      have hone : v.toDocument.nesting ≤ _ := nesting_le_of_mem hv
      rw [Value.nesting_toDocument (floatFree_membership.mp hp v hv)] at hone
      omega
  | @compound n k p ps hmem _ ih =>
      rw [nesting_compound]
      have hinner := ih (floatFree_compound.mp hp p hmem)
      have houter : p.toDocument.nesting ≤ _ := nesting_le_of_mem hmem
      omega

/-- **A SET AT THE GREATEST DEPTH** is all that takes four brackets more than the combinators
    do. -/
theorem setInside_of_le_nesting {p : Predicate} (hp : FloatFree p) :
    ∀ n, p.depth ≤ n → 2 * n + 4 ≤ p.toDocument.nesting → SetInside n p := by
  induction p with
  | comparison c field v =>
      intro n _ hnesting
      rw [nesting_comparison (floatFree_comparison.mp hp)] at hnesting
      omega
  | membership negated field vs =>
      intro n _ hnesting
      have hfour : (membership negated field vs).toDocument.nesting ≤ 4 :=
        nesting_membership_le (floatFree_membership.mp hp)
      obtain rfl : n = 0 := by omega
      rw [nesting_membership] at hnesting
      refine .set ?_
      rintro rfl
      rw [List.map_nil, nestingOfItems] at hnesting
      omega
  | absence negated field =>
      intro n _ hnesting
      rw [nesting_absence] at hnesting
      omega
  | compound k ps ih =>
      intro n hdepth hnesting
      rw [depth] at hdepth
      obtain ⟨n, rfl⟩ := Nat.exists_eq_add_of_le' (Nat.le_trans (Nat.le_add_right 1 _) hdepth)
      rw [nesting_compound] at hnesting
      -- some child takes as many brackets as the node has but for its own two
      obtain ⟨p, hmem, hinner⟩ : ∃ p ∈ ps, 2 * n + 4 ≤ p.toDocument.nesting := by
        by_contra hnone
        simp only [not_exists, not_and, Nat.not_le] at hnone
        have := nestingOfItems_map_le_iff.mpr fun p hp => Nat.le_of_lt_succ (hnone p hp)
        omega
      have hinnerDepth := depth_le_greatestDepth hmem
      exact .compound hmem (ih p hmem (floatFree_compound.mp hp p hmem) n (by omega) hinner)

/-! ## Predicates that are the same -/

theorem fieldType_of_same {v w : Value} (h : v.same w = true) : v.fieldType = w.fieldType := by
  cases v <;> cases w <;> first | rfl | exact nomatch h

/-- Equal predicates have sets at the same depths. -/
theorem SetInside.of_same {p : Predicate} {n : Nat} (h : SetInside n p) {q : Predicate}
    (hpq : Aligned (fun _ v w => v.same w = true) p q) : SetInside n q := by
  induction h generalizing q with
  | set hvs =>
      cases hpq with
      | membership hvws =>
          refine .set ?_
          rintro rfl
          exact hvs (List.forall₂_nil_right_iff.mp hvws)
  | compound hmem _ ih =>
      cases hpq with
      | compound hps =>
          obtain ⟨q, hq, hpq⟩ := exists_of_forall₂_of_mem_right hps.flip hmem
          exact .compound hq (ih hpq)

/-- Of equal predicates both are free of floats, or neither. -/
theorem floatFree_of_same {p q : Predicate} (hpq : Aligned (fun _ v w => v.same w = true) p q)
    (hp : FloatFree p) : FloatFree q := by
  induction p generalizing q with
  | comparison c field v =>
      cases hpq with
      | comparison hv =>
          rw [floatFree_comparison] at hp ⊢
          rw [← fieldType_of_same hv]
          exact hp
  | membership negated field vs =>
      cases hpq with
      | membership hvs =>
          rw [floatFree_membership] at hp ⊢
          intro w hw
          obtain ⟨v, hv, hvw⟩ := exists_of_forall₂_of_mem_right hvs hw
          rw [← fieldType_of_same hvw]
          exact hp v hv
  | absence negated field =>
      cases hpq
      exact hp
  | compound k ps ih =>
      cases hpq with
      | compound hps =>
          rw [floatFree_compound] at hp ⊢
          intro q hq
          obtain ⟨p, hmem, hpq⟩ := exists_of_forall₂_of_mem_right hps hq
          exact ih p hmem hpq (hp p hmem)

/-- **WHAT CAN BE HANDED OVER**: a predicate without floating point values or leap seconds
    within a minute that is nested no deeper than 62 combinators reads back from its text, unless
    a set stands at that depth. -/
theorem readsBack_iff {p : Predicate} (hp : FloatFree p) (hinner : ¬ p.HasInnerLeap)
    (hdepth : p.depth ≤ 62) :
    (∃ q, ofText p.toText = .ok q ∧ p.same q = true) ↔ ¬ SetInside 62 p := by
  constructor
  · rintro ⟨q, hread, hsame⟩ hset
    -- what was read is nested like what was written, and no deeper than the room for it
    have hpq := aligned_of_same hsame
    have hq := floatFree_of_same hpq hp
    have hmore := le_nesting_of_setInside hq (hset.of_same hpq)
    have hless := nesting_le_of_ofText hq hread
    omega
  · intro hset
    have hnesting : p.toDocument.nesting ≤ 127 := by
      by_contra hnesting
      exact hset (setInside_of_le_nesting hp 62 hdepth (by omega))
    obtain ⟨q, hread, -, hsame⟩ := exists_ofText_toText hp hnesting
    exact ⟨q, hread, hsame.mpr hinner⟩

end Predicate

/-! ## Compiled filters -/

namespace Filter

open Json Predicate

variable {resolver : Resolver} {entity : String}

/-- **VALUES ARE COERCED**: every value of a predicate that is built was coerced from a text to
    the type of some field. -/
theorem exists_coerceText_of_build_ok {n : Node} {p : Predicate}
    (h : build resolver entity n = .ok p) :
    ∀ leaf ∈ p.leaves, ∀ v ∈ leaf.operands, ∃ field t text,
      resolver entity field = .ok t ∧ t.coerceText text = .ok v := by
  have hleaves : List.Forall₂ (fun _ q => ∀ v ∈ q.operands, ∃ field t text,
      resolver entity field = .ok t ∧ t.coerceText text = .ok v) n.leaves p.leaves := by
    refine forall₂_leaves_of_build_ok ?_ h
    intro field op operand path q hq
    obtain ⟨t, ht, -, hexpresses⟩ := expresses_of_leafCondition_ok hq
    cases hexpresses with
    | comparison hv =>
        intro w hw
        rw [List.mem_singleton.mp hw]
        exact ⟨field, t, _, ht, hv⟩
    | membership _ hvs =>
        intro w hw
        obtain ⟨l, -, hl⟩ := exists_of_forall₂_of_mem_right hvs hw
        exact ⟨field, t, _, ht, hl⟩
    | absent => exact fun w hw => nomatch hw
    | present => exact fun w hw => nomatch hw
  intro leaf hleaf
  obtain ⟨-, -, hvalues⟩ := exists_of_forall₂_of_mem_right hleaves hleaf
  exact hvalues

/-- Where no field is a floating point number, no value is one. -/
theorem floatFree_of_build_ok (hfloat : ∀ field, resolver entity field ≠ .ok .float) {n : Node}
    {p : Predicate} (h : build resolver entity n = .ok p) : FloatFree p := by
  intro leaf hleaf v hv
  obtain ⟨field, t, text, ht, hcoerced⟩ := exists_coerceText_of_build_ok h leaf hleaf v hv
  rw [(FieldType.of_coerceText_ok hcoerced).1]
  rintro rfl
  exact hfloat field ht

/-- A predicate that is built has no leap second within a minute. -/
theorem not_hasInnerLeap_of_build_ok {n : Node} {p : Predicate}
    (h : build resolver entity n = .ok p) : ¬ p.HasInnerLeap := by
  rintro ⟨leaf, hleaf, v, hv, hinner⟩
  obtain ⟨field, t, text, -, hcoerced⟩ := exists_coerceText_of_build_ok h leaf hleaf v hv
  exact (Value.isWhole_of_coerceText_ok hcoerced).2 hinner

/-- **BUILDING NESTS NO DEEPER** than the filter does. -/
theorem depth_le_of_build_ok {n : Node} {p : Predicate}
    (h : build resolver entity n = .ok p) : p.depth ≤ n.depth := by
  induction n generalizing p with
  | leaf field op operand path =>
      obtain ⟨t, -, -, hexpresses⟩ := expresses_of_leafCondition_ok h
      cases hexpresses <;> exact Nat.zero_le _
  | combinator k ns path ih =>
      obtain ⟨ps, hps, hcombine⟩ := exists_of_build_combinator_ok h
      refine Nat.le_trans (depth_combine hcombine) ?_
      rw [Node.depth]
      refine Nat.add_le_add_left (Predicate.greatestDepth_le_iff.mpr fun q hq => ?_) 1
      obtain ⟨n, hn, hbuild⟩ := exists_of_forall₂_of_mem_right hps hq
      exact Nat.le_trans (ih n hn hbuild) (greatestDepth_le_iff.mp (Nat.le_refl _) n hn)

/-- **THE DEEPEST SETS CANNOT BE HANDED OVER**: where no field is a floating point number, the
    predicate of a text is nested no deeper than 62 combinators, and its JSON text takes 128
    brackets at most.  The text takes all of them exactly if a set stands inside of 62
    combinators, and exactly then it does not read back as the same predicate. -/
theorem handedOver_iff (c : Compiler) (hfloat : ∀ field, c.resolver c.entity field ≠ .ok .float)
    {text : String} {p : Predicate} (h : c.compileText text = .ok p) :
    p.depth ≤ 62 ∧ p.toDocument.nesting ≤ 128
      ∧ (p.toDocument.nesting = 128 ↔ SetInside 62 p)
      ∧ ((∃ q, ofText p.toText = .ok q ∧ p.same q = true) ↔ ¬ SetInside 62 p) := by
  obtain ⟨n, hn, hp⟩ := bind_eq_ok h
  obtain ⟨d, hread, hparse⟩ := exists_of_parseText_ok hn
  have hbuild := build_of_compileNode_ok hp
  have hfree := floatFree_of_build_ok hfloat hbuild
  -- the reader has bounded the filter, and building does not go beyond it
  have hdepth : p.depth ≤ 62 :=
    Nat.le_trans (depth_le_of_build_ok hbuild)
      ((nesting_le_iff_of_parse_ok hparse).mp (nesting_le_of_readDocument hread))
  have hnesting := nesting_le_depth hfree
  have hback := readsBack_iff hfree (not_hasInnerLeap_of_build_ok hbuild) hdepth
  refine ⟨hdepth, by omega, ⟨fun heq => ?_, fun hset => ?_⟩, hback⟩
  · exact setInside_of_le_nesting hfree 62 hdepth (Nat.le_of_eq heq.symm)
  · have := le_nesting_of_setInside hfree hset
    omega

set_option maxRecDepth 4000 in
/-- Under the usual limits the text of a filter with a set inside of 62 combinators compiles,
    and its predicate does not read back. -/
theorem handedOver_iff_at_limit :
    let person : Entity := ⟨"Person", [⟨"age", .int32⟩]⟩
    let c : Compiler := ⟨person.resolver, "Person", .usual⟩
    let leaf (token : String) (d : Document) : Document := .object [("age", .object [(token, d)])]
    let inside (d : Document) : Document :=
      .object [("AND", .array [leaf "eq" (.number "1"), d])]
    let insideP (p : Predicate) : Predicate :=
      .compound .and [.comparison .eq "age" (.int32 1), p]
    let d := Nat.repeat inside 62 (leaf "in" (.array [.number "1"]))
    let p := Nat.repeat insideP 62 (.membership false "age" [.int32 1])
    (∀ field, c.resolver c.entity field ≠ .ok .float)
      ∧ c.compileText d.print = .ok p
      ∧ SetInside 62 p ∧ p.toDocument.nesting = 128
      ∧ ¬ ∃ q, ofText p.toText = .ok q ∧ p.same q = true := by
  intro person c leaf inside insideP d p
  have hfloat : ∀ field, c.resolver c.entity field ≠ .ok .float := by
    intro field
    show person.resolver "Person" field ≠ _
    rw [Entity.resolver, if_pos rfl, Entity.fieldType?, Entity.getField?, List.find?_cons]
    cases ("age" == field) <;> exact nofun
  have hspells : ∀ k, ∃ r, Spells (Nat.repeat inside k (leaf "in" (.array [.number "1"]))) r := by
    intro k
    induction k with
    | zero =>
        exact ⟨_, .object (.cons (.object (.cons (.array (.cons (.integer 1) .nil)) .nil)) .nil)⟩
    | succ k ih =>
        obtain ⟨r, hr⟩ := ih
        exact ⟨_, .object (.cons (.array (.cons
          (.object (.cons (.object (.cons (.integer 1) .nil)) .nil)) (.cons hr .nil))) .nil)⟩
  have hset : ∀ k, SetInside k (Nat.repeat insideP k (.membership false "age" [.int32 1])) := by
    intro k
    induction k with
    | zero => exact .set (List.cons_ne_nil _ _)
    | succ k ih => exact .compound (List.mem_cons_of_mem _ (List.mem_singleton.mpr rfl)) ih
  obtain ⟨r, hr⟩ := hspells 62
  have hread : readDocument .unlimited d.print = .ok d := readDocument_print hr
  have hsize : ∀ k, String.utf8Len (Nat.repeat inside k (leaf "in" (.array [.number "1"]))).chars
      = 18 + 27 * k := by
    have hleaf : String.utf8Len (leaf "eq" (.number "1")).chars = 16 := by decide
    have hkey : String.utf8Len (Document.stringChars "AND") = 5 := by decide
    have hmarks : '{'.utf8Size = 1 ∧ '}'.utf8Size = 1 ∧ '['.utf8Size = 1 ∧ ']'.utf8Size = 1
        ∧ ','.utf8Size = 1 ∧ ':'.utf8Size = 1 := by decide
    intro k
    induction k with
    | zero => decide
    | succ k ih =>
        show String.utf8Len (inside (Nat.repeat inside k _)).chars = _
        simp only [inside, Document.chars, Document.entriesChars, Document.itemsChars,
          String.utf8Len_append, String.utf8Len_cons, String.utf8Len_nil, hkey, hleaf, ih]
        simp [hmarks]
        omega
  have hlength : d.print.utf8ByteSize ≤ c.limits.maxTextLength := by
    rw [Document.print, String.utf8ByteSize_ofList, hsize]
    decide
  have hkeys : ¬ d.RepeatsKey :=
    (exists_repeats_iff d .root).not.mp (by decide +kernel)
  have hnesting : d.nesting ≤ 127 := by decide +kernel
  have hdocument : c.compileDocument d = .ok p := rfl
  have htext : c.compileText d.print = .ok p := by
    rw [compileText_eq_compileDocument c hlength hread hkeys hnesting, hdocument]
  obtain ⟨-, -, hmost, hback⟩ := handedOver_iff c hfloat htext
  exact ⟨hfloat, htext, hset 62, hmost.mpr (hset 62), fun h => hback.mp h (hset 62)⟩

end Filter

end RecordFilter
