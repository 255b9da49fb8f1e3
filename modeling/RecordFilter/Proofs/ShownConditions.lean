import RecordFilter.Proofs.Flattening
import RecordFilter.Proofs.ReferencedFields
import RecordFilter.Proofs.ShownValues

/-! # Shown conditions determine filters

    A shown condition can be read in one way only, if the names in it are words.  A field ends
    at the first blank; what is asked of it is one of ten marks, none of which begins another
    one; its values tell where they end (`tells_leaf`).  A child of a node is a leaf or stands
    in parentheses, and a leaf does not begin with one, so the row of the children of a node
    can be read child by child (`tells_item`).

    What is read is the tree in its alternating form: a node inside of a node of its own
    combinator is shown without parentheses, and it makes no difference to the answers.  So
    filters that are shown alike have one tree in that form (`aligned_of_display_eq`), and
    answer alike. -/

namespace RecordFilter

/-- A letter of any alphabet, a digit or an underscore.  No character outside of ASCII is
    refused. -/
def isWordChar (c : Char) : Bool := c.isAlphanum || c == '_' || 128 ≤ c.toNat

/-- A name that consists of such characters, and is not empty. -/
def IsWord (s : String) : Prop := s ≠ "" ∧ ∀ c ∈ s.toList, isWordChar c = true

instance (s : String) : Decidable (IsWord s) :=
  decidable_of_iff (s ≠ "" ∧ s.toList.all isWordChar = true)
    (and_congr_right fun _ => List.all_eq_true)

namespace Predicate

/-! ## Marks -/

/-- What a shown condition has for a variant: what is asked of a field, or what stands between
    the children of a node. -/
def Variant.mark : Variant → String
  | .comparison c => c.sign ++ " "
  | .membership false => "IN ("
  | .membership true => "NOT IN ("
  | .absence false => "IS NULL"
  | .absence true => "IS NOT NULL"
  | .compound k => " " ++ k.keyword ++ " "

theorem Variant.mem_all (a : Variant) : a ∈ Variant.all := by
  rcases a with c | negated | negated | k
  · cases c <;> decide
  · cases negated <;> decide
  · cases negated <;> decide
  · cases k <;> decide

/-- No mark begins another one. -/
theorem Variant.eq_of_begins_mark {a b : Variant} (h : a.mark.toList <+: b.mark.toList) :
    a = b := by
  have hall : ∀ a ∈ Variant.all, ∀ b ∈ Variant.all, a.mark.toList <+: b.mark.toList → a = b := by
    decide
  exact hall a (mem_all a) b (mem_all b) h

/-- **MARKS CAN BE TOLD APART**, whatever follows them. -/
theorem Variant.eq_of_mark_append {a b : Variant} {u v : List Char}
    (h : a.mark.toList ++ u = b.mark.toList ++ v) : a = b ∧ u = v := by
  have hab : a = b := by
    have hprefix : a.mark.toList <+: b.mark.toList ++ v := h ▸ List.prefix_append _ u
    rcases List.prefix_or_prefix_of_prefix hprefix (List.prefix_append _ v) with hab | hba
    · exact eq_of_begins_mark hab
    · exact (eq_of_begins_mark hba).symm
  subst hab
  exact ⟨rfl, List.append_cancel_left h⟩

/-! ## Leaves -/

/-- The variant of a predicate. -/
def variant : Predicate → Variant
  | .comparison c _ _ => .comparison c
  | .membership negated _ _ => .membership negated
  | .absence negated _ => .absence negated
  | .compound k _ => .compound k

/-- What is shown of the values of a leaf. -/
def operandText : Predicate → List Char
  | .comparison _ _ v => v.display.toList
  | .membership _ _ vs =>
      [',', ' '].intercalate (vs.map fun v => v.display.toList) ++ [')']
  | _ => []

/-- A leaf is shown as its field, what is asked of it, and its values. -/
theorem toList_display_leaf {p : Predicate} {field : String} (h : p.field? = some field) :
    p.display.toList = field.toList ++ ' ' :: (p.variant.mark.toList ++ p.operandText) := by
  cases p with
  | comparison c f v =>
      obtain rfl : f = field := Option.some.inj h
      simp [display, variant, Variant.mark, operandText]
  | membership negated f vs =>
      obtain rfl : f = field := Option.some.inj h
      cases negated <;>
        simp [display, displaySet, variant, Variant.mark, operandText, String.toList_intercalate,
          Function.comp_def]
  | absence negated f =>
      obtain rfl : f = field := Option.some.inj h
      cases negated <;> simp [display, variant, Variant.mark, operandText]
  | compound k ps => cases h

/-! ## Nodes -/

/-- A child of a node of the other combinator as it is shown. -/
def itemText (p : Predicate) : List Char :=
  if p.combinator? = none then p.display.toList else '(' :: (p.display.toList ++ [')'])

/-- What is shown in a row: the children of a node, and a leaf alone. -/
def members : Predicate → List Predicate
  | .compound _ ps => ps
  | leaf => [leaf]

/-- A leaf is its only member. -/
theorem members_of_leaf {p : Predicate} (h : p.combinator? = none) : members p = [p] := by
  cases p with
  | compound k ps => exact nomatch h
  | _ => rfl

theorem members_ne_nil {p : Predicate} (h : Alternates p) : members p ≠ [] := by
  cases h with
  | leaf hleaf =>
      rw [members_of_leaf hleaf]
      exact List.cons_ne_nil _ _
  | compound hlength _ _ =>
      rintro rfl
      exact absurd hlength (Nat.not_lt_zero 1)

theorem Alternates.members {p : Predicate} (h : Alternates p) : ∀ q ∈ members p, Alternates q := by
  cases h with
  | leaf hleaf =>
      rw [members_of_leaf hleaf]
      exact List.forall_mem_singleton.mpr (.leaf hleaf)
  | compound _ _ hall => exact hall

/-- A child of another combinator is shown in brackets, if it has any. -/
theorem childText_eq_itemText {k : Combinator} {p : Predicate} (h : p.combinator? ≠ some k) :
    childText k p = itemText p := by
  rw [childText, displayChild, itemText]
  cases hkind : p.combinator? with
  | none => simp
  | some j =>
      have hj : j ≠ k := by
        rintro rfl
        exact h hkind
      simp [hj]

/-- **A NODE IS SHOWN AS A ROW** of items, and a leaf as a row of one. -/
theorem toList_display_members {p : Predicate} (h : Alternates p) {k : Combinator}
    (hk : ∀ j, p.combinator? = some j → j = k) :
    p.display.toList = (separator k).intercalate ((members p).map itemText) := by
  cases h with
  | leaf hleaf =>
      rw [members_of_leaf hleaf]
      simp [itemText, hleaf]
  | @compound j ps _ hkinds _ =>
      obtain rfl := hk j rfl
      rw [toList_display_compound]
      refine congrArg _ (List.map_congr_left ?_)
      intro q hq
      exact childText_eq_itemText (hkinds q hq)

theorem separates_separator (k : Combinator) : Separates (separator k) := by
  cases k <;> exact ⟨' ', _, rfl, Or.inl rfl⟩

/-- Separators can be told apart, whatever follows them. -/
theorem eq_of_separator_append {j k : Combinator} {u v : List Char}
    (h : separator j ++ u = separator k ++ v) : j = k ∧ u = v := by
  obtain ⟨hvariant, hrest⟩ := Variant.eq_of_mark_append (a := .compound j) (b := .compound k) h
  exact ⟨Variant.compound.inj hvariant, hrest⟩

/-- A row of items that can be told apart tells the tree, up to what closes it. -/
theorem aligned_of_display_append {p q : Predicate} (hp : Alternates p) (hq : Alternates q)
    (hitems : ∀ x ∈ members p, ∀ y ∈ members q,
      Tells itemText (Aligned fun _ v w => v.same w = true) x y)
    {s t : List Char} (hs : Closes s) (ht : Closes t)
    (h : p.display.toList ++ s = q.display.toList ++ t) :
    Aligned (fun _ v w => v.same w = true) p q ∧ s = t := by
  -- the separator of a leaf alone is any
  have hkind : ∀ p : Predicate, ∀ j, p.combinator? = some j → j = p.combinator?.getD .and := by
    intro p j hj
    simp [hj]
  rw [toList_display_members hp (hkind p), toList_display_members hq (hkind q)] at h
  have hseps : ∀ u v, separator (p.combinator?.getD .and) ++ u
      = separator (q.combinator?.getD .and) ++ v →
      separator (p.combinator?.getD .and) = separator (q.combinator?.getD .and) ∧ u = v := by
    intro u v huv
    obtain ⟨hjk, hrest⟩ := eq_of_separator_append huv
    exact ⟨congrArg separator hjk, hrest⟩
  obtain ⟨hrow, hrest, hsep⟩ := forall₂_of_intercalate_eq (separates_separator _)
    (separates_separator _) hseps hitems (members_ne_nil hp) (members_ne_nil hq) hs ht h
  refine ⟨?_, hrest⟩
  -- as many members on both sides: a leaf has one, a compound has more
  have hlengths := hrow.length_eq
  cases hp with
  | leaf hleaf =>
      rw [members_of_leaf hleaf] at hrow hlengths
      cases hq with
      | leaf hleaf' =>
          rw [members_of_leaf hleaf'] at hrow
          cases hrow with
          | cons hpq _ => exact hpq
      | compound hlength _ _ => exact absurd hlengths hlength.ne
  | @compound j ps hlength _ _ =>
      cases hq with
      | leaf hleaf' =>
          rw [members_of_leaf hleaf'] at hlengths
          exact absurd hlengths hlength.ne'
      | @compound k qs _ _ _ =>
          have hjk : separator j ++ [] = separator k ++ [] := by
            rw [List.append_nil, List.append_nil]
            exact hsep hlength
          obtain ⟨rfl, -⟩ := eq_of_separator_append hjk
          exact .compound hrow

end Predicate

/-- A word stands in front of the first blank. -/
theorem takeWhile_word {s : String} (hs : IsWord s) (t : List Char) :
    (s.toList ++ ' ' :: t).takeWhile isWordChar = s.toList :=
  takeWhile_append_cons hs.2 rfl

/-- A word in front of a blank is read off in one way. -/
theorem eq_of_word_append {a b : String} (ha : IsWord a) (hb : IsWord b) {s t : List Char}
    (h : a.toList ++ ' ' :: s = b.toList ++ ' ' :: t) : a = b ∧ s = t := by
  have hwords : a.toList = b.toList := by
    rw [← takeWhile_word ha s, h, takeWhile_word hb t]
  rw [hwords] at h
  exact ⟨String.toList_inj.mp hwords, (List.cons.inj (List.append_cancel_left h)).2⟩

namespace Filter

open Predicate

variable {resolver : Resolver} {entity : String}

/-- A condition that a filter can have, on a field whose name is a word: its values are of the
    type of the field, finite, and whole seconds. -/
structure Legible (resolver : Resolver) (entity : String) (p : Predicate) : Prop where
  wellTyped : WellTyped resolver entity p
  whole : ∀ v ∈ p.operands, v.IsWhole
  word : ∀ field, p.field? = some field → IsWord field

theorem Legible.exists_field {p : Predicate} (h : Legible resolver entity p) :
    ∃ field, p.field? = some field := by
  cases h.wellTyped <;> exact ⟨_, rfl⟩

/-- The values of a leaf are of the type of its field and finite. -/
theorem WellTyped.operand {p : Predicate} (h : WellTyped resolver entity p) {field : String}
    (hfield : p.field? = some field) {v : Value} (hv : v ∈ p.operands) :
    resolver entity field = .ok v.fieldType ∧ v.IsFinite := by
  cases h with
  | comparison htype hfinite _ =>
      obtain rfl := Option.some.inj hfield
      rw [List.mem_singleton.mp hv]
      exact ⟨htype, hfinite⟩
  | membership _ hvs =>
      obtain rfl := Option.some.inj hfield
      exact hvs v hv
  | absence _ => exact nomatch hv

/-- Values that are compared with one field can be told apart. -/
theorem tells_operands {p q : Predicate} (hp : Legible resolver entity p)
    (hq : Legible resolver entity q) (hfield : p.field? = q.field?) {v w : Value}
    (hv : v ∈ p.operands) (hw : w ∈ q.operands) :
    Tells (fun v => v.display.toList) (fun v w => v.same w = true) v w := by
  obtain ⟨field, hfp⟩ := hp.exists_field
  obtain ⟨htype, hfinite⟩ := hp.wellTyped.operand hfp hv
  obtain ⟨htype', hfinite'⟩ := hq.wellTyped.operand (hfield ▸ hfp) hw
  have htypes : v.fieldType = w.fieldType := Except.ok.inj (htype.symm.trans htype')
  exact Value.tells_display htypes hfinite hfinite' (hp.whole v hv) (hq.whole w hw)

/-- **LEAVES CAN BE TOLD APART**: the text of a leaf tells its field, what is asked of it, and
    its values. -/
theorem tells_leaf {p q : Predicate} (hp : Legible resolver entity p)
    (hq : Legible resolver entity q) :
    Tells (fun p => p.display.toList) (Aligned fun _ v w => v.same w = true) p q := by
  intro s t hs ht h
  obtain ⟨field, hfp⟩ := hp.exists_field
  obtain ⟨field', hfq⟩ := hq.exists_field
  dsimp only at h
  rw [toList_display_leaf hfp, toList_display_leaf hfq, List.append_assoc, List.append_assoc,
    List.cons_append, List.cons_append, List.append_assoc, List.append_assoc] at h
  -- the field ends at the blank, then the mark of the variant, then the operands
  obtain ⟨rfl, hasked⟩ := eq_of_word_append (hp.word _ hfp) (hq.word _ hfq) h
  obtain ⟨hvariant, hoperands⟩ := Variant.eq_of_mark_append hasked
  have htells : ∀ v ∈ p.operands, ∀ w ∈ q.operands,
      Tells (fun v => v.display.toList) (fun v w => v.same w = true) v w := by
    intro v hv w hw
    exact tells_operands hp hq (hfp.trans hfq.symm) hv hw
  cases hp.wellTyped with
  | @comparison c f v _ _ _ =>
      cases hq.wellTyped with
      | @comparison d g w _ _ _ =>
          obtain rfl : c = d := Variant.comparison.inj hvariant
          obtain rfl : f = field := Option.some.inj hfp
          obtain rfl : g = f := Option.some.inj hfq
          obtain ⟨hsame, rfl⟩ := htells v (List.mem_singleton_self v) w
            (List.mem_singleton_self w) s t hs ht hoperands
          exact ⟨.comparison hsame, rfl⟩
      | _ => exact nomatch hvariant
  | @membership m f vs hne _ =>
      cases hq.wellTyped with
      | @membership n g ws hne' _ =>
          obtain rfl : m = n := Variant.membership.inj hvariant
          obtain rfl : f = field := Option.some.inj hfp
          obtain rfl : g = f := Option.some.inj hfq
          have hcomma : Separates [',', ' '] := ⟨',', [' '], rfl, Or.inr rfl⟩
          rw [operandText, operandText, List.append_assoc, List.append_assoc] at hoperands
          obtain ⟨hsame, hrest, -⟩ := forall₂_of_intercalate_eq hcomma hcomma
            (fun u v huv => ⟨rfl, List.append_cancel_left huv⟩) htells hne hne'
            (closes_bracket s) (closes_bracket t) hoperands
          exact ⟨.membership hsame, (List.cons.inj hrest).2⟩
      | _ => exact nomatch hvariant
  | @absence m f _ _ =>
      cases hq.wellTyped with
      | @absence n g _ _ =>
          obtain rfl : m = n := Variant.absence.inj hvariant
          obtain rfl : f = field := Option.some.inj hfp
          obtain rfl : g = f := Option.some.inj hfq
          exact ⟨.absence, hoperands⟩
      | _ => exact nomatch hvariant

/-! ## Trees -/

/-- Every leaf of the predicate is a condition that a filter can have. -/
def LegibleLeaves (resolver : Resolver) (entity : String) (p : Predicate) : Prop :=
  ∀ leaf ∈ p.leaves, Legible resolver entity leaf

/-- The leaves of a child are leaves of the compound. -/
theorem LegibleLeaves.child {k : Combinator} {ps : List Predicate}
    (h : LegibleLeaves resolver entity (.compound k ps)) {p : Predicate} (hp : p ∈ ps) :
    LegibleLeaves resolver entity p := by
  intro leaf hleaf
  exact h leaf (mem_leavesOfAll.mpr ⟨p, hp, hleaf⟩)

theorem LegibleLeaves.of_leaf {p : Predicate} (h : LegibleLeaves resolver entity p)
    (hleaf : p.combinator? = none) : Legible resolver entity p := by
  refine h p ?_
  cases p with
  | compound k ps => exact nomatch hleaf
  | _ => exact List.mem_singleton_self _

/-- The leaves of a member are leaves of the predicate. -/
theorem LegibleLeaves.members {p : Predicate} (h : LegibleLeaves resolver entity p) :
    ∀ q ∈ p.members, LegibleLeaves resolver entity q := by
  cases p with
  | compound k ps => exact fun q hq => h.child hq
  | _ => exact List.forall_mem_singleton.mpr h

/-- A leaf does not begin with a parenthesis. -/
theorem display_ne_parenthesis {p : Predicate} (hp : Legible resolver entity p) (s t : List Char) :
    p.display.toList ++ s ≠ '(' :: t := by
  obtain ⟨field, hfield⟩ := hp.exists_field
  obtain ⟨hne, hword⟩ := hp.word field hfield
  rw [toList_display_leaf hfield]
  cases hchars : field.toList with
  | nil => exact absurd (String.toList_eq_nil_iff.mp hchars) hne
  | cons c cs =>
      intro h
      obtain rfl : c = '(' := (List.cons.inj h).1
      exact absurd (hword '(' (hchars ▸ List.mem_cons_self ..)) (by decide)

/-- A leaf is told apart from any other item. -/
theorem tells_item_leaf {p q : Predicate} (hp : LegibleLeaves resolver entity p)
    (hq : LegibleLeaves resolver entity q) (hleaf : p.combinator? = none) :
    Tells itemText (Aligned fun _ v w => v.same w = true) p q := by
  intro s t hs ht h
  rw [itemText, itemText, if_pos hleaf] at h
  by_cases hleaf' : q.combinator? = none
  · rw [if_pos hleaf'] at h
    exact tells_leaf (hp.of_leaf hleaf) (hq.of_leaf hleaf') s t hs ht h
  · rw [if_neg hleaf'] at h
    exact absurd h (display_ne_parenthesis (hp.of_leaf hleaf) _ _)

/-- **ITEMS CAN BE TOLD APART**: a leaf does not begin with a parenthesis, and what stands in
    parentheses is a row of items. -/
theorem tells_item {p : Predicate} : ∀ {q : Predicate}, Alternates p → Alternates q →
    LegibleLeaves resolver entity p → LegibleLeaves resolver entity q →
    Tells itemText (Aligned fun _ v w => v.same w = true) p q := by
  induction p with
  | compound k ps ih =>
      intro q hp hq hpl hql s t hs ht h
      rw [itemText, itemText, if_neg (show (compound k ps).combinator? ≠ none from nofun)] at h
      by_cases hleaf : q.combinator? = none
      · rw [if_pos hleaf] at h
        exact absurd h.symm (display_ne_parenthesis (hql.of_leaf hleaf) _ _)
      · rw [if_neg hleaf, List.cons_append, List.cons_append, List.append_assoc,
          List.append_assoc] at h
        have hitems : ∀ x ∈ ps, ∀ y ∈ q.members,
            Tells itemText (Aligned fun _ v w => v.same w = true) x y := by
          intro x hx y hy
          exact ih x hx (hp.members x hx) (hq.members y hy) (hpl.members x hx) (hql.members y hy)
        obtain ⟨haligned, hrest⟩ := aligned_of_display_append hp hq hitems (closes_bracket s)
          (closes_bracket t) (List.cons.inj h).2
        exact ⟨haligned, (List.cons.inj hrest).2⟩
  | _ =>
      intro q _ _ hpl hql
      exact tells_item_leaf hpl hql rfl

/-- **SHOWN TREES CAN BE READ**: predicates in alternating form that are shown alike are one
    tree with the same values. -/
theorem aligned_of_display_eq {p q : Predicate} (hp : Alternates p) (hq : Alternates q)
    (hpl : LegibleLeaves resolver entity p) (hql : LegibleLeaves resolver entity q)
    (h : p.display = q.display) : Aligned (fun _ v w => v.same w = true) p q := by
  have hclosed : Closes [] := by
    rintro c ⟨⟩
  have hitems : ∀ x ∈ p.members, ∀ y ∈ q.members,
      Tells itemText (Aligned fun _ v w => v.same w = true) x y := by
    intro x hx y hy
    exact tells_item (hp.members x hx) (hq.members y hy) (hpl.members x hx) (hql.members y hy)
  have hchars : p.display.toList ++ [] = q.display.toList ++ [] := by rw [h]
  exact (aligned_of_display_append hp hq hitems hclosed hclosed hchars).1

/-! ## Compiled filters -/

/-- The leaves of a filter can be read if its fields have words for names. -/
theorem legibleLeaves_of_build_ok {n : Node} {p : Predicate}
    (h : build resolver entity n = .ok p) (hwords : ∀ field ∈ p.referencedFields, IsWord field) :
    LegibleLeaves resolver entity p := by
  intro leaf hleaf
  refine ⟨(build_ok_form resolver entity n p h).1 leaf hleaf, ?_, ?_⟩
  · intro v hv
    obtain ⟨_, _, _, -, hcoerced⟩ := exists_coerceText_of_build_ok h leaf hleaf v hv
    exact Value.isWhole_of_coerceText_ok hcoerced
  · intro field hfield
    exact hwords field (mem_referencedFields.mpr ⟨leaf, hleaf, hfield⟩)

/-- **SHOWN CONDITIONS DETERMINE FILTERS**: of two filters on one entity whose fields have words
    for names and that are shown alike, each is the other one, up to nodes inside of nodes of
    the same combinator: the same tree of nodes, the same conditions on the same fields, and
    the same values.  So they answer alike of every record.  Every value is told by what is
    shown, also a floating point number. -/
theorem display_determines_filter (resolver : Resolver) (entity : String) {n m : Node}
    {p q : Predicate} (hp : build resolver entity n = .ok p)
    (hq : build resolver entity m = .ok q)
    (hpwords : ∀ field ∈ p.referencedFields, IsWord field)
    (hqwords : ∀ field ∈ q.referencedFields, IsWord field) (h : p.display = q.display) :
    Aligned (fun _ v w => v.same w = true) p.flatten q.flatten
      ∧ ∀ r, p.evaluate r = q.evaluate r := by
  have hpn := normal_of_build_ok hp
  have hqn := normal_of_build_ok hq
  have hshown : p.flatten.display = q.flatten.display := by
    rw [display_flatten hpn, display_flatten hqn, h]
  have hpl : LegibleLeaves resolver entity p.flatten := by
    rw [LegibleLeaves, leaves_flatten]
    exact legibleLeaves_of_build_ok hp hpwords
  have hql : LegibleLeaves resolver entity q.flatten := by
    rw [LegibleLeaves, leaves_flatten]
    exact legibleLeaves_of_build_ok hq hqwords
  have haligned := aligned_of_display_eq (alternates_flatten hpn) (alternates_flatten hqn)
    hpl hql hshown
  refine ⟨haligned, ?_⟩
  intro r
  rw [← evaluate_flatten r p, ← evaluate_flatten r q]
  exact evaluate_eq_of_aligned (fun _ _ _ hsame => Value.order_of_same hsame) r haligned

/-- A node inside of a node is not seen, nor is how a number was spelt; and a text may hold all
    that a shown condition is made of. -/
theorem display_determines_filter_up_to_nesting :
    let entity : Entity := ⟨"Invoice", [⟨"total", .decimal⟩, ⟨"note", .text⟩]⟩
    let note := Node.leaf "note" (.member false)
      (.set [.text "a', 'b') AND (total IS NULL", .text ""]) .root
    let total (op : Operator) (spelling : String) : Node :=
      .leaf "total" op (.scalar (.text spelling)) .root
    let n : Node := .combinator .and [note,
      .combinator .and [total (.compare .ge) "1e2", total (.compare .ne) "-0.50"] .root] .root
    let m : Node := .combinator .and [note, total (.compare .ge) "100",
      total (.compare .ne) "-0.50"] .root
    let among : Predicate :=
      .membership false "note" [.text "a', 'b') AND (total IS NULL", .text ""]
    let half : Predicate := .comparison .ne "total" (.decimal { unscaled := -50, scale := 2 })
    let p : Predicate := .compound .and [among, .compound .and
      [.comparison .ge "total" (.decimal { unscaled := 1, scale := -2 }), half]]
    let q : Predicate := .compound .and [among,
      .comparison .ge "total" (.decimal { unscaled := 100, scale := 0 }), half]
    build entity.resolver "Invoice" n = .ok p ∧ build entity.resolver "Invoice" m = .ok q
      ∧ (∀ field ∈ p.referencedFields, IsWord field)
      ∧ (∀ field ∈ q.referencedFields, IsWord field)
      ∧ p.display = "note IN ('a'', ''b'') AND (total IS NULL', '') AND total >= 100 "
        ++ "AND total <> -0.50"
      ∧ p.display = q.display
      ∧ Aligned (fun _ v w => v.same w = true) p.flatten q.flatten
      ∧ ∀ r, p.evaluate r = q.evaluate r := by
  intro entity note total n m among half p q
  have hp : build entity.resolver "Invoice" n = .ok p := rfl
  have hq : build entity.resolver "Invoice" m = .ok q := rfl
  have hpwords : ∀ field ∈ p.referencedFields, IsWord field := by decide +kernel
  have hqwords : ∀ field ∈ q.referencedFields, IsWord field := by decide +kernel
  have hshown : p.display = q.display := by decide +kernel
  exact ⟨hp, hq, hpwords, hqwords, by decide +kernel, hshown,
    display_determines_filter entity.resolver "Invoice" hp hq hpwords hqwords hshown⟩

end Filter

end RecordFilter
