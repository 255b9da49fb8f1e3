import RecordFilter.Proofs.Places

/-! # Paths as pointers

    The text of a path says what its steps say, each behind a slash.  Escaping puts a mark behind
    a tilde in the place of every tilde, and then in the place of every slash, so a slash in the
    text of a path is always the front of a step, and `~1` always stands for a slash of a key:
    splitting at the slashes and undoing the two replacements in reverse gives back what the
    steps say.

    A text does not tell a key from an index.  In one document it need not, since the value at
    hand has keys or it has indices; what no document can tell apart is the root, which is
    written as a slash alone, and the empty key. -/

namespace RecordFilter.Filter

open Json

/-! ## Escaping in two passes -/

namespace Pointer

/-- The text with a tilde and a mark in the place of a character. -/
def marked (c mark : Char) (s : List Char) : List Char :=
  s.flatMap fun d => if d = c then ['~', mark] else [d]

/-- The text with a character in the place of every tilde that the mark follows. -/
def unmarked (c mark : Char) : List Char → List Char
  | [] => []
  | [d] => [d]
  | d :: e :: rest =>
      if d = '~' ∧ e = mark then c :: unmarked c mark rest else d :: unmarked c mark (e :: rest)

/-- What a part of a pointer stands for: `~1` is a slash, and then `~0` is a tilde. -/
def unescaped (part : List Char) : List Char := unmarked '~' '0' (unmarked '/' '1' part)

variable {c mark : Char}

/-- The marked character becomes a tilde and its mark. -/
theorem marked_cons_self (c mark : Char) (s : List Char) :
    marked c mark (c :: s) = '~' :: mark :: marked c mark s := by
  simp [marked]

theorem marked_cons_of_ne {d : Char} (h : d ≠ c) (s : List Char) :
    marked c mark (d :: s) = d :: marked c mark s := by
  simp [marked, h]

/-- A tilde and the mark become the character again. -/
theorem unmarked_cons_mark (c mark : Char) (s : List Char) :
    unmarked c mark ('~' :: mark :: s) = c :: unmarked c mark s := by
  simp [unmarked]

theorem unmarked_cons_of_ne {d : Char} (h : d ≠ '~') (s : List Char) :
    unmarked c mark (d :: s) = d :: unmarked c mark s := by
  cases s with
  | nil => rfl
  | cons e s => simp [unmarked, h]

/-- A tilde in front of anything else stays. -/
theorem unmarked_cons_other {e : Char} (h : e ≠ mark) (s : List Char) :
    unmarked c mark ('~' :: e :: s) = '~' :: unmarked c mark (e :: s) := by
  simp [unmarked, h]

/-- Behind the first pass every tilde is one of the pass. -/
theorem unmarked_tilde (s : List Char) : unmarked '~' '0' (marked '~' '0' s) = s := by
  induction s with
  | nil => rfl
  | cons d s ih =>
      by_cases hd : d = '~'
      · subst hd
        rw [marked_cons_self, unmarked_cons_mark, ih]
      · rw [marked_cons_of_ne hd, unmarked_cons_of_ne hd, ih]

/-- The second pass puts its mark behind tildes of its own only: all others have the mark of the
    first pass already. -/
theorem unmarked_slash (s : List Char) :
    unmarked '/' '1' (marked '/' '1' (marked '~' '0' s)) = marked '~' '0' s := by
  induction s with
  | nil => rfl
  | cons d s ih =>
      by_cases htilde : d = '~'
      · subst htilde
        rw [marked_cons_self, marked_cons_of_ne (by decide), marked_cons_of_ne (by decide),
          unmarked_cons_other (by decide), unmarked_cons_of_ne (by decide), ih]
      · rw [marked_cons_of_ne htilde]
        by_cases hslash : d = '/'
        · subst hslash
          rw [marked_cons_self, unmarked_cons_mark, ih]
        · rw [marked_cons_of_ne hslash, unmarked_cons_of_ne htilde, ih]

/-- A key is escaped in two passes, tildes first. -/
theorem flatMap_escapedChar (s : List Char) :
    s.flatMap Step.escapedChar = marked '/' '1' (marked '~' '0' s) := by
  induction s with
  | nil => rfl
  | cons d s ih =>
      rw [List.flatMap_cons, ih, Step.escapedChar]
      by_cases htilde : d = '~'
      · subst htilde
        rw [marked_cons_self, marked_cons_of_ne (by decide), marked_cons_of_ne (by decide)]
        rfl
      · rw [if_neg htilde, marked_cons_of_ne htilde]
        by_cases hslash : d = '/'
        · subst hslash
          rw [marked_cons_self]
          rfl
        · rw [if_neg hslash, marked_cons_of_ne hslash]
          rfl

/-- **ESCAPING IS UNDONE**, whatever characters a key has. -/
theorem unescaped_flatMap_escapedChar (s : List Char) :
    unescaped (s.flatMap Step.escapedChar) = s := by
  rw [flatMap_escapedChar, unescaped, unmarked_slash, unmarked_tilde]

/-- No slash is left in an escaped label. -/
theorem slash_notMem_escaped (s : List Char) : '/' ∉ s.flatMap Step.escapedChar := by
  intro h
  obtain ⟨c, -, hc⟩ := List.mem_flatMap.mp h
  rw [Step.escapedChar] at hc
  split_ifs at hc with htilde hslash
  · simp at hc
  · simp at hc
  · exact hslash (List.mem_singleton.mp hc).symm

end Pointer

/-! ## What a path says -/

/-- What a step says: the key as it is, or the digits of the index. -/
def Step.label : Step → String
  | .key name => name
  | .index n => String.ofList (digitsOf n)

/-- What the steps of a path say, in order. -/
def Path.labels (p : Path) : List String := p.steps.map Step.label

/-- What the parts of a pointer say, from behind its first slash. -/
def Pointer.labels (rest : List Char) : List String :=
  (rest.splitOn '/').map fun part => String.ofList (unescaped part)

/-- Digits need no escaping. -/
theorem Step.chars_eq_escaped (s : Step) : s.chars = s.label.toList.flatMap escapedChar := by
  cases s with
  | key name => rfl
  | index n =>
      have hplain : ∀ c ∈ digitsOf n, escapedChar c = [c] := by
        intro c hc
        have hdigit := isDigit_of_mem_digitsOf hc
        rw [escapedChar, if_neg (ne_of_isDigit hdigit rfl), if_neg (ne_of_isDigit hdigit rfl)]
      rw [chars, label, String.toList_ofList, List.flatMap_congr hplain, List.flatMap_singleton']

/-- Only the empty key has the empty label. -/
theorem Step.label_eq_empty_iff {s : Step} : s.label = "" ↔ s = .key "" := by
  cases s with
  | key name => simp [label]
  | index n => simp [label, digitsOf_ne_nil]

/-- Different indices have different labels. -/
theorem Step.index_of_label_eq {m n : Nat} (h : (Step.index m).label = (Step.index n).label) :
    m = n := by
  have hdigits : digitsOf m = digitsOf n := String.ofList_injective h
  rw [← ofDigits_digitsOf m, hdigits, ofDigits_digitsOf]

namespace Path

/-- The characters of a path are those of what it says. -/
theorem chars_eq_flatMap_labels (p : Path) :
    p.chars = p.labels.flatMap fun l => '/' :: l.toList.flatMap Step.escapedChar := by
  rw [chars, labels, List.flatMap_map]
  simp only [Step.chars_eq_escaped]

/-- A text with a mark in front of every part is the parts joined by it, behind one. -/
theorem flatMap_cons_eq_intercalate {α : Type} (c : α) (part : List α) (parts : List (List α)) :
    ((part :: parts).flatMap fun part => c :: part)
      = c :: [c].intercalate (part :: parts) := by
  induction parts generalizing part with
  | nil => simp
  | cons next parts ih =>
      rw [List.flatMap_cons, ih next, List.intercalate_cons_cons]
      simp

/-- Below the root the text of a path is its steps, each behind a slash. -/
theorem toList_text {p : Path} (h : p ≠ root) : p.text.toList = p.chars := by
  have hroot : p.isRoot = false := by
    rw [isRoot, List.isEmpty_eq_false_iff]
    intro hsteps
    exact h (congrArg Path.mk hsteps)
  rw [text, hroot]
  exact String.toList_ofList

theorem labels_ne_nil {p : Path} (h : p ≠ root) : p.labels ≠ [] := by
  intro hlabels
  exact h (congrArg Path.mk (List.map_eq_nil_iff.mp hlabels))

/-- **A PATH IS READ BACK FROM ITS TEXT**, as far as its steps say. -/
theorem exists_labels_eq {p : Path} (h : p ≠ root) :
    ∃ rest, p.text.toList = '/' :: rest ∧ Pointer.labels rest = p.labels := by
  rw [toList_text h, chars_eq_flatMap_labels]
  cases hlabels : p.labels with
  | nil => exact absurd hlabels (labels_ne_nil h)
  | cons l ls =>
      let escaped (l : String) := l.toList.flatMap Step.escapedChar
      refine ⟨['/'].intercalate ((l :: ls).map escaped), ?_, ?_⟩
      · rw [List.map_cons, ← flatMap_cons_eq_intercalate, ← List.map_cons, List.flatMap_map]
      · have hslash : ∀ part ∈ (l :: ls).map escaped, '/' ∉ part := by
          intro part hpart
          obtain ⟨l', -, rfl⟩ := List.mem_map.mp hpart
          exact Pointer.slash_notMem_escaped l'.toList
        rw [Pointer.labels, List.splitOn_intercalate '/' hslash (by simp), List.map_map]
        simp [escaped, Function.comp_def, Pointer.unescaped_flatMap_escapedChar]

/-- Where there are steps, the text is what the steps say and no more. -/
theorem text_eq_iff_labels {p q : Path} (hp : p ≠ root) (hq : q ≠ root) :
    p.text = q.text ↔ p.labels = q.labels := by
  constructor
  · intro h
    obtain ⟨rest, hrest, hp⟩ := exists_labels_eq hp
    obtain ⟨rest', hrest', hq⟩ := exists_labels_eq hq
    rw [h, hrest', List.cons.injEq] at hrest
    rw [← hp, ← hq, hrest.2]
  · intro h
    rw [← String.toList_inj, toList_text hp, toList_text hq, chars_eq_flatMap_labels,
      chars_eq_flatMap_labels, h]

/-- The one path whose only label is empty goes to the empty key. -/
theorem labels_eq_singleton_iff {p : Path} : p.labels = [""] ↔ p = root.key "" := by
  constructor
  · intro h
    obtain ⟨s, hs, hlabel⟩ := List.map_eq_singleton_iff.mp h
    rw [Step.label_eq_empty_iff.mp hlabel] at hs
    exact congrArg Path.mk hs
  · rintro rfl
    rfl

/-- Only the empty key is written like the root. -/
theorem text_eq_root_iff {p : Path} (hp : p ≠ root) : p.text = root.text ↔ p = root.key "" := by
  have hkey : root.key "" ≠ root := by decide
  show p.text = (root.key "").text ↔ _
  rw [text_eq_iff_labels hp hkey, labels_eq_singleton_iff.mpr rfl, labels_eq_singleton_iff]

theorem labels_root_eq_iff {p : Path} : p.labels = root.labels ↔ p = root := by
  constructor
  · intro h
    by_contra hp
    exact labels_ne_nil hp h
  · rintro rfl
    rfl

end Path

/-! ## Paths into one document -/

/-- A value has keys or it has indices, so what a step into it says is the whole step. -/
theorem Step.eq_of_label_eq {x y z : Document} {s t : Step} (hs : x.child? s = some y)
    (ht : x.child? t = some z) (h : s.label = t.label) : s = t := by
  cases x with
  | object entries =>
      cases s with
      | index m => simp [Document.child?] at hs
      | key name =>
          cases t with
          | index n => simp [Document.child?] at ht
          | key name' => exact congrArg Step.key h
  | array items =>
      cases s with
      | key name => simp [Document.child?] at hs
      | index m =>
          cases t with
          | key name => simp [Document.child?] at ht
          | index n => exact congrArg Step.index (Step.index_of_label_eq h)
  | _ => simp [Document.child?] at hs

/-- Step by step, two paths that say the same lead through the same values. -/
theorem steps_eq_of_labels_eq {s t : List Step} : ∀ {d x y : Document},
    s.foldlM Document.child? d = some x → t.foldlM Document.child? d = some y →
      s.map Step.label = t.map Step.label → s = t := by
  induction s generalizing t with
  | nil =>
      intro d x y _ _ h
      exact (List.map_eq_nil_iff.mp h.symm).symm
  | cons a s ih =>
      intro d x y hs ht h
      cases t with
      | nil => simp at h
      | cons b t =>
          rw [List.foldlM_cons] at hs ht
          obtain ⟨x', hx', hs⟩ := Option.bind_eq_some_iff.mp hs
          obtain ⟨y', hy', ht⟩ := Option.bind_eq_some_iff.mp ht
          rw [List.map_cons, List.map_cons, List.cons.injEq] at h
          obtain rfl := Step.eq_of_label_eq hx' hy' h.1
          obtain rfl : x' = y' := Option.some.inj (hx'.symm.trans hy')
          rw [ih hs ht h.2]

theorem Path.eq_of_labels_eq {d : Document} {p q : Path} (hp : d.HasPlace p) (hq : d.HasPlace q)
    (h : p.labels = q.labels) : p = q := by
  obtain ⟨x, hx⟩ := hp
  obtain ⟨y, hy⟩ := hq
  exact congrArg Path.mk (steps_eq_of_labels_eq hx hy h)

/-- **PATHS ARE POINTERS**: behind its first slash the text of a path other than the root splits
    at the slashes into the escaped texts of its steps, keys as they are and indices in
    digits.  So two paths have one text exactly if their steps say the same in order, or one of
    them is the root and the other one the empty key; and two places of one document, other
    than its root, never have one text. -/
theorem paths_are_pointers :
    (∀ p : Path, p ≠ .root →
        ∃ rest, p.text.toList = '/' :: rest ∧ Pointer.labels rest = p.labels)
      ∧ (∀ p q : Path, p.text = q.text ↔ p.labels = q.labels
        ∨ (p = .root ∧ q = Path.root.key "") ∨ (q = .root ∧ p = Path.root.key ""))
      ∧ ∀ (d : Document) (p q : Path), d.HasPlace p → d.HasPlace q → p ≠ .root → q ≠ .root →
        p ≠ q → p.text ≠ q.text := by
  refine ⟨fun p hp => Path.exists_labels_eq hp, ?_, ?_⟩
  · intro p q
    have hkey : Path.root.key "" ≠ .root := by decide
    by_cases hp : p = .root
    · subst hp
      by_cases hq : q = .root
      · subst hq
        simp
      · rw [eq_comm, Path.text_eq_root_iff hq, eq_comm (a := Path.root.labels),
          Path.labels_root_eq_iff]
        simp [hq]
    · by_cases hq : q = .root
      · subst hq
        rw [Path.text_eq_root_iff hp, Path.labels_root_eq_iff]
        simp [hp]
      · rw [Path.text_eq_iff_labels hp hq]
        simp [hp, hq]
  · intro d p q hp hq hp' hq' hne htext
    exact hne (Path.eq_of_labels_eq hp hq ((Path.text_eq_iff_labels hp' hq').mp htext))

/-- A slash in a key, what escapes it in another key, and a key that looks like an index. -/
theorem paths_are_pointers_escaped :
    let d : Document := .object [("a/b", .array [.null]), ("a~1b", .object [("0", .null)])]
    let p : Path := (Path.root.key "a/b").index 0
    let q : Path := (Path.root.key "a~1b").key "0"
    let r : Path := (Path.root.key "a/b").key "0"
    p.text = "/a~1b/0" ∧ q.text = "/a~01b/0"
      ∧ d.HasPlace p ∧ d.HasPlace q ∧ p ≠ .root ∧ q ≠ .root ∧ p ≠ q ∧ p.text ≠ q.text
      ∧ (∃ rest, q.text.toList = '/' :: rest ∧ Pointer.labels rest = ["a~1b", "0"])
      ∧ p ≠ r ∧ p.text = r.text := by
  intro d p q r
  obtain ⟨hread, hsame, hdistinct⟩ := paths_are_pointers
  have hp : d.HasPlace p := ⟨.null, rfl⟩
  have hq : d.HasPlace q := ⟨.null, rfl⟩
  have htext := hdistinct d p q hp hq (by decide) (by decide) (by decide)
  exact ⟨rfl, rfl, hp, hq, by decide, by decide, by decide, htext, hread q (by decide),
    by decide, (hsame p r).mpr (.inl rfl)⟩

end RecordFilter.Filter
