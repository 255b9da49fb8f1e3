import Mathlib.Data.String.Basic
import RecordFilter.Proofs.ErrorKinds
import RecordFilter.Proofs.WrittenForms

/-! # A text and its document

    A filter may come as a text or as the document in it, and the two ways in are
    meant to answer alike.  They count depth differently: the limit of a compiler
    is on the combinators of the filter, and that of the reader on the brackets of
    the text.  A filter of `k` nested combinators opens two brackets for each of
    them and two or three for its innermost leaf (`Nests`), so the reader, with
    room for 127 brackets, gives up beyond 62 combinators, whatever the limit of
    the compiler allows. -/

namespace RecordFilter.Filter

open Json Document

/-! ## The brackets of filters -/

/-- How many brackets are open at once in the document of a tree: two for every
    combinator, two for a leaf and one more for a set. -/
structure Nests (d : Document) (n : Node) : Prop where
  least : 2 * n.depth + 2 ≤ d.nesting
  most : d.nesting ≤ 2 * n.depth + 3

/-- Literals do not nest. -/
theorem nesting_of_literalOf {d : Document} {l : Literal} (h : LiteralOf d l) :
    d.nesting = 0 := by
  cases h <;> rfl

theorem nestingOfItems_of_literals {ds : List Document} {ls : List Literal}
    (h : List.Forall₂ LiteralOf ds ls) : nestingOfItems ds = 0 := by
  induction h with
  | nil => rfl
  | cons hd _ ih => rw [nestingOfItems, nesting_of_literalOf hd, ih]; rfl

/-- An operand nests once at most: in a set. -/
theorem nesting_of_operandOf {d : Document} {operand : Operand} (h : OperandOf d operand) :
    d.nesting ≤ 1 := by
  cases h with
  | null => exact Nat.zero_le 1
  | scalar hl => rw [nesting_of_literalOf hl]; exact Nat.zero_le 1
  | set hls => exact Nat.le_of_eq (by rw [nesting, nestingOfItems_of_literals hls])

/-- The greatest nesting of the items goes with the greatest depth of the trees. -/
theorem nests_all {path : Path} {i : Nat} {ds : List Document} {ns : List Node}
    (h : RepresentsAll path i ds ns)
    (ih : ∀ n ∈ ns, ∀ d ∈ ds, ∀ path, Represents path d n → Nests d n) :
    nestingOfItems ds ≤ 2 * Node.greatestDepth ns + 3
      ∧ (ds ≠ [] → 2 * Node.greatestDepth ns + 2 ≤ nestingOfItems ds) := by
  induction ns generalizing i ds with
  | nil =>
      cases h with
      | nil => exact ⟨Nat.zero_le _, fun h => absurd rfl h⟩
  | cons n ns ihs =>
      cases h with
      | @cons _ _ d _ ds _ hn hns =>
          obtain ⟨hleast, hmost⟩ := ih n (List.mem_cons_self ..) d (List.mem_cons_self ..) _ hn
          obtain ⟨hrestMost, hrestLeast⟩ := ihs hns fun m hm x hx =>
            ih m (List.mem_cons_of_mem _ hm) x (List.mem_cons_of_mem _ hx)
          rw [nestingOfItems, Node.greatestDepth]
          refine ⟨by omega, fun _ => ?_⟩
          cases hns with
          | nil => rw [Node.greatestDepth]; omega
          | cons _ _ =>
              have := hrestLeast (List.cons_ne_nil _ _)
              omega

/-- **FILTERS NEST TWICE AS DEEP AS THEIR COMBINATORS**, and two or three brackets
    more. -/
theorem nests_of_represents {limits : Limits} {n : Node} :
    ∀ {depth : Nat} {path : Path} {d : Document}, Conforms limits depth d →
      Represents path d n → Nests d n := by
  induction n with
  | leaf field op operand path =>
      intro depth _ d _ hrep
      cases hrep with
      | leaf _ _ _ hoperand =>
          have := nesting_of_operandOf hoperand
          constructor
          all_goals
            simp only [nesting, nestingOfEntries, Node.depth]
            omega
  | combinator k ns path ih =>
      intro depth _ d hconf hrep
      cases hrep with
      | combinator hns =>
          obtain ⟨-, ds, heq, hne, hds⟩ := (conforms_combinator_iff (keyword_eq k)).mp hconf
          obtain rfl := Document.array.inj heq
          obtain ⟨hmost, hleast⟩ := nests_all hns fun n hn d hd path hrep =>
            ih n hn (hds d hd) hrep
          -- there is a child, so the bounds of the children carry over
          have := hleast hne
          constructor
          all_goals
            simp only [nesting, nestingOfEntries, Node.depth]
            omega

/-- The reader has room for a filter of 62 nested combinators, and no more. -/
theorem nesting_le_iff_of_parse_ok {limits : Limits} {d : Document} {n : Node}
    (h : parse limits d = .ok n) : d.nesting ≤ 127 ↔ n.depth ≤ 62 := by
  obtain ⟨hconf, hrep⟩ := conforms_of_parse_ok h
  obtain ⟨hleast, hmost⟩ := nests_of_represents hconf hrep
  omega

/-! ## Results that are the same -/

/-- Equal predicates, or errors of one kind, wording and place. -/
inductive SameResult : Except Error Predicate → Except Error Predicate → Prop where
  | ok (p : Predicate) : SameResult (.ok p) (.ok p)
  | error {e e' : Error} : e.kind = e'.kind → e.message = e'.message → e.path = e'.path →
      SameResult (.error e) (.error e')

/-- Every result is the same as itself. -/
theorem SameResult.refl (x : Except Error Predicate) : SameResult x x := by
  cases x with
  | ok p => exact .ok p
  | error e => exact .error rfl rfl rfl

/-- The words for a text that is nested too deep. -/
def nestedTooDeep : Problem := .malformed (.fault .tooDeep)

theorem head_append {a s : String} {c : Char} (ha : a.toList.head? = some c) :
    (a ++ s).toList.head? = some c := by
  rw [String.toList_append, List.head?_append, ha]
  rfl

theorem ne_of_head {s t : String} {c : Char} (hs : s.toList.head? = some c)
    (ht : t.toList.head? ≠ some c) : s ≠ t := by
  rintro rfl
  exact ht hs

/-- No problem of the structure of a document has the words of one of its text. -/
theorem message_ne_nestedTooDeep {p : Problem} (hkind : p.kind = .structural)
    (hcause : p.cause? = none) : p.message ≠ nestedTooDeep.message := by
  -- what is fixed of a message are its first words, and the first letter tells them apart
  have hop : ∀ op rest, Problem.aboutOperator op rest ≠ nestedTooDeep.message := fun op rest =>
    ne_of_head (head_append (head_append (head_append (c := 'o') (by decide)))) (by decide)
  cases p with
  | textTooLong most =>
      exact ne_of_head (head_append (head_append (c := 'f') (by decide))) (by decide)
  | malformed e => exact nomatch hcause
  | repeatedKey key =>
      exact ne_of_head (head_append (head_append (c := 'd') (by decide))) (by decide)
  | objectExpected => decide
  | emptyNode => decide
  | severalPredicates => decide
  | tooDeep => decide
  | noConditions k => cases k <;> decide
  | conditionsNotArray k => cases k <;> decide
  | missingOperator => decide
  | severalOperators => decide
  | unsupportedOperator token =>
      exact ne_of_head (head_append (head_append (c := 'u') (by decide))) (by decide)
  | setExpected op => exact hop op _
  | emptySet op => exact hop op _
  | setTooLong op most => exact hop op _
  | notScalars op => exact hop op _
  | scalarExpected op => exact hop op _
  | unknownField e => exact nomatch hkind
  | invalidValue field e => exact nomatch hkind
  | notOrderable op => exact nomatch hkind
  | nullOrdering op => exact nomatch hkind

/-- A document is never refused like a text that is nested too deep. -/
theorem not_sameResult_nestedTooDeep (c : Compiler) (d : Document) :
    ¬ SameResult (.error ⟨nestedTooDeep, .root⟩) (c.compileDocument d) := by
  intro hsame
  cases hresult : c.compileDocument d with
  | ok p =>
      rw [hresult] at hsame
      exact nomatch hsame
  | error e =>
      rw [hresult] at hsame
      cases hsame with
      | error hkind hmessage hpath =>
          cases hn : parse c.limits d with
          | ok n => exact kind_ne_structural_of_parse_ok hn hresult hkind.symm
          | error e' =>
              rw [compileDocument_of_parse_error hn] at hresult
              obtain rfl := Except.error.inj hresult
              have hblames := blames_of_parse_error hn
              exact message_ne_nestedTooDeep hblames.structural hblames.noCause hmessage.symm

/-! ## The two ways in -/

/-- A text without repeated keys is parsed like the document that is read from it. -/
theorem parseText_eq_parse {limits : Limits} {text : String} {d : Document}
    (hlength : text.utf8ByteSize ≤ limits.maxTextLength)
    (hread : readDocument .usual text = .ok d) (hkeys : ¬ d.RepeatsKey) :
    parseText limits text = parse limits d := by
  rw [parseText_eq_of_readDocument hlength hread, firstRepeated?_eq_none_iff.mpr hkeys,
    collapse_eq_self hkeys]
  rfl

/-- A text that parses is a document within the usual limit, and parses like it. -/
theorem exists_of_parseText_ok {limits : Limits} {text : String} {n : Node}
    (h : parseText limits text = .ok n) :
    ∃ d, readDocument .usual text = .ok d ∧ parse limits d = .ok n := by
  by_cases hlength : limits.maxTextLength < text.utf8ByteSize
  · rw [parseText, if_pos hlength] at h
    cases h
  · cases hread : readDocument .usual text with
    | error e =>
        rw [parseText, if_neg hlength, hread] at h
        cases h
    | ok d =>
        rw [parseText_eq_of_readDocument (Nat.not_lt.mp hlength) hread] at h
        cases hscan : firstRepeated? (keyOccurrences .root d) with
        | some e =>
            rw [hscan] at h
            cases h
        | none =>
            rw [hscan, collapse_eq_self (firstRepeated?_eq_none_iff.mp hscan)] at h
            exact ⟨d, rfl, h⟩

/-- The text of a document that nests as deep as the reader allows and repeats no
    key is compiled like the document. -/
theorem compileText_eq_compileDocument (c : Compiler) {text : String} {d : Document}
    (hlength : text.utf8ByteSize ≤ c.limits.maxTextLength)
    (hread : readDocument .unlimited text = .ok d) (hkeys : ¬ d.RepeatsKey)
    (hnesting : d.nesting ≤ 127) : c.compileText text = c.compileDocument d := by
  have husual : readDocument .usual text = .ok d := by
    rw [readDocument_usual hread, if_pos hnesting]
  rw [Compiler.compileText, parseText_eq_parse hlength husual hkeys]
  rfl

/-- A text that nests deeper than the reader allows is refused at its root. -/
theorem compileText_of_nesting (c : Compiler) {text : String} {d : Document}
    (hlength : text.utf8ByteSize ≤ c.limits.maxTextLength)
    (hread : readDocument .unlimited text = .ok d) (hnesting : 127 < d.nesting) :
    c.compileText text = .error ⟨nestedTooDeep, .root⟩ := by
  have husual : readDocument .usual text = .error (.fault .tooDeep) := by
    rw [readDocument_usual hread, if_neg (Nat.not_le.mpr hnesting)]
  rw [Compiler.compileText, parseText, if_neg (Nat.not_lt.mpr hlength), husual]
  rfl

/-- **THE READER'S LIMIT DECIDES**: a text within the limit on its length that is a
    document without repeated keys is compiled like the document exactly if the
    reader has room for its brackets, and is refused at its root for them
    otherwise; for a filter that means 62 nested combinators, whatever the limit on
    them. -/
theorem compileText_agrees_iff (c : Compiler) {text : String} {d : Document}
    (hlength : text.utf8ByteSize ≤ c.limits.maxTextLength)
    (hread : readDocument .unlimited text = .ok d) (hkeys : ¬ d.RepeatsKey) :
    (SameResult (c.compileText text) (c.compileDocument d) ↔ d.nesting ≤ 127)
      ∧ (d.nesting ≤ 127 → c.compileText text = c.compileDocument d)
      ∧ (127 < d.nesting → c.compileText text = .error ⟨nestedTooDeep, .root⟩)
      ∧ ∀ n, parse c.limits d = .ok n → (d.nesting ≤ 127 ↔ n.depth ≤ 62) := by
  have hagrees := compileText_eq_compileDocument c hlength hread hkeys
  have hrefused := compileText_of_nesting c hlength hread
  refine ⟨⟨fun hsame => ?_, fun hnesting => ?_⟩, hagrees, hrefused,
    fun n => nesting_le_iff_of_parse_ok⟩
  · by_contra hnesting
    rw [hrefused (Nat.lt_of_not_le hnesting)] at hsame
    exact not_sameResult_nestedTooDeep c d hsame
  · rw [hagrees hnesting]
    exact .refl _

set_option maxRecDepth 4000 in
/-- Under the usual limits a filter inside of 63 combinators is compiled from its
    document, but its text is refused for the brackets. -/
theorem compileText_agrees_iff_at_limit :
    let person : Entity := ⟨"Person", [⟨"age", .int32⟩]⟩
    let c : Compiler := ⟨person.resolver, "Person", .usual⟩
    let leaf : Document := .object [("age", .object [("eq", .number "1")])]
    let inside (d : Document) : Document := .object [("AND", .array [d])]
    let d := Nat.repeat inside 63 leaf
    readDocument .unlimited d.print = .ok d
      ∧ c.compileDocument d = .ok (.comparison .eq "age" (.int32 1))
      ∧ c.compileText d.print = .error ⟨nestedTooDeep, .root⟩
      ∧ ¬ SameResult (c.compileText d.print) (c.compileDocument d) := by
  intro person c leaf inside d
  have hspells : ∀ k, ∃ r, Spells (Nat.repeat inside k leaf) r := by
    intro k
    induction k with
    | zero => exact ⟨_, .object (.cons (.object (.cons (.integer 1) .nil)) .nil)⟩
    | succ k ih =>
        obtain ⟨r, hr⟩ := ih
        exact ⟨_, .object (.cons (.array (.cons hr .nil)) .nil)⟩
  obtain ⟨r, hr⟩ := hspells 63
  have hread : readDocument .unlimited d.print = .ok d := readDocument_print hr
  have hlength : d.print.utf8ByteSize ≤ c.limits.maxTextLength := by
    rw [Document.print, String.utf8ByteSize_ofList]
    decide +kernel
  have hkeys : ¬ d.RepeatsKey :=
    (exists_repeats_iff d .root).not.mp (by decide +kernel)
  have hdocument : c.compileDocument d = .ok (.comparison .eq "age" (.int32 1)) := rfl
  obtain ⟨hagree, -, hrefused, -⟩ := compileText_agrees_iff c hlength hread hkeys
  have hnesting : ¬ d.nesting ≤ 127 := by decide +kernel
  exact ⟨hread, hdocument, hrefused (Nat.lt_of_not_le hnesting), fun h => hnesting (hagree.mp h)⟩

end RecordFilter.Filter
