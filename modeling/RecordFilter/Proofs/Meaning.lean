import RecordFilter.Proofs.Building
import RecordFilter.Proofs.Combine
import RecordFilter.Proofs.Parsing

/-! # The meaning of filter documents

    What a document says of a record, read off the document itself: nodes under
    a keyword join the meanings of their items, each taken on its own, and a
    leaf looks its field up in the record.  There is no tree and no predicate
    in between, so nothing is merged or unwrapped here.

    A document that compiles has this meaning, and its predicate evaluates to
    it (`evaluate_eq_meaning`). -/

namespace RecordFilter.Filter

open Json

/-! ## Leaves -/

/-- The value that a scalar stands for at a type. -/
def coerced? (t : FieldType) (d : Document) : Option Value :=
  (literalOf? d).bind fun l => (t.coerce l).toOption

/-- What a token says of a field without an operand to compare it with. -/
def absenceMeaning? (u? : Option Value) : String → Option Bool
  | "eq" => some u?.isNone
  | "!eq" | "neq" => some u?.isSome
  | _ => none

/-- What a token says of a field and a value.  Nothing holds of an absent
    field. -/
def comparisonMeaning? (u? : Option Value) (v : Value) : String → Option Bool
  | "eq" => some (u?.any fun u => u.order v == some .eq)
  | "!eq" | "neq" => some (u?.any fun u => u.order v != some .eq)
  | "gt" => some (u?.any fun u => u.order v == some .gt)
  | "ge" => some (u?.any fun u => u.order v == some .gt || u.order v == some .eq)
  | "lt" => some (u?.any fun u => u.order v == some .lt)
  | "le" => some (u?.any fun u => u.order v == some .lt || u.order v == some .eq)
  | _ => none

/-- What a token says of a field and a set of values.  An absent field is
    outside of every set. -/
def membershipMeaning? (u? : Option Value) (vs : List Value) : String → Option Bool
  | "in" => some (u?.any fun u => vs.any fun v => u.order v == some .eq)
  | "!in" | "nin" => some (u?.all fun u => vs.all fun v => u.order v != some .eq)
  | _ => none

/-- What a token and an operand say of a field of a type. -/
def leafMeaning? (t : FieldType) (u? : Option Value) (token : String) :
    Document → Option Bool
  | .null => absenceMeaning? u? token
  | .array ds => (ds.mapM (coerced? t)).bind fun vs => membershipMeaning? u? vs token
  | d => (coerced? t d).bind fun v => comparisonMeaning? u? v token

/-! ## Nodes -/

mutual

/-- What a document says of a record whose fields have the given types. -/
def meaning? (types : String → Except ResolveError FieldType) (r : Record) :
    Document → Option Bool
  | .object [(key, d)] => entryMeaning? types r key d
  | _ => none

/-- What the value under a key says of a record. -/
def entryMeaning? (types : String → Except ResolveError FieldType) (r : Record)
    (key : String) : Document → Option Bool
  | .array ds =>
      if key = "AND" then (meanings? types r ds).map fun bs => bs.all id
      else if key = "OR" then (meanings? types r ds).map fun bs => bs.any id
      else none
  | .object [(token, d)] =>
      if key = "AND" ∨ key = "OR" then none
      else (types key).toOption.bind fun t => leafMeaning? t (r.field? key) token d
  | _ => none

/-- What documents say of a record, one by one. -/
def meanings? (types : String → Except ResolveError FieldType) (r : Record) :
    List Document → Option (List Bool)
  | [] => some []
  | d :: ds => (meaning? types r d).bind fun b => (meanings? types r ds).map (b :: ·)

end

/-! ## A leaf evaluates to its meaning -/

/-- A comparison answers what its token says of the field and the value. -/
theorem comparisonMeaning?_eq {token : String} {c : Comparison}
    (h : (token, Operator.compare c) ∈ tokens) (r : Record) (field : String) (v : Value) :
    comparisonMeaning? (r.field? field) v token
      = some ((Predicate.comparison c field v).evaluate r) := by
  rw [Predicate.evaluate]
  cases c with
  | eq =>
      obtain rfl : token = "eq" := by simpa [tokens] using h
      cases r.field? field <;> rfl
  | ne =>
      obtain rfl | rfl : token = "!eq" ∨ token = "neq" := by simpa [tokens] using h
      · cases r.field? field <;> rfl
      · cases r.field? field <;> rfl
  | lt =>
      obtain rfl : token = "lt" := by simpa [tokens] using h
      cases r.field? field <;> rfl
  | le =>
      obtain rfl : token = "le" := by simpa [tokens] using h
      cases r.field? field <;> rfl
  | gt =>
      obtain rfl : token = "gt" := by simpa [tokens] using h
      cases r.field? field <;> rfl
  | ge =>
      obtain rfl : token = "ge" := by simpa [tokens] using h
      cases r.field? field <;> rfl

/-- Being outside of a set is being unequal to all its values. -/
theorem evaluate_outside (r : Record) (field : String) (vs : List Value) :
    (Predicate.membership true field vs).evaluate r
      = (r.field? field).all fun u => vs.all fun v => u.order v != some .eq := by
  rw [Predicate.evaluate]
  cases r.field? field with
  | none => rfl
  | some u =>
      -- no member is equal to the value if every member differs from it
      show (true != vs.any fun v => u.order v == some .eq) = vs.all fun v => u.order v != some .eq
      rw [Bool.true_bne, List.not_any_eq_all_not]
      rfl

/-- A set answers what its token says of the field and the values. -/
theorem membershipMeaning?_eq {token : String} {negated : Bool}
    (h : (token, Operator.member negated) ∈ tokens) (r : Record) (field : String)
    (vs : List Value) :
    membershipMeaning? (r.field? field) vs token
      = some ((Predicate.membership negated field vs).evaluate r) := by
  cases negated with
  | false =>
      obtain rfl : token = "in" := by simpa [tokens] using h
      rw [Predicate.evaluate]
      cases r.field? field with
      | none => rfl
      | some u =>
          show some _ = some (false != _)
          rw [Bool.false_bne]
          rfl
  | true =>
      rw [evaluate_outside]
      obtain rfl | rfl : token = "!in" ∨ token = "nin" := by simpa [tokens] using h
      · rfl
      · rfl

/-- A test of absence answers what its token says of null. -/
theorem absenceMeaning?_eq (negated : Bool) {token : String}
    (h : (token, Operator.compare (if negated then .ne else .eq)) ∈ tokens) (r : Record)
    (field : String) :
    absenceMeaning? (r.field? field) token
      = some ((Predicate.absence negated field).evaluate r) := by
  rw [Predicate.evaluate]
  cases negated with
  | false =>
      obtain rfl : token = "eq" := by simpa [tokens] using h
      cases r.field? field <;> rfl
  | true =>
      obtain rfl | rfl : token = "!eq" ∨ token = "neq" := by simpa [tokens] using h
      · cases r.field? field <;> rfl
      · cases r.field? field <;> rfl

theorem coerced?_eq {t : FieldType} {d : Document} {l : Literal} {v : Value}
    (hl : LiteralOf d l) (hv : t.coerce l = .ok v) : coerced? t d = some v := by
  rw [coerced?, literalOf?_eq_some.mpr hl]
  show (t.coerce l).toOption = some v
  rw [hv]
  rfl

theorem mapM_coerced?_eq {t : FieldType} {ds : List Document} {ls : List Literal}
    {vs : List Value} (hls : List.Forall₂ LiteralOf ds ls)
    (hvs : List.Forall₂ (fun l v => t.coerce l = .ok v) ls vs) :
    ds.mapM (coerced? t) = some vs := by
  induction hls generalizing vs with
  | nil =>
      cases hvs
      rfl
  | cons hl _ ih =>
      cases hvs with
      | cons hv hvs =>
          rw [List.mapM_cons, coerced?_eq hl hv, ih hvs]
          rfl

/-- **A LEAF MEANS ITS CONDITION**: what a leaf of a document says of its field
    is what the condition that it expresses evaluates to. -/
theorem leafMeaning?_eq {t : FieldType} {field token : String} {op : Operator} {d : Document}
    {operand : Operand} {p : Predicate} (htoken : (token, op) ∈ tokens)
    (hoperand : OperandOf d operand) (hp : Expresses t field op operand p) (r : Record) :
    leafMeaning? t (r.field? field) token d = some (p.evaluate r) := by
  cases hp with
  | absent =>
      cases hoperand
      exact absenceMeaning?_eq false htoken r field
  | present =>
      cases hoperand
      exact absenceMeaning?_eq true htoken r field
  | comparison hv =>
      cases hoperand with
      | scalar hl =>
          have hscalar : leafMeaning? t (r.field? field) token d
              = (coerced? t d).bind fun v => comparisonMeaning? (r.field? field) v token := by
            cases hl <;> rfl
          rw [hscalar, coerced?_eq hl hv, ← comparisonMeaning?_eq htoken r field]
          rfl
  | membership _ hvs =>
      cases hoperand with
      | set hls =>
          rw [leafMeaning?, mapM_coerced?_eq hls hvs, ← membershipMeaning?_eq htoken r field]
          rfl

/-! ## A document evaluates to its meaning -/

variable {resolver : Resolver} {entity : String}

theorem meanings?_eq {r : Record} {ns : List Node}
    (ih : ∀ n ∈ ns, ∀ path d p, Represents path d n → build resolver entity n = .ok p →
      meaning? (resolver entity) r d = some (p.evaluate r))
    {path : Path} {i : Nat} {ds : List Document} {ps : List Predicate}
    (hns : RepresentsAll path i ds ns)
    (hps : List.Forall₂ (fun n p => build resolver entity n = .ok p) ns ps) :
    meanings? (resolver entity) r ds = some (ps.map (Predicate.evaluate r)) := by
  -- what was built carries the induction: items and trees go along with it
  induction hps generalizing i ds with
  | nil =>
      cases hns
      rfl
  | @cons n p ns ps hp _ ihs =>
      cases hns with
      | cons hn hns =>
          rw [meanings?, ih n (List.mem_cons_self ..) _ _ p hn hp,
            ihs (fun m hm => ih m (List.mem_cons_of_mem _ hm)) hns]
          rfl

/-- **TREES KEEP THE MEANING**: the predicate of a tree evaluates to the meaning
    of the document that the tree stands for. -/
theorem meaning?_of_build_ok (r : Record) {n : Node} : ∀ {path : Path} {d : Document}
    {p : Predicate}, Represents path d n → build resolver entity n = .ok p →
      meaning? (resolver entity) r d = some (p.evaluate r) := by
  induction n with
  | leaf field op operand path =>
      intro _ d p hd hp
      obtain ⟨t, ht, -, hexp⟩ := expresses_of_leafCondition_ok hp
      cases hd with
      | leaf hand hor htoken hoperand =>
          rw [meaning?, entryMeaning?, if_neg (not_or.mpr ⟨hand, hor⟩), ht]
          exact leafMeaning?_eq htoken hoperand hexp r
  | combinator k ns path ih =>
      intro _ d p hd hp
      obtain ⟨ps, hps, hcombine⟩ := exists_of_build_combinator_ok hp
      cases hd with
      | combinator hns =>
          have hall := meanings?_eq (r := r) (fun n hn _ _ _ => ih n hn) hns hps
          rw [meaning?, entryMeaning?, hall, Predicate.evaluate_combine r hcombine]
          cases k with
          | and => rfl
          | or => rfl

/-- **COMPILATION KEEPS THE MEANING**: whatever the resolver, the limits and the
    record, the predicate of a document evaluates to what the document says. -/
theorem evaluate_eq_meaning (c : Compiler) (d : Document) (p : Predicate)
    (h : c.compileDocument d = .ok p) (r : Record) :
    meaning? (c.resolver c.entity) r d = some (p.evaluate r) := by
  obtain ⟨n, hn, hp⟩ := exists_of_compileDocument_ok h
  exact meaning?_of_build_ok r (represents_of_parse_ok hn).2 hp

/-- A first child of the same kind is merged and a single child unwrapped, and the
    absent name is outside of the set. -/
theorem evaluate_eq_meaning_merged :
    let person : Entity := ⟨"Person", [⟨"age", .int32⟩, ⟨"name", .text⟩]⟩
    let c : Compiler := ⟨person.resolver, "Person", {}⟩
    let d : Document := .object [("AND", .array [
      .object [("AND", .array [.object [("age", .object [("ge", .number "18")])],
        .object [("name", .object [("eq", .null)])]])],
      .object [("OR", .array [.object [("name", .object [("nin", .array [.string "Bob"])])]])]])]
    let p : Predicate := .compound .and [.comparison .ge "age" (.int32 18),
      .absence false "name", .membership true "name" [.text "Bob"]]
    let r := Record.ofRow [("age", .int32 20)]
    c.compileDocument d = .ok p ∧ p.evaluate r = true
      ∧ meaning? (c.resolver c.entity) r d = some (p.evaluate r) :=
  ⟨rfl, rfl, evaluate_eq_meaning _ _ _ rfl _⟩

end RecordFilter.Filter
