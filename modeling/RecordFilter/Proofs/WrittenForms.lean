import Mathlib.Data.List.Forall2
import RecordFilter.Json.Form
import RecordFilter.Proofs.Nesting
import RecordFilter.Proofs.PrintedText

/-! # Reading what was written

    `ReadsAs form room d a` says that the text of the document `d` is one that
    `form` reads as `a`.  Strings, booleans and integers read as what they hold,
    and so do arrays and records of things that read back, with one bracket less
    room for what is inside. -/

namespace RecordFilter.Json

open Document

variable {α β γ : Type} {room inner : Room}

/-- The text of a document is read as a value of a form. -/
def ReadsAs (form : Form α) (room : Room) (d : Document) (a : α) : Prop :=
  ∃ r, Spells d r ∧ form room r = .ok a

/-- A whole text that is read as a value. -/
theorem ReadsAs.decode {form : Form α} {d : Document} {a : α} (h : ReadsAs form .usual d a) :
    (readText d.print).decode (fun r => form .usual r) = .ok a := by
  obtain ⟨r, hr, hread⟩ := h
  rw [readText_print hr]
  exact TextReading.decode_eq_ok_iff.mpr ⟨hread, rfl⟩

/-- What a form makes of what it has read. -/
theorem ReadsAs.map {form : Form α} {d : Document} {a : α} (h : ReadsAs form room d a)
    (f : α → β) : ReadsAs (fun room r => (form room r).map f) room d (f a) := by
  obtain ⟨r, hr, hread⟩ := h
  exact ⟨r, hr, congrArg (Except.map f) hread⟩

/-- What is read may be put through a check that it passes. -/
theorem ReadsAs.bind {form : Form α} {d : Document} {a : α} {f : α → Except Error β} {b : β}
    (h : ReadsAs form room d a) (hf : f a = .ok b) :
    ReadsAs (fun room r => (form room r).bind f) room d b := by
  obtain ⟨r, hr, hread⟩ := h
  exact ⟨r, hr, (congrArg (Except.bind · f) hread).trans hf⟩

/-! ## Scalars -/

/-- A string is read as itself, whatever a message would call it. -/
theorem readsAs_string (room : Room) (expected s : String) :
    ReadsAs (stringFormAs expected) room (.string s) s :=
  ⟨.string (.ok s), .string s, rfl⟩

theorem readsAs_bool (room : Room) (b : Bool) : ReadsAs boolForm room (.bool b) b :=
  ⟨.bool b, .bool b, rfl⟩

/-- The numeral of an integer of 64 bits is the numeral of that integer. -/
theorem integer?_ofInt {n : Int} (h : (IntegerRange.signed 64).Contains n) :
    (Numeral.ofInt n).integer? = some n := by
  obtain ⟨hleast, hgreatest⟩ : -2 ^ 63 ≤ n ∧ n ≤ 2 ^ 63 - 1 := h
  simp only [Numeral.integer?, Numeral.ofInt, ofDigits_digitsOf, decide_eq_true_eq]
  by_cases hn : n < 0
  · rw [if_pos hn, if_pos (by omega)]
    congr 1
    omega
  · rw [if_neg hn, if_pos (by rw [Numeral.mostGathered]; omega)]
    congr 1
    omega

/-- Integers of a range within 64 bits are read. -/
theorem readsAs_integer (room : Room) {range : IntegerRange} {n : Int} (expected : String)
    (hrange : range.Contains n) (h : (IntegerRange.signed 64).Contains n) :
    ReadsAs (integerForm range expected) room (.number (integerText n)) n := by
  refine ⟨.number (.ofInt n), .integer n, ?_⟩
  rw [integerForm, Numeral.toNumber, integer?_ofInt h]
  exact if_pos hrange

/-! ## Arrays -/

/-- An array is read as a sequence if its items are read one by one inside of its bracket. -/
theorem readsAs_sequence {item : Form α} {ds : List Document} {as : List α}
    (henter : room.enter = .ok inner) (h : List.Forall₂ (ReadsAs item inner) ds as) :
    ReadsAs (sequenceForm item) room (.array ds) as := by
  -- spelling and reading go along the items together
  have hall : ∃ rs, SpellsItems ds rs ∧ readSequence item inner rs = .ok as := by
    induction h with
    | nil => exact ⟨[], .nil, rfl⟩
    | cons hd _ ih =>
        obtain ⟨r, hr, hread⟩ := hd
        obtain ⟨rs, hrs, hreads⟩ := ih
        refine ⟨r :: rs, .cons hr hrs, ?_⟩
        rw [readSequence, hread, hreads]
        rfl
  obtain ⟨rs, hrs, hreads⟩ := hall
  refine ⟨.array rs .closed, .array hrs, ?_⟩
  rw [sequenceForm, henter]
  show (readSequence item inner rs).bind _ = _
  rw [hreads]
  rfl

/-! ## Records -/

/-- A whole object is read as a record if its fields are, and nothing is missing in the end. -/
theorem read_object {σ : Type} {form : RecordForm σ α} {rs : List (Label × Reading)}
    (state : σ) {a : α} (henter : room.enter = .ok inner)
    (hfields : readFields form.field inner form.start rs = .ok state)
    (hfinish : form.finish state = .ok a) :
    form.read room (.object rs .closed) = .ok a := by
  rw [RecordForm.read, henter]
  show (readFields form.field inner form.start rs).bind _ = _
  rw [hfields]
  exact hfinish

theorem readFields_cons {σ : Type} {field : Room → σ → String → Reading → Except Error σ}
    {name : String} {r : Reading} {rest : List (Label × Reading)} {state state' : σ}
    (h : field room state name r = .ok state') :
    readFields field room state ((.ok name, r) :: rest) = readFields field room state' rest := by
  rw [readFields]
  show (field room state name r).bind _ = _
  rw [h]
  rfl

theorem readOnce_none {form : Form α} {name : String} {r : Reading} {a : α}
    (h : form room r = .ok a) : readOnce name form room none r = .ok (some a) := by
  rw [readOnce, h]
  rfl

/-- **RECORDS OF ONE FIELD READ BACK** from an object with this field. -/
theorem readsAs_oneField {expected name : String} {form : Form α} {make : α → β}
    {d : Document} {a : α} (henter : room.enter = .ok inner) (h : ReadsAs form inner d a) :
    ReadsAs (oneField expected name form make).read room (.object [(name, d)]) (make a) := by
  obtain ⟨r, hr, hread⟩ := h
  refine ⟨_, .object (.cons hr .nil), read_object (some a) henter ?_ rfl⟩
  rw [readFields_cons ((if_pos rfl).trans (readOnce_none hread))]
  rfl

/-- **RECORDS OF TWO FIELDS READ BACK** from an object with both, in their order. -/
theorem readsAs_twoFields {expected name₁ name₂ : String} {form₁ : Form α} {form₂ : Form β}
    {make : α → β → γ} {d₁ d₂ : Document} {a : α} {b : β} (hname : name₂ ≠ name₁)
    (henter : room.enter = .ok inner) (h₁ : ReadsAs form₁ inner d₁ a)
    (h₂ : ReadsAs form₂ inner d₂ b) :
    ReadsAs (twoFields expected name₁ form₁ name₂ form₂ make).read room
      (.object [(name₁, d₁), (name₂, d₂)]) (make a b) := by
  obtain ⟨r₁, hr₁, hread₁⟩ := h₁
  obtain ⟨r₂, hr₂, hread₂⟩ := h₂
  -- each entry is told by its name, which is why the names must differ
  have hfirst : (twoFields expected name₁ form₁ name₂ form₂ make).field inner (none, none) name₁ r₁
      = .ok (some a, none) := by
    show (if name₁ = name₁ then _ else _) = _
    rw [if_pos rfl, readOnce_none hread₁]
    rfl
  have hsecond : (twoFields expected name₁ form₁ name₂ form₂ make).field inner (some a, none)
      name₂ r₂ = .ok (some a, some b) := by
    show (if name₂ = name₁ then _ else if name₂ = name₂ then _ else _) = _
    rw [if_neg hname, if_pos rfl, readOnce_none hread₂]
    rfl
  refine ⟨_, .object (.cons hr₁ (.cons hr₂ .nil)), read_object (some a, some b) henter ?_ rfl⟩
  show readFields _ inner (none, none) _ = _
  rw [readFields_cons hfirst, readFields_cons hsecond]
  rfl

/-! ## Documents -/

/-- Items are read as the documents that they spell, if each of them is. -/
theorem documentItems_of_spells {ds : List Document}
    (ih : ∀ d ∈ ds, ∀ r, Spells d r → r.document .unlimited = .ok d) {rs : List Reading}
    (h : SpellsItems ds rs) : Reading.documentItems .unlimited rs = .ok ds := by
  induction ds generalizing rs with
  | nil =>
      cases h
      rfl
  | cons d ds ihs =>
      cases h with
      | cons hd hds =>
          rw [Reading.documentItems_cons, ih d (List.mem_cons_self ..) _ hd,
            Except.bind, ihs (fun x hx => ih x (List.mem_cons_of_mem _ hx)) hds]
          rfl

/-- Entries are read as the keys and documents that they spell, if each value is. -/
theorem documentEntries_of_spells {ds : List (String × Document)}
    (ih : ∀ key d, (key, d) ∈ ds → ∀ r, Spells d r → r.document .unlimited = .ok d)
    {rs : List (Label × Reading)} (h : SpellsEntries ds rs) :
    Reading.documentEntries .unlimited rs = .ok ds := by
  induction ds generalizing rs with
  | nil =>
      cases h
      rfl
  | cons entry ds ihs =>
      cases h with
      | cons hd hds =>
          rw [Reading.documentEntries_cons, ih _ _ (List.mem_cons_self ..) _ hd,
            Except.bind, ihs (fun k x hx => ih k x (List.mem_cons_of_mem _ hx)) hds]
          rfl

/-- A reading that a document spells is read as this document. -/
theorem document_of_spells (d : Document) :
    ∀ r, Spells d r → r.document .unlimited = .ok d := by
  induction d with
  | null =>
      intro r h
      cases h
      rfl
  | bool b =>
      intro r h
      cases h
      rfl
  | number s =>
      intro r h
      cases h with
      | integer n => exact congrArg (Except.ok ∘ Document.number) (Numeral.text_ofInt n)
  | string s =>
      intro r h
      cases h
      rfl
  | array ds ih =>
      intro r h
      cases h with
      | array hds =>
          rw [Reading.document_array]
          show (Reading.documentItems .unlimited _).bind _ = _
          rw [documentItems_of_spells ih hds]
          rfl
  | object ds ih =>
      intro r h
      cases h with
      | object hds =>
          rw [Reading.document_object]
          show (Reading.documentEntries .unlimited _).bind _ = _
          rw [documentEntries_of_spells ih hds]
          rfl

/-- **A DOCUMENT IS WHAT ITS TEXT HOLDS**, however deep it nests, if its numbers
    are integers. -/
theorem readDocument_print {d : Document} {r : Reading} (h : Spells d r) :
    readDocument .unlimited d.print = .ok d := by
  rw [readDocument, readText_print h]
  exact TextReading.decode_eq_ok_iff.mpr ⟨congrArg ofFault (document_of_spells d r h), rfl⟩

end RecordFilter.Json
