import RecordFilter.Json.Reader
import RecordFilter.Proofs.Outcomes

/-! # The nesting of documents

    A reader of a text counts the brackets that are open.  `Document.nesting` is
    how many are open at once at most, so the limit of a reader can be said of
    what is read: where a text is a document at all, a reader with room for `n`
    brackets gets it if it nests that deep, and meets the limit if not
    (`document_atMost`). -/

namespace RecordFilter.Json

namespace Document

mutual

/-- How many brackets of a document are open at once at most. -/
def nesting : Document → Nat
  | .array items => nestingOfItems items + 1
  | .object entries => nestingOfEntries entries + 1
  | _ => 0

/-- The greatest nesting of items. -/
def nestingOfItems : List Document → Nat
  | [] => 0
  | d :: rest => max d.nesting (nestingOfItems rest)

/-- The greatest nesting of the values of entries. -/
def nestingOfEntries : List (String × Document) → Nat
  | [] => 0
  | (_, d) :: rest => max d.nesting (nestingOfEntries rest)

end

end Document

/-! ## Room for brackets -/

/-- The value if its nesting fits, and the limit otherwise. -/
def fitting {α : Type} (room nesting : Nat) (a : α) : Except Fault α :=
  if nesting ≤ room then .ok a else .error .tooDeep

/-- What needs no room fits everywhere. -/
theorem fitting_zero {α : Type} (n : Nat) (a : α) : fitting n 0 a = .ok a :=
  if_pos (Nat.zero_le n)

/-- Two values that are read side by side need the room of the larger. -/
theorem fitting_bind_fitting {α β γ : Type} (n k l : Nat) (a : α) (b : β) (f : α → β → γ) :
    ((fitting n k a).bind fun a => (fitting n l b).bind fun b => .ok (f a b))
      = fitting n (max k l) (f a b) := by
  rw [fitting, fitting, fitting]
  by_cases hk : k ≤ n
  · by_cases hl : l ≤ n
    · rw [if_pos hk, if_pos hl, if_pos (Nat.max_le.mpr ⟨hk, hl⟩)]
      rfl
    · rw [if_pos hk, if_neg hl, if_neg fun h => hl (Nat.max_le.mp h).2]
      rfl
  · rw [if_neg hk, if_neg fun h => hk (Nat.max_le.mp h).1]
    rfl

/-- An open bracket takes one off the room. -/
theorem enter_bind_fitting {α β : Type} (n k : Nat) (a : α) (f : α → β)
    {g : Room → Except Fault α} (h : ∀ m, g (.atMost m) = fitting m k a) :
    ((Room.atMost n).enter.bind fun room => (g room).bind fun a => .ok (f a))
      = fitting n (k + 1) (f a) := by
  cases n with
  | zero => exact (if_neg (Nat.not_succ_le_zero k)).symm
  | succ n =>
      show ((g (.atMost n)).bind fun a => .ok (f a)) = _
      rw [h, fitting, fitting]
      by_cases hk : k ≤ n
      · rw [if_pos hk, if_pos (Nat.succ_le_succ hk)]
        rfl
      · rw [if_neg hk, if_neg fun h => hk (Nat.le_of_succ_le_succ h)]
        rfl

/-- A bracket that is opened takes one off the room. -/
theorem Room.of_enter_atMost {n : Nat} {room : Room}
    (h : (Room.atMost n).enter = .ok room) :
    ∃ m, n = m + 1 ∧ room = .atMost m := by
  cases n with
  | zero => exact nomatch h
  | succ m => exact ⟨m, rfl, (Except.ok.inj h).symm⟩

namespace Reading

theorem document_array (room : Room) (items : List Reading) :
    document room (.array items .closed)
      = room.enter.bind fun room => (documentItems room items).bind fun ds => .ok (.array ds) := by
  rw [document]
  rfl

theorem document_object (room : Room) (entries : List (Label × Reading)) :
    document room (.object entries .closed)
      = room.enter.bind fun room =>
          (documentEntries room entries).bind fun ds => .ok (.object ds) := by
  rw [document]
  rfl

theorem documentItems_cons (room : Room) (r : Reading) (rest : List Reading) :
    documentItems room (r :: rest)
      = (document room r).bind fun d =>
          (documentItems room rest).bind fun ds => .ok (d :: ds) := by
  rw [documentItems]
  rfl

theorem documentEntries_cons (room : Room) (key : String) (r : Reading)
    (rest : List (Label × Reading)) :
    documentEntries room ((.ok key, r) :: rest)
      = (document room r).bind fun d =>
          (documentEntries room rest).bind fun ds => .ok ((key, d) :: ds) := by
  rw [documentEntries]
  rfl

/-! ### Readings that are documents -/

/-- Only a closed array is a document. -/
theorem eq_closed_of_array {room : Room} {items : List Reading} {ending : Ending} {d : Document}
    (h : document room (.array items ending) = .ok d) : ending = .closed := by
  rw [document] at h
  obtain ⟨room, -, h⟩ := bind_eq_ok h
  obtain ⟨ds, -, h⟩ := bind_eq_ok h
  cases ending with
  | closed => rfl
  | broken b => exact nomatch h

/-- Only a closed object is a document. -/
theorem eq_closed_of_object {room : Room} {entries : List (Label × Reading)} {ending : Ending}
    {d : Document} (h : document room (.object entries ending) = .ok d) : ending = .closed := by
  rw [document] at h
  obtain ⟨room, -, h⟩ := bind_eq_ok h
  obtain ⟨ds, -, h⟩ := bind_eq_ok h
  cases ending with
  | closed => rfl
  | broken b => exact nomatch h

/-- The limit decides whether a document is read. -/
def ReadsWithin (r : Reading) : Prop :=
  ∀ d, document .unlimited r = .ok d → ∀ n, document (.atMost n) r = fitting n d.nesting d

/-- Items fit if the deepest of them does. -/
theorem documentItems_atMost {items : List Reading} (ih : ∀ r ∈ items, ReadsWithin r) :
    ∀ ds, documentItems .unlimited items = .ok ds →
      ∀ n, documentItems (.atMost n) items = fitting n (Document.nestingOfItems ds) ds := by
  induction items with
  | nil =>
      intro ds hds n
      obtain rfl := Except.ok.inj hds
      exact (fitting_zero n []).symm
  | cons r rest ihrest =>
      intro ds hds n
      rw [documentItems_cons] at hds ⊢
      obtain ⟨d, hd, hds⟩ := bind_eq_ok hds
      obtain ⟨ds', hds', hds⟩ := bind_eq_ok hds
      obtain rfl := Except.ok.inj hds
      rw [ih r (List.mem_cons_self ..) d hd,
        ihrest (fun x hx => ih x (List.mem_cons_of_mem _ hx)) ds' hds']
      exact fitting_bind_fitting n _ _ d ds' (· :: ·)

/-- Entries fit if the deepest of their values does. -/
theorem documentEntries_atMost {entries : List (Label × Reading)}
    (ih : ∀ label r, (label, r) ∈ entries → ReadsWithin r) :
    ∀ ds, documentEntries .unlimited entries = .ok ds →
      ∀ n, documentEntries (.atMost n) entries = fitting n (Document.nestingOfEntries ds) ds := by
  induction entries with
  | nil =>
      intro ds hds n
      obtain rfl := Except.ok.inj hds
      exact (fitting_zero n []).symm
  | cons entry rest ihrest =>
      obtain ⟨label, r⟩ := entry
      intro ds hds n
      -- a faulty key is found before its value is read
      cases label with
      | error e => exact nomatch hds
      | ok key =>
          rw [documentEntries_cons] at hds ⊢
          obtain ⟨d, hd, hds⟩ := bind_eq_ok hds
          obtain ⟨ds', hds', hds⟩ := bind_eq_ok hds
          obtain rfl := Except.ok.inj hds
          rw [ih _ r (List.mem_cons_self ..) d hd,
            ihrest (fun l x hx => ih l x (List.mem_cons_of_mem _ hx)) ds' hds']
          exact fitting_bind_fitting n _ _ d ds' fun d ds => (key, d) :: ds

/-- **THE LIMIT MEASURES THE NESTING**: where a reader without a limit gets a
    document, one with room for `n` brackets gets it if it nests no deeper, and
    meets the limit otherwise. -/
theorem document_atMost (r : Reading) : ReadsWithin r := by
  induction r with
  | null => intro d hd n; obtain rfl := Except.ok.inj hd; exact (fitting_zero n _).symm
  | bool b => intro d hd n; obtain rfl := Except.ok.inj hd; exact (fitting_zero n _).symm
  | number m => intro d hd n; obtain rfl := Except.ok.inj hd; exact (fitting_zero n _).symm
  | string s =>
      intro d hd n
      cases s with
      | error e => exact nomatch hd
      | ok s => obtain rfl := Except.ok.inj hd; exact (fitting_zero n _).symm
  | array items ending ih =>
      intro d hd n
      obtain rfl := eq_closed_of_array hd
      rw [document_array] at hd ⊢
      obtain ⟨ds, hds, hd⟩ : ∃ ds, documentItems .unlimited items = .ok ds ∧ _ := bind_eq_ok hd
      obtain rfl := Except.ok.inj hd
      exact enter_bind_fitting n _ ds Document.array (documentItems_atMost ih ds hds)
  | object entries ending ih =>
      intro d hd n
      obtain rfl := eq_closed_of_object hd
      rw [document_object] at hd ⊢
      obtain ⟨ds, hds, hd⟩ : ∃ ds, documentEntries .unlimited entries = .ok ds ∧ _ :=
        bind_eq_ok hd
      obtain rfl := Except.ok.inj hd
      exact enter_bind_fitting n _ ds Document.object (documentEntries_atMost ih ds hds)
  -- a reading that was broken off is no document in any room
  | misspelt b => intro d hd; exact nomatch hd
  | broken b => intro d hd; exact nomatch hd

/-! ### Documents that were read -/

/-- Items that were read within a room nest no deeper than it. -/
theorem nestingOfItems_le_of_documentItems {items : List Reading}
    (ih : ∀ r ∈ items, ∀ n d, document (.atMost n) r = .ok d → d.nesting ≤ n) {n : Nat} :
    ∀ {ds}, documentItems (.atMost n) items = .ok ds → Document.nestingOfItems ds ≤ n := by
  induction items with
  | nil =>
      intro ds hds
      obtain rfl := Except.ok.inj hds
      exact Nat.zero_le n
  | cons r rest ihrest =>
      intro ds hds
      rw [documentItems_cons] at hds
      obtain ⟨d, hd, hds⟩ := bind_eq_ok hds
      obtain ⟨ds', hds', hds⟩ := bind_eq_ok hds
      obtain rfl := Except.ok.inj hds
      exact Nat.max_le.mpr ⟨ih r (List.mem_cons_self ..) n d hd,
        ihrest (fun x hx => ih x (List.mem_cons_of_mem _ hx)) hds'⟩

/-- Entries that were read within a room nest no deeper than it. -/
theorem nestingOfEntries_le_of_documentEntries {entries : List (Label × Reading)}
    (ih : ∀ label r, (label, r) ∈ entries →
      ∀ n d, document (.atMost n) r = .ok d → d.nesting ≤ n) {n : Nat} :
    ∀ {ds}, documentEntries (.atMost n) entries = .ok ds →
      Document.nestingOfEntries ds ≤ n := by
  induction entries with
  | nil =>
      intro ds hds
      obtain rfl := Except.ok.inj hds
      exact Nat.zero_le n
  | cons entry rest ihrest =>
      obtain ⟨label, r⟩ := entry
      intro ds hds
      cases label with
      | error e => exact nomatch hds
      | ok key =>
          rw [documentEntries_cons] at hds
          obtain ⟨d, hd, hds⟩ := bind_eq_ok hds
          obtain ⟨ds', hds', hds⟩ := bind_eq_ok hds
          obtain rfl := Except.ok.inj hds
          exact Nat.max_le.mpr ⟨ih _ r (List.mem_cons_self ..) n d hd,
            ihrest (fun l x hx => ih l x (List.mem_cons_of_mem _ hx)) hds'⟩

/-- **WHAT IS READ FITS**: a document nests no deeper than the room in which it was read. -/
theorem nesting_le_of_document (r : Reading) :
    ∀ n d, document (.atMost n) r = .ok d → d.nesting ≤ n := by
  induction r with
  | null => intro n d h; obtain rfl := Except.ok.inj h; exact Nat.zero_le n
  | bool b => intro n d h; obtain rfl := Except.ok.inj h; exact Nat.zero_le n
  | number m => intro n d h; obtain rfl := Except.ok.inj h; exact Nat.zero_le n
  | string s =>
      intro n d h
      cases s with
      | error e => exact nomatch h
      | ok s => obtain rfl := Except.ok.inj h; exact Nat.zero_le n
  | array items ending ih =>
      intro n d h
      obtain rfl := eq_closed_of_array h
      rw [document_array] at h
      obtain ⟨room, henter, h⟩ := bind_eq_ok h
      obtain ⟨m, rfl, rfl⟩ := Room.of_enter_atMost henter
      obtain ⟨ds, hds, h⟩ := bind_eq_ok h
      obtain rfl := Except.ok.inj h
      exact Nat.succ_le_succ (nestingOfItems_le_of_documentItems ih hds)
  | object entries ending ih =>
      intro n d h
      obtain rfl := eq_closed_of_object h
      rw [document_object] at h
      obtain ⟨room, henter, h⟩ := bind_eq_ok h
      obtain ⟨m, rfl, rfl⟩ := Room.of_enter_atMost henter
      obtain ⟨ds, hds, h⟩ := bind_eq_ok h
      obtain rfl := Except.ok.inj h
      exact Nat.succ_le_succ (nestingOfEntries_le_of_documentEntries ih hds)
  | misspelt b => intro n d h; exact nomatch h
  | broken b => intro n d h; exact nomatch h

end Reading

/-- **NO DOCUMENT NESTS DEEPER** than the room that its text was read in. -/
theorem nesting_le_of_readDocument {text : String} {d : Document} {n : Nat}
    (h : readDocument (.atMost n) text = .ok d) : d.nesting ≤ n :=
  Reading.nesting_le_of_document _ n d (ofFault_eq_ok (TextReading.decode_eq_ok_iff.mp h).1)

/-- A text that is a document without a limit is one within the usual limit, or
    goes beyond that limit. -/
theorem readDocument_usual {text : String} {d : Document}
    (h : readDocument .unlimited text = .ok d) :
    readDocument .usual text = if d.nesting ≤ 127 then .ok d else .error (.fault .tooDeep) := by
  obtain ⟨hvalue, htrailing⟩ := TextReading.decode_eq_ok_iff.mp h
  have husual := Reading.document_atMost _ d (ofFault_eq_ok hvalue) 127
  by_cases hfits : d.nesting ≤ 127
  · rw [fitting, if_pos hfits] at husual
    rw [if_pos hfits]
    exact TextReading.decode_eq_ok_iff.mpr ⟨congrArg ofFault husual, htrailing⟩
  · rw [fitting, if_neg hfits] at husual
    rw [if_neg hfits]
    exact TextReading.decode_of_error (congrArg ofFault husual)

end RecordFilter.Json
