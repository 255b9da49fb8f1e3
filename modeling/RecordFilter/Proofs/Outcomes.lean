import Mathlib.Logic.Basic

/-! # Steps and their outcomes

    A reader, a parser and a compiler are chains of steps that stop at the first
    error.  Where the chain has a result, each of its steps has one, and an error
    that was changed on its way is one of a step: this is how the later proofs
    take a chain apart. -/

namespace RecordFilter

variable {ε ε' α β : Type} {x : Except ε α}

/-- What a bind that succeeds has bound. -/
theorem bind_eq_ok {f : α → Except ε β} {b : β} (h : x.bind f = .ok b) :
    ∃ a, x = .ok a ∧ f a = .ok b := by
  cases x with
  | error e => cases h
  | ok a => exact ⟨a, rfl, h⟩

/-- A step may be exchanged behind a result that it does not refuse. -/
theorem bind_ok_of_forall {f g : α → Except ε β} {b : β}
    (hfg : ∀ a, f a = .ok b → g a = .ok b) (h : x.bind f = .ok b) : x.bind g = .ok b := by
  obtain ⟨a, rfl, ha⟩ := bind_eq_ok h
  exact hfg a ha

/-- What a change of results succeeds with comes from a success. -/
theorem map_eq_ok {f : α → β} {b : β} (h : x.map f = .ok b) : ∃ a, x = .ok a ∧ f a = b := by
  cases x with
  | error e => cases h
  | ok a => exact ⟨a, rfl, Except.ok.inj h⟩

theorem mapError_eq_ok_iff {g : ε → ε'} {a : α} : x.mapError g = .ok a ↔ x = .ok a := by
  constructor
  · intro h
    cases x with
    | error e => cases h
    | ok b => exact congrArg Except.ok (Except.ok.inj h)
  · rintro rfl
    rfl

/-- An error behind a change of errors comes from an error. -/
theorem mapError_eq_error_iff {g : ε → ε'} {e' : ε'} :
    x.mapError g = .error e' ↔ ∃ e, x = .error e ∧ e' = g e := by
  constructor
  · intro h
    cases x with
    | error e => exact ⟨e, rfl, (Except.error.inj h).symm⟩
    | ok a => cases h
  · rintro ⟨e, rfl, rfl⟩
    rfl

/-- A reading that succeeds behind a change of its error and its result. -/
theorem exists_of_mapError_map_ok {f : α → β} {g : ε → ε'} {b : β}
    (h : (x.map f).mapError g = .ok b) : ∃ a, x = .ok a ∧ f a = b :=
  map_eq_ok (mapError_eq_ok_iff.mp h)

/-- A reading that fails behind a change of its error and its result. -/
theorem exists_of_mapError_map_error {f : α → β} {g : ε → ε'} {e' : ε'}
    (h : (x.map f).mapError g = .error e') : ∃ e, x = .error e ∧ e' = g e := by
  cases x with
  | error e => exact ⟨e, rfl, (Except.error.inj h).symm⟩
  | ok a => cases h

/-- A success shows through two changes if the first one takes nothing else to its result. -/
theorem mapError_map_eq_ok_iff {f : α → β} {g : ε → ε'} {a : α} (hf : ∀ b, f b = f a → b = a) :
    (x.map f).mapError g = .ok (f a) ↔ x = .ok a := by
  constructor
  · intro h
    obtain ⟨b, hb, heq⟩ := exists_of_mapError_map_ok h
    rw [hb, hf b heq]
  · rintro rfl
    rfl

end RecordFilter
