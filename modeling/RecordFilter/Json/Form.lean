import RecordFilter.Json.Reader

/-! # Forms of JSON values

    Readers of particular forms: strings, booleans, numbers, sequences,
    records and variants.  Each walks over a `Reading` in reading order and
    gives the first fault or mismatch.

    A record is written as an object, whose unknown entries are passed over,
    or as an array of its fields in order.  A variant is written as its name, or as
    an object with the name as its only key and the content as its value. -/

namespace RecordFilter.Json

/-- A reader of a form. -/
abbrev Form (α : Type) := Room → Reading → Except Error α

/-- Passes over a value. -/
def passOver (r : Reading) : Except Error Unit := ofFault r.pass

/-- A value that is not of the expected kind. -/
def wrongType {α : Type} (r : Reading) (expected : String) : Except Error α :=
  match r.found with
  | .error fault => .error (.fault fault)
  | .ok found => failed (.invalidType found expected)

/-! ## Scalars -/

/-- Reads a string under the name that messages have for what it holds. -/
def stringFormAs (expected : String) : Form String
  | _, .string s => ofFault s
  | _, r => wrongType r expected

/-- Reads a string. -/
def stringForm : Form String := stringFormAs "a string"

/-- Reads a boolean. -/
def boolForm : Form Bool
  | _, .bool b => .ok b
  | _, r => wrongType r "a boolean"

/-- Reads an integer of a range. -/
def integerForm (range : IntegerRange) (expected : String) : Form Int
  | _, .number n =>
      match n.toNumber with
      | .error fault => .error (.fault fault)
      | .ok (.float x) => failed (.invalidType (.float x) expected)
      | .ok (.integer i) =>
          if range.Contains i then .ok i else failed (.invalidValue (.integer i) expected)
  | _, r => wrongType r expected

/-- Reads a floating point number; an integer is rounded. -/
def doubleForm : Form Double
  | _, .number n =>
      match n.toNumber with
      | .error fault => .error (.fault fault)
      | .ok (.float x) => .ok x
      | .ok (.integer i) => .ok (.ofInt i)
  | _, r => wrongType r "f64"

/-! ## Sequences -/

/-- Reads items one by one. -/
def readSequence {α : Type} (item : Form α) (room : Room) : List Reading → Except Error (List α)
  | [] => .ok []
  | r :: rest => do
      let a ← item room r
      let as ← readSequence item room rest
      pure (a :: as)

/-- Reads an array of any length. -/
def sequenceForm {α : Type} (item : Form α) : Form (List α)
  | room, .array items ending => do
      let room ← ofFault room.enter
      let as ← readSequence item room items
      ofFault ending.read
      pure as
  | _, r => wrongType r "a sequence"

/-- Checks that an array ends behind the items that were asked for. -/
def endOfArray : List Reading → Ending → Except Error Unit
  | [], .closed => .ok ()
  | [], .broken b =>
      if b.whenRead = .endInArray ∨ b.whenRead = .trailingComma then .error (.fault b.whenRead)
      else .error (.fault .trailingCharacters)
  | _, _ => .error (.fault .trailingCharacters)

/-! ## Records -/

/-- How a record is read.  `state` holds the fields read so far. -/
structure RecordForm (σ α : Type) where
  /-- What messages call the record. -/
  expected : String
  /-- Nothing is read yet. -/
  start : σ
  /-- Reads the field of a name. -/
  field : Room → σ → String → Reading → Except Error σ
  /-- The record of an object. -/
  finish : σ → Except Error α
  /-- The record of an array, with the items behind it. -/
  items : Room → List Reading → Ending → Except Error (α × List Reading)

/-- Reads the fields of a record one by one. -/
def readFields {σ : Type} (field : Room → σ → String → Reading → Except Error σ) (room : Room) :
    σ → List (Label × Reading) → Except Error σ
  | state, [] => .ok state
  | state, (label, r) :: rest => do
      let name ← ofFault label
      let state ← field room state name r
      readFields field room state rest

/-- Reads a record. -/
def RecordForm.read {σ α : Type} (form : RecordForm σ α) : Form α
  | room, .object entries ending => do
      let room ← ofFault room.enter
      let state ← readFields form.field room form.start entries
      ofFault ending.read
      form.finish state
  | room, .array items ending => do
      let room ← ofFault room.enter
      let (a, rest) ← form.items room items ending
      endOfArray rest ending
      pure a
  | _, r => wrongType r form.expected

/-- Reads a field that must not have been read before. -/
def readOnce {α : Type} (name : String) (form : Form α) (room : Room) (before : Option α)
    (r : Reading) : Except Error (Option α) :=
  match before with
  | some _ => failed (.duplicateField name)
  | none => (form room r).map some

/-- The value of a field that has to be there. -/
def required {α : Type} (name : String) : Option α → Except Error α
  | some a => .ok a
  | none => failed (.missingField name)

/-- An array that ends too early, at its end or at a break. -/
def tooShort {α : Type} (length : Nat) (expected : String) (ending : Ending) :
    Except Error α := do
  ofFault ending.read
  failed (.invalidLength length expected)

/-- What messages call a record of two fields that is too short. -/
def withElements (expected : String) (count : Nat) : String :=
  expected ++ " with " ++ integerText count ++ (if count = 1 then " element" else " elements")

/-- A record of one field. -/
def oneField {α β : Type} (expected name : String) (form : Form α) (make : α → β) :
    RecordForm (Option α) β where
  expected := expected
  start := none
  field room state key r :=
    if key = name then readOnce name form room state r
    else (passOver r).map fun _ => state
  finish state := (required name state).map make
  items room items ending :=
    match items with
    | [] => tooShort 0 (withElements expected 1) ending
    | r :: rest => (form room r).map fun a => (make a, rest)

/-- A record of two fields. -/
def twoFields {α β γ : Type} (expected name₁ : String) (form₁ : Form α) (name₂ : String)
    (form₂ : Form β) (make : α → β → γ) : RecordForm (Option α × Option β) γ where
  expected := expected
  start := (none, none)
  field room state key r :=
    if key = name₁ then (readOnce name₁ form₁ room state.1 r).map fun a => (a, state.2)
    else if key = name₂ then (readOnce name₂ form₂ room state.2 r).map fun b => (state.1, b)
    else (passOver r).map fun _ => state
  finish state := do
    let a ← required name₁ state.1
    let b ← required name₂ state.2
    pure (make a b)
  items room items ending :=
    match items with
    | [] => tooShort 0 (withElements expected 2) ending
    | r :: rest => do
        let a ← form₁ room r
        match rest with
        | [] => tooShort 1 (withElements expected 2) ending
        | r :: rest => do
            let b ← form₂ room r
            pure (make a b, rest)

/-! ## Variants -/

/-- Reads the name of a variant. -/
def variantName {α : Type} (variants : List (String × α)) (name : String) : Except Error α :=
  match variants.lookup name with
  | some a => .ok a
  | none => failed (.unknownVariant name (variants.map (·.1)))

/-- Reads the name of a variant where nothing but the name may stand. -/
def variantNameForm {α : Type} (variants : List (String × α)) : Form α := fun room r =>
  (stringFormAs "variant identifier" room r).bind (variantName variants)

/-- The error of an object without a first key where a variant is expected. -/
def noVariant {α : Type} : Ending → Except Error α
  | .closed => .error (.fault .expectedValue)
  | .broken b => .error (.fault b.whenRead)

/-- The error of a value that is neither a string nor an object where a variant
    is expected. -/
def notVariant {α : Type} : Reading → Except Error α
  | .broken b => .error (.fault b.whenRead)
  | _ => .error (.fault .expectedValue)

/-- Checks that the object of a variant ends behind its content. -/
def endOfVariant : List (Label × Reading) → Ending → Except Error Unit
  | [], .closed => .ok ()
  | [], .broken b =>
      .error (.fault (if b.whenRead = .endInObject then .endInObject else .expectedValue))
  | _, _ => .error (.fault .expectedValue)

/-- Reads a variant that has no content. -/
def bareVariantForm {α : Type} (variants : List (String × α)) : Form α
  | _, .string s => do
      let name ← ofFault s
      variantName variants name
  | room, .object ((label, content) :: rest) ending => do
      let _ ← ofFault room.enter
      let name ← ofFault label
      let a ← variantName variants name
      match content with
      | .null => endOfVariant rest ending
      | r => wrongType r "unit"
      pure a
  | room, .object [] ending => do
      let _ ← ofFault room.enter
      noVariant ending
  | _, r => notVariant r

end RecordFilter.Json
