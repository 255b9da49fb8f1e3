import RecordFilter.Json.Reading

/-! # Reading a JSON text

    A recursive descent over the characters of a text.  Every step gives what
    it has read and the rest of the text, which is shorter; so the descent
    ends.  A step that meets a fault gives what it has read so far together
    with the break, and nothing is read behind a break. -/

namespace RecordFilter.Json

/-- The blanks between the tokens of a JSON text. -/
def isBlank (c : Char) : Bool := c == ' ' || c == '\n' || c == '\t' || c == '\r'

/-- The text from its next token on. -/
def skipBlank : List Char → List Char
  | [] => []
  | c :: rest => if isBlank c then skipBlank rest else c :: rest

theorem length_skipBlank_le (s : List Char) : (skipBlank s).length ≤ s.length := by
  induction s with
  | nil => simp [skipBlank]
  | cons c rest ih =>
      unfold skipBlank
      split
      · simp only [List.length_cons]; omega
      · exact Nat.le_refl _

/-! ## Words and numbers -/

/-- Reads the rest of a word. -/
def readWord : List Char → List Char → Except Break (List Char)
  | [], s => .ok s
  | _ :: _, [] => .error (.plain .endInValue)
  | c :: word, d :: s => if d = c then readWord word s else .error (.plain .expectedWord)

/-- Reads a run of digits; at least one is needed. -/
def readDigits : List Char → Except Break (List Char × List Char)
  | [] => .error ⟨.endInValue, .invalidNumber⟩
  | c :: rest =>
      if c.isDigit then .ok (c :: rest.takeWhile Char.isDigit, rest.dropWhile Char.isDigit)
      else .error (.plain .invalidNumber)

/-- Reads the digits in front of the point: a zero stands alone. -/
def readWhole (s : List Char) : Except Break (List Char × List Char) :=
  match readDigits s with
  | .ok ('0' :: _ :: _, _) => .error (.plain .invalidNumber)
  | result => result

/-- Reads the places behind the point, if there is one. -/
def readPlaces : List Char → Except Break (Option (List Char) × List Char)
  | '.' :: rest => (readDigits rest).map fun (digits, rest) => (some digits, rest)
  | s => .ok (none, s)

/-- Reads the sign of an exponent, true for minus. -/
def readSign : List Char → Bool × List Char
  | '-' :: rest => (true, rest)
  | '+' :: rest => (false, rest)
  | s => (false, s)

/-- Reads the exponent, if there is one. -/
def readExponent : List Char → Except Break (Option (Bool × List Char) × List Char)
  | [] => .ok (none, [])
  | c :: rest =>
      if c = 'e' ∨ c = 'E' then
        (readDigits (readSign rest).2).map fun (digits, t) =>
          (some ((readSign rest).1, digits), t)
      else .ok (none, c :: rest)

/-- Reads a number behind its sign. -/
def readUnsigned (negative : Bool) (s : List Char) : Except Break (Numeral × List Char) :=
  match readWhole s with
  | .error b => .error b
  | .ok (whole, s) =>
      match readPlaces s with
      | .error b => .error b
      | .ok (places, s) =>
          match readExponent s with
          | .error b => .error b
          | .ok (exponent, s) => .ok (⟨negative, whole, places, exponent⟩, s)

/-! ## Strings -/

/-- The value of a hexadecimal digit. -/
def hexDigit? (c : Char) : Option Nat :=
  if '0' ≤ c ∧ c ≤ '9' then some (c.toNat - '0'.toNat)
  else if 'a' ≤ c ∧ c ≤ 'f' then some (c.toNat - 'a'.toNat + 10)
  else if 'A' ≤ c ∧ c ≤ 'F' then some (c.toNat - 'A'.toNat + 10)
  else none

/-- The code unit of four hexadecimal digits. -/
def codeUnit? (a b c d : Char) : Option Nat := do
  let a ← hexDigit? a
  let b ← hexDigit? b
  let c ← hexDigit? c
  let d ← hexDigit? d
  pure (((a * 16 + b) * 16 + c) * 16 + d)

/-- The character that a short escape stands for. -/
def shortEscape? : Char → Option Char
  | '"' => some '"'
  | '\\' => some '\\'
  | '/' => some '/'
  | 'b' => some '\x08'
  | 'f' => some '\x0c'
  | 'n' => some '\n'
  | 'r' => some '\r'
  | 't' => some '\t'
  | _ => none

/-- A string while it is read: its characters, last one first, or the first
    surrogate that does not fit, and a leading surrogate that waits for its
    partner. -/
structure PartialString where
  chars : Except Fault (List Char) := .ok []
  waiting : Option Nat := none

namespace PartialString

/-- Gives up the surrogate that waits for its partner. -/
def settle (p : PartialString) : PartialString :=
  match p.chars, p.waiting with
  | .ok _, some _ => ⟨.error .unpairedSurrogate, none⟩
  | chars, _ => ⟨chars, none⟩

/-- Adds a character. -/
def push (p : PartialString) (c : Char) : PartialString :=
  ⟨p.settle.chars.map (c :: ·), none⟩

/-- Adds a code unit, with its partner if it is a surrogate. -/
def pushUnit (p : PartialString) (n : Nat) : PartialString :=
  let leads := 0xD800 ≤ n && n < 0xDC00
  let trails := 0xDC00 ≤ n && n < 0xE000
  match p.waiting with
  | some m =>
      if trails then
        ⟨p.chars.map (Char.ofNat (0x10000 + (m - 0xD800) * 0x400 + (n - 0xDC00)) :: ·), none⟩
      else ⟨p.chars.bind fun _ => .error .wrongSurrogate, none⟩
  | none =>
      if leads then ⟨p.chars, some n⟩
      else if trails then ⟨p.chars.bind fun _ => .error .wrongSurrogate, none⟩
      else ⟨p.chars.map (Char.ofNat n :: ·), none⟩

/-- The finished string. -/
def finish (p : PartialString) : Label :=
  p.settle.chars.map fun chars => String.ofList chars.reverse

/-- The break at a fault of the text, which a surrogate may have come before. -/
def breakAt (p : PartialString) (fault : Fault) : Break :=
  match p.chars with
  | .ok _ => .plain fault
  | .error earlier => ⟨earlier, fault⟩

end PartialString

/-- A string behind its opening quote, with the rest of the text. -/
inductive StringRead where
  | whole (label : Label) (rest : List Char)
  | cut (b : Break)

/-- Four bytes have to follow the `\u` of an escape, be they digits or not. -/
def shortUnitFault (rest : List Char) : Fault :=
  if (String.ofList rest).utf8ByteSize < 4 then .endInString else .invalidEscape

/-- Reads a string behind its opening quote. -/
def readString (p : PartialString) : List Char → StringRead
  | [] => .cut (p.breakAt .endInString)
  | '"' :: rest => .whole p.finish rest
  | ['\\'] => .cut (p.breakAt .endInString)
  | '\\' :: 'u' :: a :: b :: c :: d :: rest =>
      match codeUnit? a b c d with
      | some n => readString (p.pushUnit n) rest
      | none => .cut (p.breakAt .invalidEscape)
  | '\\' :: 'u' :: rest => .cut (p.breakAt (shortUnitFault rest))
  | '\\' :: c :: rest =>
      match shortEscape? c with
      | some d => readString (p.push d) rest
      | none => .cut (p.settle.breakAt .invalidEscape)
  | c :: rest =>
      if c < ' ' then .cut (p.settle.breakAt .controlCharacter)
      else readString (p.push c) rest

/-! ## Every step leaves less -/

theorem length_le_of_readWord {word s rest : List Char} (h : readWord word s = .ok rest) :
    rest.length ≤ s.length := by
  induction word generalizing s with
  | nil => simp [readWord] at h; simp [h]
  | cons c word ih =>
      cases s with
      | nil => simp [readWord] at h
      | cons d s =>
          unfold readWord at h
          split at h
          · have := ih h; simp only [List.length_cons]; omega
          · exact nomatch h

theorem length_dropWhile_le (p : Char → Bool) (s : List Char) :
    (s.dropWhile p).length ≤ s.length :=
  (List.dropWhile_sublist p).length_le

theorem length_lt_of_readDigits {s digits rest : List Char}
    (h : readDigits s = .ok (digits, rest)) : rest.length < s.length := by
  cases s with
  | nil => simp [readDigits] at h
  | cons c s =>
      have := length_dropWhile_le Char.isDigit s
      by_cases hc : c.isDigit
      · simp only [readDigits, hc, if_true, Except.ok.injEq, Prod.mk.injEq] at h
        simp only [← h.2, List.length_cons]; omega
      · simp [readDigits, hc] at h

theorem length_lt_of_readWhole {s digits rest : List Char}
    (h : readWhole s = .ok (digits, rest)) : rest.length < s.length := by
  unfold readWhole at h
  split at h
  · exact nomatch h
  · exact length_lt_of_readDigits h

theorem length_le_of_readPlaces {s rest : List Char} {places : Option (List Char)}
    (h : readPlaces s = .ok (places, rest)) : rest.length ≤ s.length := by
  unfold readPlaces at h
  split at h
  next t =>
    cases hd : readDigits t with
    | error b => simp [hd, Except.map] at h
    | ok r =>
        obtain ⟨digits, u⟩ := r
        have := length_lt_of_readDigits hd
        simp only [hd, Except.map, Except.ok.injEq, Prod.mk.injEq] at h
        simp only [← h.2, List.length_cons]; omega
  next => simp only [Except.ok.injEq, Prod.mk.injEq] at h; simp [h.2]

theorem length_readSign_le (s : List Char) : (readSign s).2.length ≤ s.length := by
  unfold readSign
  split <;> simp

theorem length_le_of_readExponent {s rest : List Char} {exponent : Option (Bool × List Char)}
    (h : readExponent s = .ok (exponent, rest)) : rest.length ≤ s.length := by
  unfold readExponent at h
  split at h
  · simp at h; simp [h.2]
  next c t =>
    split at h
    · cases hd : readDigits (readSign t).2 with
      | error b => simp [hd, Except.map] at h
      | ok r =>
          obtain ⟨digits, u⟩ := r
          have h1 := length_lt_of_readDigits hd
          have h2 := length_readSign_le t
          simp only [hd, Except.map, Except.ok.injEq, Prod.mk.injEq] at h
          simp only [← h.2, List.length_cons]; omega
    · simp only [Except.ok.injEq, Prod.mk.injEq] at h; simp [← h.2]

theorem length_lt_of_readUnsigned {negative : Bool} {s rest : List Char} {n : Numeral}
    (h : readUnsigned negative s = .ok (n, rest)) : rest.length < s.length := by
  unfold readUnsigned at h
  split at h
  · exact nomatch h
  next whole s1 h1 =>
    split at h
    · exact nomatch h
    next places s2 h2 =>
      split at h
      · exact nomatch h
      next exponent s3 h3 =>
        have := length_lt_of_readWhole h1
        have := length_le_of_readPlaces h2
        have := length_le_of_readExponent h3
        simp only [Except.ok.injEq, Prod.mk.injEq] at h
        rw [← h.2]; omega

theorem length_lt_of_readString {p : PartialString} {s rest : List Char} {label : Label}
    (h : readString p s = .whole label rest) : rest.length < s.length := by
  fun_induction readString p s with
  | case2 => simp_all
  | case4 p a b c d s n hn ih => have := ih h; simp only [List.length_cons]; omega
  | case7 p c s hc d x hd ih => have := ih h; simp only [List.length_cons]; omega
  | case10 p c s _ _ _ _ _ _ ih => have := ih h; simp only [List.length_cons]; omega
  | _ => simp_all

/-! ## Values -/

theorem length_lt_of_skipBlank {s t : List Char} {c : Char} (h : skipBlank s = c :: t) :
    t.length < s.length := by
  have hs := length_skipBlank_le s
  rw [h, List.length_cons] at hs
  exact hs

/-- A text that is shorter than `s`. -/
abbrev Shorter (s : List Char) := { r : List Char // r.length < s.length }

/-- What is read at the front of `s`: a whole value and the rest, or a value
    that is cut off at a break. -/
inductive Outcome (s : List Char) where
  | whole (r : Reading) (rest : Shorter s)
  | cut (r : Reading) (b : Break)

/-- The same outcome at the front of a longer text. -/
def Outcome.widen {s t : List Char} (h : s.length ≤ t.length) : Outcome s → Outcome t
  | .whole r rest => .whole r ⟨rest.val, Nat.lt_of_lt_of_le rest.property h⟩
  | .cut r b => .cut r b

/-- A place where no value can be read. -/
def Outcome.broken {s : List Char} (b : Break) : Outcome s := .cut (.broken b) b

/-- An array that is cut off behind its items, which come last one first. -/
def Outcome.cutArray {s : List Char} (items : List Reading) (b : Break) : Outcome s :=
  .cut (.array items.reverse (.broken b)) b

/-- An object that is cut off behind its entries, which come last one first. -/
def Outcome.cutObject {s : List Char} (entries : List (Label × Reading)) (b : Break) :
    Outcome s :=
  .cut (.object entries.reverse (.broken b)) b

/-- Reads a word whose first character has been seen. -/
def wordOutcome (s : List Char) (value : Reading) (word : List Char) : (t : List Char) →
    t.length < s.length → Outcome s :=
  fun t ht =>
    match h : readWord word t with
    | .ok rest => .whole value ⟨rest, Nat.lt_of_le_of_lt (length_le_of_readWord h) ht⟩
    | .error b => .cut (.misspelt b) b

/-- Reads a number behind its sign. -/
def numberOutcome (s : List Char) (negative : Bool) (t : List Char)
    (ht : t.length ≤ s.length) : Outcome s :=
  match h : readUnsigned negative t with
  | .ok (n, rest) => .whole (.number n) ⟨rest, Nat.lt_of_lt_of_le (length_lt_of_readUnsigned h) ht⟩
  | .error b => .cut (.misspelt b) b

/-- Reads a string behind its opening quote. -/
def stringOutcome (s : List Char) (t : List Char) (ht : t.length < s.length) : Outcome s :=
  match h : readString {} t with
  | .whole label rest => .whole (.string label) ⟨rest, Nat.lt_trans (length_lt_of_readString h) ht⟩
  | .cut b => .broken b

mutual

/-- Reads a value. -/
def readValue (s : List Char) : Outcome s :=
  match h : skipBlank s with
  | [] => .broken (.plain .endInValue)
  | 'n' :: t => wordOutcome s .null ['u', 'l', 'l'] t (length_lt_of_skipBlank h)
  | 't' :: t => wordOutcome s (.bool true) ['r', 'u', 'e'] t (length_lt_of_skipBlank h)
  | 'f' :: t => wordOutcome s (.bool false) ['a', 'l', 's', 'e'] t (length_lt_of_skipBlank h)
  | '-' :: t => numberOutcome s true t (Nat.le_of_lt (length_lt_of_skipBlank h))
  | '"' :: t => stringOutcome s t (length_lt_of_skipBlank h)
  | '[' :: t =>
      have ht := length_lt_of_skipBlank h
      (readArray t).widen (Nat.le_of_lt ht)
  | '{' :: t =>
      have ht := length_lt_of_skipBlank h
      (readObject t).widen (Nat.le_of_lt ht)
  | c :: t =>
      if c.isDigit then numberOutcome s false (c :: t) (length_lt_of_skipBlank h)
      else .broken (.plain .expectedValue)
termination_by 3 * s.length + 0

/-- Reads an array behind its opening bracket. -/
def readArray (s : List Char) : Outcome s :=
  match h : skipBlank s with
  | [] => .cutArray [] (.plain .endInArray)
  | ']' :: t => .whole (.array [] .closed) ⟨t, length_lt_of_skipBlank h⟩
  | _ :: _ => readItem [] s
termination_by 3 * s.length + 2

/-- Reads an item and all that follows it in its array. -/
def readItem (items : List Reading) (s : List Char) : Outcome s :=
  match readValue s with
  | .cut r b => .cutArray (r :: items) b
  | .whole r rest => (readMoreItems (r :: items) rest.val).widen (Nat.le_of_lt rest.property)
termination_by 3 * s.length + 1

/-- Reads what follows an item in its array. -/
def readMoreItems (items : List Reading) (s : List Char) : Outcome s :=
  match h : skipBlank s with
  | [] => .cutArray items (.plain .endInArray)
  | ']' :: t =>
      .whole (.array items.reverse .closed) ⟨t, length_lt_of_skipBlank h⟩
  | ',' :: t =>
      have ht := length_lt_of_skipBlank h
      match skipBlank t with
      | ']' :: _ => .cutArray items ⟨.trailingComma, .expectedValue⟩
      | _ => (readItem items t).widen (Nat.le_of_lt ht)
  | _ :: _ => .cutArray items (.plain .expectedArrayEnd)
termination_by 3 * s.length + 2

/-- Reads an object behind its opening brace. -/
def readObject (s : List Char) : Outcome s :=
  match h : skipBlank s with
  | [] => .cutObject [] (.plain .endInObject)
  | '}' :: t => .whole (.object [] .closed) ⟨t, length_lt_of_skipBlank h⟩
  | '"' :: t =>
      have ht := length_lt_of_skipBlank h
      (readEntry [] t).widen (Nat.le_of_lt ht)
  | _ :: _ => .cutObject [] (.plain .keyNotString)
termination_by 3 * s.length + 2

/-- Reads an entry behind the opening quote of its key, and all that follows
    it in its object. -/
def readEntry (entries : List (Label × Reading)) (s : List Char) : Outcome s :=
  match h : readString {} s with
  | .cut b => .cutObject entries b
  | .whole label rest =>
      have hr := length_lt_of_readString h
      match hc : skipBlank rest with
      | ':' :: t =>
          have ht := Nat.lt_trans (length_lt_of_skipBlank hc) hr
          match readValue t with
          | .cut r b => .cutObject ((label, r) :: entries) b
          | .whole r u =>
              (readMoreEntries ((label, r) :: entries) u.val).widen
                (Nat.le_of_lt (Nat.lt_trans u.property ht))
      | [] =>
          .cutObject ((label, .broken (.plain .endInObject)) :: entries) (.plain .endInObject)
      | _ :: _ =>
          .cutObject ((label, .broken (.plain .expectedColon)) :: entries) (.plain .expectedColon)
termination_by 3 * s.length + 1

/-- Reads what follows an entry in its object. -/
def readMoreEntries (entries : List (Label × Reading)) (s : List Char) : Outcome s :=
  match h : skipBlank s with
  | [] => .cutObject entries (.plain .endInObject)
  | '}' :: t =>
      .whole (.object entries.reverse .closed) ⟨t, length_lt_of_skipBlank h⟩
  | ',' :: t =>
      have ht := length_lt_of_skipBlank h
      match hk : skipBlank t with
      | [] => .cutObject entries ⟨.endInValue, .endInObject⟩
      | '"' :: u =>
          have hl := Nat.lt_trans (length_lt_of_skipBlank hk) ht
          (readEntry entries u).widen (Nat.le_of_lt hl)
      | '}' :: _ => .cutObject entries ⟨.trailingComma, .keyNotString⟩
      | _ :: _ => .cutObject entries (.plain .keyNotString)
  | _ :: _ => .cutObject entries (.plain .expectedObjectEnd)
termination_by 3 * s.length + 2

end

/-- What is read of a whole text. -/
structure TextReading where
  value : Reading
  /-- Something other than blanks follows the value. -/
  trailing : Bool

/-- Reads a whole text. -/
def readText (text : String) : TextReading :=
  match readValue text.toList with
  | .cut r _ => ⟨r, false⟩
  | .whole r rest => ⟨r, skipBlank rest.val ≠ []⟩

/-- Reads a text in the form that `read` asks for. -/
def TextReading.decode {α : Type} (t : TextReading) (read : Reading → Except Error α) :
    Except Error α :=
  match read t.value with
  | .error e => .error e
  | .ok a => if t.trailing then .error (.fault .trailingCharacters) else .ok a

/-- A text is read if its value is, and nothing follows. -/
theorem TextReading.decode_eq_ok_iff {α : Type} {t : TextReading}
    {read : Reading → Except Error α} {a : α} :
    t.decode read = .ok a ↔ read t.value = .ok a ∧ t.trailing = false := by
  rw [decode]
  cases read t.value with
  | error e => simp
  | ok b => cases t.trailing <;> simp

theorem TextReading.decode_of_error {α : Type} {t : TextReading}
    {read : Reading → Except Error α} {e : Error} (h : read t.value = .error e) :
    t.decode read = .error e := by
  rw [decode, h]

/-- Reads a text as a document that keeps repeated keys. -/
def readDocument (room : Room) (text : String) : Except Error Document :=
  (readText text).decode fun r => ofFault (r.document room)

end RecordFilter.Json
