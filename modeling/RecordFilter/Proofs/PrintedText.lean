import RecordFilter.Json.Reader

/-! # Printed documents

    The compact text of a document reads back.  `Spells d r` says which reading
    the text of a document gives: the same value, whole, every string without a
    lone surrogate and every number an integer.  `gives_of_spells` is the
    statement about the front of a text, with anything behind the value that no
    number could swallow, and `readText_print` the one about whole texts.

    Every step of the reader has one lemma for each way that a printed text goes
    on.  Blanks never occur in such a text, so each of them looks at the next
    character only. -/

namespace RecordFilter.Json

open Document

/-! ## Strings -/

/-- A string that has been read so far without a surrogate, last character
    first. -/
def PartialString.plain (read : List Char) : PartialString := ⟨.ok read, none⟩

/-- A control character is printed with two zeros and its two digits to the base of sixteen. -/
theorem codeUnit?_of_lt : ∀ n < 32,
    codeUnit? '0' '0' (Nat.digitChar (n / 16)) (Nat.digitChar (n % 16)) = some n := by
  decide

/-- A code unit below 32 is a character of its own: no half of a surrogate pair. -/
theorem pushUnit_plain (read : List Char) {n : Nat} (h : n < 32) :
    (PartialString.plain read).pushUnit n = .plain (Char.ofNat n :: read) := by
  have hleads : (0xD800 ≤ n && n < 0xDC00) = false := by
    rw [decide_eq_false (by omega), Bool.false_and]
  have htrails : (0xDC00 ≤ n && n < 0xE000) = false := by
    rw [decide_eq_false (by omega), Bool.false_and]
  simp only [PartialString.pushUnit, PartialString.plain, hleads, htrails]
  rfl

/-- An escape of two characters stands for one. -/
theorem readString_short {p : PartialString} {c d : Char} (t : List Char)
    (h : shortEscape? c = some d) (hc : c ≠ 'u') :
    readString p ('\\' :: c :: t) = readString (p.push d) t := by
  rw [readString, h]
  · rintro a b c d rest rfl
    exact absurd rfl hc
  · exact hc

/-- A character that needs no escape stands for itself. -/
theorem readString_other {p : PartialString} {c : Char} (t : List Char)
    (hquote : c ≠ '"') (hescape : c ≠ '\\') (hcontrol : ¬ c < ' ') :
    readString p (c :: t) = readString (p.push c) t := by
  rw [readString, if_neg hcontrol]
  · exact hquote
  · exact fun h _ => hescape h
  · exact fun _ _ _ _ _ h _ => hescape h
  · exact fun _ h _ => hescape h
  · exact fun _ _ h _ => hescape h

/-- **ONE CHARACTER AT A TIME**: what is printed for a character of a string reads
    as that character. -/
theorem readString_escapedChar (read : List Char) (c : Char) (t : List Char) :
    readString (.plain read) (escapedChar c ++ t) = readString (.plain (c :: read)) t := by
  unfold escapedChar
  split
  -- the characters with an escape of their own
  · exact readString_short t rfl (by decide)
  · exact readString_short t rfl (by decide)
  · exact readString_short t rfl (by decide)
  · exact readString_short t rfl (by decide)
  · exact readString_short t rfl (by decide)
  · exact readString_short t rfl (by decide)
  · exact readString_short t rfl (by decide)
  next hquote hescape _ _ _ _ _ =>
    -- what is left stands for itself, unless it is a control character
    by_cases hcontrol : c < ' '
    · have hlt : c.toNat < 32 := hcontrol
      rw [if_pos hcontrol]
      show readString _ ('\\' :: 'u' :: '0' :: '0' :: _ :: _ :: t) = _
      rw [readString, codeUnit?_of_lt _ hlt]
      dsimp only
      rw [pushUnit_plain read hlt, Char.ofNat_toNat]
    · rw [if_neg hcontrol]
      exact readString_other t hquote hescape hcontrol

/-- A string is read to its closing quote, behind what has been read of it before. -/
theorem readString_escaped (s read t : List Char) :
    readString (.plain read) (s.flatMap escapedChar ++ '"' :: t)
      = .whole (.ok (String.ofList (read.reverse ++ s))) t := by
  induction s generalizing read with
  | nil =>
      rw [List.append_nil]
      exact readString.eq_2 ..
  | cons c s ih =>
      rw [List.flatMap_cons, List.append_assoc, readString_escapedChar, ih, List.reverse_cons,
        List.append_assoc]
      rfl

/-- A string is read from its text behind the opening quote. -/
theorem readString_stringChars {s : String} {t u : List Char}
    (h : stringChars s ++ t = '"' :: u) : readString {} u = .whole (.ok s) t := by
  obtain rfl : s.toList.flatMap escapedChar ++ '"' :: t = u := by
    rw [stringChars, List.cons_append, List.append_assoc] at h
    exact (List.cons.inj h).2
  rw [show ({} : PartialString) = .plain [] from rfl, readString_escaped]
  rw [List.reverse_nil, List.nil_append, String.ofList_toList]

/-! ## Numbers -/

/-- The numeral of an integer. -/
def Numeral.ofInt (n : Int) : Numeral := ⟨n < 0, digitsOf n.natAbs, none, none⟩

/-- The numeral of an integer is spelt as the integer is. -/
theorem Numeral.text_ofInt (n : Int) : (Numeral.ofInt n).text = integerText n := by
  rw [Numeral.text, Numeral.chars, integerText]
  simp only [Numeral.ofInt, List.append_nil, decide_eq_true_eq]

/-- What follows a value does not go on with a number. -/
def Stops (rest : List Char) : Prop :=
  ∀ c t, rest = c :: t → c.isDigit = false ∧ c ≠ '.' ∧ c ≠ 'e' ∧ c ≠ 'E'

theorem stops_nil : Stops [] := fun _ _ h => nomatch h

/-- A character that no number has stops every number. -/
theorem stops_cons {c : Char} (t : List Char)
    (h : c.isDigit = false ∧ c ≠ '.' ∧ c ≠ 'e' ∧ c ≠ 'E') : Stops (c :: t) := by
  intro d u heq
  obtain ⟨rfl, rfl⟩ := List.cons.inj heq
  exact h

/-- A run of digits is taken as a whole if what follows stops it. -/
theorem readDigits_append {ds rest : List Char} (hds : ∀ c ∈ ds, c.isDigit = true)
    (hne : ds ≠ []) (hrest : Stops rest) : readDigits (ds ++ rest) = .ok (ds, rest) := by
  have htake : rest.takeWhile Char.isDigit = [] := by
    cases rest with
    | nil => rfl
    | cons c t => rw [List.takeWhile_cons_of_neg (by rw [(hrest c t rfl).1]; exact nofun)]
  have hdrop : rest.dropWhile Char.isDigit = rest := by
    cases rest with
    | nil => rfl
    | cons c t => rw [List.dropWhile_cons_of_neg (by rw [(hrest c t rfl).1]; exact nofun)]
  cases ds with
  | nil => exact absurd rfl hne
  | cons d ds =>
      have hrun : ∀ c ∈ ds, c.isDigit = true := fun c hc => hds c (List.mem_cons_of_mem _ hc)
      rw [List.cons_append, readDigits, if_pos (hds d (List.mem_cons_self ..)),
        List.takeWhile_append_of_pos hrun, List.dropWhile_append_of_pos hrun, htake, hdrop,
        List.append_nil]

/-- The digits of a number are a whole part: only zero starts with a zero. -/
theorem readWhole_digitsOf (n : Nat) {rest : List Char} (hrest : Stops rest) :
    readWhole (digitsOf n ++ rest) = .ok (digitsOf n, rest) := by
  rw [readWhole, readDigits_append (fun _ => isDigit_of_mem_digitsOf) (digitsOf_ne_nil n) hrest]
  -- digits behind a leading zero would be left over, so zero is apart
  by_cases hn : n = 0
  · subst hn
    rfl
  · obtain ⟨c, t, hdigits, hc⟩ := head_digitsOf hn
    rw [hdigits]
    split
    next heq =>
      cases heq
      exact absurd rfl hc
    next => rfl

/-- The digits of a number are read as a numeral without places and without an exponent. -/
theorem readUnsigned_digitsOf (negative : Bool) (n : Nat) {rest : List Char}
    (hrest : Stops rest) :
    readUnsigned negative (digitsOf n ++ rest)
      = .ok (⟨negative, digitsOf n, none, none⟩, rest) := by
  have hplaces : readPlaces rest = .ok (none, rest) := by
    cases rest with
    | nil => rfl
    | cons c t =>
        rw [readPlaces.eq_def]
        split
        next heq =>
          cases heq
          exact absurd rfl (hrest _ _ rfl).2.1
        next => rfl
  have hexponent : readExponent rest = .ok (none, rest) := by
    cases rest with
    | nil => rfl
    | cons c t => exact if_neg (not_or.mpr (hrest c t rfl).2.2)
  rw [readUnsigned, readWhole_digitsOf n hrest]
  dsimp only
  rw [hplaces]
  dsimp only
  rw [hexponent]

/-! ## The steps of the reader -/

/-- Exactly this is read at the front of a text, and that is left. -/
def Outcome.Gives {s : List Char} (o : Outcome s) (r : Reading) (rest : List Char) : Prop :=
  ∃ h, o = .whole r ⟨rest, h⟩

/-- What is read of a shorter text is read so of a longer one that the reader came from. -/
theorem Outcome.Gives.widen {s t : List Char} {o : Outcome s} {r : Reading} {rest : List Char}
    (h : o.Gives r rest) (hle : s.length ≤ t.length) : (o.widen hle).Gives r rest := by
  obtain ⟨hlt, rfl⟩ := h
  exact ⟨Nat.lt_of_lt_of_le hlt hle, rfl⟩

/-- The text goes on with a token that does not close an array. -/
def StartsValue (s : List Char) : Prop := ∃ c t, s = c :: t ∧ isBlank c = false ∧ c ≠ ']'

/-- Where no blank stands, none is passed over. -/
theorem skipBlank_of_not_blank {c : Char} (t : List Char) (h : isBlank c = false) :
    skipBlank (c :: t) = c :: t := by
  rw [skipBlank, h]
  rfl

theorem isBlank_of_isDigit {c : Char} (h : c.isDigit = true) : isBlank c = false := by
  simp only [isBlank, Bool.or_eq_false_iff, beq_eq_false_iff_ne]
  exact ⟨⟨⟨ne_of_isDigit h rfl, ne_of_isDigit h rfl⟩, ne_of_isDigit h rfl⟩, ne_of_isDigit h rfl⟩

/-- A word is read off the front of a text. -/
theorem readWord_append (word rest : List Char) : readWord word (word ++ rest) = .ok rest := by
  induction word with
  | nil => rfl
  | cons c word ih => exact (if_pos rfl).trans ih

section Steps

variable {s t u v rest : List Char} {r r' : Reading} {label : Label}
  {items : List Reading} {entries : List (Label × Reading)}

/-- Behind the first letter of a word the rest of it is all that is read. -/
theorem gives_word (word : List Char) (ht : (word ++ rest).length < s.length) :
    (wordOutcome s r word (word ++ rest) ht).Gives r rest := by
  unfold wordOutcome
  split
  next h =>
    rw [readWord_append] at h
    obtain rfl := Except.ok.inj h
    exact ⟨_, rfl⟩
  next h =>
    rw [readWord_append] at h
    exact nomatch h

theorem gives_null : (readValue ('n' :: 'u' :: 'l' :: 'l' :: rest)).Gives .null rest := by
  unfold readValue
  exact gives_word ['u', 'l', 'l'] _

theorem gives_true : (readValue ('t' :: 'r' :: 'u' :: 'e' :: rest)).Gives (.bool true) rest := by
  unfold readValue
  exact gives_word ['r', 'u', 'e'] _

theorem gives_false :
    (readValue ('f' :: 'a' :: 'l' :: 's' :: 'e' :: rest)).Gives (.bool false) rest := by
  unfold readValue
  exact gives_word ['a', 'l', 's', 'e'] _

/-- What is read as an unsigned numeral is the number. -/
theorem gives_numeral {negative : Bool} {n : Numeral} (ht : t.length ≤ s.length)
    (h : readUnsigned negative t = .ok (n, rest)) :
    (numberOutcome s negative t ht).Gives (.number n) rest := by
  unfold numberOutcome
  split
  next heq =>
    rw [h] at heq
    cases heq
    exact ⟨_, rfl⟩
  next heq =>
    rw [h] at heq
    exact nomatch heq

theorem gives_negative {n : Numeral} (h : readUnsigned true t = .ok (n, rest)) :
    (readValue ('-' :: t)).Gives (.number n) rest := by
  unfold readValue
  exact gives_numeral _ h

/-- A digit starts a number. -/
theorem gives_positive {n : Numeral} {c : Char} (hc : c.isDigit = true)
    (h : readUnsigned false (c :: t) = .ok (n, rest)) :
    (readValue (c :: t)).Gives (.number n) rest := by
  unfold readValue
  split
  -- a digit is none of the characters that start a value of another kind
  all_goals
    rename_i heq
    rw [skipBlank_of_not_blank t (isBlank_of_isDigit hc)] at heq
    cases heq
    try exact absurd hc (by decide)
  rw [if_pos hc]
  exact gives_numeral _ h

/-- A quote starts a string. -/
theorem gives_string (h : readString {} t = .whole label rest) :
    (readValue ('"' :: t)).Gives (.string label) rest := by
  unfold readValue
  show (stringOutcome ('"' :: t) t _).Gives _ _
  unfold stringOutcome
  split
  next heq =>
    rw [h] at heq
    cases heq
    exact ⟨_, rfl⟩
  next heq =>
    rw [h] at heq
    exact nomatch heq

theorem gives_array (h : (readArray t).Gives r rest) : (readValue ('[' :: t)).Gives r rest := by
  unfold readValue
  exact h.widen _

theorem gives_emptyArray : (readArray (']' :: t)).Gives (.array [] .closed) t := by
  unfold readArray
  exact ⟨_, rfl⟩

/-- An array that goes on with a value has a first item. -/
theorem gives_firstItem (hs : StartsValue s) (h : (readItem [] s).Gives r rest) :
    (readArray s).Gives r rest := by
  obtain ⟨c, t, rfl, hblank, hclose⟩ := hs
  -- a value starts here, so the array is neither closed nor cut off
  unfold readArray
  split
  next heq =>
    rw [skipBlank_of_not_blank t hblank] at heq
    cases heq
  next heq =>
    rw [skipBlank_of_not_blank t hblank] at heq
    exact absurd (List.cons.inj heq).1 hclose
  next => exact h

/-- An item is read, and then what stands behind it. -/
theorem gives_item (hitem : (readValue t).Gives r u)
    (hmore : (readMoreItems (r :: items) u).Gives r' rest) :
    (readItem items t).Gives r' rest := by
  unfold readItem
  obtain ⟨hu, hitem⟩ := hitem
  rw [hitem]
  exact hmore.widen _

/-- The closing bracket ends an array; its items have been gathered last one first. -/
theorem gives_lastItem :
    (readMoreItems items (']' :: t)).Gives (.array items.reverse .closed) t := by
  unfold readMoreItems
  exact ⟨_, rfl⟩

/-- A comma in front of a value goes on with the next item. -/
theorem gives_nextItem (hs : StartsValue s) (h : (readItem items s).Gives r rest) :
    (readMoreItems items (',' :: s)).Gives r rest := by
  obtain ⟨c, t, rfl, hblank, hclose⟩ := hs
  unfold readMoreItems
  split
  next heq => cases heq
  next heq => cases heq
  next heq =>
    cases heq
    rw [skipBlank_of_not_blank t hblank]
    split
    next heq => exact absurd (List.cons.inj heq).1 hclose
    next => exact h.widen _
  next hcomma heq =>
    cases heq
    exact absurd rfl hcomma

theorem gives_object (h : (readObject t).Gives r rest) : (readValue ('{' :: t)).Gives r rest := by
  unfold readValue
  exact h.widen _

theorem gives_emptyObject : (readObject ('}' :: t)).Gives (.object [] .closed) t := by
  unfold readObject
  exact ⟨_, rfl⟩

/-- An object that goes on with a quote has a first entry. -/
theorem gives_firstEntry (h : (readEntry [] t).Gives r rest) :
    (readObject ('"' :: t)).Gives r rest := by
  unfold readObject
  exact h.widen _

/-- An entry is read key first, then its value, and then what stands behind it. -/
theorem gives_entry (hkey : readString {} t = .whole label (':' :: u))
    (hvalue : (readValue u).Gives r v)
    (hmore : (readMoreEntries ((label, r) :: entries) v).Gives r' rest) :
    (readEntry entries t).Gives r' rest := by
  unfold readEntry
  split
  next heq =>
    rw [hkey] at heq
    cases heq
  next heq =>
    rw [hkey] at heq
    cases heq
    obtain ⟨hv, hvalue⟩ := hvalue
    split
    next heq =>
      cases heq
      rw [hvalue]
      exact hmore.widen _
    next heq => cases heq
    next hcolon heq =>
      cases heq
      exact absurd rfl hcolon

/-- The closing brace ends an object; its entries have been gathered last one first. -/
theorem gives_lastEntry :
    (readMoreEntries entries ('}' :: t)).Gives (.object entries.reverse .closed) t := by
  unfold readMoreEntries
  exact ⟨_, rfl⟩

/-- A comma in front of a quote goes on with the next entry. -/
theorem gives_nextEntry (h : (readEntry entries t).Gives r rest) :
    (readMoreEntries entries (',' :: '"' :: t)).Gives r rest := by
  unfold readMoreEntries
  exact h.widen _

end Steps

/-! ## Documents -/

mutual

/-- A document whose numbers are integers, and what its text reads as. -/
inductive Spells : Document → Reading → Prop where
  | null : Spells .null .null
  | bool (b : Bool) : Spells (.bool b) (.bool b)
  | integer (n : Int) : Spells (.number (integerText n)) (.number (.ofInt n))
  | string (s : String) : Spells (.string s) (.string (.ok s))
  | array {ds : List Document} {rs : List Reading} :
      SpellsItems ds rs → Spells (.array ds) (.array rs .closed)
  | object {ds : List (String × Document)} {rs : List (Label × Reading)} :
      SpellsEntries ds rs → Spells (.object ds) (.object rs .closed)

/-- Items of an array, and what their texts read as. -/
inductive SpellsItems : List Document → List Reading → Prop where
  | nil : SpellsItems [] []
  | cons {d : Document} {r : Reading} {ds : List Document} {rs : List Reading} :
      Spells d r → SpellsItems ds rs → SpellsItems (d :: ds) (r :: rs)

/-- Entries of an object, and what their texts read as. -/
inductive SpellsEntries : List (String × Document) → List (Label × Reading) → Prop where
  | nil : SpellsEntries [] []
  | cons {key : String} {d : Document} {r : Reading} {ds : List (String × Document)}
      {rs : List (Label × Reading)} :
      Spells d r → SpellsEntries ds rs → SpellsEntries ((key, d) :: ds) ((.ok key, r) :: rs)

end

/-- No printed value starts with a blank, nor with the bracket that closes an array. -/
theorem startsValue_chars {d : Document} {r : Reading} (h : Spells d r) (rest : List Char) :
    StartsValue (d.chars ++ rest) := by
  cases h with
  | null => exact ⟨_, _, rfl, by decide, by decide⟩
  | bool b => cases b <;> exact ⟨_, _, rfl, by decide, by decide⟩
  | integer n =>
      rw [chars, integerText, String.toList_ofList]
      by_cases hn : n < 0
      · rw [if_pos hn]
        exact ⟨_, _, rfl, by decide, by decide⟩
      · rw [if_neg hn]
        cases hdigits : digitsOf n.natAbs with
        | nil => exact absurd hdigits (digitsOf_ne_nil _)
        | cons c t =>
            have hc : c.isDigit = true :=
              isDigit_of_mem_digitsOf (hdigits ▸ List.mem_cons_self ..)
            exact ⟨c, _, rfl, isBlank_of_isDigit hc, ne_of_isDigit hc rfl⟩
  | string s => exact ⟨_, _, rfl, by decide, by decide⟩
  | array _ => exact ⟨_, _, rfl, by decide, by decide⟩
  | object _ => exact ⟨_, _, rfl, by decide, by decide⟩

theorem startsValue_items {d : Document} {ds : List Document} {rs : List Reading}
    (h : SpellsItems (d :: ds) rs) (rest : List Char) :
    StartsValue (itemsChars (d :: ds) ++ rest) := by
  cases h with
  | cons hd _ =>
      cases ds with
      | nil =>
          rw [itemsChars, List.append_assoc]
          exact startsValue_chars hd _
      | cons e ds =>
          rw [itemsChars, List.append_assoc]
          · exact startsValue_chars hd _
          · exact List.cons_ne_nil e ds

/-- An integer is read from its text, negative or not. -/
theorem gives_integer (n : Int) {rest : List Char} (hrest : Stops rest) :
    (readValue ((Document.number (integerText n)).chars ++ rest)).Gives
      (.number (.ofInt n)) rest := by
  rw [chars, integerText, String.toList_ofList, Numeral.ofInt]
  by_cases hn : n < 0
  · rw [if_pos hn, decide_eq_true hn]
    exact gives_negative (readUnsigned_digitsOf true n.natAbs hrest)
  · have hread := readUnsigned_digitsOf false n.natAbs hrest
    rw [if_neg hn, decide_eq_false hn]
    cases hdigits : digitsOf n.natAbs with
    | nil => exact absurd hdigits (digitsOf_ne_nil _)
    | cons c t =>
        rw [hdigits] at hread
        exact gives_positive (isDigit_of_mem_digitsOf (hdigits ▸ List.mem_cons_self ..)) hread

/-- The text of a document reads as what it spells, whatever follows. -/
def ReadsBack (d : Document) : Prop :=
  ∀ r rest, Spells d r → Stops rest → (readValue (d.chars ++ rest)).Gives r rest

/-- **ITEMS ARE READ** one after the other, behind those that have been read before. -/
theorem gives_items {d : Document} {ds : List Document} (ih : ∀ x ∈ d :: ds, ReadsBack x)
    (items : List Reading) {rs : List Reading} (h : SpellsItems (d :: ds) rs)
    (rest : List Char) :
    (readItem items (itemsChars (d :: ds) ++ rest)).Gives
      (.array (items.reverse ++ rs) .closed) rest := by
  -- what has been gathered in front of the items grows from one to the next
  induction ds generalizing d items rs with
  | nil =>
      cases h with
      | @cons _ r _ _ hd hds =>
          cases hds
          rw [itemsChars, List.append_assoc, ← List.reverse_cons]
          exact gives_item (ih d (List.mem_cons_self ..) r _ hd (stops_cons _ (by decide)))
            gives_lastItem
  | cons e ds ihs =>
      cases h with
      | @cons _ r _ rs hd hds =>
          have hmore := ihs (fun x hx => ih x (List.mem_cons_of_mem _ hx)) (r :: items) hds
          rw [List.reverse_cons, List.append_assoc] at hmore
          rw [itemsChars, List.append_assoc]
          · exact gives_item (ih d (List.mem_cons_self ..) r _ hd (stops_cons _ (by decide)))
              (gives_nextItem (startsValue_items hds rest) hmore)
          · exact List.cons_ne_nil e ds

/-- Printed entries start with the quote of their first key. -/
theorem entriesChars_head (key : String) (d : Document) (ds : List (String × Document))
    (rest : List Char) : ∃ u, entriesChars ((key, d) :: ds) ++ rest = '"' :: u := by
  cases ds <;> exact ⟨_, rfl⟩

/-- **ENTRIES ARE READ** one after the other, behind those that have been read before. -/
theorem gives_entries {key : String} {d : Document} {ds : List (String × Document)}
    (ih : ∀ k x, (k, x) ∈ (key, d) :: ds → ReadsBack x) (entries : List (Label × Reading))
    {rs : List (Label × Reading)} (h : SpellsEntries ((key, d) :: ds) rs) {rest u : List Char}
    (hu : entriesChars ((key, d) :: ds) ++ rest = '"' :: u) :
    (readEntry entries u).Gives (.object (entries.reverse ++ rs) .closed) rest := by
  -- the quote of each first key is read by the step in front, which leaves the text behind it
  induction ds generalizing key d entries rs u with
  | nil =>
      cases h with
      | @cons _ _ r _ _ hd hds =>
          cases hds
          rw [entriesChars, List.append_assoc, List.cons_append, List.append_assoc] at hu
          rw [← List.reverse_cons]
          exact gives_entry (readString_stringChars hu)
            (ih key d (List.mem_cons_self ..) r _ hd (stops_cons _ (by decide))) gives_lastEntry
  | cons entry ds ihs =>
      obtain ⟨k, x⟩ := entry
      cases h with
      | @cons _ _ r _ rs hd hds =>
          obtain ⟨w, hw⟩ := entriesChars_head k x ds rest
          have hmore := ihs (fun k y hy => ih k y (List.mem_cons_of_mem _ hy))
            ((.ok key, r) :: entries) hds hw
          rw [List.reverse_cons, List.append_assoc] at hmore
          rw [entriesChars, List.append_assoc, List.cons_append, List.append_assoc,
            List.cons_append, hw] at hu
          · exact gives_entry (readString_stringChars hu)
              (ih key d (List.mem_cons_self ..) r _ hd (stops_cons _ (by decide)))
              (gives_nextEntry hmore)
          · exact nofun

/-- **PRINTED DOCUMENTS ARE READ**: at the front of a text, whatever follows that
    is no part of a number, the text of a document reads as what it spells. -/
theorem gives_of_spells (d : Document) : ReadsBack d := by
  induction d with
  | null =>
      intro r rest h hrest
      cases h
      exact gives_null
  | bool b =>
      intro r rest h hrest
      cases h
      cases b with
      | true => exact gives_true
      | false => exact gives_false
  | number s =>
      intro r rest h hrest
      cases h with
      | integer n => exact gives_integer n hrest
  | string s =>
      intro r rest h hrest
      cases h
      exact gives_string (readString_stringChars rfl)
  | array items ih =>
      intro r rest h hrest
      cases h with
      | array hitems =>
          refine gives_array ?_
          cases items with
          | nil =>
              cases hitems
              exact gives_emptyArray
          | cons d ds =>
              exact gives_firstItem (startsValue_items hitems rest) (gives_items ih [] hitems rest)
  | object entries ih =>
      intro r rest h hrest
      cases h with
      | object hentries =>
          refine gives_object ?_
          cases entries with
          | nil =>
              cases hentries
              exact gives_emptyObject
          | cons entry ds =>
              obtain ⟨u, hu⟩ := entriesChars_head entry.1 entry.2 ds rest
              show (readObject (entriesChars (entry :: ds) ++ rest)).Gives _ _
              rw [hu]
              exact gives_firstEntry (gives_entries ih [] hentries hu)

/-- The text of a document is read as a whole. -/
theorem readText_print {d : Document} {r : Reading} (h : Spells d r) :
    readText d.print = ⟨r, false⟩ := by
  have hgives : (readValue d.print.toList).Gives r [] := by
    rw [print, String.toList_ofList, ← List.append_nil d.chars]
    exact gives_of_spells d r [] h stops_nil
  obtain ⟨hlt, hread⟩ := hgives
  rw [readText, hread]
  rfl

end RecordFilter.Json
