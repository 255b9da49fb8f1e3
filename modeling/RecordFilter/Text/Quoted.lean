import RecordFilter.Text.Unprintable

/-! # Quoted text

    The form in which messages and operands show a text: between double
    quotes, with a short escape for the characters that have one, and the code
    point in hexadecimal for every other character that cannot be shown. -/

namespace RecordFilter.Text

/-- The lowercase hexadecimal digits of a number, without leading zeros. -/
def hexDigits (n : Nat) : String := String.ofList (Nat.toDigits 16 n)

/-- One character as it stands inside a quoted text. -/
def quotedChar (c : Char) : String :=
  match c with
  | '\x00' => "\\0"
  | '\t' => "\\t"
  | '\r' => "\\r"
  | '\n' => "\\n"
  | '"' => "\\\""
  | '\\' => "\\\\"
  | c =>
      if ' ' ≤ c ∧ c ≤ '~' then String.singleton c
      else if isUnprintable c then "\\u\x7b" ++ hexDigits c.toNat ++ "\x7d"
      else String.singleton c

/-- A text between double quotes, every character escaped that needs it. -/
def quoted (s : String) : String :=
  "\"" ++ String.join (s.toList.map quotedChar) ++ "\""

end RecordFilter.Text
