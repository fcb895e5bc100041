import Ferry.Text.Unprintable

/-!
# Quoted text

Messages show names and addresses between quotation marks. Inside, a quotation mark and a
backslash are escaped, the tab, line feed, carriage return and null have short names, and every
other unprintable character is written as its number in hexadecimal digits.
-/

namespace Ferry.Text

/-- The lower-case digit of a value below sixteen. -/
def hexDigit (value : Nat) : Char := Nat.digitChar value

/-- A number in lower-case hexadecimal digits, without leading zeros. -/
def hexNumber (n : Nat) : String := String.ofList (Nat.toDigits 16 n)

/-- One character as it stands inside a quoted text. -/
def escape (c : Char) : String :=
  if c = '"' then "\\\""
  else if c = '\\' then "\\\\"
  else if c = '\t' then "\\t"
  else if c = '\n' then "\\n"
  else if c = '\r' then "\\r"
  else if c.toNat = 0 then "\\0"
  else if 0x20 ≤ c.toNat ∧ c.toNat < 0x7F then c.toString
  else if Unprintable c then "\\u\x7b" ++ hexNumber c.toNat ++ "\x7d"
  else c.toString

/-- The text between quotation marks, with everything escaped that could be misread. -/
def quoted (text : String) : String :=
  "\"" ++ String.join (text.toList.map escape) ++ "\""

end Ferry.Text
