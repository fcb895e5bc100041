import Ferry.Text.Decimal

/-!
# Machine words

Arguments, locals, operands and results are signed words of 64 bits. Arithmetic on them wraps; a
comparison gives one or zero.
-/

namespace Ferry

/-- A signed word of 64 bits. -/
abbrev Word := Int64

namespace Word

/-- One for truth and zero for falsity. -/
def ofBool (b : Bool) : Word := if b then 1 else 0

/-- The decimal text of a word. -/
def text (w : Word) : String := toString w.toInt

/-- The word that decimal digits spell, perhaps after a sign. -/
def ofText? (text : String) : Option Word :=
  (Text.signed? Int64.minValue.toInt Int64.maxValue.toInt text.toList).map Int64.ofInt

/-- The decimal texts of several words, between brackets and separated by commas. -/
def listText (words : List Word) : String :=
  "[" ++ ", ".intercalate (words.map text) ++ "]"

end Word

end Ferry
