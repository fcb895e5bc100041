/-!
# Numbers in decimal digits

A number is read from the ASCII digits alone; there is at least one digit, and zeros in front of the
others do not matter. A sign may stand before the digits where the reader allows it.
-/

namespace Ferry.Text

/-- The value of a decimal digit. -/
def digitValue? (c : Char) : Option Nat :=
  if '0' ≤ c ∧ c ≤ '9' then some (c.toNat - '0'.toNat) else none

/-- The number that digits spell after those that spell `before`. -/
def digitsFrom? (before : Nat) : List Char → Option Nat
  | [] => some before
  | c :: rest => (digitValue? c).bind fun value => digitsFrom? (10 * before + value) rest

/-- The number that digits spell; there must be one. -/
def natural? : List Char → Option Nat
  | [] => none
  | digits => digitsFrom? 0 digits

/-- The number below a limit that digits spell, perhaps after a plus sign. -/
def unsigned? (limit : Nat) (text : List Char) : Option Nat :=
  let digits := match text with
    | '+' :: rest => rest
    | _ => text
  (natural? digits).filter (· < limit)

/-- The number between two bounds that digits spell, perhaps after a sign. -/
def signed? (least greatest : Int) (text : List Char) : Option Int :=
  let value : Option Int := match text with
    | '-' :: rest => (natural? rest).map fun n => -(n : Int)
    | '+' :: rest => (natural? rest).map fun n => (n : Int)
    | _ => (natural? text).map fun n => (n : Int)
  value.filter fun n => least ≤ n ∧ n ≤ greatest

end Ferry.Text
