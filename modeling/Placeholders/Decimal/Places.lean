import Placeholders.Binary64.Basic

set_option autoImplicit false

namespace Placeholders.Decimal

def dropFinalZeros (cs : List Char) : List Char :=
  (cs.reverse.dropWhile (· == '0')).reverse

/-- The digits before the point of `n / 10 ^ places`, without leading zeros. -/
def wholeDigits (n places : Nat) : List Char :=
  Nat.toDigits 10 (n / Nat.pow 10 places)

/-- The digits after the point of `n / 10 ^ places`, without final zeros. -/
def fractionDigits (n places : Nat) : List Char :=
  if n % Nat.pow 10 places = 0 then []
  else dropFinalZeros ((Nat.toDigits 10 (n % Nat.pow 10 places)).leftpad places '0')

/-- `units` of a double as a whole number of 10 ^ -`places`, ties to even. -/
def roundPlaces (units places : Nat) : Nat :=
  roundDiv (units * Nat.pow 10 places) unitsPerOne

end Placeholders.Decimal
