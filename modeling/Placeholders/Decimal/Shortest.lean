import Placeholders.Decimal.Numeral
import Placeholders.Decimal.Places

set_option autoImplicit false

namespace Placeholders.Decimal

/-- Whether `significand * 10 ^ scale` reads back as exactly `units`. -/
def readsBack (units significand : Nat) (scale : Int) : Bool :=
  match Binary64.ofDecimal false significand scale with
  | .finite false n _ => n == units
  | _ => false

/-- The grid of multiples of `10 ^ scale`: the nearer of the two neighbours of `units` that
reads back, and of two equally near ones the upper. -/
def gridPoint? (units : Nat) (scale : Int) : Option Nat :=
  let num := units * Nat.pow 10 (-scale).toNat
  let den := unitsPerOne * Nat.pow 10 scale.toNat
  let lower := num / den
  let upper := lower + 1
  if readsBack units lower scale ∧ (2 * (num % den) < den ∨ ¬ readsBack units upper scale) then
    some lower
  else if readsBack units upper scale then some upper
  else none

/-- The power of ten of the first digit of `units`, which are not zero. -/
def leadingScale (units : Nat) : Int :=
  (Nat.toDigits 10 (units * Nat.pow 10 400 / unitsPerOne)).length - 401

/-- Searches `attempts` grids from `scale` downwards; the number's exact expansion is left
for the case that none has a point that reads back. -/
def searchGrids (units : Nat) : Nat → Int → Nat × Int
  | 0, _ => (units * Nat.pow 5 1074, -1074)
  | attempts + 1, scale =>
      match gridPoint? units scale with
      | some significand => (significand, scale)
      | none => searchGrids units attempts (scale - 1)

/-- The shortest decimal `significand * 10 ^ scale` that reads back as `units`. -/
def shortest (units : Nat) : Nat × Int :=
  if units = 0 then (0, 0) else searchGrids units 17 (leadingScale units)

/-- `significand * 10 ^ scale` in positional notation. -/
def positional (significand : Nat) (scale : Int) : List Char :=
  let n := significand * Nat.pow 10 scale.toNat
  let places := (-scale).toNat
  match fractionDigits n places with
  | [] => wholeDigits n places
  | fraction => wholeDigits n places ++ '.' :: fraction

end Placeholders.Decimal

namespace Placeholders.Binary64

def signText (negative : Bool) : List Char :=
  if negative then ['-'] else []

def specialText : Binary64 → List Char
  | .nan => ['N', 'a', 'N']
  | .infinite negative | .finite negative _ _ => signText negative ++ ['i', 'n', 'f']

/-- The shortest text that reads back to the same number, without an exponent; `inf`,
`-inf` and `NaN` for the others. -/
def display : Binary64 → List Char
  | .finite negative units _ =>
      let (significand, scale) := Decimal.shortest units
      signText negative ++ Decimal.positional significand scale
  | x => x.specialText

end Placeholders.Binary64
