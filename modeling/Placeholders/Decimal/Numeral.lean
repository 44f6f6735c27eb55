import Placeholders.Binary64.Basic

set_option autoImplicit false

/- Plain decimal numerals, `[+-]?(D+(\.D*)?|\.D+)([eE][+-]?D+)?` with `D` an ASCII digit,
and the double nearest to the number a numeral denotes. Words such as `inf` are no
numerals. -/
namespace Placeholders

/-- A written decimal: a sign, the digits before and after the point, and a power of ten. -/
structure Numeral where
  negative : Bool
  whole : List Char
  fraction : List Char
  exponent : Int
  deriving DecidableEq

namespace Numeral

/-- Splits an optional sign off the text; true stands for a minus. -/
def takeSign : List Char → Bool × List Char
  | '-' :: cs => (true, cs)
  | '+' :: cs => (false, cs)
  | cs => (false, cs)

/-- Reads `digits` as a natural number; there must be at least one and nothing else. -/
def readNat? (digits : List Char) : Option Nat :=
  if digits ≠ [] ∧ digits.all Char.isDigit then some (Nat.ofDigitChars 10 digits 0) else none

/-- Reads the optional exponent that ends a numeral. -/
def readExponent? : List Char → Option Int
  | [] => some 0
  | c :: cs =>
      if c = 'e' ∨ c = 'E' then
        let (negative, digits) := takeSign cs
        (readNat? digits).map fun n => if negative then -(n : Int) else n
      else none

/-- Reads the optional point and fraction digits; the rest is left to the exponent. -/
def takeFraction : List Char → List Char × List Char
  | '.' :: cs => (cs.takeWhile Char.isDigit, cs.dropWhile Char.isDigit)
  | cs => ([], cs)

def read? (cs : List Char) : Option Numeral :=
  let (negative, unsigned) := takeSign cs
  let whole := unsigned.takeWhile Char.isDigit
  let (fraction, rest) := takeFraction (unsigned.dropWhile Char.isDigit)
  if whole = [] ∧ fraction = [] then none
  else (readExponent? rest).map fun exponent => ⟨negative, whole, fraction, exponent⟩

/-- The number written by all digits together, without the point. -/
def significand (n : Numeral) : Nat :=
  Nat.ofDigitChars 10 (n.whole ++ n.fraction) 0

/-- The power of ten that `significand` is to be multiplied by. -/
def scale (n : Numeral) : Int :=
  n.exponent - n.fraction.length

end Numeral

namespace Binary64

/-- The double nearest to `significand * 10 ^ scale`, ties to even. The first two branches
only spare the powers of ten of numbers that are certain to be zero or infinite. -/
def ofDecimal (negative : Bool) (significand : Nat) (scale : Int) : Binary64 :=
  if significand = 0 ∨ scale + significand.log2 + 1 < -330 then zero negative
  else if 310 < scale then .infinite negative
  else nearest negative (significand * Nat.pow 10 scale.toNat * unitsPerOne) (Nat.pow 10 (-scale).toNat)

def ofNumeral (n : Numeral) : Binary64 :=
  ofDecimal n.negative n.significand n.scale

def read? (cs : List Char) : Option Binary64 :=
  (Numeral.read? cs).map ofNumeral

end Binary64

end Placeholders
