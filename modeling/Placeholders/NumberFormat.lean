import Placeholders.Decimal.Shortest
import Placeholders.Text.Blank

set_option autoImplicit false

namespace Placeholders

/-- A format: the separator before the fraction, the separator between groups of three
whole digits if there is one, and the most fraction digits written. -/
structure NumberFormat where
  decimalSeparator : Char
  groupingSeparator : Option Char
  maxFractionDigits : Nat
  deriving DecidableEq

namespace NumberFormat

def standard : NumberFormat := ⟨'.', none, 3⟩

instance : Inhabited NumberFormat := ⟨standard⟩

/-- What makes the output of a format ambiguous. -/
inductive Flaw where
  | reservedDecimal (separator : Char)
  | reservedGrouping (separator : Char)
  | equalSeparators (separator : Char)
  deriving DecidableEq

def Flaw.message : Flaw → String
  | .reservedDecimal c => "decimal separator '" ++ String.singleton c ++ "' is reserved for numbers"
  | .reservedGrouping c => "grouping separator '" ++ String.singleton c ++ "' is reserved for numbers"
  | .equalSeparators c => "grouping and decimal separators are both '" ++ String.singleton c ++ "'"

/-- Digits, signs and exponent marks already have a meaning in a number. -/
def isReserved (c : Char) : Bool :=
  c.isDigit || c == '+' || c == '-' || c == 'e' || c == 'E'

/-- The first flaw of a format, the decimal separator's before the grouping separator's. -/
def flaw? (f : NumberFormat) : Option Flaw :=
  if isReserved f.decimalSeparator then some (.reservedDecimal f.decimalSeparator)
  else
    f.groupingSeparator.bind fun separator =>
      if isReserved separator then some (.reservedGrouping separator)
      else if separator = f.decimalSeparator then some (.equalSeparators separator)
      else none

/-- Inserts `separator` at every multiple of three digits from the right end. -/
def groupThrees (separator : Char) : List Char → List Char
  | [] => []
  | c :: cs =>
      if cs ≠ [] ∧ cs.length % 3 = 0 then c :: separator :: groupThrees separator cs
      else c :: groupThrees separator cs

def group (f : NumberFormat) (digits : List Char) : List Char :=
  match f.groupingSeparator with
  | some separator => groupThrees separator digits
  | none => digits

/-- The places that numbers are rounded to. No double has more than 1074 fraction digits, so
further places would only hold zeros. -/
def places (f : NumberFormat) : Nat :=
  min f.maxFractionDigits 1074

/-- The text of `n` units of the last place, with the format's separators. -/
def numeralText (f : NumberFormat) (negative : Bool) (n : Nat) : List Char :=
  let fraction := Decimal.fractionDigits n f.places
  Binary64.signText (negative && n != 0) ++ f.group (Decimal.wholeDigits n f.places) ++
    if fraction = [] then [] else f.decimalSeparator :: fraction

/-- A number for display: rounded half to even to the format's fraction digits, without
final zeros, and zero without a sign. -/
def write (f : NumberFormat) : Binary64 → List Char
  | .finite negative units _ => f.numeralText negative (Decimal.roundPlaces units f.places)
  | x => x.specialText

/-- Plain decimal text of a formatted one: no grouping, and a point before the fraction. -/
def normalize (f : NumberFormat) (cs : List Char) : List Char :=
  (cs.filter fun c => some c != f.groupingSeparator).map fun c =>
    if c = f.decimalSeparator then '.' else c

/-- Reads formatted text, ignoring grouping and surrounding white space. -/
def read? (f : NumberFormat) (cs : List Char) : Option Binary64 :=
  Binary64.read? (f.normalize (Text.trim cs))

end NumberFormat

end Placeholders
