set_option autoImplicit false

/- Double-precision numbers as exact integers. Every finite double is a whole number of
the smallest positive one, 2 ^ -1074, so a magnitude is a natural number of those units,
restricted to the ones that 53 significant bits can hold. Arithmetic computes exactly on
naturals and then rounds once. -/
namespace Placeholders

/-- How many units of 2 ^ -1074 make one. -/
def unitsPerOne : Nat := 1 <<< 1074

/-- The first magnitude, in units, that is too large for a finite double: 2 ^ 1024. -/
def overflowUnits : Nat := 1 <<< 2098

private theorem one_shiftLeft_pos (k : Nat) : 0 < 1 <<< k := by
  rw [Nat.one_shiftLeft]
  exact Nat.two_pow_pos k

theorem overflowUnits_pos : 0 < overflowUnits :=
  one_shiftLeft_pos 2098

/-- `n` units fit a finite double: at most 53 significant bits, and no overflow. -/
def Representable (n : Nat) : Prop :=
  n % (1 <<< (n.log2 - 52)) = 0 ∧ n < overflowUnits

instance (n : Nat) : Decidable (Representable n) :=
  inferInstanceAs (Decidable (_ ∧ _))

/-- A double-precision number. The two zeros differ in their sign; there is one `nan`. -/
inductive Binary64 where
  | finite (negative : Bool) (units : Nat) (fits : Representable units)
  | infinite (negative : Bool)
  | nan
  deriving DecidableEq

/-- The integer nearest to `num / den`; of two equally near ones, the even one. -/
def roundDiv (num den : Nat) : Nat :=
  let quotient := num / den
  let remainder := num % den
  if 2 * remainder < den ∨ (2 * remainder = den ∧ quotient % 2 = 0) then quotient else quotient + 1

theorem roundDiv_le (num den : Nat) : roundDiv num den ≤ num / den + 1 := by
  simp only [roundDiv]
  split <;> omega

theorem two_mul_roundDiv_le (num den : Nat) : 2 * (den * roundDiv num den) ≤ 2 * num + den := by
  have division := Nat.div_add_mod num den
  simp only [roundDiv]
  split
  · omega
  · rw [Nat.mul_add, Nat.mul_one]
    omega

theorem two_mul_le_roundDiv (num den : Nat) (h : 0 < den) :
    2 * num ≤ 2 * (den * roundDiv num den) + den := by
  have division := Nat.div_add_mod num den
  have remainder := Nat.mod_lt num h
  simp only [roundDiv]
  split
  · omega
  · rw [Nat.mul_add, Nat.mul_one]
    omega

/-- `num / den` units rounded to 53 significant bits, ties to even. -/
def roundUnits (num den : Nat) : Nat :=
  let drop := (num / den).log2 - 52
  roundDiv num (den <<< drop) <<< drop

/-- A number of at most 53 bits, moved up by `e` bits, has at most 53 significant bits. -/
theorem shiftLeft_mod_step (k e : Nat) (hk : k ≤ 1 <<< 53) :
    (k <<< e) % (1 <<< ((k <<< e).log2 - 52)) = 0 := by
  simp only [Nat.shiftLeft_eq, Nat.one_mul] at hk ⊢
  rcases Nat.eq_zero_or_pos k with rfl | pos
  · simp
  · have product_pos : k * 2 ^ e ≠ 0 := Nat.mul_ne_zero (by omega) (by simp)
    rcases Nat.lt_or_ge k (2 ^ 53) with lt | ge
    · have bound : (k * 2 ^ e).log2 < 53 + e := by
        rw [Nat.log2_lt product_pos, Nat.pow_add]
        exact Nat.mul_lt_mul_of_pos_right lt (Nat.two_pow_pos e)
      exact Nat.mod_eq_zero_of_dvd
        (Nat.dvd_trans (Nat.pow_dvd_pow 2 (by omega)) (Nat.dvd_mul_left _ _))
    · have top : k = 2 ^ 53 := by omega
      subst top
      rw [← Nat.pow_add, Nat.log2_two_pow]
      exact Nat.mod_eq_zero_of_dvd (Nat.pow_dvd_pow 2 (by omega))

theorem representable_shiftLeft (k e : Nat) (hk : k ≤ 1 <<< 53) (h : k <<< e < overflowUnits) :
    Representable (k <<< e) :=
  ⟨shiftLeft_mod_step k e hk, h⟩

/-- Rounding after the lowest bits are dropped leaves at most 53 bits. -/
theorem roundDiv_drop_le (num den : Nat) :
    roundDiv num (den <<< ((num / den).log2 - 52)) ≤ 1 <<< 53 := by
  have bound : num / (den <<< ((num / den).log2 - 52)) < 1 <<< 53 := by
    simp only [Nat.shiftLeft_eq, Nat.one_mul]
    rw [← Nat.div_div_eq_div_mul, Nat.div_lt_iff_lt_mul (Nat.two_pow_pos _), ← Nat.pow_add]
    exact Nat.lt_of_lt_of_le Nat.lt_log2_self (Nat.pow_le_pow_right (by omega) (by omega))
  have := roundDiv_le num (den <<< ((num / den).log2 - 52))
  omega

theorem representable_roundUnits (num den : Nat) (h : roundUnits num den < overflowUnits) :
    Representable (roundUnits num den) :=
  representable_shiftLeft _ _ (roundDiv_drop_le num den) h

namespace Binary64

/-- The double nearest to `num / den` units with the given sign, ties to even; infinite
once the rounded magnitude overflows. -/
def nearest (negative : Bool) (num den : Nat) : Binary64 :=
  if h : roundUnits num den < overflowUnits then
    .finite negative (roundUnits num den) (representable_roundUnits num den h)
  else
    .infinite negative

def zero (negative : Bool) : Binary64 :=
  .finite negative 0 ⟨Nat.zero_mod _, overflowUnits_pos⟩

def one : Binary64 :=
  nearest false unitsPerOne 1

/-- The place of a number on the line, in units, with the infinities just outside the
finite range; a `nan` has none. -/
def place? : Binary64 → Option Int
  | .finite negative units _ => some (if negative then -(units : Int) else units)
  | .infinite negative => some (if negative then -(overflowUnits : Int) else overflowUnits)
  | .nan => none

/-- The numeric order; a `nan` is ordered with nothing. -/
def compare? (x y : Binary64) : Option Ordering :=
  match x.place?, y.place? with
  | some a, some b => some (compare a b)
  | _, _ => none

/-- Numeric equality: the zeros are equal, and a `nan` equals nothing. -/
def equal : Binary64 → Binary64 → Bool
  | .finite s m _, .finite t n _ => m == n && (s == t || m == 0)
  | .infinite s, .infinite t => s == t
  | _, _ => false

end Binary64

end Placeholders
