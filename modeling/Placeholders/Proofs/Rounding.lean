import Mathlib.Algebra.Order.Field.Rat
import Mathlib.Algebra.Order.Field.Basic
import Mathlib.Data.Nat.Log
import Mathlib.Tactic.FieldSimp
import Mathlib.Tactic.Linarith
import Mathlib.Tactic.Positivity
import Mathlib.Tactic.Ring
import Placeholders.Decimal.Numeral

set_option autoImplicit false

namespace Placeholders

/-- `m` is the whole number nearest to `q`, the even one of two equally near ones. -/
structure HalfEven (q : ℚ) (m : ℤ) : Prop where
  near : |q - m| ≤ 1 / 2
  even : |q - m| = 1 / 2 → Even m

namespace HalfEven

theorem one_le_distances (q : ℚ) {m k : ℤ} (different : k ≠ m) : 1 ≤ |q - m| + |q - k| := by
  have apart : (1 : ℚ) ≤ |(k : ℚ) - m| := by
    exact_mod_cast Int.one_le_abs (sub_ne_zero.mpr different)
  have triangle := abs_sub_le (k : ℚ) q m
  rw [abs_sub_comm (k : ℚ) q] at triangle
  linarith

/-- Other whole numbers are at least as far away, and strictly so unless `m` is even. -/
theorem nearest {q : ℚ} {m : ℤ} (rounded : HalfEven q m) (k : ℤ) :
    |q - m| ≤ |q - k| ∧ (k ≠ m → |q - k| = |q - m| → Even m) := by
  have near := rounded.near
  rcases eq_or_ne k m with rfl | different
  · exact ⟨le_refl _, fun no => absurd rfl no⟩
  · have distances := one_le_distances q different
    exact ⟨by linarith, fun _ tie => rounded.even (by linarith)⟩

theorem unique {q : ℚ} {m k : ℤ} (first : HalfEven q m) (second : HalfEven q k) : m = k := by
  by_contra different
  have distances := one_le_distances q (Ne.symm different)
  have firstNear := first.near
  have secondNear := second.near
  obtain ⟨i, evenFirst⟩ := first.even (by linarith)
  obtain ⟨j, evenSecond⟩ := second.even (by linarith)
  have close : |(m : ℚ) - k| ≤ 1 := by
    have triangle := abs_sub_le (m : ℚ) q k
    rw [abs_sub_comm (m : ℚ) q] at triangle
    linarith
  have whole : |m - k| ≤ 1 := by exact_mod_cast close
  have bounds := abs_le.mp whole
  omega

theorem of_int (k : ℤ) : HalfEven k k := by
  refine ⟨by simp, fun tie => ?_⟩
  rw [sub_self, abs_zero] at tie
  norm_num at tie

theorem neg {q : ℚ} {m : ℤ} (rounded : HalfEven q m) : HalfEven (-q) (-m) := by
  have same : |-q - ((-m : ℤ) : ℚ)| = |q - m| := by
    rw [Int.cast_neg, neg_sub_neg, abs_sub_comm]
  exact ⟨by rw [same]; exact rounded.near, fun tie => (rounded.even (same ▸ tie)).neg⟩

end HalfEven

theorem roundDiv_even_of_tie (num den : Nat) (pos : 0 < den)
    (tie : 2 * num = 2 * (den * roundDiv num den) + den ∨
      2 * num + den = 2 * (den * roundDiv num den)) : roundDiv num den % 2 = 0 := by
  have division := Nat.div_add_mod num den
  have remainder := Nat.mod_lt num pos
  revert tie
  simp only [roundDiv]
  split
  · intro tie
    omega
  · rw [Nat.mul_add, Nat.mul_one]
    intro tie
    omega

theorem halfEven_roundDiv (num den : Nat) (pos : 0 < den) :
    HalfEven ((num : ℚ) / den) (roundDiv num den) := by
  have denPos : (0 : ℚ) < den := by exact_mod_cast pos
  have scaled : (num : ℚ) / den - (roundDiv num den : ℤ) =
      (num - den * roundDiv num den) / den := by
    field_simp
    push_cast
    ring
  have above : (2 : ℚ) * (den * roundDiv num den) ≤ 2 * num + den := by
    exact_mod_cast two_mul_roundDiv_le num den
  have below : (2 : ℚ) * num ≤ 2 * (den * roundDiv num den) + den := by
    exact_mod_cast two_mul_le_roundDiv num den pos
  constructor
  · rw [scaled, abs_le, div_le_iff₀ denPos, le_div_iff₀ denPos]
    constructor <;> linarith
  · intro tie
    rw [scaled, abs_div, abs_of_pos denPos, div_eq_iff denPos.ne'] at tie
    have even := roundDiv_even_of_tie num den pos (by
      rcases abs_cases ((num : ℚ) - den * roundDiv num den) with ⟨sign, -⟩ | ⟨sign, -⟩
      · left
        have equal : (2 : ℚ) * num = 2 * (den * roundDiv num den) + den := by linarith
        exact_mod_cast equal
      · right
        have equal : (2 : ℚ) * num + den = 2 * (den * roundDiv num den) := by linarith
        exact_mod_cast equal)
    rw [Int.even_coe_nat]
    exact Nat.even_iff.mpr even

/-- On the grid of the multiples of `step`, the rounded multiple is nearest. -/
theorem grid_nearest {r step : ℚ} (pos : 0 < step) {k : ℤ} (rounded : HalfEven (r / step) k)
    (j : ℤ) : |r - k * step| ≤ |r - j * step| ∧
      (j ≠ k → |r - j * step| = |r - k * step| → Even k) := by
  have scaled (i : ℤ) : |r - i * step| = |r / step - i| * step := by
    rw [← abs_of_pos pos, ← abs_mul, abs_of_pos pos, sub_mul, div_mul_cancel₀ r pos.ne']
  have nearest := rounded.nearest j
  rw [scaled k, scaled j]
  refine ⟨mul_le_mul_of_nonneg_right nearest.1 pos.le, fun different tie => ?_⟩
  exact nearest.2 different (mul_right_cancel₀ pos.ne' tie)

/-- A magnitude with at most 53 significant bits, without a limit on its size. -/
def Precise (n : Nat) : Prop :=
  2 ^ (n.log2 - 52) ∣ n

theorem Representable.precise {n : Nat} (fits : Representable n) : Precise n := by
  have divides := Nat.dvd_of_mod_eq_zero fits.1
  rwa [Nat.one_shiftLeft] at divides

def leadingBits (n : Nat) : Nat :=
  n >>> (n.log2 - 52)

/-- A precise magnitude is a multiple of the unit of any binade at or below its own, and
smaller than the binade otherwise. -/
theorem Precise.multiple_or_below {n : Nat} (precise : Precise n) (drop : Nat) :
    (∃ j, n = j * 2 ^ drop) ∨ n < 2 ^ (52 + drop) := by
  rcases Nat.lt_or_ge n (2 ^ (52 + drop)) with below | above
  · exact Or.inr below
  · left
    have positive : n ≠ 0 := Nat.ne_of_gt (Nat.lt_of_lt_of_le (Nat.two_pow_pos _) above)
    have binade : 52 + drop ≤ n.log2 := (Nat.le_log2 positive).mpr above
    have finer : drop ≤ n.log2 - 52 := by omega
    obtain ⟨j, multiple⟩ := Nat.dvd_trans (Nat.pow_dvd_pow 2 finer) precise
    exact ⟨j, by rw [Nat.mul_comm]; exact multiple⟩

theorem log2_mul_two_pow (k e : Nat) (nonzero : k ≠ 0) : (k * 2 ^ e).log2 = k.log2 + e := by
  have positive := Nat.two_pow_pos e
  rw [Nat.log2_eq_iff (Nat.mul_ne_zero nonzero positive.ne'), Nat.pow_add, Nat.add_right_comm,
    Nat.pow_add]
  exact ⟨Nat.mul_le_mul_right _ (Nat.log2_self_le nonzero),
    Nat.mul_lt_mul_of_pos_right Nat.lt_log2_self positive⟩

theorem leadingBits_even (k drop : Nat) (bound : k ≤ 2 ^ 53) (normal : drop = 0 ∨ 2 ^ 52 ≤ k)
    (even : Even k) : Even (leadingBits (k <<< drop)) := by
  rcases Nat.eq_zero_or_pos k with rfl | positive
  · simp [leadingBits]
  · have log : (k * 2 ^ drop).log2 = k.log2 + drop := log2_mul_two_pow k drop positive.ne'
    rw [leadingBits, Nat.shiftLeft_eq, log, Nat.shiftRight_eq_div_pow]
    rcases Nat.lt_or_ge k (2 ^ 53) with inside | top
    · have width : k.log2 < 53 := (Nat.log2_lt positive.ne').mpr inside
      have shift : k.log2 + drop - 52 = drop := by
        rcases normal with rfl | normal
        · omega
        · have := (Nat.le_log2 positive.ne').mpr normal
          omega
      rw [shift, Nat.mul_div_cancel _ (Nat.two_pow_pos drop)]
      exact even
    · have power : k = 2 ^ 53 := Nat.le_antisymm bound top
      subst power
      rw [Nat.log2_two_pow, show 53 + drop - 52 = 1 + drop by omega, Nat.pow_add 2 1 drop,
        Nat.mul_div_mul_right _ _ (Nat.two_pow_pos drop)]
      decide

def droppedBits (num den : Nat) : Nat :=
  (num / den).log2 - 52

def roundedPlaces (num den : Nat) : Nat :=
  roundDiv num (den <<< droppedBits num den)

theorem roundUnits_eq (num den : Nat) :
    roundUnits num den = roundedPlaces num den * 2 ^ droppedBits num den := by
  rw [← Nat.shiftLeft_eq]
  rfl

theorem halfEven_roundedPlaces (num den : Nat) (pos : 0 < den) :
    HalfEven ((num : ℚ) / den / 2 ^ droppedBits num den) (roundedPlaces num den) := by
  have scaled : 0 < den <<< droppedBits num den := by
    rw [Nat.shiftLeft_eq]
    exact Nat.mul_pos pos (Nat.two_pow_pos _)
  have quotient : (num : ℚ) / den / 2 ^ droppedBits num den =
      num / (den <<< droppedBits num den : Nat) := by
    rw [Nat.shiftLeft_eq, div_div]
    push_cast
    rfl
  rw [quotient]
  exact halfEven_roundDiv num _ scaled

/-- Bits are dropped only from quotients of more than 53 bits. -/
theorem binade_le (num den : Nat) (pos : 0 < den) :
    droppedBits num den = 0 ∨ (2 : ℚ) ^ 52 * 2 ^ droppedBits num den ≤ (num : ℚ) / den := by
  rcases Nat.lt_or_ge (num / den).log2 53 with small | large
  · left
    unfold droppedBits
    omega
  · right
    have nonzero : num / den ≠ 0 := by
      intro zero
      rw [zero] at large
      simp at large
    have binade : 2 ^ (52 + droppedBits num den) ≤ num / den := by
      have exponent : 52 + droppedBits num den = (num / den).log2 := by
        unfold droppedBits
        omega
      rw [exponent]
      exact Nat.log2_self_le nonzero
    have scaled := (Nat.le_div_iff_mul_le pos).mp binade
    rw [le_div_iff₀ (by exact_mod_cast pos), ← pow_add]
    exact_mod_cast scaled

theorem roundedPlaces_le (num den : Nat) : roundedPlaces num den ≤ 2 ^ 53 := by
  have bound := roundDiv_drop_le num den
  rwa [Nat.one_shiftLeft] at bound

theorem le_roundedPlaces (num den : Nat) (pos : 0 < den)
    (above : (2 : ℚ) ^ 52 * 2 ^ droppedBits num den ≤ (num : ℚ) / den) :
    2 ^ 52 ≤ roundedPlaces num den := by
  have near := (abs_le.mp (halfEven_roundedPlaces num den pos).near).2
  have large : (2 : ℚ) ^ 52 ≤ (num : ℚ) / den / 2 ^ droppedBits num den := by
    rwa [le_div_iff₀ (by positivity)]
  have close : (2 : ℚ) ^ 52 < (roundedPlaces num den : ℚ) + 1 := by
    push_cast at near
    linarith
  have whole : 2 ^ 52 < roundedPlaces num den + 1 := by exact_mod_cast close
  omega

/-- `n` is not nearer to `r` than `u` is, and equally near only if `u` is even. -/
def NoNearer (r : ℚ) (u n : Nat) : Prop :=
  |r - u| ≤ |r - n| ∧ (n ≠ u → |r - n| = |r - u| → Even (leadingBits u))

/-- No precise magnitude is nearer than the rounded one. -/
theorem roundUnits_nearest (num den : Nat) (pos : 0 < den) {n : Nat} (precise : Precise n) :
    NoNearer ((num : ℚ) / den) (roundUnits num den) n := by
  have step : (0 : ℚ) < 2 ^ droppedBits num den := by positivity
  have rounded := halfEven_roundedPlaces num den pos
  have units : (roundUnits num den : ℚ) =
      ((roundedPlaces num den : ℤ) : ℚ) * 2 ^ droppedBits num den := by
    rw [roundUnits_eq]
    push_cast
    ring
  have normal : droppedBits num den = 0 ∨ 2 ^ 52 ≤ roundedPlaces num den :=
    (binade_le num den pos).imp_right (le_roundedPlaces num den pos)
  have onGrid (j : Nat) (multiple : n = j * 2 ^ droppedBits num den) :
      NoNearer ((num : ℚ) / den) (roundUnits num den) n := by
    have candidate : (n : ℚ) = ((j : ℤ) : ℚ) * 2 ^ droppedBits num den := by
      rw [multiple]
      push_cast
      ring
    have nearest := grid_nearest step rounded j
    rw [NoNearer, units, candidate]
    refine ⟨nearest.1, fun different tie => ?_⟩
    have even := nearest.2 (fun same => different (by
      rw [multiple, roundUnits_eq, Int.ofNat_inj.mp same])) tie
    rw [roundUnits_eq, ← Nat.shiftLeft_eq]
    exact leadingBits_even _ _ (roundedPlaces_le num den) normal (Int.even_coe_nat _ |>.mp even)
  rcases binade_le num den pos with undropped | above
  · exact onGrid n (by rw [undropped, Nat.pow_zero, Nat.mul_one])
  · rcases precise.multiple_or_below (droppedBits num den) with ⟨j, multiple⟩ | below
    · exact onGrid j multiple
    · -- Below the binade of the quotient, the lowest number of that binade is nearer.
      have smaller : (n : ℚ) < 2 ^ 52 * 2 ^ droppedBits num den := by
        rw [← pow_add]
        exact_mod_cast below
      have lowest := (grid_nearest step rounded (2 ^ 52)).1
      rw [← units] at lowest
      rw [Int.cast_pow, Int.cast_ofNat, abs_of_nonneg (sub_nonneg.mpr above)] at lowest
      have distance : |(num : ℚ) / den - n| = (num : ℚ) / den - n :=
        abs_of_nonneg (by linarith)
      rw [NoNearer, distance]
      exact ⟨by linarith, fun _ tie => by linarith⟩

end Placeholders
