import Placeholders.Proofs.Rounding

set_option autoImplicit false

namespace Placeholders

-- The exponents are made variables first, so that no tactic evaluates the powers.
theorem unitsPerOne_eq : unitsPerOne = 2 ^ 1074 := by
  unfold unitsPerOne
  generalize 1074 = k
  exact Nat.one_shiftLeft k

theorem overflowUnits_eq_pow : overflowUnits = 2 ^ 2098 := by
  unfold overflowUnits
  generalize 2098 = k
  exact Nat.one_shiftLeft k

theorem unitsPerOne_pos : 0 < unitsPerOne := by
  rw [unitsPerOne_eq]
  positivity

theorem unitsPerOne_cast_pos : (0 : ℚ) < unitsPerOne := by
  exact_mod_cast unitsPerOne_pos

theorem overflowUnits_eq : overflowUnits = 2 ^ 1024 * unitsPerOne := by
  rw [unitsPerOne_eq, overflowUnits_eq_pow, show 2098 = 1024 + 1074 from rfl]
  generalize 1024 = i, 1074 = j
  exact Nat.pow_add 2 i j

theorem lt_overflowUnits {n : Nat} (small : n < 2 ^ 53 * unitsPerOne) : n < overflowUnits := by
  rw [overflowUnits_eq]
  apply small.trans_le
  apply Nat.mul_le_mul_right
  have exponents : 53 ≤ 1024 := by decide
  revert exponents
  generalize 1024 = k
  exact Nat.pow_le_pow_right Nat.two_pos

theorem Representable.whole_or_below {n : Nat} (fits : Representable n) :
    (∃ j, n = j * unitsPerOne) ∨ n < 2 ^ 52 * unitsPerOne := by
  rw [unitsPerOne_eq]
  generalize 1074 = k
  rw [← Nat.pow_add]
  exact fits.precise.multiple_or_below k

theorem precise_two_pow (k : Nat) : Precise (2 ^ k) := by
  rw [Precise, Nat.log2_two_pow]
  exact Nat.pow_dvd_pow 2 (Nat.sub_le k 52)

theorem le_roundUnits {num den n : Nat} (pos : 0 < den) (precise : Precise n)
    (above : n * den ≤ num) : n ≤ roundUnits num den := by
  have atMost : (n : ℚ) ≤ (num : ℚ) / den := by
    rw [le_div_iff₀ (by exact_mod_cast pos)]
    exact_mod_cast above
  have nearest := (roundUnits_nearest num den pos precise).1
  rw [abs_of_nonneg (sub_nonneg.mpr atMost)] at nearest
  have close := (abs_le.mp nearest).2
  have cast : (n : ℚ) ≤ roundUnits num den := by linarith
  exact_mod_cast cast

theorem precise_roundUnits (num den : Nat) : Precise (roundUnits num den) := by
  have divides := Nat.dvd_of_mod_eq_zero
    (shiftLeft_mod_step _ ((num / den).log2 - 52) (roundDiv_drop_le num den))
  rwa [Nat.one_shiftLeft] at divides

/-- The largest precise magnitude below `2 ^ (k + 54)`. -/
def largestBelow (k : Nat) : Nat :=
  (2 ^ 53 - 1) * 2 ^ (k + 1)

theorem log2_largestBelow (k : Nat) : (largestBelow k).log2 = 52 + (k + 1) :=
  log2_mul_two_pow (2 ^ 53 - 1) (k + 1) (by decide)

theorem precise_largestBelow (k : Nat) : Precise (largestBelow k) := by
  rw [Precise, log2_largestBelow, Nat.add_sub_cancel_left]
  exact Nat.dvd_mul_left _ _

theorem leadingBits_largestBelow (k : Nat) : leadingBits (largestBelow k) = 2 ^ 53 - 1 := by
  rw [leadingBits, log2_largestBelow, Nat.add_sub_cancel_left, Nat.shiftRight_eq_div_pow]
  exact Nat.mul_div_cancel _ (Nat.two_pow_pos _)

theorem Precise.le_largestBelow {n k : Nat} (precise : Precise n) (below : n < 2 ^ (k + 54)) :
    n ≤ largestBelow k := by
  rcases precise.multiple_or_below (k + 1) with ⟨j, rfl⟩ | small
  · rw [show k + 54 = 53 + (k + 1) by omega, Nat.pow_add 2 53] at below
    have factor : j < 2 ^ 53 := Nat.lt_of_mul_lt_mul_right below
    exact Nat.mul_le_mul_right _ (Nat.le_sub_one_of_lt factor)
  · rw [Nat.pow_add] at small
    exact small.le.trans (Nat.mul_le_mul_right _ (by decide))

/-- Rounding reaches a power of two from half a last place below it on: that number is a tie, and
the magnitude below the power is odd. -/
theorem roundUnits_lt_two_pow_iff (num k : Nat) {den : Nat} (pos : 0 < den) :
    roundUnits num den < 2 ^ (k + 54) ↔ (num : ℚ) / den < (2 ^ 54 - 1) * 2 ^ k := by
  have power : ((2 ^ (k + 54) : ℕ) : ℚ) = 2 ^ 54 * 2 ^ k := by
    push_cast
    ring
  have largest : (largestBelow k : ℚ) = (2 ^ 54 - 2) * 2 ^ k := by
    rw [largestBelow, Nat.cast_mul]
    push_cast
    ring
  have last : (0 : ℚ) < 2 ^ k := by positivity
  have toPower := roundUnits_nearest num den pos (precise_two_pow (k + 54))
  have toLargest := (roundUnits_nearest num den pos (precise_largestBelow k)).1
  rw [NoNearer, power] at toPower
  rw [largest] at toLargest
  constructor
  · intro below
    have bound : (roundUnits num den : ℚ) ≤ (2 ^ 54 - 2) * 2 ^ k := by
      rw [← largest]
      exact_mod_cast (precise_roundUnits num den).le_largestBelow below
    by_contra reached
    have reached := not_lt.mp reached
    have near := (le_abs_self _).trans toPower.1
    rcases abs_cases ((num : ℚ) / den - 2 ^ 54 * 2 ^ k) with ⟨distance, -⟩ | ⟨distance, -⟩
    · linarith
    · -- Only the midpoint is as near to the power as to the magnitude below it.
      have same : (roundUnits num den : ℚ) = (2 ^ 54 - 2) * 2 ^ k := by linarith
      have tie : |(num : ℚ) / den - 2 ^ 54 * 2 ^ k| = |(num : ℚ) / den - roundUnits num den| := by
        rw [distance, same, abs_of_nonneg (by linarith)]
        linarith
      have even := toPower.2 below.ne' tie
      rw [← largest, Nat.cast_inj] at same
      rw [same, leadingBits_largestBelow] at even
      exact absurd even (by decide)
  · intro below
    by_contra reached
    have bound : 2 ^ 54 * 2 ^ k ≤ (roundUnits num den : ℚ) := by
      rw [← power]
      exact_mod_cast Nat.le_of_not_lt reached
    have near := (abs_le.mp toLargest).1
    rcases abs_cases ((num : ℚ) / den - (2 ^ 54 - 2) * 2 ^ k) with ⟨distance, -⟩ | ⟨distance, -⟩
    · linarith
    · linarith

/-- A magnitude overflows from half a last place above the largest double on. -/
theorem roundUnits_lt_overflowUnits_iff (num : Nat) {den : Nat} (pos : 0 < den) :
    roundUnits num den < overflowUnits ↔
      (num : ℚ) / den / unitsPerOne < 2 ^ 1024 - 2 ^ 970 := by
  rw [overflowUnits_eq_pow, div_lt_iff₀ unitsPerOne_cast_pos, unitsPerOne_eq,
    show 2098 = 970 + 1074 + 54 from rfl, show 1024 = 54 + 970 from rfl]
  generalize 970 = i, 1074 = j
  have bound : ((2 : ℚ) ^ (54 + i) - 2 ^ i) * (2 ^ j : ℕ) = (2 ^ 54 - 1) * 2 ^ (i + j) := by
    push_cast
    ring
  rw [bound]
  exact roundUnits_lt_two_pow_iff num (i + j) pos

theorem roundUnits_eq_zero {num den : Nat} (small : 2 * num < den) : roundUnits num den = 0 := by
  have quotient : num / den = 0 := Nat.div_eq_of_lt (by omega)
  have remainder : num % den = num := Nat.mod_eq_of_lt (by omega)
  simp [roundUnits, roundDiv, quotient, remainder, small]

namespace Binary64

def IsFinite : Binary64 → Prop
  | .finite .. => True
  | _ => False

def signFactor (negative : Bool) : ℚ :=
  if negative then -1 else 1

def value : Binary64 → ℚ
  | .finite negative units _ => signFactor negative * (units / unitsPerOne)
  | _ => 0

/-- Whether the last of the 53 significant bits of a finite double is zero. -/
def EvenSignificand : Binary64 → Prop
  | .finite _ units _ => Even (leadingBits units)
  | _ => False

/-- `x` is a finite double nearest to `q`, the even one of two equally near ones. -/
structure IsNearest (q : ℚ) (x : Binary64) : Prop where
  finite : x.IsFinite
  near : ∀ y : Binary64, y.IsFinite → |q - x.value| ≤ |q - y.value|
  even : ∀ y : Binary64, y.IsFinite → y.value ≠ x.value → |q - y.value| = |q - x.value| →
    x.EvenSignificand

theorem abs_signFactor (negative : Bool) : |signFactor negative| = 1 := by
  cases negative <;> norm_num [signFactor]

theorem abs_sub_same_sign (negative : Bool) (r u : ℚ) :
    |signFactor negative * (r / unitsPerOne) - signFactor negative * (u / unitsPerOne)| =
      |r - u| / unitsPerOne := by
  rw [← mul_sub, abs_mul, abs_signFactor, one_mul, ← sub_div, abs_div,
    abs_of_pos unitsPerOne_cast_pos]

theorem abs_sub_other_sign (negative : Bool) {r u : ℚ} (hr : 0 ≤ r) (hu : 0 ≤ u) :
    |signFactor negative * (r / unitsPerOne) - signFactor (!negative) * (u / unitsPerOne)| =
      (r + u) / unitsPerOne := by
  have flipped : signFactor (!negative) = -signFactor negative := by
    cases negative <;> norm_num [signFactor]
  rw [flipped, neg_mul, sub_neg_eq_add, ← mul_add, abs_mul, abs_signFactor, one_mul, ← add_div,
    abs_of_nonneg (div_nonneg (add_nonneg hr hu) unitsPerOne_cast_pos.le)]

/-- A finite double is a magnitude of the sign of `r` or of the other one. -/
theorem distance_cases (negative : Bool) {r : ℚ} (hr : 0 ≤ r) {y : Binary64}
    (finite : y.IsFinite) :
    ∃ n, Representable n ∧
      (y.value = signFactor negative * (n / unitsPerOne) ∧
          |signFactor negative * (r / unitsPerOne) - y.value| = |r - n| / unitsPerOne ∨
        y.value = signFactor (!negative) * (n / unitsPerOne) ∧
          |signFactor negative * (r / unitsPerOne) - y.value| = (r + n) / unitsPerOne) := by
  cases y with
  | infinite | nan => exact finite.elim
  | finite t n fits =>
      refine ⟨n, fits, ?_⟩
      by_cases same : t = negative
      · subst same
        exact Or.inl ⟨rfl, abs_sub_same_sign t r n⟩
      · obtain rfl : t = !negative := by cases t <;> cases negative <;> simp_all
        exact Or.inr ⟨rfl, abs_sub_other_sign negative hr (Nat.cast_nonneg n)⟩

/-- Nearest among magnitudes is nearest among doubles: a number of the other sign is no nearer
than zero. -/
theorem isNearest_of_units (negative : Bool) {r : ℚ} (hr : 0 ≤ r) {u : Nat}
    (fits : Representable u) (nearest : ∀ n, Representable n → NoNearer r u n) :
    IsNearest (signFactor negative * (r / unitsPerOne)) (.finite negative u fits) := by
  have unit := unitsPerOne_cast_pos
  have origin := nearest 0 ⟨Nat.zero_mod _, overflowUnits_pos⟩
  rw [NoNearer, Nat.cast_zero, sub_zero, abs_of_nonneg hr] at origin
  refine ⟨trivial, ?_, ?_⟩
  · intro y finite
    rw [value, abs_sub_same_sign]
    obtain ⟨n, other, ⟨-, distance⟩ | ⟨-, distance⟩⟩ := distance_cases negative hr finite
    · rw [distance]
      exact div_le_div_of_nonneg_right (nearest n other).1 unit.le
    · have positive : (0 : ℚ) ≤ n := Nat.cast_nonneg n
      rw [distance]
      exact div_le_div_of_nonneg_right (by linarith [origin.1]) unit.le
  · intro y finite different tie
    rw [value] at different tie
    rw [abs_sub_same_sign] at tie
    obtain ⟨n, other, ⟨place, distance⟩ | ⟨place, distance⟩⟩ := distance_cases negative hr finite
    · rw [distance, div_left_inj' unit.ne'] at tie
      exact (nearest n other).2 (fun equal => different (by rw [place, equal])) tie
    · have positive : (0 : ℚ) ≤ n := Nat.cast_nonneg n
      rw [distance, div_left_inj' unit.ne'] at tie
      have zero : (n : ℚ) = 0 := by linarith [origin.1]
      refine origin.2 (fun equal => different ?_) (by linarith)
      rw [place, zero, ← equal, Nat.cast_zero]
      simp

theorem nearest_of_lt {negative : Bool} {num den : Nat}
    (bound : roundUnits num den < overflowUnits) :
    nearest negative num den =
      .finite negative (roundUnits num den) (representable_roundUnits num den bound) := by
  rw [nearest, dif_pos bound]

theorem nearest_of_le {negative : Bool} {num den : Nat}
    (bound : overflowUnits ≤ roundUnits num den) :
    nearest negative num den = .infinite negative := by
  rw [nearest, dif_neg (Nat.not_lt.mpr bound)]

/-- Short of overflow, the rounded quotient is the double nearest to the exact one. -/
theorem isNearest_nearest (negative : Bool) {num den : Nat} (pos : 0 < den)
    (bound : roundUnits num den < overflowUnits) :
    IsNearest (signFactor negative * ((num : ℚ) / den / unitsPerOne))
      (nearest negative num den) := by
  rw [nearest_of_lt bound]
  have positive : (0 : ℚ) ≤ (num : ℚ) / den := div_nonneg (Nat.cast_nonneg _) (Nat.cast_nonneg _)
  exact isNearest_of_units negative positive _ fun n fits =>
    roundUnits_nearest num den pos fits.precise

theorem nearest_of_small {negative : Bool} {num den : Nat} (small : 2 * num < den) :
    nearest negative num den = zero negative := by
  have rounded := roundUnits_eq_zero small
  have bound : roundUnits num den < overflowUnits := by
    rw [rounded]
    exact overflowUnits_pos
  rw [nearest_of_lt bound, zero]
  congr 1

theorem nearest_of_large {negative : Bool} {num den : Nat} (pos : 0 < den)
    (large : overflowUnits * den ≤ num) : nearest negative num den = .infinite negative := by
  apply nearest_of_le
  apply le_roundUnits pos _ large
  rw [overflowUnits_eq_pow]
  apply precise_two_pow

theorem two_pow_le_ten_pow {i j : Nat} (exponents : 10 * i ≤ 33 * j) : 2 ^ i ≤ 10 ^ j := by
  have tenth : (2 ^ i) ^ 10 ≤ (10 ^ j) ^ 10 := by
    calc
      (2 ^ i) ^ 10 = 2 ^ (10 * i) := by rw [← Nat.pow_mul, Nat.mul_comm]
      _ ≤ 2 ^ (33 * j) := Nat.pow_le_pow_right (by norm_num) exponents
      _ = (2 ^ 33) ^ j := Nat.pow_mul ..
      _ ≤ (10 ^ 10) ^ j := Nat.pow_le_pow_left (by norm_num) j
      _ = (10 ^ j) ^ 10 := by rw [← Nat.pow_mul, ← Nat.pow_mul, Nat.mul_comm]
  exact (Nat.pow_le_pow_iff_left (by norm_num)).mp tenth

theorem two_mul_lt_ten_pow {n i j : Nat} (exponents : 10 * (n.log2 + i + 2) ≤ 33 * j) :
    2 * (n * 2 ^ i) < 10 ^ j := by
  calc
    2 * (n * 2 ^ i) = n * 2 ^ (i + 1) := by
      rw [Nat.pow_succ]
      ring
    _ < 2 ^ (n.log2 + 1) * 2 ^ (i + 1) :=
      Nat.mul_lt_mul_of_pos_right Nat.lt_log2_self (Nat.two_pow_pos _)
    _ = 2 ^ (n.log2 + i + 2) := by
      rw [← Nat.pow_add]
      congr 1
      omega
    _ ≤ 10 ^ j := two_pow_le_ten_pow exponents

/-- The powers of ten that are left out belong to numbers that round to zero or overflow. -/
theorem ofDecimal_eq_nearest (negative : Bool) (significand : Nat) (scale : Int) :
    ofDecimal negative significand scale =
      nearest negative (significand * 10 ^ scale.toNat * unitsPerOne) (10 ^ (-scale).toNat) := by
  unfold ofDecimal
  split
  · rename_i tiny
    symm
    apply nearest_of_small
    rcases tiny with rfl | tiny
    · rw [Nat.zero_mul, Nat.zero_mul]
      positivity
    · have whole : scale.toNat = 0 := by omega
      rw [whole, Nat.pow_zero, Nat.mul_one, unitsPerOne_eq]
      exact two_mul_lt_ten_pow (by omega)
  · rename_i notTiny
    split
    · symm
      have whole : (-scale).toNat = 0 := by omega
      have positive : 0 < significand := by omega
      rw [whole, Nat.pow_zero]
      apply nearest_of_large Nat.one_pos
      rw [Nat.mul_one, overflowUnits_eq]
      apply Nat.mul_le_mul_right
      calc
        2 ^ 1024 ≤ 10 ^ scale.toNat := two_pow_le_ten_pow (by omega)
        _ ≤ significand * 10 ^ scale.toNat := Nat.le_mul_of_pos_left _ positive
    · rfl

end Binary64

end Placeholders
