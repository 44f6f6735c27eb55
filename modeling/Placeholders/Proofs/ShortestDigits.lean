import Placeholders.Proofs.NumeralReading
import Placeholders.Proofs.ShortestText

set_option autoImplicit false

/- The plain text of a double has the fewest digits. Rounding is monotone, so if a point of a
decimal grid reads back, then so does one of the two neighbours of the double on that grid, and the
search passes over no grid that has a point. Seventeen digits are enough for every double. -/
namespace Placeholders

section Midpoint

variable {q u v : ℚ}

theorem two_mul_le_of_nearer (below : v < u) (nearer : |q - v| ≤ |q - u|) : 2 * q ≤ u + v := by
  by_contra above
  have above := not_le.mp above
  have closer : |q - u| < q - v := abs_lt.mpr ⟨by linarith, by linarith⟩
  exact absurd (closer.trans_le (le_abs_self _)) (not_lt.mpr nearer)

theorem le_two_mul_of_nearer (below : v < u) (nearer : |q - u| ≤ |q - v|) : u + v ≤ 2 * q := by
  by_contra above
  have above := not_le.mp above
  have closer : |q - v| < -(q - u) := abs_lt.mpr ⟨by linarith, by linarith⟩
  exact absurd (closer.trans_le (neg_le_abs _)) (not_lt.mpr nearer)

end Midpoint

/-- A larger number is not rounded to a smaller one. -/
theorem roundUnits_mono {num den other denToo : Nat} (pos : 0 < den) (posToo : 0 < denToo)
    (le : (num : ℚ) / den ≤ other / denToo) : roundUnits num den ≤ roundUnits other denToo := by
  rcases le.eq_or_lt with same | less
  · rw [div_eq_div_iff (by exact_mod_cast pos.ne') (by exact_mod_cast posToo.ne')] at same
    exact (roundUnits_congr pos posToo (by exact_mod_cast same)).le
  · by_contra above
    have above : (roundUnits other denToo : ℚ) < roundUnits num den := by
      exact_mod_cast Nat.not_le.mp above
    have first := le_two_mul_of_nearer above
      (roundUnits_nearest num den pos (precise_roundUnits other denToo)).1
    have second := two_mul_le_of_nearer above
      (roundUnits_nearest other denToo posToo (precise_roundUnits num den)).1
    linarith

/-- Different precise magnitudes differ by more than a 2 ^ 53th of the greater one, or just that. -/
theorem Precise.le_gap {u v : Nat} (preciseU : Precise u) (preciseV : Precise v) (below : u < v) :
    v ≤ (v - u) * 2 ^ 53 := by
  have top : v < 2 ^ (v.log2 + 1) := Nat.lt_log2_self
  rcases Nat.lt_or_ge v.log2 53 with small | large
  · have bound : 2 ^ (v.log2 + 1) ≤ 2 ^ 53 := Nat.pow_le_pow_right Nat.two_pos small
    omega
  · obtain ⟨e, exponent⟩ := Nat.exists_eq_add_of_le large
    have binade : 2 ^ 53 * 2 ^ e ≤ v := by
      rw [← Nat.pow_add, ← exponent]
      exact Nat.log2_self_le (by omega)
    have power : 2 ^ (v.log2 + 1) = 2 ^ 53 * (2 ^ e * 2) := by
      rw [exponent, ← Nat.pow_succ, ← Nat.pow_add]
      rfl
    have onGrid : 2 ^ e * 2 ∣ v := by
      rw [← Nat.pow_succ]
      apply Nat.dvd_trans (Nat.pow_dvd_pow 2 _) preciseV
      omega
    rcases preciseU.multiple_or_below (e + 1) with ⟨i, multiple⟩ | lower
    · -- Two multiples of the last place of the greater one.
      have divides : 2 ^ e * 2 ∣ v - u :=
        Nat.dvd_sub onGrid ⟨i, by rw [multiple, Nat.pow_succ, Nat.mul_comm]⟩
      have gap := Nat.le_of_dvd (by omega) divides
      omega
    · have rest : u + 2 ^ e ≤ 2 ^ 53 * 2 ^ e := by
        rw [show 52 + (e + 1) = 53 + e by omega, Nat.pow_add 2 53] at lower
        rcases preciseU.multiple_or_below e with ⟨i, rfl⟩ | far
        · have less : i < 2 ^ 53 := Nat.lt_of_mul_lt_mul_right lower
          rw [← Nat.succ_mul]
          exact Nat.mul_le_mul_right _ less
        · rw [Nat.pow_add] at far
          have positive := Nat.two_pow_pos e
          omega
      have positive := Nat.two_pow_pos e
      omega

namespace Decimal

/-- `significand * 10 ^ scale` in units. -/
def exactUnits (significand : Nat) (scale : Int) : ℚ :=
  significand * 10 ^ scale * unitsPerOne

/-- The magnitude that `significand * 10 ^ scale` is rounded to. -/
def readUnits (significand : Nat) (scale : Int) : Nat :=
  roundUnits (significand * 10 ^ scale.toNat * unitsPerOne) (10 ^ (-scale).toNat)

theorem ten_pow_pos (k : Nat) : 0 < 10 ^ k :=
  Nat.pow_pos (by decide)

theorem exactUnits_eq (significand : Nat) (scale : Int) :
    exactUnits significand scale =
      (significand * 10 ^ scale.toNat * unitsPerOne : ℕ) / (10 ^ (-scale).toNat : ℕ) := by
  rw [exactUnits, Numeral.ten_zpow]
  push_cast
  ring

/-- Zeros at the end of the significand can go into the power of ten. -/
theorem exactUnits_shift (significand k : Nat) (scale : Int) :
    exactUnits (significand * 10 ^ k) scale = exactUnits significand (scale + k) := by
  rw [exactUnits, exactUnits, zpow_add₀ (by norm_num), zpow_natCast]
  push_cast
  ring

theorem readUnits_mono {significand other : Nat} {scale otherScale : Int}
    (le : exactUnits significand scale ≤ exactUnits other otherScale) :
    readUnits significand scale ≤ readUnits other otherScale := by
  rw [exactUnits_eq, exactUnits_eq] at le
  exact roundUnits_mono (ten_pow_pos _) (ten_pow_pos _) le

theorem readUnits_congr {significand other : Nat} {scale otherScale : Int}
    (same : exactUnits significand scale = exactUnits other otherScale) :
    readUnits significand scale = readUnits other otherScale :=
  Nat.le_antisymm (readUnits_mono same.le) (readUnits_mono same.ge)

section Reading

variable {units : Nat} (fits : Representable units)

include fits

theorem readUnits_le {significand : Nat} {scale : Int}
    (below : exactUnits significand scale ≤ units) : readUnits significand scale ≤ units := by
  have one : (units : ℚ) = units / (1 : ℕ) := by simp
  rw [exactUnits_eq, one] at below
  exact (roundUnits_mono (ten_pow_pos _) Nat.one_pos below).trans_eq (roundUnits_one fits)

theorem le_readUnits {significand : Nat} {scale : Int}
    (above : units ≤ exactUnits significand scale) : units ≤ readUnits significand scale := by
  have one : (units : ℚ) = units / (1 : ℕ) := by simp
  rw [exactUnits_eq, one] at above
  exact (roundUnits_one fits).symm.trans_le (roundUnits_mono Nat.one_pos (ten_pow_pos _) above)

/-- Between a magnitude and a decimal that reads as it, all decimals read as it. -/
theorem readUnits_of_below {significand other : Nat} {scale otherScale : Int}
    (reads : readUnits other otherScale = units)
    (le : exactUnits other otherScale ≤ exactUnits significand scale)
    (below : exactUnits significand scale ≤ units) : readUnits significand scale = units :=
  Nat.le_antisymm (readUnits_le fits below) (reads ▸ readUnits_mono le)

theorem readUnits_of_above {significand other : Nat} {scale otherScale : Int}
    (reads : readUnits other otherScale = units)
    (le : exactUnits significand scale ≤ exactUnits other otherScale)
    (above : units ≤ exactUnits significand scale) : readUnits significand scale = units :=
  Nat.le_antisymm (reads ▸ readUnits_mono le) (le_readUnits fits above)

/-- A decimal within a 2 ^ 54th of a magnitude reads as it. -/
theorem readUnits_of_close {significand : Nat} {scale : Int}
    (close : 2 * |exactUnits significand scale - units| * 2 ^ 53 < units) :
    readUnits significand scale = units := by
  by_contra different
  have nearest := (roundUnits_nearest (significand * 10 ^ scale.toNat * unitsPerOne)
    (10 ^ (-scale).toNat) (ten_pow_pos _) fits.precise).1
  rw [← exactUnits_eq, ← readUnits] at nearest
  have precise : Precise (readUnits significand scale) := precise_roundUnits _ _
  have apart := abs_sub_le (readUnits significand scale : ℚ) (exactUnits significand scale) units
  rw [abs_sub_comm (readUnits significand scale : ℚ) (exactUnits significand scale)] at apart
  have gap : (units : ℚ) ≤ |(readUnits significand scale : ℚ) - units| * 2 ^ 53 := by
    rcases Nat.lt_or_gt_of_ne different with less | more
    · have gap := precise.le_gap fits.precise less
      rw [abs_sub_comm, ← Nat.cast_sub less.le, Nat.abs_cast]
      exact_mod_cast gap
    · have gap := fits.precise.le_gap precise more
      rw [← Nat.cast_sub more.le, Nat.abs_cast]
      exact_mod_cast more.le.trans gap
  linarith

theorem readsBack_iff_readUnits (significand : Nat) (scale : Int) :
    readsBack units significand scale = true ↔ readUnits significand scale = units := by
  rw [readsBack_iff fits, Binary64.ofDecimal_eq_nearest, Binary64.nearest_eq_finite_iff, readUnits]
  exact and_iff_right rfl

end Reading

/-- The last point of a grid that is not above `units`. -/
def gridFloor (units : Nat) (scale : Int) : Nat :=
  units * 10 ^ (-scale).toNat / (unitsPerOne * 10 ^ scale.toNat)

theorem gridFloor_le (units : Nat) (scale : Int) :
    exactUnits (gridFloor units scale) scale ≤ units := by
  have floor := Nat.div_mul_le_self (units * 10 ^ (-scale).toNat) (unitsPerOne * 10 ^ scale.toNat)
  rw [exactUnits_eq, div_le_iff₀ (by exact_mod_cast ten_pow_pos _), gridFloor, Nat.mul_assoc,
    Nat.mul_comm (10 ^ scale.toNat)]
  exact_mod_cast floor

theorem lt_gridFloor (units : Nat) (scale : Int) :
    units < exactUnits (gridFloor units scale + 1) scale := by
  have step : 0 < unitsPerOne * 10 ^ scale.toNat := Nat.mul_pos unitsPerOne_pos (ten_pow_pos _)
  have above := Nat.lt_mul_of_div_lt (Nat.lt_succ_self (gridFloor units scale)) step
  rw [exactUnits_eq, lt_div_iff₀ (by exact_mod_cast ten_pow_pos _), Nat.mul_assoc,
    Nat.mul_comm (10 ^ scale.toNat)]
  exact_mod_cast above

theorem exactUnits_le_iff (significand other : Nat) (scale : Int) :
    exactUnits significand scale ≤ exactUnits other scale ↔ significand ≤ other := by
  have step : (0 : ℚ) < 10 ^ scale * unitsPerOne :=
    mul_pos (zpow_pos (by norm_num) _) unitsPerOne_cast_pos
  rw [exactUnits, exactUnits, mul_assoc, mul_assoc, mul_le_mul_iff_left₀ step, Nat.cast_le]

/-- What a grid offers, in terms of the neighbours of `units` on it. -/
theorem gridPoint?_eq (units : Nat) (scale : Int) :
    gridPoint? units scale =
      if readsBack units (gridFloor units scale) scale = true ∧
          (2 * (units * 10 ^ (-scale).toNat % (unitsPerOne * 10 ^ scale.toNat)) <
              unitsPerOne * 10 ^ scale.toNat ∨
            ¬ readsBack units (gridFloor units scale + 1) scale = true) then
        some (gridFloor units scale)
      else if readsBack units (gridFloor units scale + 1) scale = true then
        some (gridFloor units scale + 1)
      else none :=
  rfl

/-- The lower neighbour is the nearer one up to the middle. -/
theorem nearer_iff (units : Nat) (scale : Int) :
    2 * (units * 10 ^ (-scale).toNat % (unitsPerOne * 10 ^ scale.toNat)) <
        unitsPerOne * 10 ^ scale.toNat ↔
      units - exactUnits (gridFloor units scale) scale <
        exactUnits (gridFloor units scale + 1) scale - units := by
  have division : ((unitsPerOne * 10 ^ scale.toNat : ℕ) : ℚ) * gridFloor units scale +
      (units * 10 ^ (-scale).toNat % (unitsPerOne * 10 ^ scale.toNat) : ℕ) =
        (units * 10 ^ (-scale).toNat : ℕ) := by
    exact_mod_cast Nat.div_add_mod (units * 10 ^ (-scale).toNat) (unitsPerOne * 10 ^ scale.toNat)
  have tens : (0 : ℚ) < (10 ^ (-scale).toNat : ℕ) := by exact_mod_cast ten_pow_pos _
  rw [exactUnits_eq, exactUnits_eq, sub_lt_iff_lt_add, sub_add_eq_add_sub, lt_sub_iff_add_lt,
    ← add_div, lt_div_iff₀ tens]
  push_cast at division ⊢
  constructor
  · intro less
    have cast : (2 * (units * 10 ^ (-scale).toNat % (unitsPerOne * 10 ^ scale.toNat) : ℕ) : ℚ) <
        unitsPerOne * 10 ^ scale.toNat := by exact_mod_cast less
    linarith
  · intro less
    have cast : (2 * (units * 10 ^ (-scale).toNat % (unitsPerOne * 10 ^ scale.toNat) : ℕ) : ℚ) <
        unitsPerOne * 10 ^ scale.toNat := by linarith
    exact_mod_cast cast

/-- The point that a grid offers is one of the two neighbours. -/
theorem eq_of_gridPoint? {units significand : Nat} {scale : Int}
    (found : gridPoint? units scale = some significand) :
    significand = gridFloor units scale ∨ significand = gridFloor units scale + 1 := by
  rw [gridPoint?_eq] at found
  split at found
  · exact Or.inl (Option.some.inj found).symm
  · split at found
    · exact Or.inr (Option.some.inj found).symm
    · cases found

section Grid

variable {units : Nat} (fits : Representable units) {scale : Int}

include fits

/-- If a neighbour does not read back, then no point beyond it does. -/
theorem lt_of_reads {significand : Nat} (reads : readUnits significand scale = units)
    (upper : ¬ readsBack units (gridFloor units scale + 1) scale = true) :
    significand ≤ gridFloor units scale := by
  by_contra above
  apply upper
  rw [readsBack_iff_readUnits fits]
  exact readUnits_of_above fits reads ((exactUnits_le_iff _ _ _).mpr (Nat.not_le.mp above))
    (lt_gridFloor units scale).le

theorem gt_of_reads {significand : Nat} (reads : readUnits significand scale = units)
    (lower : ¬ readsBack units (gridFloor units scale) scale = true) :
    gridFloor units scale < significand := by
  by_contra below
  apply lower
  rw [readsBack_iff_readUnits fits]
  exact readUnits_of_below fits reads ((exactUnits_le_iff _ _ _).mpr (Nat.not_lt.mp below))
    (gridFloor_le units scale)

/-- A grid that offers no point has none that reads back. -/
theorem readUnits_ne_of_gridPoint? (nothing : gridPoint? units scale = none) (significand : Nat) :
    readUnits significand scale ≠ units := by
  rw [gridPoint?_eq] at nothing
  split at nothing
  · cases nothing
  · rename_i lower
    split at nothing
    · cases nothing
    · rename_i upper
      intro reads
      have above := gt_of_reads fits reads fun reads => lower ⟨reads, Or.inr upper⟩
      have below := lt_of_reads fits reads upper
      omega

/-- Of the points of a grid that read back, the offered one is nearest. -/
theorem nearest_of_gridPoint? {significand : Nat} (found : gridPoint? units scale = some significand)
    {other : Nat} (reads : readUnits other scale = units) :
    |exactUnits significand scale - units| ≤ |exactUnits other scale - units| := by
  have low := gridFloor_le units scale
  have high := lt_gridFloor units scale
  have near := nearer_iff units scale
  rw [gridPoint?_eq] at found
  split at found
  · rename_i lower
    obtain rfl := Option.some.inj found
    rw [abs_sub_comm, abs_of_nonneg (sub_nonneg.mpr low)]
    rcases Nat.lt_or_ge (gridFloor units scale) other with above | below
    · have nearer := near.mp (lower.2.resolve_right fun upper =>
        absurd (lt_of_reads fits reads upper) (Nat.not_le.mpr above))
      have far := (exactUnits_le_iff (gridFloor units scale + 1) other scale).mpr above
      exact (by linarith : _ ≤ exactUnits other scale - units).trans (le_abs_self _)
    · have far := (exactUnits_le_iff other (gridFloor units scale) scale).mpr below
      exact (by linarith : _ ≤ -(exactUnits other scale - units)).trans (neg_le_abs _)
  · rename_i notLower
    split at found
    · obtain rfl := Option.some.inj found
      rw [abs_of_nonneg (sub_nonneg.mpr high.le)]
      rcases Nat.lt_or_ge (gridFloor units scale) other with above | below
      · have far := (exactUnits_le_iff (gridFloor units scale + 1) other scale).mpr above
        exact (by linarith : _ ≤ exactUnits other scale - units).trans (le_abs_self _)
      · have lower : readsBack units (gridFloor units scale) scale = true := by
          by_contra unread
          exact absurd (gt_of_reads fits reads unread) (Nat.not_lt.mpr below)
        have nearer := not_lt.mp fun less => notLower ⟨lower, Or.inl (near.mpr less)⟩
        have far := (exactUnits_le_iff other (gridFloor units scale) scale).mpr below
        exact (by linarith : _ ≤ -(exactUnits other scale - units)).trans (neg_le_abs _)
    · cases found

end Grid

theorem length_toDigits_bounds {n : Nat} (positive : 0 < n) :
    ∃ m, (Nat.toDigits 10 n).length = m + 1 ∧ 10 ^ m ≤ n ∧ n < 10 ^ (m + 1) := by
  have nonempty : 0 < (Nat.toDigits 10 n).length := List.length_pos_iff.mpr Nat.toDigits_ne_nil
  obtain ⟨m, length⟩ := Nat.exists_eq_add_of_le' nonempty
  refine ⟨m, length, ?_, ?_⟩
  · by_contra below
    have positiveToo : 0 < m := by
      apply Nat.pos_of_ne_zero
      rintro rfl
      omega
    have shorter := (Nat.length_toDigits_le_iff (by decide) positiveToo).mpr (Nat.not_le.mp below)
    omega
  · rw [← length]
    exact (Nat.length_toDigits_le_iff (by decide) nonempty).mp (Nat.le_refl _)

/-- Scaled by enough powers of ten, a magnitude has its leading digit before the point. -/
theorem leading_bounds {units k m : Nat} (low : 10 ^ m ≤ units * 10 ^ k / unitsPerOne)
    (high : units * 10 ^ k / unitsPerOne < 10 ^ (m + 1)) :
    exactUnits 1 ((m : Int) - k) ≤ units ∧ (units : ℚ) < exactUnits 1 ((m : Int) - k + 1) := by
  have ten : (10 : ℚ) ≠ 0 := by norm_num
  have tens : (0 : ℚ) < 10 ^ k := by positivity
  have lower : 10 ^ m * unitsPerOne ≤ units * 10 ^ k :=
    (Nat.le_div_iff_mul_le unitsPerOne_pos).mp low
  have upper : units * 10 ^ k < 10 ^ (m + 1) * unitsPerOne :=
    (Nat.div_lt_iff_lt_mul unitsPerOne_pos).mp high
  rw [exactUnits, exactUnits, sub_add_eq_add_sub, zpow_sub₀ ten, zpow_sub₀ ten, zpow_natCast,
    zpow_natCast, Nat.cast_one, one_mul, one_mul, div_mul_eq_mul_div, div_mul_eq_mul_div,
    div_le_iff₀ tens, lt_div_iff₀ tens]
  exact ⟨by exact_mod_cast lower, by exact_mod_cast upper⟩

theorem unitsPerOne_le {k : Nat} (large : 326 ≤ k) : unitsPerOne ≤ 10 ^ k := by
  rw [unitsPerOne_eq]
  exact Binary64.two_pow_le_ten_pow (by omega)

/-- The first digit of a magnitude stands at the leading power of ten. -/
theorem leadingScale_bounds {units : Nat} (positive : 0 < units) :
    exactUnits 1 (leadingScale units) ≤ units ∧
      (units : ℚ) < exactUnits 1 (leadingScale units + 1) := by
  have leading : leadingScale units =
      (Nat.toDigits 10 (units * Nat.pow 10 400 / unitsPerOne)).length - ((400 : Nat) + 1 : Int) := rfl
  have large := unitsPerOne_le (show 326 ≤ 400 by decide)
  revert leading large
  generalize 400 = k
  intro leading large
  have whole : 0 < units * 10 ^ k / unitsPerOne :=
    Nat.div_pos (large.trans (Nat.le_mul_of_pos_left _ positive)) unitsPerOne_pos
  obtain ⟨m, length, low, high⟩ := length_toDigits_bounds whole
  have scale : leadingScale units = m - k := by
    rw [leading, Nat.pow_eq, length]
    push_cast
    ring
  rw [scale]
  exact leading_bounds low high

theorem exactUnits_succ (significand : Nat) (scale : Int) :
    exactUnits (significand + 1) scale = exactUnits significand scale + exactUnits 1 scale := by
  rw [exactUnits, exactUnits, exactUnits]
  push_cast
  ring

/-- The nearer neighbour is at most half a step away. -/
theorem exists_half_step (units : Nat) (scale : Int) :
    ∃ significand, 2 * |exactUnits significand scale - units| ≤ exactUnits 1 scale := by
  have low := gridFloor_le units scale
  have high := lt_gridFloor units scale
  have step := exactUnits_succ (gridFloor units scale) scale
  rcases le_total (units - exactUnits (gridFloor units scale) scale)
    (exactUnits (gridFloor units scale + 1) scale - units) with nearer | nearer
  · refine ⟨gridFloor units scale, ?_⟩
    rw [abs_sub_comm, abs_of_nonneg (sub_nonneg.mpr low)]
    linarith
  · refine ⟨gridFloor units scale + 1, ?_⟩
    rw [abs_of_nonneg (sub_nonneg.mpr high.le)]
    linarith

/-- Seventeen digits are enough: the step of that grid is less than a 2 ^ 53th of the magnitude. -/
theorem exists_gridPoint? {units : Nat} (fits : Representable units) (positive : 0 < units) :
    ∃ significand, gridPoint? units (leadingScale units - 16) = some significand := by
  obtain ⟨significand, close⟩ := exists_half_step units (leadingScale units - 16)
  have large := (leadingScale_bounds positive).1
  have steps : exactUnits 1 (leadingScale units) =
      10 ^ 16 * exactUnits 1 (leadingScale units - 16) := by
    have shift := exactUnits_shift 1 16 (leadingScale units - 16)
    rw [Nat.cast_ofNat, sub_add_cancel] at shift
    rw [← shift, exactUnits, exactUnits]
    push_cast
    ring
  have step : 0 < exactUnits 1 (leadingScale units - 16) := by
    rw [exactUnits, Nat.cast_one, one_mul]
    exact mul_pos (zpow_pos (by norm_num) _) unitsPerOne_cast_pos
  have reads := readUnits_of_close fits (show
    2 * |exactUnits significand (leadingScale units - 16) - units| * 2 ^ 53 < units by linarith)
  cases found : gridPoint? units (leadingScale units - 16) with
  | some offered => exact ⟨offered, rfl⟩
  | none => exact absurd reads (readUnits_ne_of_gridPoint? fits found significand)

/-- The search ends at the first grid that offers a point. -/
theorem searchGrids_found {units attempts : Nat} {scale : Int}
    (hit : ∃ i : Nat, i < attempts ∧ ∃ significand, gridPoint? units (scale - i) = some significand) :
    ∃ i significand : Nat, searchGrids units attempts scale = (significand, scale - i) ∧
      gridPoint? units (scale - i) = some significand ∧
      ∀ j : Nat, j < i → gridPoint? units (scale - j) = none := by
  induction attempts generalizing scale with
  | zero =>
      obtain ⟨i, few, -⟩ := hit
      exact absurd few (Nat.not_lt_zero i)
  | succ attempts ih =>
      rw [searchGrids]
      cases found : gridPoint? units scale with
      | some significand => exact ⟨0, significand, by simp, by simpa using found, by simp⟩
      | none =>
          obtain ⟨i, few, offer⟩ := hit
          cases i with
          | zero =>
              obtain ⟨significand, offered⟩ := offer
              rw [Nat.cast_zero, sub_zero, found] at offered
              cases offered
          | succ i =>
              have next (j : Nat) : scale - 1 - j = scale - (j + 1 : Nat) := by
                push_cast
                ring
              rw [← next] at offer
              obtain ⟨i, significand, search, offered, passed⟩ :=
                ih ⟨i, Nat.lt_of_succ_lt_succ few, offer⟩
              rw [next] at search offered
              refine ⟨i + 1, significand, search, offered, ?_⟩
              intro j early
              cases j with
              | zero => simpa using found
              | succ j =>
                  rw [← next]
                  exact passed j (Nat.lt_of_succ_lt_succ early)

/-- Up to zeros at its end, `n` has at most `count` digits. -/
def Within (count n : Nat) : Prop :=
  ∃ digits zeros, n = digits * 10 ^ zeros ∧ digits < 10 ^ count

section Shortest

variable {units : Nat} (fits : Representable units) (positive : 0 < units)

include fits positive

theorem exists_shortest :
    ∃ i significand : Nat, shortest units = (significand, leadingScale units - i) ∧
      gridPoint? units (leadingScale units - i) = some significand ∧
      ∀ j : Nat, j < i → gridPoint? units (leadingScale units - j) = none := by
  rw [shortest, if_neg positive.ne']
  exact searchGrids_found ⟨16, by decide, exists_gridPoint? fits positive⟩

omit fits in
/-- The point that is offered has one digit for each grid that was searched. -/
theorem within_of_gridPoint? {i significand : Nat}
    (found : gridPoint? units (leadingScale units - i) = some significand) :
    Within (i + 1) significand := by
  have top := (leadingScale_bounds positive).2
  have shift := exactUnits_shift 1 (i + 1) (leadingScale units - i)
  have scale : leadingScale units - i + (i + 1 : Nat) = leadingScale units + 1 := by
    push_cast
    ring
  rw [one_mul, scale] at shift
  have floor : gridFloor units (leadingScale units - i) < 10 ^ (i + 1) := by
    by_contra above
    have above := (exactUnits_le_iff _ _ (leadingScale units - i)).mpr (Nat.not_lt.mp above)
    have low := gridFloor_le units (leadingScale units - i)
    linarith
  rcases eq_of_gridPoint? found with rfl | rfl
  · exact ⟨_, 0, by simp, floor⟩
  · rcases Nat.lt_or_eq_of_le floor with less | last
    · exact ⟨_, 0, by simp, less⟩
    · exact ⟨1, i + 1, by rw [one_mul]; exact last, Nat.one_lt_pow (Nat.succ_ne_zero i) (by decide)⟩

/-- A decimal of `i + 1` digits that reads back has one on the grid of as many digits that does and
is no farther. -/
theorem exists_onGrid {i digits : Nat} {scale : Int} (few : digits < 10 ^ (i + 1))
    (reads : readUnits digits scale = units) :
    ∃ point, readUnits point (leadingScale units - i) = units ∧
      |exactUnits point (leadingScale units - i) - units| ≤ |exactUnits digits scale - units| := by
  have low := (leadingScale_bounds positive).1
  have shift := exactUnits_shift 1 i (leadingScale units - i)
  rw [one_mul, sub_add_cancel] at shift
  rcases lt_or_ge (exactUnits digits scale) (exactUnits 1 (leadingScale units)) with below | above
  · -- The first point of the decade is nearer.
    rw [← shift] at below low
    refine ⟨10 ^ i, readUnits_of_below fits reads below.le low, ?_⟩
    rw [abs_sub_comm, abs_of_nonneg (sub_nonneg.mpr low)]
    exact (by linarith : _ ≤ -(exactUnits digits scale - units)).trans (neg_le_abs _)
  · have coarse : leadingScale units - i ≤ scale := by
      by_contra finer
      obtain ⟨t, apart⟩ := Int.le.dest (Int.add_one_le_of_lt (Int.not_le.mp finer))
      have fine := exactUnits_shift (10 ^ i) (1 + t) scale
      rw [Nat.cast_add, Nat.cast_one, ← add_assoc, apart, shift] at fine
      rw [← fine, exactUnits_le_iff, ← Nat.pow_add, ← Nat.add_assoc] at above
      have more := Nat.pow_le_pow_right (show 0 < 10 by decide) (Nat.le_add_right (i + 1) t)
      omega
    obtain ⟨t, apart⟩ := Int.le.dest coarse
    have same := exactUnits_shift digits t (leadingScale units - i)
    rw [apart] at same
    exact ⟨digits * 10 ^ t, (readUnits_congr same).trans reads, by rw [same]⟩

omit fits in
theorem digits_ne_zero {digits : Nat} {scale : Int} (reads : readUnits digits scale = units) :
    digits ≠ 0 := by
  rintro rfl
  have zero : exactUnits 0 scale ≤ (0 : ℕ) := by simp [exactUnits]
  have small := readUnits_le ⟨Nat.zero_mod _, overflowUnits_pos⟩ zero
  omega

/-- The search passes over no grid with fewer digits. -/
theorem lt_of_within {i : Nat}
    (passed : ∀ j : Nat, j < i → gridPoint? units (leadingScale units - j) = none)
    {count digits : Nat} {scale : Int} (few : digits < 10 ^ count)
    (reads : readUnits digits scale = units) : i < count := by
  by_contra enough
  cases i with
  | zero =>
      have nothing : count = 0 := by omega
      rw [nothing, Nat.pow_zero] at few
      exact digits_ne_zero positive reads (Nat.lt_one_iff.mp few)
  | succ i =>
      have fewer : digits < 10 ^ (i + 1) :=
        few.trans_le (Nat.pow_le_pow_right (by decide) (Nat.not_lt.mp enough))
      obtain ⟨point, onGrid, -⟩ := exists_onGrid fits positive fewer reads
      exact readUnits_ne_of_gridPoint? fits (passed i (Nat.lt_succ_self i)) point onGrid

end Shortest

/-- What the shortest decimal is: it reads back, no decimal of fewer digits does, and none of as
many digits that does is nearer. -/
theorem shortest_least {units : Nat} (fits : Representable units) :
    ∃ count, Within count (shortest units).1 ∧
      ∀ significand scale, readUnits significand scale = units →
        (∀ fewer, Within fewer significand → count ≤ fewer) ∧
        (Within count significand →
          |exactUnits (shortest units).1 (shortest units).2 - units| ≤
            |exactUnits significand scale - units|) := by
  rcases Nat.eq_zero_or_pos units with rfl | positive
  · refine ⟨0, ⟨0, 0, rfl, Nat.one_pos⟩, fun significand scale _ => ⟨fun _ _ => Nat.zero_le _, ?_⟩⟩
    intro _
    have exact : exactUnits (shortest 0).1 (shortest 0).2 - (0 : ℕ) = 0 := by
      simp [shortest, exactUnits]
    rw [exact, abs_zero]
    exact abs_nonneg _
  · obtain ⟨i, found, same, offered, passed⟩ := exists_shortest fits positive
    rw [same]
    refine ⟨i + 1, within_of_gridPoint? positive offered, fun significand scale reads => ⟨?_, ?_⟩⟩
    · rintro fewer ⟨digits, zeros, rfl, few⟩
      rw [readUnits_congr (exactUnits_shift digits zeros scale)] at reads
      exact lt_of_within fits positive passed few reads
    · rintro ⟨digits, zeros, rfl, few⟩
      have shift := exactUnits_shift digits zeros scale
      rw [readUnits_congr shift] at reads
      obtain ⟨point, onGrid, closer⟩ := exists_onGrid fits positive few reads
      rw [shift]
      exact (nearest_of_gridPoint? fits offered onGrid).trans closer

theorem exactUnits_numeral (negative : Bool) (significand : Nat) (scale : Int) :
    exactUnits (numeral negative significand scale).significand
      (numeral negative significand scale).scale = exactUnits significand scale := by
  obtain ⟨length, k, place, places, value⟩ := numeral_value negative significand scale
  have first := exactUnits_shift (numeral negative significand scale).significand k
    (-(length + k : Nat))
  have second := exactUnits_shift significand scale.toNat (-(length + k : Nat))
  rw [value] at first
  rw [place, show (-length : Int) = -(length + k : Nat) + k by omega, ← first, second]
  congr 1
  omega

/-- Moving the point leaves the number of digits. -/
theorem Within.shift {count significand digits zeros k : Nat} (within : Within count significand)
    (same : digits * 10 ^ zeros = significand * 10 ^ k) : Within count digits := by
  obtain ⟨front, tail, rfl, few⟩ := within
  rw [Nat.mul_assoc, ← Nat.pow_add] at same
  rcases Nat.le_total zeros (tail + k) with fewer | more
  · obtain ⟨rest, sum⟩ := Nat.exists_eq_add_of_le fewer
    rw [sum, Nat.pow_add, Nat.mul_left_comm, Nat.mul_comm digits] at same
    exact ⟨front, rest, Nat.eq_of_mul_eq_mul_left (ten_pow_pos zeros) same, few⟩
  · obtain ⟨rest, sum⟩ := Nat.exists_eq_add_of_le more
    rw [sum, Nat.pow_add, Nat.mul_left_comm, Nat.mul_comm front] at same
    have whole := Nat.eq_of_mul_eq_mul_left (ten_pow_pos (tail + k)) same
    have small : digits ≤ front := whole ▸ Nat.le_mul_of_pos_right _ (ten_pow_pos rest)
    exact ⟨digits, 0, by simp, small.trans_lt few⟩

end Decimal

namespace Binary64

theorem ofNumeral_eq_finite_iff {n : Numeral} {negative : Bool} {units : Nat}
    {fits : Representable units} :
    ofNumeral n = .finite negative units fits ↔
      n.negative = negative ∧ Decimal.readUnits n.significand n.scale = units := by
  rw [ofNumeral, ofDecimal_eq_nearest, nearest_eq_finite_iff, Decimal.readUnits]

/-- How far a numeral that reads as a double is from it. -/
theorem abs_value_sub {n : Numeral} {negative : Bool} {units : Nat} {fits : Representable units}
    (signed : n.negative = negative) :
    |n.value - (finite negative units fits).value| =
      |Decimal.exactUnits n.significand n.scale - units| / unitsPerOne := by
  rw [Numeral.value_eq, ← Decimal.exactUnits_eq, signed, value, abs_sub_same_sign]

/-- `n` is the shortest way to write `x`: it has no exponent and reads as `x`, no numeral of fewer
digits does, and none of as many digits that does is nearer to `x`. -/
structure IsShortest (x : Binary64) (n : Numeral) (count : Nat) : Prop where
  plain : n.exponent = 0
  reads : ofNumeral n = x
  digits : Decimal.Within count n.significand
  fewest : ∀ m fewer, ofNumeral m = x → Decimal.Within fewer m.significand → count ≤ fewer
  nearest : ∀ m, ofNumeral m = x → Decimal.Within count m.significand →
    |n.value - x.value| ≤ |m.value - x.value|

/-- The plain text of a finite double is its shortest one. -/
theorem isShortest_display {x : Binary64} (finite : x.IsFinite) :
    ∃ n count, Numeral.Spells x.display n ∧ x.IsShortest n count := by
  cases x with
  | infinite | nan => exact finite.elim
  | finite negative units fits =>
      obtain ⟨count, within, least⟩ := Decimal.shortest_least fits
      obtain ⟨_, k, -, -, value⟩ := Decimal.numeral_value negative (Decimal.shortest units).1
        (Decimal.shortest units).2
      refine ⟨Decimal.numeral negative (Decimal.shortest units).1 (Decimal.shortest units).2, count,
        Decimal.spells_positional _ _ _, rfl, ?_, within.shift value, ?_, ?_⟩
      · rw [Decimal.ofNumeral_numeral, Decimal.ofDecimal_shortest negative fits]
      · intro m fewer reads
        exact (least _ _ (ofNumeral_eq_finite_iff.mp reads).2).1 fewer
      · intro m reads few
        obtain ⟨signed, same⟩ := ofNumeral_eq_finite_iff.mp reads
        have own : (Decimal.numeral negative (Decimal.shortest units).1
          (Decimal.shortest units).2).negative = negative := rfl
        rw [abs_value_sub own, abs_value_sub signed, Decimal.exactUnits_numeral]
        exact div_le_div_of_nonneg_right ((least _ _ same).2 few) unitsPerOne_cast_pos.le

end Binary64

end Placeholders
