import Placeholders.Proofs.NearestDouble
import Placeholders.Proofs.NumberText
import Placeholders.Registry

set_option autoImplicit false

/- Reading what a number format wrote: the double nearest to the rounded decimal, which the
format writes in the same way again. Of two roundings, the binary one cannot leave the decimal
of the first, since the number itself was a candidate for it. -/
namespace Placeholders

namespace Binary64

theorem IsFinite.eq_finite {x : Binary64} (finite : x.IsFinite) :
    ∃ negative units fits, x = .finite negative units fits := by
  cases x with
  | finite negative units fits => exact ⟨negative, units, fits, rfl⟩
  | infinite | nan => exact finite.elim

theorem abs_value (negative : Bool) {units : Nat} (fits : Representable units) :
    |(finite negative units fits).value| = units / unitsPerOne := by
  rw [value, abs_mul, abs_signFactor, one_mul]
  exact abs_of_nonneg (div_nonneg (Nat.cast_nonneg _) (Nat.cast_nonneg _))

theorem equal_of_value_eq {x y : Binary64} (hx : x.IsFinite) (hy : y.IsFinite)
    (same : x.value = y.value) : x.equal y = true := by
  obtain ⟨s, m, hm, rfl⟩ := hx.eq_finite
  obtain ⟨t, n, hn, rfl⟩ := hy.eq_finite
  have unit := unitsPerOne_cast_pos.ne'
  have magnitude := congrArg abs same
  rw [abs_value, abs_value, div_left_inj' unit, Nat.cast_inj] at magnitude
  subst magnitude
  simp only [equal, Bool.and_eq_true, Bool.or_eq_true, beq_iff_eq, true_and]
  by_cases sign : s = t
  · exact Or.inl sign
  · -- Numbers of both signs are equal only at zero.
    right
    have zero : (m : ℚ) / unitsPerOne = 0 := by
      simp only [value] at same
      cases s <;> cases t <;> simp only [signFactor, Bool.false_eq_true, ↓reduceIte] at same
      · exact absurd rfl sign
      · linarith
      · linarith
      · exact absurd rfl sign
    exact_mod_cast (div_eq_zero_iff.mp zero).resolve_right unit

end Binary64

section Decimal

variable {scale a b : ℚ} {m : ℤ}

theorem abs_mul_sub_int (pos : 0 < scale) (q : ℚ) :
    |q * scale - m| = |(m : ℚ) / scale - q| * scale := by
  rw [← abs_of_pos pos, ← abs_mul, abs_of_pos pos, sub_mul, div_mul_cancel₀ _ pos.ne',
    abs_sub_comm]

/-- A number no farther from a rounded decimal than the one it was rounded from rounds to that
decimal again. -/
theorem HalfEven.of_closer (rounded : HalfEven (b * scale) m) (pos : 0 < scale)
    (closer : |(m : ℚ) / scale - a| ≤ |(m : ℚ) / scale - b|) : HalfEven (a * scale) m := by
  have scaled : |a * scale - m| ≤ |b * scale - m| := by
    rw [abs_mul_sub_int pos, abs_mul_sub_int pos]
    exact mul_le_mul_of_nonneg_right closer pos.le
  have near := rounded.near
  exact ⟨scaled.trans near, fun tie => rounded.even (le_antisymm near (tie ▸ scaled))⟩

theorem HalfEven.distance_le (rounded : HalfEven (b * scale) m) (pos : 0 < scale)
    (closer : |(m : ℚ) / scale - a| ≤ |(m : ℚ) / scale - b|) : |a - b| ≤ 1 / scale := by
  have half : |(m : ℚ) / scale - b| * scale ≤ 1 / 2 := by
    rw [← abs_mul_sub_int pos]
    exact rounded.near
  have triangle : |a - b| ≤ |(m : ℚ) / scale - b| + |(m : ℚ) / scale - b| := by
    calc
      |a - b| ≤ |a - m / scale| + |m / scale - b| := abs_sub_le a (m / scale) b
      _ ≤ |(m : ℚ) / scale - b| + |(m : ℚ) / scale - b| := by
        rw [abs_sub_comm a]
        exact add_le_add_left closer _
  rw [le_div_iff₀ pos]
  calc
    |a - b| * scale ≤ (|(m : ℚ) / scale - b| + |(m : ℚ) / scale - b|) * scale :=
      mul_le_mul_of_nonneg_right triangle pos.le
    _ ≤ 1 := by
      rw [add_mul]
      linarith only [half]

theorem HalfEven.eq_of_whole (rounded : HalfEven (b * scale) m) (pos : 0 < scale)
    (closer : |(m : ℚ) / scale - a| ≤ |(m : ℚ) / scale - b|) {k : ℤ} (whole : b * scale = k) :
    a = b := by
  have same : m = k := rounded.unique (whole ▸ HalfEven.of_int k)
  have decimal : (m : ℚ) / scale = b := by
    rw [div_eq_iff pos.ne', same, whole]
  rw [decimal, sub_self, abs_zero] at closer
  exact (sub_eq_zero.mp (abs_eq_zero.mp (le_antisymm closer (abs_nonneg _)))).symm

end Decimal

def signed (negative : Bool) (n : Nat) : ℤ :=
  if negative then -n else n

theorem cast_signed (negative : Bool) (n : Nat) :
    (signed negative n : ℚ) = Binary64.signFactor negative * n := by
  cases negative <;> simp [signed, Binary64.signFactor]

theorem signed_and_ne_zero (negative : Bool) (n : Nat) :
    signed (negative && n != 0) n = signed negative n := by
  rcases Nat.eq_zero_or_pos n with rfl | positive
  · cases negative <;> rfl
  · rw [bne_iff_ne.mpr positive.ne', Bool.and_true]

theorem natAbs_signed (negative : Bool) (n : Nat) : (signed negative n).natAbs = n := by
  cases negative <;> simp [signed]

theorem signed_inj {negative other : Bool} {m n : Nat} :
    signed negative m = signed other n ↔ m = n ∧ (negative = other ∨ m = 0) := by
  cases negative <;> cases other <;> simp [signed] <;> omega

theorem HalfEven.signed {q : ℚ} {n : Nat} (rounded : HalfEven q n) (negative : Bool) :
    HalfEven (Binary64.signFactor negative * q) (signed negative n) := by
  cases negative with
  | false => simpa [Placeholders.signed, Binary64.signFactor] using rounded
  | true => simpa [Placeholders.signed, Binary64.signFactor] using rounded.neg

theorem halfEven_roundPlaces (units places : Nat) :
    HalfEven ((units : ℚ) / unitsPerOne * 10 ^ places) (Decimal.roundPlaces units places) := by
  have rounded := halfEven_roundDiv (units * 10 ^ places) unitsPerOne unitsPerOne_pos
  rwa [Nat.cast_mul, Nat.cast_pow, Nat.cast_ofNat, mul_div_right_comm] at rounded

theorem halfEven_value (negative : Bool) {units : Nat} (fits : Representable units)
    (places : Nat) :
    HalfEven ((Binary64.finite negative units fits).value * 10 ^ places)
      (signed negative (Decimal.roundPlaces units places)) := by
  rw [Binary64.value, mul_assoc]
  exact (halfEven_roundPlaces units places).signed negative

/-- A number this large is whole, so that rounding it to decimals changes nothing; rounding a
smaller one does not come near to overflow. -/
theorem roundUnits_lt_overflow {num den units places m : Nat} (pos : 0 < den)
    (fits : Representable units) (rounded : HalfEven ((units : ℚ) / unitsPerOne * 10 ^ places) m)
    (decimal : (num : ℚ) / den / unitsPerOne = (m : ℤ) / 10 ^ places) :
    roundUnits num den < overflowUnits := by
  have unit := unitsPerOne_cast_pos
  have scale : (0 : ℚ) < 10 ^ places := pow_pos (by norm_num) places
  have nearest := (roundUnits_nearest num den pos fits.precise).1
  have closer : |((m : ℤ) : ℚ) / 10 ^ places - roundUnits num den / unitsPerOne| ≤
      |((m : ℤ) : ℚ) / 10 ^ places - units / unitsPerOne| := by
    rw [← decimal, ← sub_div, ← sub_div, abs_div, abs_div]
    exact div_le_div_of_nonneg_right nearest (abs_nonneg _)
  rcases fits.whole_or_below with ⟨j, multiple⟩ | below
  · have whole : (units : ℚ) / unitsPerOne * 10 ^ places = ((j * 10 ^ places : ℕ) : ℤ) := by
      rw [multiple, Nat.cast_mul, mul_div_cancel_right₀ _ unit.ne']
      push_cast
      rfl
    have same := rounded.eq_of_whole scale closer whole
    rw [div_left_inj' unit.ne', Nat.cast_inj] at same
    rw [same]
    exact fits.2
  · have bound : (units : ℚ) / unitsPerOne < 2 ^ 52 := by
      rw [div_lt_iff₀ unit]
      exact_mod_cast below
    have distance : |(roundUnits num den : ℚ) / unitsPerOne - units / unitsPerOne| ≤ 1 :=
      (rounded.distance_le scale closer).trans
        ((div_le_one scale).mpr (one_le_pow₀ (by norm_num)))
    have close := (abs_le.mp distance).2
    have above : (roundUnits num den : ℚ) / unitsPerOne < 2 ^ 52 + 1 := by
      linarith only [close, bound]
    rw [div_lt_iff₀ unit] at above
    have small : roundUnits num den < (2 ^ 52 + 1) * unitsPerOne := by exact_mod_cast above
    exact lt_overflowUnits (small.trans_le (Nat.mul_le_mul_right _ (by decide)))

namespace NumberFormat

theorem unambiguous_of_validate {f : NumberFormat} (valid : f.validate = .ok ()) :
    f.Unambiguous := by
  rw [← flaw?_eq_none_iff]
  unfold validate at valid
  split at valid
  · cases valid
  · assumption

theorem written_value (f : NumberFormat) (n : Nat) :
    (Nat.ofDigitChars 10 (Decimal.wholeDigits n f.places ++ Decimal.fractionDigits n f.places) 0 *
        unitsPerOne : ℕ) / ((10 ^ (Decimal.fractionDigits n f.places).length : ℕ) : ℚ) /
      unitsPerOne = n / 10 ^ f.places := by
  obtain ⟨k, places, value⟩ := Decimal.allDigits_value n f.places
  generalize (Decimal.fractionDigits n f.places).length = length at places ⊢
  generalize Nat.ofDigitChars 10 _ 0 = digits at value ⊢
  have unit := unitsPerOne_cast_pos.ne'
  have ten : (10 : ℚ) ^ k ≠ 0 := pow_ne_zero k (by norm_num)
  rw [Nat.cast_mul, div_right_comm, mul_div_cancel_right₀ _ unit, ← value, ← places,
    Nat.cast_mul, Nat.cast_pow, Nat.cast_pow, Nat.cast_ofNat, pow_add, mul_div_mul_right _ _ ten]

/-- Reading formatted text gives the double nearest to the decimal that was written. -/
theorem read?_numeralText_nearest {f : NumberFormat} (clear : f.Unambiguous) (negative : Bool)
    {units : Nat} (fits : Representable units) :
    ∃ n fitsToo,
      f.read? (f.numeralText negative (Decimal.roundPlaces units f.places)) =
        some (.finite (negative && Decimal.roundPlaces units f.places != 0) n fitsToo) ∧
      Binary64.IsNearest (signed negative (Decimal.roundPlaces units f.places) / 10 ^ f.places)
        (.finite (negative && Decimal.roundPlaces units f.places != 0) n fitsToo) := by
  have rounded := halfEven_roundPlaces units f.places
  generalize Decimal.roundPlaces units f.places = m at rounded ⊢
  have value := written_value f m
  have positive : 0 < 10 ^ (Decimal.fractionDigits m f.places).length := Nat.pow_pos (by decide)
  have bound := roundUnits_lt_overflow positive fits rounded value
  have nearest := Binary64.isNearest_nearest (negative && m != 0) positive bound
  rw [Binary64.nearest_of_lt bound, value, ← mul_div_assoc, ← cast_signed,
    signed_and_ne_zero] at nearest
  refine ⟨_, representable_roundUnits _ _ bound, ?_, nearest⟩
  rw [read?_numeralText clear, Binary64.ofNumeral, Binary64.ofDecimal_eq_nearest]
  simp only [Numeral.significand, Numeral.scale, Int.zero_sub, Int.neg_neg, Int.toNat_natCast,
    Int.toNat_neg_natCast, Nat.pow_zero, Nat.mul_one]
  rw [Binary64.nearest_of_lt bound]

/-- With as many places as a double can have, every number is a whole number of the last. -/
theorem whole_of_many_places {x : Binary64} (finite : x.IsFinite) {places : Nat}
    (many : 1074 ≤ places) : ∃ k : ℤ, x.value * 10 ^ places = k := by
  obtain ⟨negative, units, fits, rfl⟩ := finite.eq_finite
  obtain ⟨extra, rfl⟩ := Nat.exists_eq_add_of_le many
  refine ⟨signed negative (units * 5 ^ 1074 * 10 ^ extra), ?_⟩
  rw [Binary64.value, cast_signed, unitsPerOne_eq]
  generalize 1074 = k
  have two : (2 : ℚ) ^ k ≠ 0 := pow_ne_zero k (by norm_num)
  have ten : (10 : ℚ) ^ k = 2 ^ k * 5 ^ k := by
    rw [← mul_pow]
    norm_num
  push_cast
  rw [pow_add, ten]
  field_simp

/-- Further places than a double can have hold zeros only. -/
theorem halfEven_maxFractionDigits (f : NumberFormat) {x : Binary64} (finite : x.IsFinite) {m : ℤ}
    (rounded : HalfEven (x.value * 10 ^ f.places) m) :
    HalfEven (x.value * 10 ^ f.maxFractionDigits)
        (m * 10 ^ (f.maxFractionDigits - f.places) : ℤ) ∧
      ((m * 10 ^ (f.maxFractionDigits - f.places) : ℤ) : ℚ) / 10 ^ f.maxFractionDigits =
        m / 10 ^ f.places := by
  obtain ⟨extra, digits⟩ := Nat.exists_eq_add_of_le (Nat.min_le_left f.maxFractionDigits 1074)
  change f.maxFractionDigits = f.places + extra at digits
  have ten : (10 : ℚ) ^ extra ≠ 0 := pow_ne_zero extra (by norm_num)
  rw [digits, Nat.add_sub_cancel_left, Int.cast_mul, Int.cast_pow, Int.cast_ofNat, pow_add]
  refine ⟨?_, mul_div_mul_right _ _ ten⟩
  rcases Nat.eq_zero_or_pos extra with rfl | positive
  · simpa using rounded
  · have many : 1074 ≤ f.places := by
      unfold places at digits ⊢
      omega
    obtain ⟨k, whole⟩ := whole_of_many_places finite many
    have same : m = k := rounded.unique (whole ▸ HalfEven.of_int k)
    have scaled : x.value * (10 ^ f.places * 10 ^ extra) = ((m * 10 ^ extra : ℤ) : ℚ) := by
      rw [← mul_assoc, whole, same]
      push_cast
      rfl
    rw [scaled]
    exact HalfEven.of_int _

theorem write_eq_numeralText (f : NumberFormat) {negative : Bool} {m n : Nat}
    (fits : Representable n)
    (rounded : HalfEven ((Binary64.finite (negative && m != 0) n fits).value * 10 ^ f.places)
      (signed negative m)) :
    f.write (.finite (negative && m != 0) n fits) = f.numeralText negative m := by
  have same := (halfEven_value (negative && m != 0) fits f.places).unique rounded
  have magnitude := congrArg Int.natAbs same
  rw [natAbs_signed, natAbs_signed] at magnitude
  rw [write, magnitude, numeralText, Bool.and_assoc, Bool.and_self]
  rfl

/-- The two roundings of the round trip: to a decimal when writing, to a double when reading. -/
theorem read?_write_finite {f : NumberFormat} (clear : f.Unambiguous) {n : Binary64}
    (finite : n.IsFinite) :
    ∃ (x : Binary64) (m : ℤ), f.read? (f.write n) = some x ∧
      HalfEven (n.value * 10 ^ f.places) m ∧ Binary64.IsNearest (m / 10 ^ f.places) x ∧
      f.write x = f.write n := by
  obtain ⟨negative, units, fits, rfl⟩ := finite.eq_finite
  have rounded := halfEven_value negative fits f.places
  obtain ⟨u, fitsToo, read, nearest⟩ := read?_numeralText_nearest clear negative fits
  have scale : (0 : ℚ) < 10 ^ f.places := pow_pos (by norm_num) _
  have again := rounded.of_closer scale (nearest.near _ finite)
  exact ⟨_, _, read, rounded, nearest, f.write_eq_numeralText fitsToo again⟩

theorem exists_isDigit_write (f : NumberFormat) {n : Binary64} (finite : n.IsFinite) :
    ∃ c ∈ f.write n, c.isDigit := by
  obtain ⟨negative, units, fits, rfl⟩ := finite.eq_finite
  obtain ⟨c, ends, digit⟩ := f.getLast?_numeralText negative (Decimal.roundPlaces units f.places)
  exact ⟨c, List.mem_of_getLast? ends, digit⟩

/-- The words for the infinities and for `nan` have no digits. -/
theorem read?_write_of_not_isFinite (f : NumberFormat) {n : Binary64} (special : ¬ n.IsFinite) :
    f.read? (f.write n) = none := by
  apply read?_eq_none
  cases n with
  | finite => exact absurd trivial special
  | infinite negative =>
      cases negative <;> simp [write, Binary64.specialText, Binary64.signText]
  | nan => simp [write, Binary64.specialText]

/-- A format that reads back gives the double nearest to the decimal that a finite number was
written as. It is within one unit of the last place, the number itself if nothing was rounded,
and is written in the same way. Numbers that are not finite are not read. -/
theorem read?_write (f : NumberFormat) (valid : f.validate = .ok ()) (n : Binary64) :
    (n.IsFinite → ∃ (x : Binary64) (m : ℤ), f.read? (f.write n) = some x ∧ x.IsFinite ∧
      HalfEven (n.value * 10 ^ f.maxFractionDigits) m ∧
      Binary64.IsNearest (m / 10 ^ f.maxFractionDigits) x ∧
      |x.value - n.value| ≤ 1 / 10 ^ f.maxFractionDigits ∧
      ((∃ k : ℤ, n.value * 10 ^ f.maxFractionDigits = k) → x.equal n = true) ∧
      f.write x = f.write n) ∧
    (¬ n.IsFinite → f.read? (f.write n) = none) := by
  have clear := unambiguous_of_validate valid
  refine ⟨fun finite => ?_, f.read?_write_of_not_isFinite⟩
  obtain ⟨x, m, read, written, nearest, again⟩ := read?_write_finite clear finite
  obtain ⟨rounded, decimal⟩ := f.halfEven_maxFractionDigits finite written
  rw [← decimal] at nearest
  have scale : (0 : ℚ) < 10 ^ f.maxFractionDigits := pow_pos (by norm_num) _
  have closer := nearest.near n finite
  refine ⟨x, _, read, nearest.finite, rounded, nearest, rounded.distance_le scale closer, ?_, again⟩
  rintro ⟨k, whole⟩
  exact Binary64.equal_of_value_eq nearest.finite finite (rounded.eq_of_whole scale closer whole)

/-- Minus 12345.5 without fraction digits: a tie, and the point groups. -/
theorem read?_write_tie :
    let f : NumberFormat := ⟨',', some '.', 0⟩
    let n : Binary64 := .finite true (24691 <<< 1073) (by decide +kernel)
    f.validate = .ok () ∧ n.IsFinite ∧ f.write n = "-12.346".toList ∧
      ∃ x, f.read? (f.write n) = some x ∧ x.IsFinite ∧ f.write x = f.write n := by
  intro f n
  have valid : f.validate = .ok () := by rfl
  have finite : n.IsFinite := trivial
  obtain ⟨x, m, read, finiteToo, -, -, -, -, again⟩ := (f.read?_write valid n).1 finite
  exact ⟨valid, finite, by decide +kernel, x, read, finiteToo, again⟩

end NumberFormat

end Placeholders
