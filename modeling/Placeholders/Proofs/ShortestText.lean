import Placeholders.Proofs.NearestDouble
import Placeholders.Proofs.NumberText

set_option autoImplicit false

namespace Placeholders

theorem roundDiv_mul_right (num den : Nat) {k : Nat} (pos : 0 < k) :
    roundDiv (num * k) (den * k) = roundDiv num den := by
  have less : 2 * (num % den * k) < den * k ↔ 2 * (num % den) < den := by
    rw [← Nat.mul_assoc]
    exact Nat.mul_lt_mul_right pos
  have tie : 2 * (num % den * k) = den * k ↔ 2 * (num % den) = den := by
    rw [← Nat.mul_assoc]
    exact Nat.mul_left_inj (Nat.ne_of_gt pos)
  simp only [roundDiv, Nat.mul_div_mul_right _ _ pos, Nat.mul_mod_mul_right, less, tie]

theorem roundUnits_mul_right (num den : Nat) {k : Nat} (pos : 0 < k) :
    roundUnits (num * k) (den * k) = roundUnits num den := by
  have shift (drop : Nat) : (den * k) <<< drop = (den <<< drop) * k := by
    rw [Nat.shiftLeft_eq, Nat.shiftLeft_eq, Nat.mul_right_comm]
  simp only [roundUnits, Nat.mul_div_mul_right _ _ pos, shift, roundDiv_mul_right _ _ pos]

/-- Rounding depends on the quotient alone. -/
theorem roundUnits_congr {num den other denToo : Nat} (pos : 0 < den) (posToo : 0 < denToo)
    (same : num * denToo = other * den) : roundUnits num den = roundUnits other denToo := by
  rw [← roundUnits_mul_right num den posToo, same, Nat.mul_comm den,
    roundUnits_mul_right other denToo pos]

/-- A magnitude that fits is rounded to itself. -/
theorem roundUnits_one {units : Nat} (fits : Representable units) :
    roundUnits units 1 = units := by
  have nearest := (roundUnits_nearest units 1 Nat.one_pos fits.precise).1
  rw [Nat.cast_one, div_one, sub_self, abs_zero] at nearest
  have same := sub_eq_zero.mp (abs_nonpos_iff.mp nearest)
  exact (Nat.cast_injective same).symm

namespace Binary64

theorem nearest_congr (negative : Bool) {num den other denToo : Nat} (pos : 0 < den)
    (posToo : 0 < denToo) (same : num * denToo = other * den) :
    nearest negative num den = nearest negative other denToo := by
  simp only [nearest, roundUnits_congr pos posToo same]

/-- When a quotient is rounded to a given finite double. -/
theorem nearest_eq_finite_iff {negative sign : Bool} {num den units : Nat}
    {fits : Representable units} :
    nearest negative num den = .finite sign units fits ↔
      negative = sign ∧ roundUnits num den = units := by
  rcases Nat.lt_or_ge (roundUnits num den) overflowUnits with bound | overflow
  · rw [nearest_of_lt bound]
    constructor
    · intro same
      exact ⟨(finite.inj same).1, (finite.inj same).2⟩
    · rintro ⟨rfl, rfl⟩
      rfl
  · rw [nearest_of_le overflow]
    constructor
    · intro same
      cases same
    · rintro ⟨-, rfl⟩
      exact absurd fits.2 (Nat.not_lt.mpr overflow)

theorem nearest_one (negative : Bool) {units : Nat} (fits : Representable units) :
    nearest negative units 1 = .finite negative units fits :=
  nearest_eq_finite_iff.mpr ⟨rfl, roundUnits_one fits⟩

/-- A decimal can be given with more digits and a smaller power of ten. -/
theorem ofDecimal_of_places (negative : Bool) {significand digits length k : Nat} {scale : Int}
    (places : length + k = (-scale).toNat)
    (value : digits * 10 ^ k = significand * 10 ^ scale.toNat) :
    ofDecimal negative digits (-length) = ofDecimal negative significand scale := by
  rw [ofDecimal_eq_nearest, ofDecimal_eq_nearest, ← value, ← places, Int.neg_neg,
    Int.toNat_natCast, Int.toNat_neg_natCast, Nat.pow_zero, Nat.mul_one, Nat.pow_add]
  apply nearest_congr _ (Nat.pow_pos (by decide))
    (Nat.mul_pos (Nat.pow_pos (by decide)) (Nat.pow_pos (by decide)))
  ring

end Binary64

namespace Decimal

theorem positional_eq (significand : Nat) (scale : Int) :
    positional significand scale =
      wholeDigits (significand * 10 ^ scale.toNat) (-scale).toNat ++
        if fractionDigits (significand * 10 ^ scale.toNat) (-scale).toNat = [] then []
        else '.' :: fractionDigits (significand * 10 ^ scale.toNat) (-scale).toNat := by
  simp only [positional, Nat.pow_eq]
  generalize fractionDigits (significand * 10 ^ scale.toNat) (-scale).toNat = fraction
  cases fraction with
  | nil => rw [if_pos rfl, List.append_nil]
  | cons c cs => rw [if_neg (List.cons_ne_nil c cs)]

/-- The digits of `significand * 10 ^ scale` before and after the point. -/
def numeral (negative : Bool) (significand : Nat) (scale : Int) : Numeral where
  negative := negative
  whole := wholeDigits (significand * 10 ^ scale.toNat) (-scale).toNat
  fraction := fractionDigits (significand * 10 ^ scale.toNat) (-scale).toNat
  exponent := 0

theorem spells_positional (negative : Bool) (significand : Nat) (scale : Int) :
    Numeral.Spells (Binary64.signText negative ++ positional significand scale)
      (numeral negative significand scale) := by
  rw [positional_eq, ← List.append_assoc]
  exact Numeral.spells_digits negative (isDigits_wholeDigits _ _) (isDigit_fractionDigits _ _)

/-- The digits lack only final zeros, and each place after the point is in the scale. -/
theorem numeral_value (negative : Bool) (significand : Nat) (scale : Int) :
    ∃ length k : Nat, (numeral negative significand scale).scale = -length ∧
      length + k = (-scale).toNat ∧
      (numeral negative significand scale).significand * 10 ^ k =
        significand * 10 ^ scale.toNat := by
  obtain ⟨k, places, value⟩ :=
    allDigits_value (significand * 10 ^ scale.toNat) (-scale).toNat
  exact ⟨_, k, Int.zero_sub _, places, value⟩

theorem ofNumeral_numeral (negative : Bool) (significand : Nat) (scale : Int) :
    Binary64.ofNumeral (numeral negative significand scale) =
      .ofDecimal negative significand scale := by
  obtain ⟨length, k, place, places, value⟩ := numeral_value negative significand scale
  rw [Binary64.ofNumeral, place]
  exact Binary64.ofDecimal_of_places negative places value

/-- Positional notation reads as the decimal that it was written for. -/
theorem read?_positional (negative : Bool) (significand : Nat) (scale : Int) :
    Binary64.read? (Binary64.signText negative ++ positional significand scale) =
      some (.ofDecimal negative significand scale) := by
  have read := (Numeral.read?_eq_some_iff _ _).mpr (spells_positional negative significand scale)
  rw [Binary64.read?, read, Option.map_some, ofNumeral_numeral]

theorem readsBack_iff {units : Nat} (fits : Representable units) (significand : Nat) (scale : Int) :
    readsBack units significand scale = true ↔
      Binary64.ofDecimal false significand scale = .finite false units fits := by
  rw [readsBack]
  cases Binary64.ofDecimal false significand scale with
  | infinite | nan => simp
  | finite negative n _ => cases negative <;> simp

/-- A decimal that reads back does so with either sign. -/
theorem ofDecimal_of_readsBack (negative : Bool) {units significand : Nat} {scale : Int}
    (fits : Representable units) (reads : readsBack units significand scale = true) :
    Binary64.ofDecimal negative significand scale = .finite negative units fits := by
  rw [readsBack_iff fits, Binary64.ofDecimal_eq_nearest, Binary64.nearest_eq_finite_iff] at reads
  rw [Binary64.ofDecimal_eq_nearest, Binary64.nearest_eq_finite_iff]
  exact ⟨rfl, reads.2⟩

theorem readsBack_of_gridPoint? {units significand : Nat} {scale : Int}
    (found : gridPoint? units scale = some significand) :
    readsBack units significand scale = true := by
  simp only [gridPoint?] at found
  split at found
  · rename_i lower
    obtain rfl := Option.some.inj found
    exact lower.1
  · split at found
    · rename_i upper
      obtain rfl := Option.some.inj found
      exact upper
    · cases found

/-- The exact expansion of a double reads back. -/
theorem ofDecimal_expansion (negative : Bool) {units k : Nat} (fits : Representable units)
    (unit : unitsPerOne = 2 ^ k) :
    Binary64.ofDecimal negative (units * Nat.pow 5 k) (-k) = .finite negative units fits := by
  rw [Binary64.ofDecimal_eq_nearest, ← Binary64.nearest_one negative fits, unit, Int.neg_neg,
    Int.toNat_natCast, Int.toNat_neg_natCast, Nat.pow_zero, Nat.mul_one]
  apply Binary64.nearest_congr negative (Nat.pow_pos (by decide)) Nat.one_pos
  change units * 5 ^ k * 2 ^ k * 1 = units * 10 ^ k
  rw [Nat.mul_one, Nat.mul_assoc, ← Nat.mul_pow]

/-- Whatever the search ends with reads back. -/
theorem ofDecimal_searchGrids (negative : Bool) {units : Nat} (fits : Representable units)
    (attempts : Nat) (scale : Int) :
    Binary64.ofDecimal negative (searchGrids units attempts scale).1
      (searchGrids units attempts scale).2 = .finite negative units fits := by
  induction attempts generalizing scale with
  | zero =>
      have unit := unitsPerOne_eq
      rw [searchGrids, show (-1074 : Int) = -(1074 : Nat) from rfl]
      generalize 1074 = k at unit ⊢
      exact ofDecimal_expansion negative fits unit
  | succ attempts ih =>
      rw [searchGrids]
      cases found : gridPoint? units scale with
      | some significand =>
          exact ofDecimal_of_readsBack negative fits (readsBack_of_gridPoint? found)
      | none => exact ih (scale - 1)

theorem ofDecimal_shortest (negative : Bool) {units : Nat} (fits : Representable units) :
    Binary64.ofDecimal negative (shortest units).1 (shortest units).2 =
      .finite negative units fits := by
  by_cases zero : units = 0
  · subst zero
    rfl
  · rw [shortest, if_neg zero]
    exact ofDecimal_searchGrids negative fits 17 (leadingScale units)

end Decimal

namespace Binary64

/-- The plain text of a finite double reads as the same double. -/
theorem read?_display {x : Binary64} (finite : x.IsFinite) : read? x.display = some x := by
  cases x with
  | infinite | nan => exact finite.elim
  | finite negative units fits =>
      rw [display, Decimal.read?_positional, Decimal.ofDecimal_shortest negative fits]

/-- The words for the other doubles have no digits. -/
theorem isDigit_display_eq_false {x : Binary64} (special : ¬ x.IsFinite) :
    ∀ c ∈ x.display, c.isDigit = false := by
  cases x with
  | finite => exact absurd trivial special
  | infinite negative => cases negative <;> simp [display, specialText, signText]
  | nan => simp [display, specialText]

end Binary64

end Placeholders
