import Mathlib.Algebra.Order.Floor.Semifield
import Mathlib.Data.Rat.Floor
import Placeholders.Proofs.NumberRoundTrip

set_option autoImplicit false

namespace Placeholders

namespace Decimal

/-- The decimal digits of `n`. Only those of zero begin with a zero. -/
structure IsWhole (digits : List Char) (n : Nat) : Prop extends Numeral.IsDigits digits where
  lead : digits.head? = some '0' → digits = ['0']
  value : Nat.ofDigitChars 10 digits 0 = n

/-- The decimal digits of `q` after the point, up to the last one that is not a zero. -/
structure IsFraction (digits : List Char) (q : ℚ) : Prop extends Numeral.IsDigits digits where
  last : digits.getLast? ≠ some '0'
  value : (Nat.ofDigitChars 10 digits 0 : ℚ) / 10 ^ digits.length = q

theorem digitChar_ne_zero : ∀ n < 10, 0 < n → Nat.digitChar n ≠ '0' := by decide

theorem head?_toDigits {n : Nat} (positive : 0 < n) : (Nat.toDigits 10 n).head? ≠ some '0' := by
  induction n using Nat.strong_induction_on with
  | _ n ih =>
      rcases Nat.lt_or_ge n 10 with small | large
      · rw [Nat.toDigits_of_lt_base small, List.head?_cons, Ne, Option.some.injEq]
        exact digitChar_ne_zero n small positive
      · rw [Nat.toDigits_of_base_le (by decide) large,
          List.head?_append_of_ne_nil _ Nat.toDigits_ne_nil]
        exact ih (n / 10) (by omega) (by omega)

theorem isWhole_wholeDigits (n places : Nat) :
    IsWhole (wholeDigits n places) (n / 10 ^ places) where
  toIsDigits := isDigits_wholeDigits n places
  lead := by
    intro zero
    change (Nat.toDigits 10 (n / 10 ^ places)).head? = some '0' at zero
    change Nat.toDigits 10 (n / 10 ^ places) = ['0']
    rcases Nat.eq_zero_or_pos (n / 10 ^ places) with nothing | positive
    · rw [nothing, Nat.toDigits_zero]
    · exact absurd zero (head?_toDigits positive)
  value := Nat.ofDigitChars_ten_toDigits

theorem getLast?_dropFinalZeros (cs : List Char) : (dropFinalZeros cs).getLast? ≠ some '0' := by
  rw [dropFinalZeros, List.getLast?_reverse]
  intro zero
  have stops := List.head?_dropWhile_not (· == '0') cs.reverse
  rw [zero] at stops
  cases stops

theorem fractionDigits_eq_nil_iff (n places : Nat) :
    fractionDigits n places = [] ↔ n % 10 ^ places = 0 := by
  constructor
  · intro nothing
    obtain ⟨k, -, value⟩ := fractionDigits_value n places
    rw [nothing, Nat.ofDigitChars_nil, Nat.zero_mul] at value
    exact value.symm
  · intro whole
    exact if_pos whole

theorem isFraction_fractionDigits {n places : Nat} (broken : n % 10 ^ places ≠ 0) :
    IsFraction (fractionDigits n places) ((n % 10 ^ places : ℕ) / (10 ^ places : ℕ)) where
  nonempty := by rwa [Ne, fractionDigits_eq_nil_iff]
  digit := isDigit_fractionDigits n places
  last := by
    unfold fractionDigits
    split
    · simp
    · exact getLast?_dropFinalZeros _
  value := by
    obtain ⟨k, lengths, value⟩ := fractionDigits_value n places
    have ten : (10 : ℚ) ^ k ≠ 0 := pow_ne_zero k (by norm_num)
    have power : ((10 ^ places : ℕ) : ℚ) = 10 ^ (fractionDigits n places).length * 10 ^ k := by
      rw [← pow_add, lengths, Nat.cast_pow, Nat.cast_ofNat]
    rw [← value, power, Nat.cast_mul, Nat.cast_pow, Nat.cast_ofNat, mul_div_mul_right _ _ ten]

theorem length_fractionDigits_le (n places : Nat) : (fractionDigits n places).length ≤ places := by
  obtain ⟨k, lengths, -⟩ := fractionDigits_value n places
  omega

end Decimal

namespace NumberFormat

/-- `text` is `digits` with a separator between groups of three, counted from the right end. -/
inductive Grouped (separator : Char) : List Char → List Char → Prop
  | first {group : List Char} (nonempty : group ≠ []) (short : group.length ≤ 3) :
      Grouped separator group group
  | next {digits text group : List Char} (before : Grouped separator digits text)
      (three : group.length = 3) :
      Grouped separator (digits ++ group) (text ++ separator :: group)

/-- A numeral of `r` from its sign to its fraction digits. -/
def WholePart (f : NumberFormat) (r : ℚ) (text : List Char) : Prop :=
  ∃ digits, Decimal.IsWhole digits ⌊|r|⌋₊ ∧
    match f.groupingSeparator with
    | some separator => Grouped separator digits text
    | none => text = digits

/-- A numeral of `r` after its whole digits. -/
inductive FractionPart (f : NumberFormat) (r : ℚ) : List Char → Prop
  | absent (whole : ∃ k : ℤ, r = k) : FractionPart f r []
  | digits {digits : List Char} (broken : ¬ ∃ k : ℤ, r = k)
      (fraction : Decimal.IsFraction digits (Int.fract |r|))
      (places : digits.length ≤ f.maxFractionDigits) :
      FractionPart f r (f.decimalSeparator :: digits)

/-- The numeral of `r` in a format. -/
inductive IsNumeral (f : NumberFormat) (r : ℚ) : List Char → Prop
  | mk {whole fraction : List Char} (wholePart : f.WholePart r whole)
      (fractionPart : f.FractionPart r fraction) :
      IsNumeral f r ((if r < 0 then ['-'] else []) ++ whole ++ fraction)

theorem groupThrees_of_short {group : List Char} (short : group.length ≤ 3) (separator : Char) :
    groupThrees separator group = group := by
  induction group with
  | nil => rfl
  | cons c cs ih =>
      rw [List.length_cons] at short
      have together : ¬ (cs ≠ [] ∧ cs.length % 3 = 0) := by
        rintro ⟨more, thirds⟩
        have := List.length_pos_iff.mpr more
        omega
      rw [groupThrees, if_neg together, ih (by omega)]

theorem groupThrees_append (separator : Char) {digits group : List Char} (nonempty : digits ≠ [])
    (three : group.length = 3) :
    groupThrees separator (digits ++ group) =
      groupThrees separator digits ++ separator :: group := by
  induction digits with
  | nil => exact absurd rfl nonempty
  | cons c cs ih =>
      have more : cs ++ group ≠ [] := by
        rw [← List.length_pos_iff, List.length_append]
        omega
      rw [List.cons_append, groupThrees, groupThrees, List.length_append, three,
        Nat.add_mod_right]
      by_cases only : cs = []
      · subst only
        rw [if_pos ⟨more, rfl⟩, List.nil_append, groupThrees_of_short (Nat.le_of_eq three)]
        rfl
      · rw [ih only]
        by_cases thirds : cs.length % 3 = 0
        · rw [if_pos ⟨more, thirds⟩, if_pos ⟨only, thirds⟩]
          rfl
        · rw [if_neg fun both => thirds both.2, if_neg fun both => thirds both.2]
          rfl

theorem grouped_groupThrees (separator : Char) {digits : List Char} (nonempty : digits ≠ []) :
    Grouped separator digits (groupThrees separator digits) := by
  -- On the length, since the last group of three is split off at the end of the list.
  induction length : digits.length using Nat.strong_induction_on generalizing digits with
  | _ n ih =>
      rcases le_or_gt n 3 with short | long
      · rw [groupThrees_of_short (length.trans_le short)]
        exact .first nonempty (length.trans_le short)
      · have split := digits.take_append_drop (n - 3)
        have three : (digits.drop (n - 3)).length = 3 := by
          rw [List.length_drop]
          omega
        have rest : (digits.take (n - 3)).length = n - 3 := by
          rw [List.length_take]
          omega
        have front : digits.take (n - 3) ≠ [] := by
          rw [← List.length_pos_iff]
          omega
        rw [← split, groupThrees_append separator front three]
        exact .next (ih (n - 3) (by omega) front rest) three

theorem abs_signed_div (negative : Bool) (n places : Nat) :
    |((signed negative n : ℤ) : ℚ) / 10 ^ places| = n / (10 ^ places : ℕ) := by
  have power : (0 : ℚ) < 10 ^ places := pow_pos (by norm_num) places
  rw [cast_signed, abs_div, abs_mul, Binary64.abs_signFactor, one_mul, Nat.abs_cast,
    abs_of_pos power, Nat.cast_pow, Nat.cast_ofNat]

theorem signText_eq (negative : Bool) (n places : Nat) :
    Binary64.signText (negative && n != 0) =
      if ((signed negative n : ℤ) : ℚ) / 10 ^ places < 0 then ['-'] else [] := by
  have power : (0 : ℚ) < 10 ^ places := pow_pos (by norm_num) places
  have below : ((signed negative n : ℤ) : ℚ) / 10 ^ places < 0 ↔
      (negative && n != 0) = true := by
    rw [div_lt_iff₀ power, zero_mul, Int.cast_lt_zero]
    cases negative <;> simp [signed, Nat.pos_iff_ne_zero]
  rw [Binary64.signText]
  simp only [below]

theorem exists_int_iff (r : ℚ) : (∃ k : ℤ, r = k) ↔ Int.fract |r| = 0 := by
  rw [Int.fract_eq_zero_iff]
  constructor
  · rintro ⟨k, rfl⟩
    exact ⟨|k|, by push_cast; rfl⟩
  · rintro ⟨k, magnitude⟩
    rcases abs_choice r with same | flipped
    · exact ⟨k, by rw [magnitude, same]⟩
    · exact ⟨-k, by rw [Int.cast_neg, magnitude, flipped, neg_neg]⟩

theorem wholePart_group (f : NumberFormat) {r : ℚ} {n places : Nat}
    (magnitude : |r| = n / (10 ^ places : ℕ)) :
    f.WholePart r (f.group (Decimal.wholeDigits n places)) := by
  have whole := Decimal.isWhole_wholeDigits n places
  refine ⟨Decimal.wholeDigits n places, ?_, ?_⟩
  · rwa [magnitude, Nat.floor_div_eq_div]
  · unfold group
    cases f.groupingSeparator with
    | none => rfl
    | some separator => exact grouped_groupThrees separator whole.nonempty

theorem fractionPart_pointed (f : NumberFormat) {r : ℚ} {n places : Nat}
    (magnitude : |r| = n / (10 ^ places : ℕ)) (fits : places ≤ f.maxFractionDigits) :
    f.FractionPart r (if Decimal.fractionDigits n places = [] then []
      else f.decimalSeparator :: Decimal.fractionDigits n places) := by
  have power : ((10 ^ places : ℕ) : ℚ) ≠ 0 := by positivity
  have fraction : Int.fract |r| = (n % 10 ^ places : ℕ) / (10 ^ places : ℕ) := by
    rw [magnitude, Int.fract_div_natCast_eq_div_natCast_mod]
  have whole : (∃ k : ℤ, r = k) ↔ n % 10 ^ places = 0 := by
    rw [exists_int_iff, fraction, div_eq_zero_iff, or_iff_left power, Nat.cast_eq_zero]
  split
  · rename_i nothing
    exact .absent (whole.mpr ((Decimal.fractionDigits_eq_nil_iff n places).mp nothing))
  · rename_i something
    rw [Decimal.fractionDigits_eq_nil_iff] at something
    refine .digits (fun round => something (whole.mp round)) ?_
      ((Decimal.length_fractionDigits_le n places).trans fits)
    rw [fraction]
    exact Decimal.isFraction_fractionDigits something

theorem isNumeral_numeralText (f : NumberFormat) (negative : Bool) (n : Nat) :
    f.IsNumeral (signed negative n / 10 ^ f.places) (f.numeralText negative n) := by
  have magnitude := abs_signed_div negative n f.places
  rw [numeralText, signText_eq negative n f.places]
  exact .mk (f.wholePart_group magnitude)
    (f.fractionPart_pointed magnitude (Nat.min_le_left _ _))

/-- Without the grouping separators, the text is that of the format without grouping. -/
theorem filter_numeralText {f : NumberFormat} (clear : f.Unambiguous) (negative : Bool) (n : Nat) :
    (f.numeralText negative n).filter (fun c => some c != f.groupingSeparator) =
      { f with groupingSeparator := none }.numeralText negative n := by
  rw [numeralText, List.filter_append, List.filter_append,
    filter_reserved clear (isReserved_of_mem_signText _),
    filter_group clear (isReserved_of_digits (Decimal.isDigits_wholeDigits _ _).digit),
    filter_pointed clear (isReserved_of_digits (Decimal.isDigit_fractionDigits _ _))]
  rfl

/-- A signed zero is another numeral than the one that is written: zero has no sign. -/
theorem numeralText_ne {f : NumberFormat} (clear : f.Unambiguous) (negative : Bool) (n : Nat) :
    f.numeralText negative n ≠ ['-', '0'] := by
  intro same
  have spells := spells_numeralText clear negative n
  have signedZero : Numeral.read? ['-', '0'] = some ⟨true, ['0'], [], 0⟩ := by decide
  have reserved : ∀ c ∈ ['-', '0'], isReserved c = true := List.all_eq_true.mp rfl
  rw [same, normalize_reserved clear reserved, ← Numeral.read?_eq_some_iff, signedZero,
    Option.some.injEq, Numeral.mk.injEq] at spells
  obtain ⟨sign, whole, fraction, -⟩ := spells
  obtain ⟨k, -, value⟩ := Decimal.allDigits_value n f.places
  rw [← whole, ← fraction] at value
  obtain rfl : 0 = n := (Nat.zero_mul _).symm.trans value
  simp at sign

/-- The text of a finite number is the numeral of the number rounded to the places of the format.
It is never a signed zero, it ends with a digit, and its grouping separators stand between the
characters of the text without grouping. -/
theorem write_canonical {f : NumberFormat} (valid : f.validate = .ok ()) {n : Binary64}
    (finite : n.IsFinite) :
    (∃ m : ℤ, HalfEven (n.value * 10 ^ f.maxFractionDigits) m ∧
      f.IsNumeral (m / 10 ^ f.maxFractionDigits) (f.write n)) ∧
    f.write n ≠ ['-', '0'] ∧ (∃ c, (f.write n).getLast? = some c ∧ c.isDigit = true) ∧
    (f.write n).filter (fun c => some c != f.groupingSeparator) =
      { f with groupingSeparator := none }.write n := by
  have clear := unambiguous_of_validate valid
  obtain ⟨negative, units, fits, rfl⟩ := finite.eq_finite
  obtain ⟨rounded, decimal⟩ :=
    f.halfEven_maxFractionDigits finite (halfEven_value negative fits f.places)
  refine ⟨⟨_, rounded, ?_⟩, numeralText_ne clear _ _, f.getLast?_numeralText _ _,
    filter_numeralText clear _ _⟩
  rw [decimal]
  exact f.isNumeral_numeralText negative _

/-- Minus 999.99951171875 with three places: the carry makes a fourth whole digit. -/
theorem write_canonical_carry :
    let f : NumberFormat := ⟨'.', some ',', 3⟩
    let n : Binary64 := .finite true (2047999 <<< 1063) (by decide +kernel)
    f.validate = .ok () ∧ n.IsFinite ∧ f.write n = "-1,000".toList ∧
      ∃ m : ℤ, HalfEven (n.value * 10 ^ 3) m ∧ f.IsNumeral (m / 10 ^ 3) "-1,000".toList := by
  intro f n
  have valid : f.validate = .ok () := rfl
  have finite : n.IsFinite := trivial
  have text : f.write n = "-1,000".toList := by decide +kernel
  obtain ⟨⟨m, rounded, numeral⟩, -⟩ := write_canonical valid finite
  exact ⟨valid, finite, text, m, rounded, text ▸ numeral⟩

end NumberFormat

end Placeholders
