import Mathlib.Algebra.Order.Field.Power
import Placeholders.Proofs.NearestDouble
import Placeholders.Proofs.NumeralGrammar
import Placeholders.ValueType

set_option autoImplicit false

namespace Placeholders

/-- `x` has the sign: every double but `nan` has one, the zeros included. -/
def Binary64.HasSign (negative : Bool) : Binary64 → Prop
  | .finite s _ _ | .infinite s => s = negative
  | .nan => False

namespace Numeral

def value (n : Numeral) : ℚ :=
  Binary64.signFactor n.negative *
    ((Nat.ofDigitChars 10 n.whole 0 + Nat.ofDigitChars 10 n.fraction 0 / 10 ^ n.fraction.length) *
      10 ^ n.exponent)

theorem ten_zpow (k : Int) : (10 : ℚ) ^ k = 10 ^ k.toNat / 10 ^ (-k).toNat := by
  have ten : (10 : ℚ) ≠ 0 := by norm_num
  have parts : k = k.toNat - (-k).toNat := by omega
  calc
    (10 : ℚ) ^ k = 10 ^ ((k.toNat : Int) - (-k).toNat) := by rw [← parts]
    _ = 10 ^ k.toNat / 10 ^ (-k).toNat := by rw [zpow_sub₀ ten, zpow_natCast, zpow_natCast]

/-- The digits as one whole number, and a power of ten for it, denote the same number. -/
theorem value_eq (n : Numeral) :
    n.value = Binary64.signFactor n.negative *
      ((n.significand * 10 ^ n.scale.toNat * unitsPerOne : ℕ) / (10 ^ (-n.scale).toNat : ℕ) /
        unitsPerOne) := by
  have unit := unitsPerOne_cast_pos.ne'
  have shift : (10 : ℚ) ^ n.fraction.length ≠ 0 := pow_ne_zero _ (by norm_num)
  have digits : n.significand =
      Nat.ofDigitChars 10 n.whole 0 * 10 ^ n.fraction.length + Nat.ofDigitChars 10 n.fraction 0 := by
    rw [significand, Nat.ofDigitChars_append, Nat.ofDigitChars_eq_ofDigitChars_zero, Nat.mul_comm]
  have power : (10 : ℚ) ^ n.exponent = 10 ^ n.scale * 10 ^ n.fraction.length := by
    rw [scale, zpow_sub₀ (by norm_num), zpow_natCast, div_mul_cancel₀ _ shift]
  have moved : (10 : ℚ) ^ n.scale = 10 ^ n.scale.toNat / 10 ^ (-n.scale).toNat := ten_zpow n.scale
  rw [value, power, moved, Nat.cast_mul, div_right_comm, mul_div_cancel_right₀ _ unit, digits]
  push_cast
  field_simp

/-- `x` is the double that `n` is rounded to: of the sign of `n`, also at zero, infinite from half
a last place above the largest double on, and else nearest to the number that `n` denotes. -/
structure RoundsTo (n : Numeral) (x : Binary64) : Prop where
  signed : x.HasSign n.negative
  infinite : x = .infinite n.negative ↔ 2 ^ 1024 - 2 ^ 970 ≤ |n.value|
  nearest : |n.value| < 2 ^ 1024 - 2 ^ 970 → x.IsNearest n.value

theorem abs_value (n : Numeral) :
    |n.value| = (n.significand * 10 ^ n.scale.toNat * unitsPerOne : ℕ) /
      (10 ^ (-n.scale).toNat : ℕ) / unitsPerOne := by
  rw [value_eq, abs_mul, Binary64.abs_signFactor, one_mul]
  exact abs_of_nonneg (by positivity)

theorem roundsTo_ofNumeral (n : Numeral) : n.RoundsTo (Binary64.ofNumeral n) := by
  have pos : 0 < 10 ^ (-n.scale).toNat := Nat.pow_pos (by decide)
  have overflow := roundUnits_lt_overflowUnits_iff
    (n.significand * 10 ^ n.scale.toNat * unitsPerOne) pos
  rw [← n.abs_value] at overflow
  rw [Binary64.ofNumeral, Binary64.ofDecimal_eq_nearest]
  rcases lt_or_ge |n.value| (2 ^ 1024 - 2 ^ 970) with small | large
  · have bound := overflow.mpr small
    have near := Binary64.isNearest_nearest n.negative pos bound
    rw [← n.value_eq] at near
    rw [Binary64.nearest_of_lt bound] at near ⊢
    exact ⟨rfl, ⟨nofun, fun large => absurd large small.not_ge⟩, fun _ => near⟩
  · have bound := Nat.le_of_not_lt (mt overflow.mp large.not_gt)
    rw [Binary64.nearest_of_le bound]
    exact ⟨rfl, ⟨fun _ => large, fun _ => rfl⟩, fun small => absurd large small.not_ge⟩

end Numeral

namespace NumberFormat

/-- The text is white space around a numeral in the notation of `f`: without the grouping
separators, and with points for the decimal separators, it is in the grammar. -/
inductive Denotes (f : NumberFormat) : List Char → Numeral → Prop
  | mk {before text after : List Char} {n : Numeral}
      (blankBefore : ∀ c ∈ before, Text.isBlank c = true)
      (blankAfter : ∀ c ∈ after, Text.isBlank c = true) (trimmed : Text.Trimmed text)
      (spells : Numeral.Spells ((text.filter fun c => some c != f.groupingSeparator).map fun c =>
        if c = f.decimalSeparator then '.' else c) n) :
      Denotes f (before ++ text ++ after) n

theorem denotes_iff (f : NumberFormat) (cs : List Char) (n : Numeral) :
    f.Denotes cs n ↔ Numeral.Spells (f.normalize (Text.trim cs)) n := by
  constructor
  · rintro ⟨blankBefore, blankAfter, trimmed, spells⟩
    rwa [trimmed.trim_surrounded blankBefore blankAfter]
  · intro spells
    obtain ⟨before, after, layout, blankBefore, blankAfter⟩ := Text.exists_trim cs
    have denotes := Denotes.mk blankBefore blankAfter (Text.trimmed_trim cs) spells
    rwa [← layout] at denotes

theorem read?_eq_some_iff (f : NumberFormat) (cs : List Char) (x : Binary64) :
    f.read? cs = some x ↔ ∃ n, f.Denotes cs n ∧ Binary64.ofNumeral n = x := by
  simp only [read?, Binary64.read?, Option.map_eq_some_iff, Numeral.read?_eq_some_iff, denotes_iff]

theorem Denotes.unique {f : NumberFormat} {cs : List Char} {m n : Numeral}
    (first : f.Denotes cs m) (second : f.Denotes cs n) : m = n := by
  rw [denotes_iff, ← Numeral.read?_eq_some_iff] at first second
  exact Option.some.inj (first.symm.trans second)

theorem normalize_plain {f : NumberFormat} {cs : List Char}
    (ungrouped : ∀ c ∈ cs, some c ≠ f.groupingSeparator)
    (point : f.decimalSeparator ∈ cs → f.decimalSeparator = '.') : f.normalize cs = cs := by
  have kept : cs.filter (fun c => some c != f.groupingSeparator) = cs := by
    rw [List.filter_eq_self]
    intro c member
    exact bne_iff_ne.mpr (ungrouped c member)
  rw [normalize, kept]
  refine (List.map_congr_left fun c member => ?_).trans cs.map_id
  split
  · rename_i separator
    subst separator
    exact (point member).symm
  · rfl

/-- Reading takes the numerals of the format and nothing else, and gives the doubles that they are
rounded to. A literal, whose notation has no separators, is read alike if it has none of the
format's. -/
theorem read?_numerals (f : NumberFormat) (text : String) :
    ((∃ x, f.read? text.toList = some x) ↔ ∃ n, f.Denotes text.toList n) ∧
    (∀ x n, f.read? text.toList = some x → f.Denotes text.toList n → n.RoundsTo x) ∧
    ((∀ c ∈ text.toList, some c ≠ f.groupingSeparator) →
      (f.decimalSeparator ∈ text.toList → f.decimalSeparator = '.') →
      (ValueType.number f).readLiteral? text = (ValueType.number f).read? text) := by
  refine ⟨?_, ?_, ?_⟩
  · simp only [read?_eq_some_iff]
    constructor
    · rintro ⟨x, n, denotes, -⟩
      exact ⟨n, denotes⟩
    · rintro ⟨n, denotes⟩
      exact ⟨_, n, denotes, rfl⟩
  · intro x n read denotes
    obtain ⟨m, same, rfl⟩ := (f.read?_eq_some_iff _ _).mp read
    rw [same.unique denotes]
    exact n.roundsTo_ofNumeral
  · intro ungrouped point
    have plain : f.normalize (Text.trim text.toList) = Text.trim text.toList :=
      normalize_plain (fun c member => ungrouped c (Text.mem_of_mem_trim member))
        (fun member => point (Text.mem_of_mem_trim member))
    simp only [ValueType.number, read?, plain]

/-- A grouped numeral with an exponent, one that overflows, and a literal. -/
theorem read?_numerals_grouped :
    let f : NumberFormat := ⟨',', some '.', 2⟩
    let n : Numeral := ⟨true, ['1'], [], 400⟩
    f.Denotes " 1.234,5e1 ".toList ⟨false, ['1', '2', '3', '4'], ['5'], 1⟩ ∧
      (∃ x, f.read? " 1.234,5e1 ".toList = some x) ∧
      f.Denotes "-1e400".toList n ∧ f.read? "-1e400".toList = some (.infinite true) ∧
      2 ^ 1024 - 2 ^ 970 ≤ |n.value| ∧
      (ValueType.number f).readLiteral? "-2E+3" = (ValueType.number f).read? "-2E+3" := by
  intro f n
  have grouped : f.Denotes " 1.234,5e1 ".toList ⟨false, ['1', '2', '3', '4'], ['5'], 1⟩ := by
    rw [denotes_iff, ← Numeral.read?_eq_some_iff]
    decide +kernel
  have large : f.Denotes "-1e400".toList n := by
    rw [denotes_iff, ← Numeral.read?_eq_some_iff]
    decide +kernel
  have read : f.read? "-1e400".toList = some (.infinite true) := by decide +kernel
  have ungrouped : '.' ∉ "-2E+3".toList := by decide +kernel
  exact ⟨grouped, (f.read?_numerals " 1.234,5e1 ").1.mpr ⟨_, grouped⟩, large, read,
    ((f.read?_numerals "-1e400").2.1 _ n read large).infinite.mp rfl,
    (f.read?_numerals "-2E+3").2.2
      (fun c member same => ungrouped (Option.some.inj same ▸ member)) (by decide +kernel)⟩

end NumberFormat

end Placeholders
