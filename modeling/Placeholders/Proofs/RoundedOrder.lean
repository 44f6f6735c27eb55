import Placeholders.Proofs.Casting
import Placeholders.Proofs.Comparisons
import Placeholders.Proofs.NumeralReading
import Placeholders.Proofs.ShortestDigits

set_option autoImplicit false

/- Rounding keeps the order of numbers. Each of the two roundings of a round trip is monotone, and
between them stands the text: numbers of one decimal have one text, so that the signs of zeros and
the zeros that are dropped cannot part them. -/
namespace Placeholders

/-- Of two numbers, the larger one is not rounded to the smaller whole number. -/
theorem HalfEven.mono {q r : ℚ} {m k : ℤ} (first : HalfEven q m) (second : HalfEven r k)
    (le : q ≤ r) : m ≤ k := by
  rcases le.eq_or_lt with rfl | less
  · exact (first.unique second).le
  · by_contra above
    have apart : (k : ℚ) + 1 ≤ m := by exact_mod_cast not_le.mp above
    have lower := (abs_le.mp first.near).1
    have upper := (abs_le.mp second.near).2
    linarith

/-- Of two different numbers, the larger one is not read as the smaller double. -/
theorem Binary64.IsNearest.mono {q r : ℚ} {x y : Binary64} (first : IsNearest q x)
    (second : IsNearest r y) (less : q < r) : x.value ≤ y.value := by
  by_contra above
  have above := not_le.mp above
  have lower := le_two_mul_of_nearer above (first.near y second.finite)
  have upper := two_mul_le_of_nearer above (second.near x first.finite)
  linarith

/-- The order of finite numbers is that of the rational numbers they stand for. -/
theorem Comparison.lessOrEqual_iff_value {x y : Binary64} (hx : x.IsFinite) (hy : y.IsFinite) :
    lessOrEqual.apply (.number x) (.number y) = true ↔ x.value ≤ y.value := by
  have placed {x : Binary64} (finite : x.IsFinite) :
      ∃ i : ℤ, (Value.number x).place? = some (toLex (.inl i)) ∧ x.value = i / unitsPerOne := by
    obtain ⟨negative, units, fits, rfl⟩ := finite.eq_finite
    exact ⟨signed negative units, rfl, by rw [cast_signed, Binary64.value, mul_div_assoc]⟩
  obtain ⟨i, placeX, valueX⟩ := placed hx
  obtain ⟨j, placeY, valueY⟩ := placed hy
  have kinds : (Value.number x).kind = (Value.number y).kind := rfl
  rw [lessOrEqual.apply_iff_of_places kinds placeX placeY, Relates, Sum.Lex.inl_le_inl_iff, valueX,
    valueY, div_le_div_iff_of_pos_right unitsPerOne_cast_pos, Int.cast_le]

namespace NumberFormat

/-- The text of a decimal does not depend on the sign that zero is given. -/
theorem numeralText_congr (f : NumberFormat) {negative other : Bool} {m n : Nat}
    (same : signed negative m = signed other n) :
    f.numeralText negative m = f.numeralText other n := by
  obtain ⟨rfl, rfl | rfl⟩ := signed_inj.mp same
  · rfl
  · simp [numeralText]

theorem exists_numeralText (f : NumberFormat) {x : Binary64} (finite : x.IsFinite) {m : ℤ}
    (rounded : HalfEven (x.value * 10 ^ f.places) m) :
    ∃ negative n, f.write x = f.numeralText negative n ∧ signed negative n = m := by
  obtain ⟨negative, units, fits, rfl⟩ := finite.eq_finite
  exact ⟨negative, _, rfl, (halfEven_value negative fits f.places).unique rounded⟩

theorem write_congr (f : NumberFormat) {x y : Binary64} (hx : x.IsFinite) (hy : y.IsFinite) {m : ℤ}
    (first : HalfEven (x.value * 10 ^ f.places) m)
    (second : HalfEven (y.value * 10 ^ f.places) m) : f.write x = f.write y := by
  obtain ⟨s, a, writtenX, signedX⟩ := f.exists_numeralText hx first
  obtain ⟨t, b, writtenY, signedY⟩ := f.exists_numeralText hy second
  rw [writtenX, writtenY]
  exact f.numeralText_congr (signedX.trans signedY.symm)

/-- The numeral of a number denotes the decimal that the number is rounded to. -/
theorem exists_denotes_write {f : NumberFormat} (clear : f.Unambiguous) {x : Binary64}
    (finite : x.IsFinite) {m : ℤ} (rounded : HalfEven (x.value * 10 ^ f.places) m) :
    ∃ p, f.Denotes (f.write x) p ∧ p.value = m / 10 ^ f.places := by
  obtain ⟨negative, n, written, rfl⟩ := f.exists_numeralText finite rounded
  have spells := spells_numeralText clear negative n
  rw [← trim_numeralText, ← written, ← denotes_iff] at spells
  refine ⟨_, spells, ?_⟩
  rw [Numeral.value_eq]
  simp only [Numeral.significand, Numeral.scale, Int.zero_sub, Int.neg_neg, Int.toNat_natCast,
    Int.toNat_neg_natCast, Nat.pow_zero, Nat.mul_one]
  rw [written_value, ← mul_div_assoc, ← cast_signed, signed_and_ne_zero]

/-- The order of two finite numbers is that of the decimals they are written as, and that of the
doubles these are read as. -/
theorem roundTrip_mono {f : NumberFormat} (clear : f.Unambiguous) {m n : Binary64}
    (hm : m.IsFinite) (hn : n.IsFinite) (le : m.value ≤ n.value) :
    ∃ p q x y, f.Denotes (f.write m) p ∧ f.Denotes (f.write n) q ∧ p.value ≤ q.value ∧
      f.read? (f.write m) = some x ∧ f.read? (f.write n) = some y ∧ x.IsFinite ∧ y.IsFinite ∧
      x.value ≤ y.value := by
  obtain ⟨x, i, readX, roundedX, nearestX, -⟩ := read?_write_finite clear hm
  obtain ⟨y, j, readY, roundedY, nearestY, -⟩ := read?_write_finite clear hn
  obtain ⟨p, denotesP, valueP⟩ := exists_denotes_write clear hm roundedX
  obtain ⟨q, denotesQ, valueQ⟩ := exists_denotes_write clear hn roundedY
  have scale : (0 : ℚ) < 10 ^ f.places := pow_pos (by norm_num) _
  have ordered := roundedX.mono roundedY (mul_le_mul_of_nonneg_right le scale.le)
  refine ⟨p, q, x, y, denotesP, denotesQ, ?_, readX, readY, nearestX.finite, nearestY.finite, ?_⟩
  · rw [valueP, valueQ, div_le_div_iff_of_pos_right scale, Int.cast_le]
    exact ordered
  · rcases ordered.eq_or_lt with rfl | less
    · -- Two doubles may be nearest to one decimal, but one text is read as one double.
      rw [f.write_congr hm hn roundedX roundedY, readY] at readX
      rw [Option.some.inj readX]
    · have decimals : (i : ℚ) / 10 ^ f.places < j / 10 ^ f.places :=
        div_lt_div_of_pos_right (by exact_mod_cast less) scale
      exact nearestX.mono nearestY decimals

end NumberFormat

namespace Engine

variable {C : Type}

/-- The text is an expression without a cast, of a placeholder that is registered as a number. -/
def IsNumber (e : Engine C) (text : String) : Prop :=
  ∃ expression, Expression.parse? text = some expression ∧ expression.cast = none ∧
    e.contains .number expression.name = true

/-- Numbers are looked up first, so a name that is registered as one means it. -/
theorem find?_of_contains_number {e : Engine C} {format : NumberFormat}
    (types : e.types = .builtin format) {name : String} (known : e.contains .number name = true) :
    ∃ builder, e.find? name = some (.number format, builder) := by
  have place : (Registry.builtin format).position? .number = some 0 := by cbv
  obtain ⟨_, tables⟩ := e
  subst types
  cases tables with
  | nil => simp [contains, place] at known
  | cons table tables =>
      have listed : (table.get? name).isSome := by
        simpa [contains, place, BuilderTable.contains_eq_isSome] using known
      obtain ⟨builder, found⟩ := Option.isSome_iff_exists.mp listed
      refine ⟨builder, ?_⟩
      change List.findSome? _ ((ValueType.number format, table) :: _) = _
      simp only [List.findSome?_cons, found, Option.map_some]

/-- A cast of a number to a number writes and reads it in the format of the engine. -/
theorem resolve_number_cast {format : NumberFormat} {start : Engine C}
    (valid : ofFormat format = .ok start) (history : List (Registration C)) {text : String}
    (number : (start.afterAll history).IsNumber text) {p : Placeholder C}
    (resolved : (start.afterAll history).resolve text = .ok p) :
    (start.afterAll history).resolve ("(number)" ++ text) =
      .ok (p.cast (.number format) (.number format)) := by
  obtain ⟨expression, bare, uncast, known⟩ := number
  have types := types_of_ofFormat valid history
  have consistent : (start.afterAll history).types.Consistent :=
    types ▸ Registry.consistent_builtin format
  have member := (Registry.mem_builtin format _).mpr (Or.inl rfl)
  obtain ⟨nonempty, chars⟩ := Registry.isCastChar_of_builtin member
  obtain ⟨builder, found⟩ := find?_of_contains_number types known
  have named : "(number)" = "(" ++ (ValueType.number format).castName ++ ")" := rfl
  rw [named]
  exact resolve_cast consistent bare uncast found
    (instantiate_of_resolve bare uncast found resolved) (types ▸ member) nonempty chars

end Engine

/-- Writing and reading finite numbers does not change their order: neither that of the decimals
that the texts denote, nor that of the numbers that are read. So on an engine with that format, if
one registered number is at most another, this stays so when both are cast to numbers. -/
theorem NumberFormat.write_mono {C : Type} {f : NumberFormat} (valid : f.validate = .ok ()) :
    (∀ m n : Binary64, m.IsFinite → n.IsFinite →
      Comparison.lessOrEqual.apply (.number m) (.number n) = true →
      ∃ p q x y, f.Denotes (f.write m) p ∧ f.Denotes (f.write n) q ∧ p.value ≤ q.value ∧
        f.read? (f.write m) = some x ∧ f.read? (f.write n) = some y ∧
        Comparison.lessOrEqual.apply (.number x) (.number y) = true) ∧
    ∀ (start : Engine C) (history : List (Registration C)), Engine.ofFormat f = .ok start →
      ∀ first second condition, (start.afterAll history).IsNumber first →
        (start.afterAll history).IsNumber second →
        Condition.compare (start.afterAll history) first .lessOrEqual second = .ok condition →
        ∃ casted, Condition.compare (start.afterAll history) ("(number)" ++ first) .lessOrEqual
            ("(number)" ++ second) = .ok casted ∧
          ∀ context m n,
            (start.afterAll history).valueOf first context = .ok (.ok (.number m)) →
            (start.afterAll history).valueOf second context = .ok (.ok (.number n)) →
            m.IsFinite → n.IsFinite → condition.holds context = true →
            casted.holds context = true := by
  have clear := unambiguous_of_validate valid
  have ordered (m n : Binary64) (hm : m.IsFinite) (hn : n.IsFinite)
      (le : Comparison.lessOrEqual.apply (.number m) (.number n) = true) :
      ∃ p q x y, f.Denotes (f.write m) p ∧ f.Denotes (f.write n) q ∧ p.value ≤ q.value ∧
        f.read? (f.write m) = some x ∧ f.read? (f.write n) = some y ∧
        Comparison.lessOrEqual.apply (.number x) (.number y) = true := by
    rw [Comparison.lessOrEqual_iff_value hm hn] at le
    obtain ⟨p, q, x, y, denotesP, denotesQ, decimals, readX, readY, finiteX, finiteY, values⟩ :=
      roundTrip_mono clear hm hn le
    exact ⟨p, q, x, y, denotesP, denotesQ, decimals, readX, readY,
      (Comparison.lessOrEqual_iff_value finiteX finiteY).mpr values⟩
  refine ⟨ordered, ?_⟩
  intro start history built first second condition numberFirst numberSecond compiled
  obtain ⟨left, right, resolvedLeft, resolvedRight, -, rfl⟩ := Condition.compare_eq_ok compiled
  have castLeft := Engine.resolve_number_cast built history numberFirst resolvedLeft
  have castRight := Engine.resolve_number_cast built history numberSecond resolvedRight
  refine ⟨_, Condition.compare_of_kinds castLeft castRight rfl .lessOrEqual, ?_⟩
  intro context m n valueFirst valueSecond hm hn holds
  obtain ⟨_, resolved, valueLeft⟩ := (Engine.valueOf_eq_ok _ _ _ _).mp valueFirst
  obtain rfl := Except.ok.inj (resolved.symm.trans resolvedLeft)
  obtain ⟨_, resolved, valueRight⟩ := (Engine.valueOf_eq_ok _ _ _ _).mp valueSecond
  obtain rfl := Except.ok.inj (resolved.symm.trans resolvedRight)
  simp only [Condition.ofPlaceholders, valueLeft, valueRight] at holds
  obtain ⟨-, -, x, y, -, -, -, readX, readY, stays⟩ := ordered m n hm hn holds
  have reads {p : Placeholder C} {z result : Binary64}
      (value : p.evaluate context = .ok (.number z)) (read : f.read? (f.write z) = some result) :
      (p.cast (.number f) (.number f)).evaluate context = .ok (.number result) := by
    refine (p.evaluate_cast_eq_ok _ _ _ _).mpr ⟨_, value, ?_⟩
    simp only [ValueType.number, String.toList_ofList, read, Option.map_some]
  simp only [Condition.ofPlaceholders, reads valueLeft readX, reads valueRight readY]
  exact stays

/-- A tie that carries to a fourth whole digit, and a greater number that is rounded down to it. -/
theorem NumberFormat.write_mono_carry :
    let f : NumberFormat := ⟨',', some '.', 0⟩
    let m : Binary64 := .finite false (1999 <<< 1073) (by decide +kernel)
    let n : Binary64 := .finite false (4001 <<< 1072) (by decide +kernel)
    f.validate = .ok () ∧ f.write m = "1.000".toList ∧ f.write n = "1.000".toList ∧
      (∃ x y, f.read? (f.write m) = some x ∧ f.read? (f.write n) = some y ∧
        Comparison.lessOrEqual.apply (.number x) (.number y) = true) ∧
      ∃ casted, Condition.compare (Engine.ofPair f) "(number)level" .lessOrEqual "(number)limit" =
          .ok casted ∧ casted.holds (m, n) = true := by
  have known (format : NumberFormat) : (Engine.ofPair format).contains .number "level" = true ∧
      (Engine.ofPair format).contains .number "limit" = true := by
    constructor <;> cbv
  intro f m n
  have valid : f.validate = .ok () := rfl
  have le : Comparison.lessOrEqual.apply (.number m) (.number n) = true := by decide +kernel
  obtain ⟨numbers, conditions⟩ := write_mono (C := Binary64 × Binary64) valid
  obtain ⟨-, -, x, y, -, -, -, readX, readY, stays⟩ := numbers m n trivial trivial le
  have level : (Engine.ofPair f).IsNumber "level" :=
    ⟨⟨none, "level", []⟩, by decide +kernel, rfl, (known f).1⟩
  have limit : (Engine.ofPair f).IsNumber "limit" :=
    ⟨⟨none, "limit", []⟩, by decide +kernel, rfl, (known f).2⟩
  obtain ⟨resolvedLevel, resolvedLimit⟩ := Engine.resolve_ofPair f
  obtain ⟨casted, compiled, holds⟩ := conditions _ _ rfl _ _ _ level limit
    (Condition.compare_of_kinds resolvedLevel resolvedLimit rfl .lessOrEqual)
  have first : (Engine.ofPair f).valueOf "level" (m, n) = .ok (.ok (.number m)) :=
    ((Engine.ofPair f).valueOf_eq_ok _ _ _).mpr ⟨_, resolvedLevel, rfl⟩
  have second : (Engine.ofPair f).valueOf "limit" (m, n) = .ok (.ok (.number n)) :=
    ((Engine.ofPair f).valueOf_eq_ok _ _ _).mpr ⟨_, resolvedLimit, rfl⟩
  exact ⟨valid, by decide +kernel, by decide +kernel, ⟨x, y, readX, readY, stays⟩, casted, compiled,
    holds (m, n) m n first second trivial trivial le⟩

end Placeholders
