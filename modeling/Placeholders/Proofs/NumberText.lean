import Mathlib.Algebra.Ring.Nat
import Placeholders.NumberFormat
import Placeholders.Proofs.NumeralGrammar

set_option autoImplicit false

namespace Placeholders

namespace Decimal

theorem dropFinalZeros_append (cs : List Char) :
    ∃ k, dropFinalZeros cs ++ List.replicate k '0' = cs := by
  refine ⟨(cs.reverse.takeWhile (· == '0')).length, ?_⟩
  have zeros : cs.reverse.takeWhile (· == '0') =
      List.replicate (cs.reverse.takeWhile (· == '0')).length '0' := by
    rw [List.eq_replicate_iff]
    refine ⟨rfl, fun c member => ?_⟩
    simpa using List.all_eq_true.mp List.all_takeWhile c member
  have split := congrArg List.reverse (cs.reverse.takeWhile_append_dropWhile (p := (· == '0')))
  rw [List.reverse_append, List.reverse_reverse, zeros, List.reverse_replicate] at split
  exact split

/-- The fraction digits, with the zeros that were dropped, are the part after the point. -/
theorem fractionDigits_value (n places : Nat) :
    ∃ k, (fractionDigits n places).length + k = places ∧
      Nat.ofDigitChars 10 (fractionDigits n places) 0 * 10 ^ k = n % 10 ^ places := by
  unfold fractionDigits
  split
  · rename_i whole
    exact ⟨places, by simp, by simpa using whole.symm⟩
  · rename_i fraction
    change n % 10 ^ places ≠ 0 at fraction
    have positive : 0 < places := by
      apply Nat.pos_of_ne_zero
      rintro rfl
      simp [Nat.mod_one] at fraction
    have fits : (Nat.toDigits 10 (n % 10 ^ places)).length ≤ places :=
      (Nat.length_toDigits_le_iff (by decide) positive).mpr (Nat.mod_lt _ (Nat.pow_pos (by decide)))
    obtain ⟨k, dropped⟩ :=
      dropFinalZeros_append ((Nat.toDigits 10 (n % 10 ^ places)).leftpad places '0')
    refine ⟨k, ?_, ?_⟩
    · have lengths := congrArg List.length dropped
      rw [List.length_append, List.length_replicate, List.length_leftpad] at lengths
      exact lengths.trans (Nat.max_eq_left fits)
    · have values := congrArg (Nat.ofDigitChars 10 · 0) dropped
      simp only [List.leftpad, Nat.ofDigitChars_append, Nat.ofDigitChars_replicate_zero,
        Nat.mul_zero, Nat.ofDigitChars_ten_toDigits] at values
      rw [Nat.mul_comm]
      exact values

theorem isDigits_wholeDigits (n places : Nat) : Numeral.IsDigits (wholeDigits n places) where
  nonempty := Nat.toDigits_ne_nil
  digit := fun _ => Nat.isDigit_of_mem_toDigits (by decide) (by decide)

theorem isDigit_fractionDigits (n places : Nat) :
    ∀ c ∈ fractionDigits n places, c.isDigit = true := by
  intro c member
  unfold fractionDigits at member
  split at member
  · cases member
  · obtain ⟨k, dropped⟩ :=
      dropFinalZeros_append ((Nat.toDigits 10 (n % Nat.pow 10 places)).leftpad places '0')
    have padded := dropped ▸ List.mem_append_left (List.replicate k '0') member
    rcases List.mem_append.mp padded with zero | digit
    · rw [List.eq_of_mem_replicate zero]
      rfl
    · exact Nat.isDigit_of_mem_toDigits (by decide) (by decide) digit

theorem allDigits_value (n places : Nat) :
    ∃ k, (fractionDigits n places).length + k = places ∧
      Nat.ofDigitChars 10 (wholeDigits n places ++ fractionDigits n places) 0 * 10 ^ k = n := by
  obtain ⟨k, lengths, fraction⟩ := fractionDigits_value n places
  refine ⟨k, lengths, ?_⟩
  rw [Nat.ofDigitChars_append, Nat.ofDigitChars_eq_ofDigitChars_zero, wholeDigits,
    Nat.ofDigitChars_ten_toDigits, Nat.add_mul, fraction, Nat.mul_right_comm, ← Nat.pow_add,
    lengths]
  exact Nat.div_add_mod n (10 ^ places)

end Decimal

namespace Text

theorem isBlank_eq_false_of_isDigit {c : Char} (digit : c.isDigit) : isBlank c = false := by
  simp only [Char.isDigit, Bool.and_eq_true, decide_eq_true_eq] at digit
  have lower : 48 ≤ c.toNat := digit.1
  have upper : c.toNat ≤ 57 := digit.2
  simp only [isBlank, Bool.or_eq_false_iff, Bool.and_eq_false_iff, decide_eq_false_iff_not,
    beq_eq_false_iff_ne]
  omega

end Text

theorem Binary64.read?_eq_none {cs : List Char} (noDigit : ∀ c ∈ cs, c.isDigit = false) :
    read? cs = none := by
  rw [read?, Option.map_eq_none_iff, Option.eq_none_iff_forall_ne_some]
  intro n read
  obtain ⟨c, member, digit⟩ := ((Numeral.read?_eq_some_iff _ _).mp read).exists_digit
  rw [noDigit c member] at digit
  cases digit

namespace NumberFormat

/-- Neither separator has a meaning inside a numeral, and they differ. -/
structure Unambiguous (f : NumberFormat) : Prop where
  decimal : isReserved f.decimalSeparator = false
  grouping : ∀ separator, f.groupingSeparator = some separator →
    isReserved separator = false ∧ separator ≠ f.decimalSeparator

theorem flaw?_eq_none_iff (f : NumberFormat) : f.flaw? = none ↔ f.Unambiguous := by
  unfold flaw?
  constructor
  · intro flawless
    split at flawless
    · cases flawless
    · rename_i decimal
      refine ⟨by simpa using decimal, ?_⟩
      intro separator grouping
      simp only [grouping, Option.bind_some] at flawless
      split at flawless
      · cases flawless
      · rename_i free
        split at flawless
        · cases flawless
        · rename_i different
          exact ⟨by simpa using free, different⟩
  · intro ⟨decimal, grouping⟩
    rw [if_neg (by simp [decimal])]
    cases separator : f.groupingSeparator with
    | none => rfl
    | some c =>
        obtain ⟨free, different⟩ := grouping c separator
        simp [free, different]

theorem isReserved_of_isDigit {c : Char} (digit : c.isDigit) : isReserved c = true := by
  simp [isReserved, digit]

theorem isReserved_of_mem_signText (negative : Bool) :
    ∀ c ∈ Binary64.signText negative, isReserved c = true := by
  cases negative <;> simp [Binary64.signText, isReserved]

theorem isReserved_of_digits {digits : List Char} (digit : ∀ c ∈ digits, c.isDigit = true) :
    ∀ c ∈ digits, isReserved c = true :=
  fun c member => isReserved_of_isDigit (digit c member)

theorem normalize_append (f : NumberFormat) (front back : List Char) :
    f.normalize (front ++ back) = f.normalize front ++ f.normalize back := by
  simp [normalize]

theorem filter_reserved {f : NumberFormat} (clear : f.Unambiguous) {cs : List Char}
    (reserved : ∀ c ∈ cs, isReserved c = true) :
    cs.filter (fun c => some c != f.groupingSeparator) = cs := by
  apply List.filter_eq_self.mpr
  intro c member
  rw [bne_iff_ne]
  intro equal
  have free := (clear.grouping c equal.symm).1
  rw [reserved c member] at free
  cases free

theorem normalize_reserved {f : NumberFormat} (clear : f.Unambiguous) {cs : List Char}
    (reserved : ∀ c ∈ cs, isReserved c = true) : f.normalize cs = cs := by
  have notDecimal : ∀ c ∈ cs, c ≠ f.decimalSeparator := by
    rintro c member rfl
    have free := clear.decimal
    rw [reserved _ member] at free
    cases free
  rw [normalize, filter_reserved clear reserved]
  conv => rhs; rw [← List.map_id cs]
  apply List.map_congr_left
  intro c member
  rw [if_neg (notDecimal c member), id]

theorem filter_groupThrees (separator : Char) (digits : List Char)
    (absent : separator ∉ digits) :
    (groupThrees separator digits).filter (fun c => some c != some separator) = digits := by
  induction digits with
  | nil => rfl
  | cons c cs ih =>
      simp only [List.mem_cons, not_or] at absent
      have keep : (some c != some separator) = true := by
        simpa using fun equal : c = separator => absent.1 equal.symm
      unfold groupThrees
      split
      · simp only [List.filter_cons, keep, bne_self_eq_false, Bool.false_eq_true, ↓reduceIte,
          ih absent.2]
      · simp only [List.filter_cons, keep, ↓reduceIte, ih absent.2]

theorem filter_group {f : NumberFormat} (clear : f.Unambiguous) {digits : List Char}
    (reserved : ∀ c ∈ digits, isReserved c = true) :
    (f.group digits).filter (fun c => some c != f.groupingSeparator) = digits := by
  unfold group
  cases grouping : f.groupingSeparator with
  | none => simp
  | some separator =>
      apply filter_groupThrees
      intro member
      have free := (clear.grouping separator grouping).1
      rw [reserved separator member] at free
      cases free

theorem normalize_group {f : NumberFormat} (clear : f.Unambiguous) {digits : List Char}
    (reserved : ∀ c ∈ digits, isReserved c = true) : f.normalize (f.group digits) = digits := by
  have plain := normalize_reserved clear reserved
  rw [normalize, filter_reserved clear reserved] at plain
  rw [normalize, filter_group clear reserved, plain]

theorem filter_pointed {f : NumberFormat} (clear : f.Unambiguous) {fraction : List Char}
    (reserved : ∀ c ∈ fraction, isReserved c = true) :
    (if fraction = [] then [] else f.decimalSeparator :: fraction).filter
        (fun c => some c != f.groupingSeparator) =
      if fraction = [] then [] else f.decimalSeparator :: fraction := by
  split
  · rfl
  · rw [List.filter_cons_of_pos, filter_reserved clear reserved]
    rw [bne_iff_ne]
    intro equal
    exact (clear.grouping f.decimalSeparator equal.symm).2 rfl

theorem normalize_pointed {f : NumberFormat} (clear : f.Unambiguous) {fraction : List Char}
    (reserved : ∀ c ∈ fraction, isReserved c = true) :
    f.normalize (if fraction = [] then [] else f.decimalSeparator :: fraction) =
      if fraction = [] then [] else '.' :: fraction := by
  have plain := normalize_reserved clear reserved
  rw [normalize, filter_reserved clear reserved] at plain
  rw [normalize, filter_pointed clear reserved]
  split
  · rfl
  · rw [List.map_cons, if_pos rfl, plain]

theorem head?_group (f : NumberFormat) (digits : List Char) :
    (f.group digits).head? = digits.head? := by
  unfold group
  cases f.groupingSeparator with
  | none => rfl
  | some separator =>
      cases digits with
      | nil => rfl
      | cons c cs =>
          simp only [groupThrees]
          split <;> rfl

theorem getLast?_groupThrees (separator : Char) (digits : List Char) :
    (groupThrees separator digits).getLast? = digits.getLast? := by
  induction digits with
  | nil => rfl
  | cons c cs ih =>
      unfold groupThrees
      split
      · rename_i more
        rw [List.getLast?_cons_cons, List.getLast?_cons, List.getLast?_cons, ih,
          List.getLast?_eq_some_getLast more.1, Option.getD_some, Option.getD_some]
      · rw [List.getLast?_cons, List.getLast?_cons, ih]

theorem getLast?_group (f : NumberFormat) (digits : List Char) :
    (f.group digits).getLast? = digits.getLast? := by
  unfold group
  cases f.groupingSeparator with
  | none => rfl
  | some separator => exact getLast?_groupThrees separator digits

theorem getLast?_numeralText (f : NumberFormat) (negative : Bool) (n : Nat) :
    ∃ c, (f.numeralText negative n).getLast? = some c ∧ c.isDigit = true := by
  have whole := Decimal.isDigits_wholeDigits n f.places
  by_cases nothing : Decimal.fractionDigits n f.places = []
  · refine ⟨_, ?_, whole.digit _ (List.getLast_mem whole.nonempty)⟩
    rw [numeralText, if_pos nothing, List.append_nil, List.getLast?_append, getLast?_group,
      List.getLast?_eq_some_getLast whole.nonempty]
    rfl
  · refine ⟨_, ?_, Decimal.isDigit_fractionDigits n f.places _ (List.getLast_mem nothing)⟩
    rw [numeralText, if_neg nothing, List.getLast?_append, List.getLast?_cons_of_ne_nil nothing,
      List.getLast?_eq_some_getLast nothing]
    rfl

/-- Formatted text begins with the sign or a digit and ends with a digit. -/
theorem trim_numeralText (f : NumberFormat) (negative : Bool) (n : Nat) :
    Text.trim (f.numeralText negative n) = f.numeralText negative n := by
  have whole := Decimal.isDigits_wholeDigits n f.places
  apply Text.Trimmed.trim_eq
  constructor
  · intro c member
    rw [numeralText, List.head?_append, List.head?_append, head?_group,
      List.head?_eq_some_head whole.nonempty] at member
    have first : c = '-' ∨ c = (Decimal.wholeDigits n f.places).head whole.nonempty := by
      unfold Binary64.signText at member
      split at member
      · exact Or.inl (Option.some.inj member).symm
      · exact Or.inr (Option.some.inj member).symm
    rcases first with rfl | rfl
    · decide
    · exact Text.isBlank_eq_false_of_isDigit (whole.digit _ (List.head_mem whole.nonempty))
  · intro c member
    obtain ⟨last, ends, digit⟩ := f.getLast?_numeralText negative n
    obtain rfl := Option.some.inj (ends.symm.trans member)
    exact Text.isBlank_eq_false_of_isDigit digit

theorem normalize_numeralText {f : NumberFormat} (clear : f.Unambiguous) (negative : Bool)
    (n : Nat) :
    f.normalize (f.numeralText negative n) =
      Binary64.signText (negative && n != 0) ++ Decimal.wholeDigits n f.places ++
        if Decimal.fractionDigits n f.places = [] then []
        else '.' :: Decimal.fractionDigits n f.places := by
  rw [numeralText, normalize_append, normalize_append,
    normalize_reserved clear (isReserved_of_mem_signText _),
    normalize_group clear (isReserved_of_digits (Decimal.isDigits_wholeDigits _ _).digit),
    normalize_pointed clear (isReserved_of_digits (Decimal.isDigit_fractionDigits _ _))]

theorem spells_numeralText {f : NumberFormat} (clear : f.Unambiguous) (negative : Bool) (n : Nat) :
    Numeral.Spells (f.normalize (f.numeralText negative n))
      ⟨negative && n != 0, Decimal.wholeDigits n f.places,
        Decimal.fractionDigits n f.places, 0⟩ := by
  rw [normalize_numeralText clear]
  exact Numeral.spells_digits _ (Decimal.isDigits_wholeDigits _ _)
    (Decimal.isDigit_fractionDigits _ _)

theorem read?_numeralText {f : NumberFormat} (clear : f.Unambiguous) (negative : Bool) (n : Nat) :
    f.read? (f.numeralText negative n) =
      some (.ofNumeral ⟨negative && n != 0, Decimal.wholeDigits n f.places,
        Decimal.fractionDigits n f.places, 0⟩) := by
  have read := (Numeral.read?_eq_some_iff _ _).mpr (spells_numeralText clear negative n)
  rw [read?, trim_numeralText, Binary64.read?, read]
  rfl

/-- Text without a digit is no number in any format, as no separator turns into a digit. -/
theorem read?_eq_none (f : NumberFormat) {cs : List Char} (noDigit : ∀ c ∈ cs, c.isDigit = false) :
    f.read? cs = none := by
  apply Binary64.read?_eq_none
  intro c member
  rw [normalize, List.mem_map] at member
  obtain ⟨source, kept, rfl⟩ := member
  split
  · rfl
  · exact noDigit source (Text.mem_of_mem_trim (List.mem_filter.mp kept).1)

end NumberFormat

end Placeholders
