import Placeholders.Decimal.Shortest
import Placeholders.Text.Blank

set_option autoImplicit false

namespace Placeholders

namespace Numeral

/-- `D+` -/
structure IsDigits (cs : List Char) : Prop where
  nonempty : cs ≠ []
  digit : ∀ c ∈ cs, c.isDigit = true

/-- `[+-]?`; true stands for a minus. -/
inductive SignForm : List Char → Bool → Prop
  | absent : SignForm [] false
  | plus : SignForm ['+'] false
  | minus : SignForm ['-'] true

/-- `D+(\.D*)?|\.D+`, with the digits before and after the point. -/
inductive MantissaForm : List Char → List Char → List Char → Prop
  | whole {whole : List Char} (digits : IsDigits whole) : MantissaForm whole whole []
  | pointed {whole fraction : List Char} (digits : IsDigits whole)
      (more : ∀ c ∈ fraction, c.isDigit = true) :
      MantissaForm (whole ++ '.' :: fraction) whole fraction
  | fraction {fraction : List Char} (digits : IsDigits fraction) :
      MantissaForm ('.' :: fraction) [] fraction

def signedPower (negative : Bool) (digits : List Char) : Int :=
  if negative then -(Nat.ofDigitChars 10 digits 0 : Int) else Nat.ofDigitChars 10 digits 0

/-- `([eE][+-]?D+)?`, with the power of ten. -/
inductive ExponentForm : List Char → Int → Prop
  | absent : ExponentForm [] 0
  | marked {mark : Char} {sign digits : List Char} {negative : Bool}
      (isMark : mark = 'e' ∨ mark = 'E') (signed : SignForm sign negative)
      (isDigits : IsDigits digits) :
      ExponentForm (mark :: sign ++ digits) (signedPower negative digits)

/-- The numeral that a text is in the grammar. -/
inductive Spells : List Char → Numeral → Prop
  | mk {sign mantissa power whole fraction : List Char} {negative : Bool} {exponent : Int}
      (signed : SignForm sign negative) (digits : MantissaForm mantissa whole fraction)
      (scaled : ExponentForm power exponent) :
      Spells (sign ++ mantissa ++ power) ⟨negative, whole, fraction, exponent⟩

theorem exists_sign (cs : List Char) :
    ∃ sign, SignForm sign (takeSign cs).1 ∧ cs = sign ++ (takeSign cs).2 := by
  unfold takeSign
  split
  · exact ⟨['-'], .minus, rfl⟩
  · exact ⟨['+'], .plus, rfl⟩
  · exact ⟨[], .absent, rfl⟩

theorem SignForm.takeSign_append {sign : List Char} {negative : Bool} (form : SignForm sign negative)
    {rest : List Char} (unsigned : ∀ c ∈ rest.head?, c ≠ '-' ∧ c ≠ '+') :
    takeSign (sign ++ rest) = (negative, rest) := by
  cases form with
  | absent =>
      rw [List.nil_append]
      unfold takeSign
      split
      · exact absurd rfl (unsigned '-' rfl).1
      · exact absurd rfl (unsigned '+' rfl).2
      · rfl
  | plus => rfl
  | minus => rfl

theorem readNat?_eq_some_iff (cs : List Char) (n : Nat) :
    readNat? cs = some n ↔ IsDigits cs ∧ Nat.ofDigitChars 10 cs 0 = n := by
  unfold readNat?
  rw [Option.ite_none_right_eq_some, Option.some.injEq]
  constructor
  · rintro ⟨⟨nonempty, digits⟩, value⟩
    exact ⟨⟨nonempty, List.all_eq_true.mp digits⟩, value⟩
  · rintro ⟨⟨nonempty, digits⟩, value⟩
    exact ⟨⟨nonempty, List.all_eq_true.mpr digits⟩, value⟩

theorem not_sign_of_isDigit {c : Char} (digit : c.isDigit = true) : c ≠ '-' ∧ c ≠ '+' := by
  constructor <;> rintro rfl <;> cases digit

theorem IsDigits.unsigned {cs : List Char} (digits : IsDigits cs) (rest : List Char) :
    ∀ c ∈ (cs ++ rest).head?, c ≠ '-' ∧ c ≠ '+' := by
  obtain ⟨c, tail, rfl⟩ := List.exists_cons_of_ne_nil digits.nonempty
  rintro _ ⟨⟩
  exact not_sign_of_isDigit (digits.digit c List.mem_cons_self)

theorem readExponent?_cons (mark : Char) (rest : List Char) (exponent : Int) :
    readExponent? (mark :: rest) = some exponent ↔ (mark = 'e' ∨ mark = 'E') ∧
      IsDigits (takeSign rest).2 ∧ signedPower (takeSign rest).1 (takeSign rest).2 = exponent := by
  simp only [readExponent?, Option.ite_none_right_eq_some]
  apply and_congr_right
  intro isMark
  constructor
  · intro read
    cases number : readNat? (takeSign rest).2 with
    | none => simp [number] at read
    | some n =>
        obtain ⟨isDigits, rfl⟩ := (readNat?_eq_some_iff _ _).mp number
        rw [number] at read
        exact ⟨isDigits, Option.some.inj read⟩
  · rintro ⟨isDigits, rfl⟩
    rw [(readNat?_eq_some_iff _ _).mpr ⟨isDigits, rfl⟩]
    rfl

theorem readExponent?_eq_some_iff (cs : List Char) (exponent : Int) :
    readExponent? cs = some exponent ↔ ExponentForm cs exponent := by
  constructor
  · intro read
    cases cs with
    | nil =>
        obtain rfl := Option.some.inj read
        exact .absent
    | cons mark rest =>
        obtain ⟨isMark, isDigits, rfl⟩ := (readExponent?_cons _ _ _).mp read
        obtain ⟨sign, signed, layout⟩ := exists_sign rest
        have form := ExponentForm.marked isMark signed isDigits
        rwa [List.cons_append, ← layout] at form
  · intro form
    cases form with
    | absent => rfl
    | marked isMark signed isDigits =>
        have unsigned := isDigits.unsigned []
        rw [List.append_nil] at unsigned
        rw [List.cons_append, readExponent?_cons, signed.takeSign_append unsigned]
        exact ⟨isMark, isDigits, rfl⟩

theorem ExponentForm.head {cs : List Char} {exponent : Int} (form : ExponentForm cs exponent) :
    ∀ c ∈ cs.head?, c.isDigit = false ∧ c ≠ '.' := by
  cases form with
  | absent => simp
  | marked isMark signed isDigits =>
      rintro c ⟨⟩
      rcases isMark with rfl | rfl <;> decide

def takeMantissa (cs : List Char) : List Char × List Char × List Char :=
  (cs.takeWhile Char.isDigit, takeFraction (cs.dropWhile Char.isDigit))

theorem MantissaForm.takeMantissa_append {mantissa whole fraction : List Char}
    (form : MantissaForm mantissa whole fraction) {rest : List Char}
    (stop : ∀ c ∈ rest.head?, c.isDigit = false ∧ c ≠ '.') :
    takeMantissa (mantissa ++ rest) = (whole, fraction, rest) := by
  have noDigit : ∀ c ∈ rest.head?, c.isDigit = false := fun c first => (stop c first).1
  have point : ∀ c ∈ ('.' :: (fraction ++ rest)).head?, c.isDigit = false := by
    rintro c ⟨⟩
    rfl
  unfold takeMantissa
  cases form with
  | whole digits =>
      obtain ⟨taken, left⟩ := Text.span_append digits.digit noDigit
      have pointless : takeFraction rest = ([], rest) := by
        unfold takeFraction
        split
        · exact absurd rfl (stop '.' rfl).2
        · rfl
      rw [taken, left, pointless]
  | @pointed whole fraction digits more =>
      obtain ⟨taken, left⟩ := Text.span_append digits.digit point
      obtain ⟨takenToo, leftToo⟩ := Text.span_append more noDigit
      rw [List.append_assoc, List.cons_append, taken, left, takeFraction, takenToo, leftToo]
  | @fraction fraction digits =>
      obtain ⟨taken, left⟩ := Text.span_append digits.digit noDigit
      obtain ⟨nothing, all⟩ := @Text.span_append Char.isDigit [] _ (by simp) point
      rw [List.nil_append] at nothing all
      rw [List.cons_append, nothing, all, takeFraction, taken, left]

theorem exists_mantissa {cs whole fraction rest : List Char}
    (taken : takeMantissa cs = (whole, fraction, rest))
    (someDigit : ¬ (whole = [] ∧ fraction = [])) :
    ∃ mantissa, MantissaForm mantissa whole fraction ∧ cs = mantissa ++ rest := by
  have layout := cs.takeWhile_append_dropWhile (p := Char.isDigit)
  have digit : ∀ c ∈ cs.takeWhile Char.isDigit, c.isDigit = true :=
    List.all_eq_true.mp List.all_takeWhile
  simp only [takeMantissa, Prod.mk.injEq] at taken
  obtain ⟨rfl, taken⟩ := taken
  unfold takeFraction at taken
  split at taken
  · rename_i tail point
    obtain ⟨rfl, rfl⟩ := Prod.mk.inj taken
    have tailDigit : ∀ c ∈ tail.takeWhile Char.isDigit, c.isDigit = true :=
      List.all_eq_true.mp List.all_takeWhile
    rw [point] at layout
    by_cases noWhole : cs.takeWhile Char.isDigit = []
    · have form := MantissaForm.fraction ⟨fun empty => someDigit ⟨noWhole, empty⟩, tailDigit⟩
      rw [noWhole] at layout ⊢
      exact ⟨_, form, by simp [← layout]⟩
    · refine ⟨_, .pointed ⟨noWhole, digit⟩ tailDigit, ?_⟩
      rw [List.append_assoc, List.cons_append, List.takeWhile_append_dropWhile, layout]
  · obtain ⟨rfl, rfl⟩ := Prod.mk.inj taken
    exact ⟨_, .whole ⟨fun empty => someDigit ⟨empty, rfl⟩, digit⟩, layout.symm⟩

theorem MantissaForm.some_digit {mantissa whole fraction : List Char}
    (form : MantissaForm mantissa whole fraction) : ¬ (whole = [] ∧ fraction = []) := by
  cases form with
  | whole digits | pointed digits => exact fun both => digits.nonempty both.1
  | fraction digits => exact fun both => digits.nonempty both.2

theorem MantissaForm.unsigned {mantissa whole fraction : List Char}
    (form : MantissaForm mantissa whole fraction) (rest : List Char) :
    ∀ c ∈ (mantissa ++ rest).head?, c ≠ '-' ∧ c ≠ '+' := by
  cases form with
  | whole digits => exact digits.unsigned rest
  | pointed digits more =>
      rw [List.append_assoc]
      exact digits.unsigned _
  | fraction digits =>
      rintro c ⟨⟩
      decide

theorem read?_eq (cs : List Char) :
    read? cs =
      match takeMantissa (takeSign cs).2 with
      | (whole, fraction, rest) =>
          if whole = [] ∧ fraction = [] then none
          else (readExponent? rest).map fun exponent => ⟨(takeSign cs).1, whole, fraction, exponent⟩ :=
  rfl

/-- Scanning finds the one way in which a text is in the grammar. -/
theorem read?_eq_some_iff (cs : List Char) (n : Numeral) : read? cs = some n ↔ Spells cs n := by
  rw [read?_eq]
  constructor
  · intro read
    obtain ⟨sign, signed, layout⟩ := exists_sign cs
    split at read
    rename_i whole fraction rest taken
    obtain ⟨digits, read⟩ := Option.ite_none_left_eq_some.mp read
    obtain ⟨exponent, scaled, rfl⟩ := Option.map_eq_some_iff.mp read
    obtain ⟨mantissa, form, unsigned⟩ := exists_mantissa taken digits
    have spells := Spells.mk signed form ((readExponent?_eq_some_iff _ _).mp scaled)
    rwa [List.append_assoc, ← unsigned, ← layout] at spells
  · rintro ⟨signed, form, scaled⟩
    rw [List.append_assoc, signed.takeSign_append (form.unsigned _),
      form.takeMantissa_append scaled.head]
    simp only [if_neg form.some_digit, (readExponent?_eq_some_iff _ _).mpr scaled, Option.map_some]

theorem IsDigits.exists_digit {cs : List Char} (digits : IsDigits cs) :
    ∃ c ∈ cs, c.isDigit = true := by
  obtain ⟨c, member⟩ := List.exists_mem_of_ne_nil cs digits.nonempty
  exact ⟨c, member, digits.digit c member⟩

theorem Spells.exists_digit {cs : List Char} {n : Numeral} (spells : Spells cs n) :
    ∃ c ∈ cs, c.isDigit = true := by
  obtain ⟨-, digits, -⟩ := spells
  cases digits with
  | whole digits | pointed digits | fraction digits =>
      obtain ⟨c, member, digit⟩ := digits.exists_digit
      exact ⟨c, by simp [member], digit⟩

theorem spells_digits (negative : Bool) {whole fraction : List Char} (digits : IsDigits whole)
    (more : ∀ c ∈ fraction, c.isDigit = true) :
    Spells (Binary64.signText negative ++ whole ++ if fraction = [] then [] else '.' :: fraction)
      ⟨negative, whole, fraction, 0⟩ := by
  have signed : SignForm (Binary64.signText negative) negative := by
    cases negative
    · exact .absent
    · exact .minus
  split
  · rename_i empty
    subst empty
    exact .mk signed (.whole digits) .absent
  · have spells := Spells.mk signed (.pointed digits more) .absent
    rwa [List.append_nil, ← List.append_assoc] at spells

end Numeral

end Placeholders
