import Placeholders.Proofs.Literals
import Placeholders.Proofs.ShortestDigits

set_option autoImplicit false

namespace Placeholders

namespace Numeral

theorem isBlank_eq_false {c : Char} (char : NumeralChar c) : Text.isBlank c = false := by
  rcases char with reserved | rfl
  · simp only [NumberFormat.isReserved, Bool.or_eq_true, beq_iff_eq] at reserved
    rcases reserved with (((digit | rfl) | rfl) | rfl) | rfl
    · exact Text.isBlank_eq_false_of_isDigit digit
    all_goals rfl
  · rfl

theorem trim_eq {cs : List Char} (chars : ∀ c ∈ cs, NumeralChar c) : Text.trim cs = cs := by
  apply Text.Trimmed.trim_eq
  constructor
  · exact fun c first => isBlank_eq_false (chars c (List.mem_of_head? first))
  · exact fun c last => isBlank_eq_false (chars c (List.mem_of_getLast? last))

end Numeral

theorem Binary64.numeralChar_display {x : Binary64} (finite : x.IsFinite) :
    ∀ c ∈ x.display, Numeral.NumeralChar c := by
  obtain ⟨n, read, -⟩ := Option.map_eq_some_iff.mp (read?_display finite)
  exact ((Numeral.read?_eq_some_iff _ _).mp read).numeralChar

namespace Value

/-- A value that a literal can stand for: any but the infinities and `nan`. -/
def Expressible : Value → Prop
  | number x => x.IsFinite
  | text _ | boolean _ => True

/-- The literal of a value: a text between single quotes, any other value in plain notation. -/
def literal : Value → String
  | text s => "'" ++ s ++ "'"
  | value => value.display

theorem toList_literal_number (x : Binary64) : (number x).literal.toList = x.display :=
  String.toList_ofList

end Value

namespace ValueType

/-- Texts in quotes and words have a character that no numeral has. -/
theorem number_readLiteral?_eq_none (format : NumberFormat) {text : String} (c : Char)
    (member : c ∈ text.toList) (solid : Text.isBlank c = false)
    (foreign : ¬ Numeral.NumeralChar c) : (number format).readLiteral? text = none := by
  rw [Option.eq_none_iff_forall_ne_some]
  intro value read
  exact not_mem_of_readLiteral?_number read solid foreign member

theorem number_readLiteral?_literal (format : NumberFormat) {value : Value}
    (expressible : value.Expressible) :
    (number format).readLiteral? value.literal =
      if Kind.number = value.kind then some value else none := by
  have foreign {c : Char} (other : NumberFormat.isReserved c = false) (noPoint : c ≠ '.') :
      ¬ Numeral.NumeralChar c := by
    simp [Numeral.NumeralChar, other, noPoint]
  cases value with
  | number x =>
      have plain := Numeral.trim_eq (x.numeralChar_display expressible)
      simp only [number, Value.toList_literal_number, plain, Binary64.read?_display expressible]
      rfl
  | text s =>
      exact number_readLiteral?_eq_none format '\'' (by simp [Value.literal]) (by decide)
        (foreign (by decide) (by decide))
  | boolean b =>
      cases b
      · exact number_readLiteral?_eq_none format 'f' (by simp [Value.literal, Value.display])
          (by decide) (foreign (by decide) (by decide))
      · exact number_readLiteral?_eq_none format 't' (by simp [Value.literal, Value.display])
          (by decide) (foreign (by decide) (by decide))

theorem string_readLiteral?_literal {value : Value} (expressible : value.Expressible) :
    string.readLiteral? value.literal = if Kind.text = value.kind then some value else none := by
  cases value with
  | number x =>
      rw [if_neg (by simp [Value.kind]), Option.eq_none_iff_forall_ne_some]
      intro value read
      obtain ⟨cs, quoted⟩ := head_of_readLiteral?_string read
      rw [Value.toList_literal_number] at quoted
      have char := x.numeralChar_display expressible '\'' (quoted ▸ List.mem_cons_self)
      simp [Numeral.NumeralChar, NumberFormat.isReserved] at char
  | text s =>
      have quoted : (Value.text s).literal.toList = '\'' :: (s.toList ++ ['\'']) := by
        simp [Value.literal]
      simp [string, quoted, unquote?, Value.kind]
  | boolean b => cases b <;> rfl

theorem boolean_readLiteral?_literal {value : Value} (expressible : value.Expressible) :
    boolean.readLiteral? value.literal =
      if Kind.boolean = value.kind then some value else none := by
  cases value with
  | number x =>
      rw [if_neg (by simp [Value.kind]), Option.eq_none_iff_forall_ne_some]
      intro value read
      have chars := x.numeralChar_display expressible
      rcases eq_word_of_readLiteral?_boolean read with word | word
      all_goals
        have spelled := congrArg String.toList word
        rw [Value.toList_literal_number] at spelled
        rw [spelled] at chars
        simp [Numeral.NumeralChar, NumberFormat.isReserved] at chars
  | text s =>
      rw [if_neg (by simp [Value.kind]), Option.eq_none_iff_forall_ne_some]
      intro value read
      rcases eq_word_of_readLiteral?_boolean read with word | word
      all_goals
        have spelled := congrArg String.toList word
        simp [Value.literal] at spelled
  | boolean b => cases b <;> rfl

/-- Of the built-in types, the one of a value's kind reads its literal, and no other one does. -/
theorem BuiltIn.readLiteral?_literal {type : ValueType} (builtIn : type.BuiltIn) {value : Value}
    (expressible : value.Expressible) :
    type.readLiteral? value.literal = if type.kind = value.kind then some value else none := by
  cases builtIn with
  | number format => exact number_readLiteral?_literal format expressible
  | string => exact string_readLiteral?_literal expressible
  | boolean => exact boolean_readLiteral?_literal expressible

/-- No built-in type reads the words for the infinities and for `nan`. -/
theorem BuiltIn.readLiteral?_special {type : ValueType} (builtIn : type.BuiltIn) {x : Binary64}
    (special : ¬ x.IsFinite) : type.readLiteral? (Value.number x).display = none := by
  cases builtIn with
  | number format =>
      apply Option.map_eq_none_iff.mpr
      apply Binary64.read?_eq_none
      intro c member
      have inText := Text.mem_of_mem_trim member
      rw [Value.display, String.toList_ofList] at inText
      exact x.isDigit_display_eq_false special c inText
  | string | boolean =>
      cases x with
      | finite => exact absurd trivial special
      | infinite negative => cases negative <;> rfl
      | nan => rfl

end ValueType

namespace Engine

variable {C : Type} {e : Engine C}

theorem readLiteral?_literal (builtIn : ∀ type ∈ e.types.types, type.BuiltIn)
    (complete : ∀ kind, ∃ type ∈ e.types.types, type.kind = kind) {value : Value}
    (expressible : value.Expressible) : e.types.readLiteral? value.literal = some value := by
  cases read : e.types.readLiteral? value.literal with
  | none =>
      obtain ⟨type, member, kind⟩ := complete value.kind
      have unread := List.findSome?_eq_none_iff.mp read type member
      rw [(builtIn type member).readLiteral?_literal expressible, if_pos kind] at unread
      cases unread
  | some other =>
      obtain ⟨type, member, read⟩ := List.exists_of_findSome?_eq_some read
      rw [(builtIn type member).readLiteral?_literal expressible,
        Option.ite_none_right_eq_some] at read
      exact congrArg some (Option.some.inj read.2).symm

/-- Where no placeholder has the name, a text that is at most a bare name is a literal. -/
theorem resolve_eq_resolveLiteral {text : String} (absent : e.find? text = none)
    (bare : ∀ expression, Expression.parse? text = some expression →
      expression = ⟨none, text, []⟩) : e.resolve text = e.resolveLiteral text := by
  cases parsed : Expression.parse? text with
  | none => rw [resolve, parsed]
  | some expression =>
      rw [bare expression parsed] at parsed
      rw [e.resolve_of_parse? parsed, e.resolveExpression_uncast rfl, absent]
      rfl

/-- With the built-in types, in any order, each text, truth value and finite number resolves from its
literal, which for a number is the shortest numeral that reads as it. The plain text of another
number is no literal. -/
theorem resolve_value_literal (builtIn : ∀ type ∈ e.types.types, type.BuiltIn)
    (complete : ∀ kind, ∃ type ∈ e.types.types, type.kind = kind) :
    (∀ value : Value, value.Expressible →
      e.resolveLiteral value.literal = .ok (.constant value) ∧
        (e.find? value.literal = none → e.resolve value.literal = .ok (.constant value))) ∧
    (∀ x : Binary64, x.IsFinite →
      ∃ n count, Numeral.Spells (Value.number x).literal.toList n ∧ x.IsShortest n count) ∧
    ∀ x : Binary64, ¬ x.IsFinite →
      e.resolveLiteral (Value.number x).display =
        .error (.unparsableLiteral (Value.number x).display) := by
  refine ⟨?_, ?_, ?_⟩
  · intro value expressible
    have literal : e.resolveLiteral value.literal = .ok (.constant value) :=
      (Registry.resolveLiteral_eq_ok _ _ _).mpr
        ⟨value, readLiteral?_literal builtIn complete expressible, rfl⟩
    refine ⟨literal, fun absent => ?_⟩
    have bare (expression : Expression)
        (parsed : Expression.parse? value.literal = some expression) :
        expression = ⟨none, value.literal, []⟩ := parse?_of_resolveLiteral builtIn literal parsed
    rw [resolve_eq_resolveLiteral absent bare, literal]
  · intro x finite
    rw [Value.toList_literal_number]
    exact Binary64.isShortest_display finite
  · intro x special
    have unread : e.types.readLiteral? (Value.number x).display = none :=
      List.findSome?_eq_none_iff.mpr fun type member =>
        (builtIn type member).readLiteral?_special special
    rw [resolveLiteral, Registry.resolveLiteral, unread]

/-- A negative zero, the least positive number, which has one digit, a text that looks like a
placeholder, and an infinity, with the numbers registered last. -/
theorem resolve_value_literal_zero :
    let e : Engine Bool := Engine.empty.afterAll
      [.type .boolean, .type .string, .type (.number .standard), .supplier .boolean "open" id]
    let least : Binary64 := .finite false 1 (by decide +kernel)
    e.resolve "-0" = .ok (.constant (.number (.zero true))) ∧
      e.resolveLiteral (Value.number least).literal = .ok (.constant (.number least)) ∧
      (∃ n count, Numeral.Spells (Value.number least).literal.toList n ∧
        least.IsShortest n count ∧ count ≤ 1) ∧
      e.resolve "'[open:1]''" = .ok (.constant (.text "[open:1]'")) ∧
      e.resolveLiteral "-inf" = .error (.unparsableLiteral "-inf") := by
  have look (format : NumberFormat) :
      let e : Engine Bool := Engine.empty.afterAll
        [.type .boolean, .type .string, .type (.number format), .supplier .boolean "open" id]
      e.types.types = [.boolean, .string, .number format] ∧ e.find? "-0" = none ∧
        e.find? "'[open:1]''" = none := by
    refine ⟨?_, ?_, ?_⟩ <;> cbv
  intro e least
  obtain ⟨types, zero, quoted⟩ := look .standard
  have builtIn : ∀ type ∈ e.types.types, type.BuiltIn := by
    rw [types]
    simp only [List.forall_mem_cons]
    exact ⟨.boolean, .string, .number _, by simp⟩
  have complete : ∀ kind, ∃ type ∈ e.types.types, type.kind = kind := by
    rw [types]
    intro kind
    cases kind with
    | number => exact ⟨.number .standard, by simp, rfl⟩
    | text => exact ⟨.string, by simp, rfl⟩
    | boolean => exact ⟨.boolean, by simp, rfl⟩
  obtain ⟨literal, shortest, special⟩ := resolve_value_literal builtIn complete
  have zeroText : (Value.number (.zero true)).literal = "-0" := by decide +kernel
  have infinityText : (Value.number (.infinite true)).display = "-inf" := by decide +kernel
  have zeros := (literal (.number (.zero true)) trivial).2
  rw [zeroText] at zeros
  have infinity := special (.infinite true) id
  rw [infinityText] at infinity
  have digit : Decimal.Within 1 5 := ⟨5, 0, rfl, by decide⟩
  have five : Binary64.ofNumeral ⟨false, ['5'], [], -324⟩ = least := by decide +kernel
  obtain ⟨n, count, spells, isShortest⟩ := shortest least trivial
  exact ⟨zeros zero, (literal (.number least) trivial).1,
    ⟨n, count, spells, isShortest, isShortest.fewest _ 1 five digit⟩,
    (literal (.text "[open:1]'") trivial).2 quoted, infinity⟩

end Engine

end Placeholders
