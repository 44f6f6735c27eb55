import Placeholders.Proofs.Casting

set_option autoImplicit false

namespace Placeholders

namespace Numeral

/-- The characters that numerals are written with. -/
def NumeralChar (c : Char) : Prop :=
  NumberFormat.isReserved c = true ∨ c = '.'

theorem numeralChar_of_digits {digits : List Char} (digit : ∀ c ∈ digits, c.isDigit = true) :
    ∀ c ∈ digits, NumeralChar c :=
  fun c member => Or.inl (NumberFormat.isReserved_of_digits digit c member)

theorem SignForm.numeralChar {sign : List Char} {negative : Bool} (form : SignForm sign negative) :
    ∀ c ∈ sign, NumeralChar c := by
  cases form with
  | absent => simp
  | plus | minus => exact List.forall_mem_singleton.mpr (Or.inl rfl)

theorem MantissaForm.numeralChar {mantissa whole fraction : List Char}
    (form : MantissaForm mantissa whole fraction) : ∀ c ∈ mantissa, NumeralChar c := by
  have point : NumeralChar '.' := Or.inr rfl
  cases form with
  | whole digits => exact numeralChar_of_digits digits.digit
  | pointed digits more =>
      exact List.forall_mem_append.mpr ⟨numeralChar_of_digits digits.digit,
        List.forall_mem_cons.mpr ⟨point, numeralChar_of_digits more⟩⟩
  | fraction digits => exact List.forall_mem_cons.mpr ⟨point, numeralChar_of_digits digits.digit⟩

theorem ExponentForm.numeralChar {power : List Char} {exponent : Int}
    (form : ExponentForm power exponent) : ∀ c ∈ power, NumeralChar c := by
  cases form with
  | absent => simp
  | marked isMark signed isDigits =>
      refine List.forall_mem_cons.mpr ⟨?_, List.forall_mem_append.mpr
        ⟨signed.numeralChar, numeralChar_of_digits isDigits.digit⟩⟩
      rcases isMark with rfl | rfl <;> exact Or.inl rfl

theorem Spells.numeralChar {cs : List Char} {n : Numeral} (spells : Spells cs n) :
    ∀ c ∈ cs, NumeralChar c := by
  obtain ⟨signed, digits, scaled⟩ := spells
  exact List.forall_mem_append.mpr
    ⟨List.forall_mem_append.mpr ⟨signed.numeralChar, digits.numeralChar⟩, scaled.numeralChar⟩

end Numeral

namespace Expression

/-- A text without parentheses and colons is read whole or not at all. -/
theorem parse?_plain {text : String} (noParenthesis : '(' ∉ text.toList)
    (noColon : ':' ∉ text.toList) {expression : Expression}
    (parsed : parse? text = some expression) : expression = ⟨none, text, []⟩ := by
  rcases (parse?_eq_some_iff _ _).mp parsed with
    ⟨cast, name, tail, arguments, form, -, -⟩ | ⟨-, name, tail, arguments, form, lists, rfl⟩
  · rw [form.layout] at noParenthesis
    simp at noParenthesis
  · have layout := form.layout
    cases form.tail with
    | absent =>
        cases lists
        rw [List.append_nil] at layout
        rw [← layout, String.ofList_toList]
    | clause =>
        rw [layout] at noColon
        simp at noColon

theorem nameChar_of_parse? {text : String} {expression : Expression}
    (parsed : parse? text = some expression) : ∃ c cs, text.toList = c :: cs ∧ NameChar c := by
  rcases (parse?_eq_some_iff _ _).mp parsed with
    ⟨cast, name, tail, arguments, form, -, -⟩ | ⟨-, name, tail, arguments, form, -, -⟩
  · exact ⟨_, _, form.layout, Or.inr (Or.inl rfl)⟩
  · obtain ⟨nonempty, chars⟩ := form.name
    obtain ⟨c, cs, rfl⟩ := List.exists_cons_of_ne_nil nonempty
    exact ⟨c, cs ++ tail, form.layout, chars c (by simp)⟩

end Expression

namespace ValueType

/-- The types that come with the library, the one of numbers in any format. -/
inductive BuiltIn : ValueType → Prop
  | number (format : NumberFormat) : BuiltIn (.number format)
  | string : BuiltIn .string
  | boolean : BuiltIn .boolean

theorem not_mem_of_readLiteral?_number {format : NumberFormat} {text : String} {value : Value}
    (read : (number format).readLiteral? text = some value) {c : Char}
    (solid : Text.isBlank c = false) (foreign : ¬ Numeral.NumeralChar c) : c ∉ text.toList := by
  obtain ⟨x, read, -⟩ := Option.map_eq_some_iff.mp read
  obtain ⟨n, read, -⟩ := Option.map_eq_some_iff.mp read
  have spells := (Numeral.read?_eq_some_iff _ _).mp read
  obtain ⟨before, after, split, blankBefore, blankAfter⟩ := Text.exists_trim text.toList
  have blank (other : Text.isBlank c = true) : False := by
    rw [solid] at other
    cases other
  intro member
  rw [split, List.mem_append, List.mem_append] at member
  rcases member with (early | inside) | late
  · exact blank (blankBefore c early)
  · exact foreign (spells.numeralChar c inside)
  · exact blank (blankAfter c late)

theorem head_of_readLiteral?_string {text : String} {value : Value}
    (read : string.readLiteral? text = some value) : ∃ cs, text.toList = '\'' :: cs := by
  obtain ⟨inside, unquoted, -⟩ := Option.map_eq_some_iff.mp read
  unfold unquote? at unquoted
  split at unquoted
  · rename_i cs quoted
    exact ⟨cs, quoted⟩
  · cases unquoted

theorem eq_word_of_readLiteral?_boolean {text : String} {value : Value}
    (read : boolean.readLiteral? text = some value) : text = "true" ∨ text = "false" := by
  change readBoolean? text = some value at read
  unfold readBoolean? at read
  split at read
  · exact Or.inl rfl
  · exact Or.inr rfl
  · cases read

/-- The grammar reads a literal of a built-in type as a bare name, if it reads it. -/
theorem BuiltIn.parse?_literal {type : ValueType} (builtIn : type.BuiltIn) {text : String}
    {value : Value} (read : type.readLiteral? text = some value) {expression : Expression}
    (parsed : Expression.parse? text = some expression) : expression = ⟨none, text, []⟩ := by
  cases builtIn with
  | number format =>
      have noParenthesis : '(' ∉ text.toList := not_mem_of_readLiteral?_number read (by decide)
        (by simp [Numeral.NumeralChar, NumberFormat.isReserved])
      have noColon : ':' ∉ text.toList := not_mem_of_readLiteral?_number read (by decide)
        (by simp [Numeral.NumeralChar, NumberFormat.isReserved])
      exact Expression.parse?_plain noParenthesis noColon parsed
  | string =>
      obtain ⟨cs, quoted⟩ := head_of_readLiteral?_string read
      obtain ⟨c, _, first, nameChar⟩ := Expression.nameChar_of_parse? parsed
      obtain ⟨rfl, -⟩ := List.cons.inj (quoted.symm.trans first)
      have notName : Expression.isNameChar '\'' = false := by decide
      rw [(Expression.isNameChar_iff _).mpr nameChar] at notName
      cases notName
  | boolean =>
      rcases eq_word_of_readLiteral?_boolean read with rfl | rfl
      · exact Expression.parse?_plain (by simp) (by simp) parsed
      · exact Expression.parse?_plain (by simp) (by simp) parsed

end ValueType

namespace Engine

variable {C : Type}

theorem parse?_of_resolveLiteral {e : Engine C} (builtIn : ∀ type ∈ e.types.types, type.BuiltIn)
    {text : String} {p : Placeholder C} (literal : e.resolveLiteral text = .ok p)
    {expression : Expression} (parsed : Expression.parse? text = some expression) :
    expression = ⟨none, text, []⟩ := by
  obtain ⟨value, read, -⟩ := (e.types.resolveLiteral_eq_ok text p).mp literal
  obtain ⟨type, member, read⟩ := List.exists_of_findSome?_eq_some read
  exact (builtIn type member).parse?_literal read parsed

/-- With the built-in types, a literal resolves to its value. The one exception is a literal in the
grammar of expressions that is the name of a placeholder: it is a bare name, and the placeholder is
what it stands for. -/
theorem resolve_literal_or_name {e : Engine C} (builtIn : ∀ type ∈ e.types.types, type.BuiltIn)
    {text : String} {value : Value} (literal : e.resolveLiteral text = .ok (.constant value)) :
    (Expression.parse? text = none ∨ e.find? text = none →
      e.resolve text = .ok (.constant value)) ∧
    ∀ owner builder, Expression.parse? text ≠ none → e.find? text = some (owner, builder) →
      Expression.parse? text = some ⟨none, text, []⟩ ∧
        e.resolve text = builder.instantiate owner text [] := by
  cases parsed : Expression.parse? text with
  | none =>
      refine ⟨fun _ => ?_, fun _ _ read => absurd rfl read⟩
      rw [resolve, parsed]
      exact literal
  | some expression =>
      obtain rfl := parse?_of_resolveLiteral builtIn literal parsed
      have resolved := (e.resolve_of_parse? parsed).trans (e.resolveExpression_uncast rfl)
      constructor
      · rintro (unread | absent)
        · cases unread
        · rw [resolved, absent]
          exact literal
      · intro owner builder _ found
        exact ⟨rfl, by rw [resolved, found]⟩

/-- The engines of a format that reads back keep its types, whatever is registered. -/
theorem builtIn_of_ofFormat {format : NumberFormat} {start : Engine C}
    (valid : ofFormat format = .ok start) (history : List (Registration C)) :
    ∀ type ∈ (start.afterAll history).types.types, type.BuiltIn := by
  intro type member
  rw [types_of_ofFormat valid, Registry.mem_builtin] at member
  rcases member with rfl | rfl | rfl
  · exact .number format
  · exact .string
  · exact .boolean

theorem resolveLiteral_number {format : NumberFormat} {start : Engine C}
    (valid : ofFormat format = .ok start) (history : List (Registration C)) {text : String}
    {x : Binary64} (read : Binary64.read? (Text.trim text.toList) = some x) :
    (start.afterAll history).resolveLiteral text = .ok (.constant (.number x)) := by
  apply (Registry.resolveLiteral_eq_ok _ _ _).mpr
  refine ⟨.number x, ?_, rfl⟩
  have first : (ValueType.number format).readLiteral? text = some (.number x) := by
    simp only [ValueType.number, read, Option.map_some]
  have order : (Registry.builtin format).types = [.number format, .string, .boolean] := rfl
  rw [types_of_ofFormat valid, Registry.readLiteral?, order, List.findSome?_cons, first]

/-- A number that is also a name, one that no expression can name, and one between blanks. -/
theorem resolve_literal_or_name_digits :
    let e : Engine Binary64 := (builtin .standard).afterAll
      [.supplier .text "7" fun _ => "seven", .supplier .number "1e+5" id]
    e.resolve "7" = .ok (.supply .text fun _ => "seven") ∧
      e.resolve "1e+5" = e.resolveLiteral "1e+5" ∧ e.resolve " 7 " = e.resolveLiteral " 7 " := by
  have named (format : NumberFormat) : ((builtin format : Engine Binary64).afterAll
      [.supplier .text "7" fun _ => "seven", .supplier .number "1e+5" id]).find? "7" =
        some (.string, .ofPlaceholder (.supply .text fun _ => "seven")) := by cbv
  have valid : ofFormat .standard = .ok (builtin .standard : Engine Binary64) := rfl
  intro e
  have builtIn := builtIn_of_ofFormat valid
    [.supplier .text "7" fun _ => "seven", .supplier .number "1e+5" id]
  have value (text : String) (x : Binary64)
      (read : Binary64.read? (Text.trim text.toList) = some x) :
      e.resolveLiteral text = .ok (.constant (.number x)) := resolveLiteral_number valid _ read
  have seven := value "7" (.nearest false (7 * unitsPerOne) 1) (by decide +kernel)
  have large := value "1e+5" (.nearest false (100000 * unitsPerOne) 1) (by decide +kernel)
  have blank := value " 7 " (.nearest false (7 * unitsPerOne) 1) (by decide +kernel)
  refine ⟨?_, ?_, ?_⟩
  · exact ((resolve_literal_or_name builtIn seven).2 _ _ (by decide +kernel) (named .standard)).2
  · rw [large]
    exact (resolve_literal_or_name builtIn large).1 (Or.inl (by decide +kernel))
  · rw [blank]
    exact (resolve_literal_or_name builtIn blank).1 (Or.inl (by decide +kernel))

/-- A placeholder can have a name outside the grammar. No expression finds it, so not every literal
that is the name of a placeholder resolves to the placeholder. -/
theorem registered_literal_unread :
    ¬ ∀ e : Engine Binary64, (∀ type ∈ e.types.types, type.BuiltIn) → ∀ text value,
      e.resolveLiteral text = .ok (.constant value) →
        (e.find? text = none → e.resolve text = .ok (.constant value)) ∧
        ∀ owner builder, e.find? text = some (owner, builder) →
          Expression.parse? text = some ⟨none, text, []⟩ ∧
            e.resolve text = builder.instantiate owner text [] := by
  have found (format : NumberFormat) : ((builtin format : Engine Binary64).afterAll
      [.supplier .number "-1" id]).find? "-1" =
        some (.number format, .ofPlaceholder (.supply .number id)) := by cbv
  have valid : ofFormat .standard = .ok (builtin .standard : Engine Binary64) := rfl
  have literal := resolveLiteral_number valid [.supplier .number "-1" id]
    (show Binary64.read? (Text.trim "-1".toList) = some (.nearest true unitsPerOne 1) by
      decide +kernel)
  have unread : Expression.parse? "-1" = none := by decide +kernel
  intro claim
  obtain ⟨-, named⟩ := claim _ (builtIn_of_ofFormat valid _) "-1" _ literal
  rw [unread] at named
  cases (named _ _ (found .standard)).1

end Engine

end Placeholders
