import Placeholders.Proofs.Grammar
import Placeholders.Proofs.KindSoundness
import Placeholders.Proofs.NumberRoundTrip

set_option autoImplicit false

namespace Placeholders

namespace Expression

theorem parse?_cast {text castName : String} {expression : Expression}
    (bare : parse? text = some expression) (uncast : expression.cast = none)
    (nonempty : castName ≠ "") (chars : ∀ c ∈ castName.toList, isCastChar c) :
    parse? ("(" ++ castName ++ ")" ++ text) = some { expression with cast := some castName } := by
  rcases (parse?_eq_some_iff _ _).mp bare with
    ⟨_, _, _, _, -, -, rfl⟩ | ⟨-, name, tail, arguments, form, lists, rfl⟩
  · cases uncast
  · have word : Word CastChar castName.toList :=
      ⟨by simpa using nonempty, fun c member => (isCastChar_iff c).mp (chars c member)⟩
    have layout : ("(" ++ castName ++ ")" ++ text).toList =
        '(' :: castName.toList ++ ')' :: (name ++ tail) := by
      simp [form.layout]
    apply (parse?_eq_some_iff _ _).mpr
    exact Or.inl ⟨castName.toList, name, tail, arguments, ⟨layout, word, form.name, form.tail⟩,
      lists, by rw [String.ofList_toList]⟩

end Expression

namespace ValueType

theorem number_read?_display_boolean (format : NumberFormat) (b : Bool) :
    (number format).read? (Value.boolean b).display = none := by
  simp only [number, Option.map_eq_none_iff]
  apply format.read?_eq_none
  cases b <;> simp [Value.display]

theorem boolean_read?_display_boolean (b : Bool) :
    boolean.read? (Value.boolean b).display = some (.boolean b) := by
  cases b <;> rfl

/-- A written number has a digit or is one of the words for the other numbers. -/
theorem write_ne_word (format : NumberFormat) (x : Binary64) {word : String}
    (plain : ∀ c ∈ word.toList, c.isDigit = false)
    (other : ∀ y : Binary64, y.specialText ≠ word.toList) :
    String.ofList (format.write x) ≠ word := by
  rintro rfl
  rw [String.toList_ofList] at plain other
  by_cases finite : x.IsFinite
  · obtain ⟨c, member, digit⟩ := format.exists_isDigit_write finite
    rw [plain c member] at digit
    cases digit
  · cases x with
    | finite => exact finite trivial
    | infinite negative => exact other (.infinite negative) rfl
    | nan => exact other .nan rfl

theorem specialText_ne (x : Binary64) :
    x.specialText ≠ "true".toList ∧ x.specialText ≠ "false".toList := by
  cases x with
  | finite negative | infinite negative =>
      cases negative <;> simp [Binary64.specialText, Binary64.signText]
  | nan => simp [Binary64.specialText]

theorem boolean_read?_write (format : NumberFormat) (x : Binary64) :
    boolean.read? (String.ofList (format.write x)) = none := by
  change readBoolean? _ = none
  unfold readBoolean?
  split
  · rename_i equal
    exact absurd equal (write_ne_word format x (by simp) fun y => (specialText_ne y).1)
  · rename_i equal
    exact absurd equal (write_ne_word format x (by simp) fun y => (specialText_ne y).2)
  · rfl

end ValueType

namespace Registry

theorem mem_builtin (format : NumberFormat) (type : ValueType) :
    type ∈ (builtin format).types ↔
      type = .number format ∨ type = .string ∨ type = .boolean := by
  change type ∈ [ValueType.number format, .string, .boolean] ↔ _
  simp

theorem findKind?_builtin (format : NumberFormat) (kind : Kind) :
    (builtin format).findKind? kind = some (match kind with
      | .number => .number format
      | .text => .string
      | .boolean => .boolean) := by
  rw [(consistent_builtin format).findKind?_eq_some_iff, mem_builtin]
  cases kind <;> simp [ValueType.number, ValueType.string, ValueType.boolean, ValueType.ofReader]

theorem isCastChar_of_builtin {format : NumberFormat} {type : ValueType}
    (member : type ∈ (builtin format).types) :
    type.castName ≠ "" ∧ ∀ c ∈ type.castName.toList, Expression.isCastChar c := by
  rcases (mem_builtin format type).mp member with rfl | rfl | rfl
  · simp [ValueType.number, Expression.isCastChar]
  · simp [ValueType.string, Expression.isCastChar]
  · simp [ValueType.boolean, ValueType.ofReader, Expression.isCastChar]

theorem write_builtin (format : NumberFormat) (value : Value) :
    (builtin format).write value = match value with
      | .number x => String.ofList (format.write x)
      | other => other.display := by
  unfold write
  rw [findKind?_builtin]
  cases value <;> rfl

/-- What any built-in type reads in a written number or truth value is written in the same way. -/
theorem write_of_read? {format : NumberFormat} (clear : format.Unambiguous) {type : ValueType}
    (member : type ∈ (builtin format).types) {value result : Value} (plain : value.kind ≠ .text)
    (read : type.read? ((builtin format).write value) = some result) :
    (builtin format).write result = (builtin format).write value := by
  rcases (mem_builtin format type).mp member with rfl | rfl | rfl
  · cases value with
    | text s => exact absurd rfl plain
    | boolean b =>
        rw [write_builtin, ValueType.number_read?_display_boolean] at read
        cases read
    | number n =>
        rw [write_builtin] at read ⊢
        simp only [ValueType.number, String.toList_ofList] at read
        obtain ⟨x, readBack, rfl⟩ := Option.map_eq_some_iff.mp read
        by_cases finite : n.IsFinite
        · obtain ⟨y, _, again, -, -, same⟩ := NumberFormat.read?_write_finite clear finite
          rw [again, Option.some.injEq] at readBack
          subst readBack
          rw [write_builtin]
          exact congrArg String.ofList same
        · rw [format.read?_write_of_not_isFinite finite] at readBack
          cases readBack
  · have text (s : String) : (builtin format).write (.text s) = s := write_builtin format (.text s)
    obtain rfl := Option.some.inj read
    exact text _
  · cases value with
    | text s => exact absurd rfl plain
    | boolean b =>
        rw [write_builtin, ValueType.boolean_read?_display_boolean] at read
        rw [Option.some.inj read]
    | number n =>
        rw [write_builtin, ValueType.boolean_read?_write] at read
        cases read

theorem Consistent.write_eq {r : Registry} (consistent : r.Consistent) {type : ValueType}
    (member : type ∈ r.types) {value : Value} (kind : value.kind = type.kind) :
    r.write value = type.write value := by
  unfold write
  rw [kind, (consistent.findKind?_eq_some_iff _ _).mpr ⟨member, rfl⟩]

end Registry

namespace Engine

variable {C : Type}

theorem types_register {e : Engine C} (full : ∀ kind : Kind, e.types.kindPlaces[kind]? ≠ none)
    (call : Registration C) : (e.register call).state.types = e.types := by
  rcases e.register_cases call with
    ⟨type, -, fresh, -, -⟩ | ⟨_, _, _, _, -, -, step⟩ | ⟨_, step⟩
  · exact absurd fresh (full type.kind)
  · rw [step]
  · rw [step]

theorem types_afterAll {e : Engine C} (full : ∀ kind : Kind, e.types.kindPlaces[kind]? ≠ none)
    (history : List (Registration C)) : (e.afterAll history).types = e.types := by
  induction history generalizing e with
  | nil => rfl
  | cons call history ih =>
      have same := types_register full call
      exact (ih (same ▸ full)).trans same

theorem types_of_ofFormat {format : NumberFormat} {start : Engine C}
    (valid : ofFormat format = .ok start) (history : List (Registration C)) :
    (start.afterAll history).types = .builtin format := by
  obtain ⟨-, rfl⟩ := eq_builtin_of_ofFormat valid
  apply types_afterAll
  intro kind free
  have found := Registry.findKind?_builtin format kind
  rw [Registry.findKind?, Registry.position?] at found
  change (Registry.builtin format).kindPlaces[kind]? = none at free
  rw [free] at found
  cases found

/-- The value of an expression in a context, if it resolves and has one. -/
def valueOf (e : Engine C) (text : String) (context : C) :
    Except ResolveError (Except EvalError Value) :=
  (e.resolve text).map fun p => p.evaluate context

theorem valueOf_eq_ok (e : Engine C) (text : String) (context : C)
    (result : Except EvalError Value) :
    e.valueOf text context = .ok result ↔
      ∃ p, e.resolve text = .ok p ∧ p.evaluate context = result := by
  unfold valueOf
  cases e.resolve text <;> simp [Except.map]

theorem instantiate_of_resolve {e : Engine C} {text : String} {expression : Expression}
    (bare : Expression.parse? text = some expression) (uncast : expression.cast = none)
    {owner : ValueType} {builder : Builder C}
    (found : e.find? expression.name = some (owner, builder)) {p : Placeholder C}
    (resolved : e.resolve text = .ok p) :
    builder.instantiate owner expression.name expression.arguments = .ok p := by
  rw [e.resolve_of_parse? bare, e.resolveExpression_uncast uncast, found] at resolved
  exact resolved

theorem resolve_cast {e : Engine C} (consistent : e.types.Consistent) {text : String}
    {expression : Expression} (bare : Expression.parse? text = some expression)
    (uncast : expression.cast = none) {owner : ValueType} {builder : Builder C}
    (found : e.find? expression.name = some (owner, builder)) {p : Placeholder C}
    (built : builder.instantiate owner expression.name expression.arguments = .ok p)
    {target : ValueType} (member : target ∈ e.types.types) (nonempty : target.castName ≠ "")
    (chars : ∀ c ∈ target.castName.toList, Expression.isCastChar c) :
    e.resolve ("(" ++ target.castName ++ ")" ++ text) = .ok (p.cast owner target) := by
  rw [e.resolve_of_parse? (Expression.parse?_cast bare uncast nonempty chars)]
  apply (e.resolveExpression_eq_ok _ _).mpr
  refine ⟨some target, ?_, Or.inr ⟨owner, builder, p, found, built, rfl⟩⟩
  apply (e.types.resolveCast_eq_ok _ _).mpr
  exact Or.inr ⟨_, target, rfl, (consistent.findCast?_eq_some_iff _ _).mpr ⟨member, rfl⟩, rfl⟩

/-- A cast reads the text of the uncast value, or fails with that text. -/
theorem valueOf_cast {e : Engine C} (consistent : e.types.Consistent)
    (builders : e.BuildersSound) {text : String} {expression : Expression}
    (bare : Expression.parse? text = some expression) (uncast : expression.cast = none)
    (registered : (e.find? expression.name).isSome) {context : C} {value : Value}
    (evaluated : e.valueOf text context = .ok (.ok value)) {target : ValueType}
    (member : target ∈ e.types.types) (nonempty : target.castName ≠ "")
    (chars : ∀ c ∈ target.castName.toList, Expression.isCastChar c) :
    e.valueOf ("(" ++ target.castName ++ ")" ++ text) context =
      .ok ((target.read? (e.write value)).elim
        (.error (.castFailed (e.write value) target.kind)) .ok) := by
  obtain ⟨⟨owner, builder⟩, found⟩ := Option.isSome_iff_exists.mp registered
  obtain ⟨p, resolved, evaluatedBase⟩ := (e.valueOf_eq_ok _ _ _).mp evaluated
  have built := instantiate_of_resolve bare uncast found resolved
  obtain ⟨ownerMember, table, tableMember, entry⟩ := find?_mem found
  obtain ⟨-, build, kind⟩ := (builder.instantiate_eq_ok _ _ _ _).mp built
  have sound := builders table tableMember _ _ entry _ _ _ build
  have written : e.write value = owner.write value :=
    consistent.write_eq ownerMember ((sound context value evaluatedBase).trans kind)
  have castResolved := resolve_cast consistent bare uncast found built member nonempty chars
  refine (e.valueOf_eq_ok _ _ _).mpr ⟨_, castResolved, ?_⟩
  rw [written]
  simp only [Placeholder.cast, evaluatedBase, bind, Except.bind]
  cases target.read? (owner.write value) <;> rfl

theorem write_of_ofFormat {format : NumberFormat} {start : Engine C}
    (valid : ofFormat format = .ok start) (history : List (Registration C)) (value : Value) :
    (start.afterAll history).write value = (Registry.builtin format).write value := by
  rw [write, types_of_ofFormat valid]

theorem valueOf_builtin_cast {format : NumberFormat} {start : Engine C}
    (valid : ofFormat format = .ok start) (history : List (Registration C))
    (builders : (start.afterAll history).BuildersSound) {text : String} {expression : Expression}
    (bare : Expression.parse? text = some expression) (uncast : expression.cast = none)
    (registered : ((start.afterAll history).find? expression.name).isSome) {context : C}
    {value : Value} (evaluated : (start.afterAll history).valueOf text context = .ok (.ok value))
    {type : ValueType} (member : type ∈ (Registry.builtin format).types) :
    (start.afterAll history).valueOf ("(" ++ type.castName ++ ")" ++ text) context =
      .ok ((type.read? ((Registry.builtin format).write value)).elim
        (.error (.castFailed ((Registry.builtin format).write value) type.kind)) .ok) := by
  have types := types_of_ofFormat valid history
  have consistent : (start.afterAll history).types.Consistent :=
    types ▸ Registry.consistent_builtin format
  obtain ⟨nonempty, chars⟩ := Registry.isCastChar_of_builtin member
  rw [← write_of_ofFormat valid history]
  exact valueOf_cast consistent builders bare uncast registered evaluated (types ▸ member)
    nonempty chars

/-- Casting never changes what is shown. With a number format that reads back, whatever was
registered: a text cast gives the written value, a number or a truth value that a cast reads
is written as before, and the casts that cannot read fail with the written value. -/
theorem valueOf_cast_shows {format : NumberFormat} {start : Engine C}
    (valid : ofFormat format = .ok start) (history : List (Registration C))
    (builders : (start.afterAll history).BuildersSound) {text : String} {expression : Expression}
    (bare : Expression.parse? text = some expression) (uncast : expression.cast = none)
    (registered : ((start.afterAll history).find? expression.name).isSome) {context : C}
    {value : Value} (evaluated : (start.afterAll history).valueOf text context = .ok (.ok value)) :
    let e := start.afterAll history
    let castValue := fun castName => e.valueOf ("(" ++ castName ++ ")" ++ text) context
    castValue "string" = .ok (.ok (.text (e.write value))) ∧
      (∀ castName ∈ ["number", "string", "boolean"], value.kind ≠ .text → ∀ result,
        castValue castName = .ok (.ok result) → e.write result = e.write value) ∧
      (∀ x, value = .number x →
        ((∃ result, castValue "number" = .ok (.ok result)) ↔ x.IsFinite) ∧
        castValue "boolean" = .ok (.error (.castFailed (e.write value) .boolean))) ∧
      ∀ b, value = .boolean b →
        castValue "number" = .ok (.error (.castFailed (e.write value) .number)) ∧
        castValue "boolean" = .ok (.ok value) := by
  intro e castValue
  have clear := NumberFormat.unambiguous_of_validate (eq_builtin_of_ofFormat valid).1
  have written : ∀ v, e.write v = (Registry.builtin format).write v :=
    write_of_ofFormat valid history
  have castOf {type : ValueType} (member : type ∈ (Registry.builtin format).types) :
      castValue type.castName = _ :=
    valueOf_builtin_cast valid history builders bare uncast registered evaluated member
  have numberMember := (Registry.mem_builtin format _).mpr (Or.inl rfl)
  have stringMember := (Registry.mem_builtin format _).mpr (Or.inr (Or.inl rfl))
  have booleanMember := (Registry.mem_builtin format _).mpr (Or.inr (Or.inr rfl))
  have number := castOf numberMember
  have string := castOf stringMember
  have boolean := castOf booleanMember
  rw [written]
  refine ⟨string, ?_, ?_, ?_⟩
  · intro castName builtIn plain result read
    have key {type : ValueType} (member : type ∈ (Registry.builtin format).types)
        (name : castName = type.castName) :
        e.write result = (Registry.builtin format).write value := by
      subst name
      rw [castOf member, Except.ok.injEq] at read
      rw [written]
      apply Registry.write_of_read? clear member plain
      cases found : type.read? ((Registry.builtin format).write value) with
      | none => simp [found] at read
      | some other => simpa [found] using read
    simp only [List.mem_cons, List.not_mem_nil, or_false] at builtIn
    rcases builtIn with name | name | name
    · exact key numberMember name
    · exact key stringMember name
    · exact key booleanMember name
  · rintro x rfl
    rw [Registry.write_builtin] at number boolean ⊢
    rw [ValueType.boolean_read?_write] at boolean
    refine ⟨?_, boolean⟩
    rw [show castValue "number" = _ from number]
    simp only [ValueType.number, String.toList_ofList]
    by_cases finite : x.IsFinite
    · obtain ⟨y, _, read, -⟩ := NumberFormat.read?_write_finite clear finite
      simp [read, finite]
    · simp [format.read?_write_of_not_isFinite finite, finite]
  · rintro b rfl
    rw [Registry.write_builtin] at number boolean ⊢
    rw [ValueType.number_read?_display_boolean] at number
    rw [ValueType.boolean_read?_display_boolean] at boolean
    exact ⟨number, boolean⟩

/-- A tie in a format whose point groups, as a text and read back. -/
theorem valueOf_cast_shows_level :
    let format : NumberFormat := ⟨',', some '.', 0⟩
    let n : Binary64 := .finite true (2469 <<< 1073) (by decide +kernel)
    let e : Engine Binary64 := (builtin format).afterAll [.supplier .number "level" id]
    e.valueOf "level" n = .ok (.ok (.number n)) ∧ e.write (.number n) = "-1.234" ∧
      e.valueOf "(string)level" n = .ok (.ok (.text "-1.234")) ∧
      ∀ result, e.valueOf "(number)level" n = .ok (.ok result) → e.write result = "-1.234" := by
  have registered (format : NumberFormat) : (((builtin format : Engine Binary64).afterAll
      [.supplier .number "level" id]).find? "level").isSome = true := by cbv
  have evaluated (format : NumberFormat) (n : Binary64) : ((builtin format).afterAll
      [.supplier .number "level" id]).valueOf "level" n = .ok (.ok (.number n)) := by cbv
  have bare : Expression.parse? "level" = some ⟨none, "level", []⟩ := by decide +kernel
  intro format n e
  have valid : ofFormat format = .ok (builtin format : Engine Binary64) := rfl
  have sound : e.Sound := (sound_builtin format).afterAll
    (List.forall_mem_singleton.mpr (soundRegistration_supplier _ _ _))
  have shown : e.write (.number n) = "-1.234" := by
    rw [write_of_ofFormat valid, Registry.write_builtin]
    decide +kernel
  obtain ⟨string, same, -⟩ := valueOf_cast_shows valid _ sound.builders bare rfl
    (registered format) (evaluated format n)
  refine ⟨evaluated format n, shown, ?_, ?_⟩
  · rw [← shown]
    exact string
  · intro result read
    rw [← shown]
    exact same "number" (by decide) (by decide) result read

end Engine

end Placeholders
