import Placeholders.Proofs.Casting

set_option autoImplicit false

namespace Placeholders

theorem Placeholder.evaluate_cast {C : Type} (base : Placeholder C) (source target : ValueType)
    (context : C) :
    (base.cast source target).evaluate context = match base.evaluate context with
      | .error error => .error error
      | .ok value => match target.read? (source.write value) with
          | some result => .ok result
          | none => .error (.castFailed (source.write value) target.kind) := by
  simp only [cast, bind, Except.bind]
  cases base.evaluate context <;> rfl

namespace Engine

variable {C : Type}

/-- A placeholder that a name resolved to, with a cast: only the owner of a builder can write its
values, so a literal stays as it is. -/
def recast (e : Engine C) (name : String) (target : ValueType) (base : Placeholder C) :
    Placeholder C :=
  match e.find? name with
  | none => base
  | some (owner, _) => base.cast owner target

theorem recast_of_absent {e : Engine C} {name : String} (absent : e.find? name = none)
    (target : ValueType) (base : Placeholder C) : e.recast name target base = base := by
  rw [recast, absent]

theorem recast_of_found {e : Engine C} {name : String} {owner : ValueType} {builder : Builder C}
    (found : e.find? name = some (owner, builder)) (target : ValueType) (base : Placeholder C) :
    e.recast name target base = base.cast owner target := by
  rw [recast, found]

theorem resolveExpression_cast (e : Engine C) {expression : Expression}
    (uncast : expression.cast = none) {castName : String} {target : ValueType}
    (known : e.types.findCast? castName = some target) :
    e.resolveExpression { expression with cast := some castName } =
      (e.resolveExpression expression).map (e.recast expression.name target) := by
  rw [e.resolveExpression_uncast uncast, resolveExpression]
  -- The cast is looked up first, but a known one cannot fail: the later stages decide.
  simp only [Registry.resolveCast, known, bind, Except.bind]
  cases found : e.find? expression.name with
  | none =>
      dsimp only
      cases e.types.resolveLiteral expression.name with
      | error error => rfl
      | ok base => rw [Except.map, recast_of_absent found]
  | some entry =>
      obtain ⟨owner, builder⟩ := entry
      dsimp only
      cases builder.instantiate owner expression.name expression.arguments with
      | error error => rfl
      | ok base =>
          rw [Except.map, recast_of_found found]
          rfl

theorem resolve_unknown_cast (e : Engine C) {castName text : String} {expression : Expression}
    (nonempty : castName ≠ "") (chars : ∀ c ∈ castName.toList, Expression.isCastChar c)
    (bare : Expression.parse? text = some expression) (uncast : expression.cast = none)
    (unknown : e.types.findCast? castName = none) :
    e.resolve ("(" ++ castName ++ ")" ++ text) =
      .error (.unknownCast castName (Text.suggestions castName e.types.castNames)) := by
  rw [e.resolve_of_parse? (Expression.parse?_cast bare uncast nonempty chars), resolveExpression]
  simp only [Registry.resolveCast, unknown]
  rfl

theorem resolve_known_cast (e : Engine C) {castName text : String} {expression : Expression}
    (nonempty : castName ≠ "") (chars : ∀ c ∈ castName.toList, Expression.isCastChar c)
    (bare : Expression.parse? text = some expression) (uncast : expression.cast = none)
    {target : ValueType} (known : e.types.findCast? castName = some target) :
    e.resolve ("(" ++ castName ++ ")" ++ text) =
      (e.resolve text).map (e.recast expression.name target) := by
  rw [e.resolve_of_parse? (Expression.parse?_cast bare uncast nonempty chars),
    e.resolveExpression_cast uncast known, e.resolve_of_parse? bare]

/-- A cast in front of an expression is a wrapper around it. If its name is unknown, that is the
error. Else the whole fails as the expression does; a literal is given unchanged; and what a
builder made is written by the owner of its name and read by the named type. -/
theorem resolve_cast_wraps (e : Engine C) {castName text : String} {expression : Expression}
    (word : Expression.Word Expression.CastChar castName.toList)
    (bare : Expression.parse? text = some expression) (uncast : expression.cast = none) :
    let wrapped := "(" ++ castName ++ ")" ++ text
    (e.types.findCast? castName = none → e.resolve wrapped =
      .error (.unknownCast castName (Text.suggestions castName e.types.castNames))) ∧
    ∀ target, e.types.findCast? castName = some target →
      (∀ error, e.resolve wrapped = .error error ↔ e.resolve text = .error error) ∧
      (e.find? expression.name = none → e.resolve wrapped = e.resolve text ∧
        ∀ p, e.resolve text = .ok p → ∃ value,
          e.types.readLiteral? expression.name = some value ∧ p = .constant value) ∧
      ∀ owner builder, e.find? expression.name = some (owner, builder) →
        ∀ p, e.resolve text = .ok p → ∃ q, e.resolve wrapped = .ok q ∧ q.kind = target.kind ∧
          ∀ context, q.evaluate context = match p.evaluate context with
            | .error error => .error error
            | .ok value => match target.read? (owner.write value) with
                | some result => .ok result
                | none => .error (.castFailed (owner.write value) target.kind) := by
  intro wrapped
  have nonempty : castName ≠ "" := by
    rintro rfl
    exact word.1 rfl
  have chars : ∀ c ∈ castName.toList, Expression.isCastChar c := fun c member =>
    (Expression.isCastChar_iff c).mpr (word.2 c member)
  refine ⟨e.resolve_unknown_cast nonempty chars bare uncast, ?_⟩
  intro target known
  have wraps : e.resolve wrapped = (e.resolve text).map (e.recast expression.name target) :=
    e.resolve_known_cast nonempty chars bare uncast known
  refine ⟨?_, ?_, ?_⟩
  · intro error
    rw [wraps]
    cases e.resolve text <;> simp [Except.map]
  · intro absent
    constructor
    · rw [wraps]
      cases e.resolve text with
      | error error => rfl
      | ok p => rw [Except.map, recast_of_absent absent]
    · intro p resolved
      rw [e.resolve_of_parse? bare, e.resolveExpression_uncast uncast, absent] at resolved
      exact (e.types.resolveLiteral_eq_ok _ _).mp resolved
  · intro owner builder found p resolved
    refine ⟨p.cast owner target, ?_, rfl, p.evaluate_cast owner target⟩
    rw [wraps, resolved, Except.map, recast_of_found found]

/-- A name in parentheses, which is no cast for itself, under a cast that does not read its text
and under a misspelt one; and a literal, for which the cast does not count. -/
theorem resolve_cast_wraps_parentheses :
    let e : Engine Binary64 := (builtin .standard).afterAll [.supplier .number "(level)" id]
    (∀ error, e.resolve "(boolean)(level)" = .error error ↔ e.resolve "(level)" = .error error) ∧
      (∃ q, e.resolve "(boolean)(level)" = .ok q ∧ q.kind = .boolean ∧
        q.evaluate .one = .error (.castFailed "1" .boolean)) ∧
      e.resolve "(strin)(level)" = .error (.unknownCast "strin" ["string"]) ∧
      e.resolve "(boolean)2.5" = e.resolve "2.5" := by
  have look (format : NumberFormat) :
      let e : Engine Binary64 := (builtin format).afterAll [.supplier .number "(level)" id]
      e.types.findCast? "boolean" = some .boolean ∧ e.types.findCast? "strin" = none ∧
        e.find? "(level)" = some (.number format, .ofPlaceholder (.supply .number id)) ∧
        e.find? "2.5" = none ∧ e.resolve "(level)" = .ok (.supply .number id) := by
    refine ⟨?_, ?_, ?_, ?_, ?_⟩ <;> cbv
  have booleanWord : Expression.Word Expression.CastChar "boolean".toList := by
    simp [Expression.Word, Expression.CastChar]
  have misspelt : Expression.Word Expression.CastChar "strin".toList := by
    simp [Expression.Word, Expression.CastChar]
  have level : Expression.parse? "(level)" = some ⟨none, "(level)", []⟩ := by decide +kernel
  have literal : Expression.parse? "2.5" = some ⟨none, "2.5", []⟩ := by decide +kernel
  intro e
  obtain ⟨boolean, unknown, found, absent, resolved⟩ := look .standard
  obtain ⟨failures, -, wrapped⟩ := (resolve_cast_wraps e booleanWord level rfl).2 _ boolean
  obtain ⟨q, cast, kind, values⟩ := wrapped _ _ found _ resolved
  refine ⟨failures, ⟨q, cast, kind, ?_⟩, ?_, ?_⟩
  · rw [values]
    decide +kernel
  · have types : e.types = .builtin .standard := types_of_ofFormat rfl _
    have suggestions : Text.suggestions "strin" (Registry.builtin .standard).castNames =
        ["string"] := by cbv
    rw [← suggestions, ← types]
    exact (resolve_cast_wraps e misspelt level rfl).1 unknown
  · exact (((resolve_cast_wraps e booleanWord literal rfl).2 _ boolean).2.1 absent).1

end Engine

end Placeholders
