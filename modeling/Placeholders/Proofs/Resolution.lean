import Placeholders.Engine.Resolve
import Placeholders.Proofs.Stages

set_option autoImplicit false

namespace Placeholders

theorem Builder.instantiate_eq_ok {C : Type} (builder : Builder C) (owner : ValueType)
    (name : String) (arguments : List String) (p : Placeholder C) :
    builder.instantiate owner name arguments = .ok p ↔
      builder.required ≤ arguments.length ∧ builder.build name arguments = .ok p ∧
        p.kind = owner.kind := by
  unfold instantiate
  split
  · rename_i few
    simp only [reduceCtorEq, false_iff]
    omega
  · rename_i enough
    rw [bind_eq_ok]
    constructor
    · rintro ⟨built, build, checked⟩
      split at checked
      · rename_i kind
        obtain rfl := Except.ok.inj checked
        exact ⟨Nat.le_of_not_lt enough, build, kind⟩
      · cases checked
    · rintro ⟨-, build, kind⟩
      exact ⟨p, build, by rw [if_pos kind]; rfl⟩

/-- A builder that keeps to the kind of its owner is held back by the number of arguments only. -/
theorem Builder.instantiate_eq_build {C : Type} {builder : Builder C} {owner : ValueType}
    {name : String} {arguments : List String} (enough : builder.required ≤ arguments.length)
    (kinds : ∀ p, builder.build name arguments = .ok p → p.kind = owner.kind) :
    builder.instantiate owner name arguments = builder.build name arguments := by
  cases built : builder.build name arguments with
  | ok p => exact (builder.instantiate_eq_ok _ _ _ _).mpr ⟨enough, built, kinds p built⟩
  | error error =>
      rw [instantiate, if_neg (Nat.not_lt_of_le enough), built]
      rfl

/-- Calling a builder adds no error of a cast to its own. -/
theorem Builder.built_of_instantiate_unknownCast {C : Type} {builder : Builder C}
    {owner : ValueType} {name castName : String} {arguments suggestions : List String}
    (failed : builder.instantiate owner name arguments =
      .error (.unknownCast castName suggestions)) :
    builder.build name arguments = .error (.unknownCast castName suggestions) := by
  unfold instantiate at failed
  split at failed
  · cases failed
  · rcases (bind_eq_error _ _ _).mp failed with built | ⟨p, -, checked⟩
    · exact built
    · split at checked <;> cases checked

namespace Registry

theorem resolveLiteral_eq_ok {C : Type} (r : Registry) (text : String) (p : Placeholder C) :
    r.resolveLiteral text = .ok p ↔
      ∃ value, r.readLiteral? text = some value ∧ p = .constant value := by
  unfold resolveLiteral
  cases r.readLiteral? text <;> simp [eq_comm]

theorem resolveCast_eq_ok (r : Registry) (cast : Option String) (target : Option ValueType) :
    r.resolveCast cast = .ok target ↔
      cast = none ∧ target = none ∨
        ∃ name type, cast = some name ∧ r.findCast? name = some type ∧ target = some type := by
  cases cast with
  | none => simp [resolveCast, eq_comm]
  | some name =>
      simp only [resolveCast, reduceCtorEq, false_and, false_or, Option.some.injEq]
      cases found : r.findCast? name <;> simp [found, eq_comm]

theorem resolveLiteral_eq_error {C : Type} {r : Registry} {text : String}
    {cause : ResolveError} (failed : r.resolveLiteral (C := C) text = .error cause) :
    cause = .unparsableLiteral text := by
  unfold resolveLiteral at failed
  split at failed
  · cases failed
  · exact (Except.error.inj failed).symm

theorem resolveCast_eq_error {r : Registry} {cast : Option String} {cause : ResolveError}
    (failed : r.resolveCast cast = .error cause) :
    ∃ name, cast = some name ∧ r.findCast? name = none ∧
      cause = .unknownCast name (Text.suggestions name r.castNames) := by
  unfold resolveCast at failed
  split at failed
  · cases failed
  · rename_i name
    split at failed
    · cases failed
    · rename_i unknown
      exact ⟨name, rfl, unknown, (Except.error.inj failed).symm⟩

end Registry

namespace Engine

variable {C : Type}

/-- What an optional target makes of a placeholder of `owner`. -/
def castTo (owner : ValueType) (base : Placeholder C) : Option ValueType → Placeholder C
  | some type => base.cast owner type
  | none => base

theorem resolveExpression_eq_ok (e : Engine C) (expression : Expression) (p : Placeholder C) :
    e.resolveExpression expression = .ok p ↔
      ∃ target, e.types.resolveCast expression.cast = .ok target ∧
        (e.find? expression.name = none ∧ e.types.resolveLiteral expression.name = .ok p ∨
          ∃ owner builder base, e.find? expression.name = some (owner, builder) ∧
            builder.instantiate owner expression.name expression.arguments = .ok base ∧
            p = castTo owner base target) := by
  unfold resolveExpression
  rw [bind_eq_ok]
  apply exists_congr
  intro target
  apply and_congr_right
  intro _
  cases found : e.find? expression.name with
  | none => simp
  | some entry =>
      obtain ⟨owner, builder⟩ := entry
      simp only [reduceCtorEq, false_and, false_or, Option.some.injEq, Prod.mk.injEq]
      rw [bind_eq_ok]
      constructor
      · rintro ⟨base, built, cast⟩
        refine ⟨owner, builder, base, ⟨rfl, rfl⟩, built, ?_⟩
        cases target <;> exact (Except.ok.inj cast).symm
      · rintro ⟨_, _, base, ⟨rfl, rfl⟩, built, rfl⟩
        refine ⟨base, built, ?_⟩
        cases target <;> rfl

theorem resolve_of_parse? (e : Engine C) {text : String} {expression : Expression}
    (parsed : Expression.parse? text = some expression) :
    e.resolve text = e.resolveExpression expression := by
  rw [resolve, parsed]

theorem resolveExpression_uncast (e : Engine C) {expression : Expression}
    (uncast : expression.cast = none) :
    e.resolveExpression expression = match e.find? expression.name with
      | none => e.types.resolveLiteral expression.name
      | some (owner, builder) =>
          builder.instantiate owner expression.name expression.arguments := by
  rw [resolveExpression, uncast]
  simp only [Registry.resolveCast, bind, Except.bind]
  cases e.find? expression.name with
  | none => rfl
  | some entry =>
      obtain ⟨owner, builder⟩ := entry
      dsimp only
      cases builder.instantiate owner expression.name expression.arguments <;> rfl

theorem resolve_cases {e : Engine C} {text : String} {p : Placeholder C}
    (resolved : e.resolve text = .ok p) :
    (∃ literal, e.types.resolveLiteral literal = .ok p) ∨
      ∃ expression target owner builder base, Expression.parse? text = some expression ∧
        e.types.resolveCast expression.cast = .ok target ∧
        e.find? expression.name = some (owner, builder) ∧
        builder.instantiate owner expression.name expression.arguments = .ok base ∧
        p = castTo owner base target := by
  unfold resolve at resolved
  split at resolved
  · rename_i expression parsed
    obtain ⟨target, cast, ⟨-, literal⟩ | ⟨owner, builder, base, found, built, rfl⟩⟩ :=
      (e.resolveExpression_eq_ok expression p).mp resolved
    · exact Or.inl ⟨_, literal⟩
    · exact Or.inr ⟨expression, target, owner, builder, base, parsed, cast, found, built, rfl⟩
  · exact Or.inl ⟨text, resolved⟩

/-- An unknown cast is that of the expression, unless a builder reports it. -/
theorem resolve_eq_unknownCast {e : Engine C} {text castName : String} {suggestions : List String}
    (failed : e.resolve text = .error (.unknownCast castName suggestions)) :
    ∃ expression, Expression.parse? text = some expression ∧
      (expression.cast = some castName ∧ e.types.findCast? castName = none ∧
          suggestions = Text.suggestions castName e.types.castNames ∨
        ∃ owner builder, e.find? expression.name = some (owner, builder) ∧
          builder.build expression.name expression.arguments =
            .error (.unknownCast castName suggestions)) := by
  unfold resolve at failed
  split at failed
  · rename_i expression parsed
    refine ⟨expression, parsed, ?_⟩
    rcases (bind_eq_error _ _ _).mp failed with early | ⟨target, -, later⟩
    · obtain ⟨name, given, unknown, same⟩ := Registry.resolveCast_eq_error early
      obtain ⟨rfl, rfl⟩ := ResolveError.unknownCast.inj same
      exact Or.inl ⟨given, unknown, rfl⟩
    · -- A literal has an error of its own kind, so a builder was found and called.
      cases found : e.find? expression.name with
      | none =>
          rw [found] at later
          cases Registry.resolveLiteral_eq_error later
      | some entry =>
          obtain ⟨owner, builder⟩ := entry
          rw [found] at later
          rcases (bind_eq_error _ _ _).mp later with refused | ⟨base, -, cast⟩
          · exact Or.inr ⟨owner, builder, rfl, Builder.built_of_instantiate_unknownCast refused⟩
          · cases target <;> cases cast
  · cases Registry.resolveLiteral_eq_error failed

theorem find?_mem {e : Engine C} {name : String} {owner : ValueType} {builder : Builder C}
    (found : e.find? name = some (owner, builder)) :
    owner ∈ e.types.types ∧ ∃ table ∈ e.tables, table.get? name = some builder := by
  obtain ⟨⟨type, table⟩, member, entry⟩ := List.exists_of_findSome?_eq_some found
  obtain ⟨b, here, same⟩ := Option.map_eq_some_iff.mp entry
  obtain ⟨rfl, rfl⟩ := Prod.mk.inj same
  have both := List.of_mem_zip member
  exact ⟨both.1, table, both.2, here⟩

end Engine

theorem Registry.findCast?_mem {r : Registry} {castName : String} {type : ValueType}
    (found : r.findCast? castName = some type) : type ∈ r.types := by
  obtain ⟨i, -, here⟩ := Option.bind_eq_some_iff.mp found
  exact List.mem_of_getElem? here

end Placeholders
