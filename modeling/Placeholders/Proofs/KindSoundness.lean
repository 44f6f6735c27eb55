import Placeholders.Condition
import Placeholders.Proofs.Registration
import Placeholders.Proofs.Resolution
import Placeholders.Supplier

set_option autoImplicit false

namespace Placeholders

/-- The reader that serves casts gives values of the kind of its type. The reader of literals
need not. -/
def ValueType.Sound (type : ValueType) : Prop :=
  ∀ text value, type.read? text = some value → value.kind = type.kind

def Placeholder.Sound {C : Type} (p : Placeholder C) : Prop :=
  ∀ context value, p.evaluate context = .ok value → value.kind = p.kind

/-- The value in one context is of the declared kind, if there is one. -/
def Placeholder.SoundAt {C : Type} (p : Placeholder C) (context : C) : Prop :=
  ∀ value, p.evaluate context = .ok value → value.kind = p.kind

def Builder.Sound {C : Type} (builder : Builder C) : Prop :=
  ∀ name arguments p, builder.build name arguments = .ok p → p.Sound

def Engine.BuildersSound {C : Type} (e : Engine C) : Prop :=
  ∀ table ∈ e.tables, ∀ name builder, table.get? name = some builder → builder.Sound

/-- Casts read values of the kinds they name, and builders keep to the kinds they declare. -/
structure Engine.Sound {C : Type} (e : Engine C) : Prop where
  types : ∀ type ∈ e.types.types, type.Sound
  builders : e.BuildersSound

/-- Soundness for one context. It asks only for the builders that a name can find. -/
structure Engine.SoundAt {C : Type} (e : Engine C) (context : C) : Prop where
  types : ∀ type ∈ e.types.types, type.Sound
  builders : ∀ name owner builder, e.find? name = some (owner, builder) →
    ∀ arguments p, builder.build name arguments = .ok p → p.SoundAt context

namespace ValueType

theorem sound_number (format : NumberFormat) : (number format).Sound := by
  intro text value read
  obtain ⟨x, -, rfl⟩ := Option.map_eq_some_iff.mp read
  rfl

theorem sound_string : string.Sound := by
  intro text value read
  obtain rfl := Option.some.inj read
  rfl

theorem sound_boolean : boolean.Sound := by
  intro text value read
  change readBoolean? text = some value at read
  unfold readBoolean? at read
  split at read
  · obtain rfl := Option.some.inj read
    rfl
  · obtain rfl := Option.some.inj read
    rfl
  · cases read

end ValueType

namespace Placeholder

variable {C : Type}

theorem sound_constant (value : Value) : (constant value : Placeholder C).Sound := by
  intro context result evaluated
  obtain rfl := Except.ok.inj evaluated
  rfl

theorem sound_supply (kind : Kind) (f : C → kind.Carrier) : (supply kind f).Sound := by
  intro context value evaluated
  obtain rfl := Except.ok.inj evaluated
  cases kind <;> rfl

theorem evaluate_cast_eq_ok (base : Placeholder C) (source target : ValueType) (context : C)
    (result : Value) :
    (base.cast source target).evaluate context = .ok result ↔
      ∃ value, base.evaluate context = .ok value ∧
        target.read? (source.write value) = some result := by
  simp only [cast]
  rw [bind_eq_ok]
  apply exists_congr
  intro value
  apply and_congr_right
  intro _
  cases target.read? (source.write value) <;> simp

/-- The kind of a cast is that of its target, whatever it is cast from. -/
theorem sound_cast (base : Placeholder C) (source : ValueType) {target : ValueType}
    (sound : target.Sound) : (base.cast source target).Sound := by
  intro context result evaluated
  obtain ⟨value, -, read⟩ := (base.evaluate_cast_eq_ok source target context result).mp evaluated
  exact sound _ _ read

end Placeholder

namespace Engine

variable {C : Type}

theorem Sound.soundAt {e : Engine C} (sound : e.Sound) (context : C) : e.SoundAt context where
  types := sound.types
  builders name owner builder found arguments p built := by
    obtain ⟨-, table, member, entry⟩ := find?_mem found
    exact sound.builders table member name builder entry name arguments p built context

theorem soundAt_castTo {base : Placeholder C} {context : C} (sound : base.SoundAt context)
    (owner : ValueType) {target : Option ValueType}
    (targets : ∀ type, target = some type → type.Sound) :
    (castTo owner base target).SoundAt context := by
  cases target with
  | none => exact sound
  | some type => exact base.sound_cast owner (targets type rfl) context

/-- Literals are of the kind of their value, builders keep to theirs, and casts to the target's. -/
theorem SoundAt.resolve {e : Engine C} {context : C} (sound : e.SoundAt context) {text : String}
    {p : Placeholder C} (resolved : e.resolve text = .ok p) : p.SoundAt context := by
  rcases resolve_cases resolved with
    ⟨_, literal⟩ | ⟨expression, target, owner, builder, base, -, cast, found, built, rfl⟩
  · obtain ⟨value, -, rfl⟩ := (e.types.resolveLiteral_eq_ok _ _).mp literal
    exact Placeholder.sound_constant value context
  · obtain ⟨-, build, -⟩ := (builder.instantiate_eq_ok _ _ _ _).mp built
    apply soundAt_castTo (sound.builders _ _ _ found _ _ build)
    rintro type rfl
    rcases (e.types.resolveCast_eq_ok _ _).mp cast with ⟨-, none⟩ | ⟨_, _, -, cast, same⟩
    · cases none
    · obtain rfl := Option.some.inj same
      exact sound.types _ (Registry.findCast?_mem cast)

theorem Sound.resolve {e : Engine C} (sound : e.Sound) {text : String} {p : Placeholder C}
    (resolved : e.resolve text = .ok p) : p.Sound :=
  fun context => (sound.soundAt context).resolve resolved

/-- A registration of a type with a sound reader, or of a sound builder. -/
def SoundRegistration : Registration C → Prop
  | .type type => type.Sound
  | .builder _ _ builder => builder.Sound

theorem soundRegistration_supplier (kind : Kind) (name : String) (f : C → kind.Carrier) :
    SoundRegistration (.supplier kind name f) := by
  rintro _ _ p build
  obtain rfl := Except.ok.inj build
  exact Placeholder.sound_supply kind f

theorem sound_ofTypes {types : Registry} (sound : ∀ type ∈ types.types, type.Sound) :
    (ofTypes types : Engine C).Sound where
  types := sound
  builders table member name builder entry := by
    obtain ⟨type, -, rfl⟩ := List.mem_map.mp member
    rw [BuilderTable.get?_empty] at entry
    cases entry

theorem sound_builtin (format : NumberFormat) : (builtin format : Engine C).Sound := by
  apply sound_ofTypes
  intro type member
  change type ∈ [ValueType.number format, .string, .boolean] at member
  simp only [List.mem_cons, List.not_mem_nil, or_false] at member
  rcases member with rfl | rfl | rfl
  · exact ValueType.sound_number format
  · exact ValueType.sound_string
  · exact ValueType.sound_boolean

/-- Registration keeps an engine sound as long as what it adds is. -/
theorem Sound.register {e : Engine C} (sound : e.Sound) {call : Registration C}
    (added : SoundRegistration call) : (e.register call).state.Sound := by
  rcases e.register_cases call with
    ⟨type, rfl, -, -, step⟩ | ⟨kind, name, builder, i, rfl, -, step⟩ | ⟨error, step⟩
  · rw [step]
    constructor
    · intro other member
      rcases List.mem_append.mp member with old | new
      · exact sound.types other old
      · rw [List.mem_singleton.mp new]
        exact added
    · intro table member other b entry
      rcases List.mem_append.mp member with old | new
      · exact sound.builders table old other b entry
      · rw [List.mem_singleton.mp new, BuilderTable.get?_empty] at entry
        cases entry
  · rw [step]
    refine ⟨sound.types, ?_⟩
    intro table member other b entry
    obtain ⟨j, here⟩ := List.mem_iff_getElem?.mp member
    rw [List.getElem?_modify] at here
    obtain ⟨before, found, rfl⟩ := Option.map_eq_some_iff.mp here
    have old := sound.builders before (List.mem_of_getElem? found) other b
    split at entry
    · rw [BuilderTable.get?_insert] at entry
      split at entry
      · obtain rfl := Option.some.inj entry
        exact added
      · exact old entry
    · exact old entry
  · rw [step]
    exact sound

theorem Sound.afterAll {e : Engine C} (sound : e.Sound) {history : List (Registration C)}
    (added : ∀ call ∈ history, SoundRegistration call) : (e.afterAll history).Sound := by
  induction history generalizing e with
  | nil => exact sound
  | cons call history ih =>
      exact ih (sound.register (added call (by simp))) fun other member =>
        added other (by simp [member])

theorem sound_of_resolveLiteral {e : Engine C} {text : String} {p : Placeholder C}
    (resolved : e.resolveLiteral text = .ok p) : p.Sound := by
  obtain ⟨value, -, rfl⟩ := (e.types.resolveLiteral_eq_ok _ _).mp resolved
  exact Placeholder.sound_constant value

end Engine

theorem Value.number?_eq_none_iff (value : Value) :
    value.number? = none ↔ value.kind ≠ .number := by
  cases value <;> simp [number?, kind]

theorem Supplier.value?_eq_none_iff {C : Type} {name : String} {p : Placeholder C}
    {supplier : Supplier C} (sound : p.Sound) (accepted : ofPlaceholder name p = .ok supplier)
    (context : C) :
    supplier.value? context = none ↔ ∃ error, p.evaluate context = .error error := by
  unfold ofPlaceholder at accepted
  split at accepted
  · rename_i number
    obtain rfl := Except.ok.inj accepted
    cases evaluated : p.evaluate context with
    | error error => simp [evaluated, Except.toOption]
    | ok value =>
        have kind := (sound context value evaluated).trans number
        simp [evaluated, Except.toOption, Value.number?_eq_none_iff, kind]
  · cases accepted

theorem Condition.compare_eq_ok {C : Type} {e : Engine C} {first second : String}
    {comparison : Comparison} {condition : Condition C}
    (compiled : compare e first comparison second = .ok condition) :
    ∃ left right, e.resolve first = .ok left ∧ e.resolve second = .ok right ∧
      left.kind = right.kind ∧ condition = ofPlaceholders left comparison right := by
  obtain ⟨left, resolvedLeft, rest⟩ := (bind_eq_ok _ _ _).mp compiled
  obtain ⟨right, resolvedRight, checked⟩ := (bind_eq_ok _ _ _).mp rest
  have operand {expression : String} {p : Placeholder C}
      (resolved : resolveOperand e expression = .ok p) : e.resolve expression = .ok p := by
    cases found : e.resolve expression with
    | error error =>
        rw [resolveOperand, found] at resolved
        cases resolved
    | ok q =>
        rw [resolveOperand, found] at resolved
        exact congrArg Except.ok (Except.ok.inj resolved)
  split at checked
  · rename_i kind
    exact ⟨left, right, operand resolvedLeft, operand resolvedRight, kind,
      (Except.ok.inj checked).symm⟩
  · cases checked

theorem Condition.compare_of_kinds {C : Type} {e : Engine C} {first second : String}
    {left right : Placeholder C} (resolvedLeft : e.resolve first = .ok left)
    (resolvedRight : e.resolve second = .ok right) (kinds : left.kind = right.kind)
    (comparison : Comparison) :
    compare e first comparison second = .ok (ofPlaceholders left comparison right) := by
  simp only [compare, resolveOperand, resolvedLeft, resolvedRight, Except.mapError, bind,
    Except.bind, if_pos kinds, pure, Except.pure]

/-- Whatever a sound engine resolves evaluates to values of the kind that it declares. So a
supplier is without a number only where evaluation fails, and a comparison never sees two
kinds. The built-in types are sound in every number format. -/
theorem Engine.resolve_kinds {C : Type} {e : Engine C} (sound : e.Sound) :
    (∀ text p, e.resolve text = .ok p ∨ e.resolveLiteral text = .ok p →
      (∀ context value, p.evaluate context = .ok value → value.kind = p.kind) ∧
      ∀ name supplier, Supplier.ofPlaceholder name p = .ok supplier → ∀ context,
        supplier.value? context = none ↔ ∃ error, p.evaluate context = .error error) ∧
    (∀ format, (ValueType.number format).Sound ∧ ValueType.string.Sound ∧
      ValueType.boolean.Sound) ∧
    ∀ first comparison second condition,
      Condition.compare e first comparison second = .ok condition →
      ∃ left right, e.resolve first = .ok left ∧ e.resolve second = .ok right ∧
        condition = .ofPlaceholders left comparison right ∧
        ∀ context a b, left.evaluate context = .ok a → right.evaluate context = .ok b →
          a.kind = b.kind := by
  refine ⟨?_, fun format =>
    ⟨ValueType.sound_number format, ValueType.sound_string, ValueType.sound_boolean⟩, ?_⟩
  · intro text p resolved
    have kinds : p.Sound := resolved.elim sound.resolve sound_of_resolveLiteral
    exact ⟨kinds, fun name supplier accepted => Supplier.value?_eq_none_iff kinds accepted⟩
  · intro first comparison second condition compiled
    obtain ⟨left, right, resolvedLeft, resolvedRight, same, rfl⟩ :=
      Condition.compare_eq_ok compiled
    refine ⟨left, right, resolvedLeft, resolvedRight, rfl, ?_⟩
    intro context a b evaluatedLeft evaluatedRight
    rw [sound.resolve resolvedLeft context a evaluatedLeft, same,
      sound.resolve resolvedRight context b evaluatedRight]

/-- A number compares with a text only once it is cast. -/
theorem Engine.resolve_kinds_level :
    let e : Engine Binary64 :=
      (Engine.builtin .standard).afterAll [.supplier .number "level" id]
    e.Sound ∧ (Condition.compare e "(string)level" .equal "'3.5'").toOption.isSome = true ∧
      (Condition.compare e "level" .equal "'3.5'").toOption.isSome = false ∧
      ∀ text p, e.resolve text = .ok p →
        ∀ context value, p.evaluate context = .ok value → value.kind = p.kind := by
  have sound := (sound_builtin (C := Binary64) .standard).afterAll
    (List.forall_mem_singleton.mpr (soundRegistration_supplier .number "level" id))
  exact ⟨sound, by cbv, by cbv, fun text p resolved =>
    ((resolve_kinds sound).1 text p (Or.inl resolved)).1⟩

end Placeholders
