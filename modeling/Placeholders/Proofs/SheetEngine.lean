import Placeholders.Proofs.Casting
import Placeholders.Sheet

set_option autoImplicit false

/- What a built sheet answers. Its engine finds the builder of `round` and one placeholder for
each other variable, and its subject has the value of every variable; so nothing but a cast and
a rounding can be without a value. -/
namespace Placeholders

def ValueType.ofKind (format : NumberFormat) : Kind → ValueType
  | .number => .number format
  | .text => .string
  | .boolean => .boolean

@[simp]
theorem ValueType.kind_ofKind (format : NumberFormat) (kind : Kind) :
    (ofKind format kind).kind = kind := by
  cases kind <;> rfl

namespace Sheet

theorem get?_insert {β : Type} (entries : Std.TreeMap String β) (key name : String) (value : β) :
    (entries.insert key value).get? name =
      if key = name then some value else entries.get? name := by
  simp only [Std.TreeMap.get?_eq_getElem?, Std.TreeMap.getElem?_insert, Std.compare_eq_iff_eq]

/-- The value that a sheet with overrides gives to a variable, if it has one. -/
def declared? (s : Sheet) (overrides : List (String × String)) (name : String) : Option Value :=
  ((s.merged overrides).get? name).bind (Registry.builtin s.number).readLiteral?

def declaration (name : String) (value : Value) : Registration Subject :=
  .builder value.kind name (.ofPlaceholder (stored name value.kind))

/-- An engine with the built-in types and one placeholder for each variable of the subject. -/
structure Declares (format : NumberFormat) (log : List (Registration Subject))
    (engine : Engine Subject) (subject : Subject) : Prop where
  types : engine.types = .builtin format
  recorded : Engine.Recorded (Registry.builtin format).types log engine
  stored : ∀ kind name, Engine.lastBuilder? log kind name =
    (subject.get? name).bind fun value =>
      if value.kind = kind then some (.ofPlaceholder (stored name kind)) else none

theorem declares_builtin (format : NumberFormat) : Declares format [] (.builtin format) ∅ where
  types := rfl
  recorded := Engine.recorded_ofTypes (Registry.consistent_builtin format)
  stored kind name := by
    rw [Engine.lastBuilder?_nil]
    simp

/-- Every kind has a place among the built-in types, so no builder is refused. -/
theorem registerBuilder_builtin {format : NumberFormat} {engine : Engine Subject}
    (types : engine.types = .builtin format) (kind : Kind) (name : String)
    (builder : Builder Subject) :
    ∃ i, engine.types.position? kind = some i ∧ engine.registerBuilder kind name builder =
      ⟨.ok (), { engine with tables := engine.tables.modify i (·.insert name builder) }⟩ := by
  have found := Registry.findKind?_builtin format kind
  rw [← types] at found
  obtain ⟨i, place, -⟩ := Option.bind_eq_some_iff.mp found
  exact ⟨i, place, by rw [Engine.registerBuilder, place]⟩

theorem Declares.registerBuilder {format : NumberFormat} {log : List (Registration Subject)}
    {engine : Engine Subject} {subject : Subject} (declares : Declares format log engine subject)
    (kind : Kind) (name : String) (builder : Builder Subject) :
    ∃ next, engine.registerBuilder kind name builder = ⟨.ok (), next⟩ ∧
      next.types = .builtin format ∧
      Engine.Recorded (Registry.builtin format).types
        (log ++ [.builder kind name builder]) next := by
  obtain ⟨i, place, registered⟩ := registerBuilder_builtin declares.types kind name builder
  exact ⟨_, registered, declares.types, declares.recorded.insert kind name builder i place⟩

/-- Step of building: a declaration reads its literal and adds one variable. -/
theorem Declares.declare {format : NumberFormat} {log : List (Registration Subject)}
    {engine next : Engine Subject} {subject known : Subject} {name literal : String}
    (declares : Declares format log engine subject) (fresh : subject.get? name = none)
    (step : declare (engine, subject) (name, literal) = .ok (next, known)) :
    ∃ value, (Registry.builtin format).readLiteral? literal = some value ∧
      known = subject.insert name value ∧
      Declares format (log ++ [declaration name value]) next known := by
  rw [Sheet.declare, declares.types] at step
  cases read : (Registry.builtin format).readLiteral? literal with
  | none => simp [read, throw, throwThe, MonadExceptOf.throw] at step
  | some value =>
      obtain ⟨added, registered, types, recorded⟩ :=
        declares.registerBuilder value.kind name (.ofPlaceholder (Sheet.stored name value.kind))
      simp only [read, registered, Registered.toExcept, Except.map, Except.mapError, bind,
        Except.bind, pure, Except.pure, Except.ok.injEq, Prod.mk.injEq] at step
      obtain ⟨rfl, rfl⟩ := step
      refine ⟨value, rfl, rfl, types, recorded, ?_⟩
      intro kind other
      rw [declaration, Engine.lastBuilder?_concat_builder, declares.stored, get?_insert]
      by_cases same : name = other
      · subst same
        rw [fresh]
        by_cases kinds : value.kind = kind <;> simp [kinds]
      · simp [same]

/-- A run of declarations of different names leaves the value of each of them, and the values of
the variables that were there before. -/
theorem Declares.foldlM {format : NumberFormat} {log : List (Registration Subject)}
    {engine last : Engine Subject} {subject known : Subject} {entries : List (String × String)}
    (declares : Declares format log engine subject)
    (distinct : (entries.map Prod.fst).Nodup)
    (fresh : ∀ entry ∈ entries, subject.get? entry.1 = none)
    (run : entries.foldlM Sheet.declare (engine, subject) = .ok (last, known)) :
    (∃ log, Declares format log last known) ∧
      (∀ name, name ∉ entries.map Prod.fst → known.get? name = subject.get? name) ∧
      ∀ name literal, (name, literal) ∈ entries → ∃ value,
        (Registry.builtin format).readLiteral? literal = some value ∧
          known.get? name = some value := by
  induction entries generalizing log engine subject with
  | nil =>
      simp only [List.foldlM_nil, pure, Except.pure, Except.ok.injEq, Prod.mk.injEq] at run
      obtain ⟨rfl, rfl⟩ := run
      exact ⟨⟨log, declares⟩, fun _ _ => rfl, by simp⟩
  | cons entry entries ih =>
      obtain ⟨name, literal⟩ := entry
      rw [List.foldlM_cons, bind_eq_ok] at run
      obtain ⟨⟨next, wider⟩, step, rest⟩ := run
      rw [List.map_cons, List.nodup_cons] at distinct
      obtain ⟨value, read, rfl, declares⟩ :=
        declares.declare (fresh (name, literal) (by simp)) step
      -- The next names are fresh for the wider subject because none of them is this one.
      obtain ⟨after, kept, given⟩ := ih declares distinct.2 (by
        intro other member
        have different : name ≠ other.1 := by
          intro same
          exact distinct.1 (List.mem_map.mpr ⟨other, member, same.symm⟩)
        rw [get?_insert, if_neg different]
        exact fresh other (by simp [member])) rest
      refine ⟨after, ?_, ?_⟩
      · intro other absent
        simp only [List.map_cons, List.mem_cons, not_or] at absent
        rw [kept other absent.2, get?_insert, if_neg (Ne.symm absent.1)]
      · intro other text member
        rcases List.mem_cons.mp member with same | later
        · obtain ⟨rfl, rfl⟩ := Prod.mk.inj same
          exact ⟨value, read, by rw [kept _ distinct.1, get?_insert, if_pos rfl]⟩
        · exact given other text later

structure Built (s : Sheet) (overrides : List (String × String)) (engine : Engine Subject)
    (subject : Subject) : Prop where
  valid : s.number.validate = .ok ()
  types : engine.types = .builtin s.number
  values : ∀ name, subject.get? name = s.declared? overrides name
  read : ∀ name literal, (s.merged overrides).get? name = some literal →
    ∃ value, (Registry.builtin s.number).readLiteral? literal = some value
  find?_round : engine.find? "round" = some (.number s.number, roundBuilder)
  find?_variable : ∀ name, name ≠ "round" → engine.find? name =
    (subject.get? name).map fun value =>
      (.ofKind s.number value.kind, .ofPlaceholder (stored name value.kind))

/-- With `round` added last, the look-up of a name goes through the types in order: `round` is
found first, whatever variable has its name. -/
theorem Declares.find?_round {format : NumberFormat} {log : List (Registration Subject)}
    {engine next : Engine Subject} {subject : Subject}
    (declares : Declares format log engine subject)
    (types : next.types = .builtin format)
    (recorded : Engine.Recorded (Registry.builtin format).types
      (log ++ [.builder .number "round" roundBuilder]) next) (name : String) :
    next.find? name =
      if name = "round" then some (.number format, roundBuilder)
      else (subject.get? name).map fun value =>
        (.ofKind format value.kind, .ofPlaceholder (Sheet.stored name value.kind)) := by
  have order : (Registry.builtin format).types = [.number format, .string, .boolean] := rfl
  rw [recorded.find?_eq, types, order]
  simp only [List.findSome?_cons, List.findSome?_nil, Engine.lastBuilder?_concat_builder,
    declares.stored]
  by_cases round : name = "round"
  · subst round
    rfl
  · simp only [Ne.symm round, and_false, if_false, if_neg round]
    cases subject.get? name with
    | none => rfl
    | some value => cases value <;> rfl

theorem nodup_names (literals : Std.TreeMap String String) :
    (literals.toList.map Prod.fst).Nodup := by
  rw [List.nodup_iff_pairwise_ne, List.pairwise_map]
  apply literals.distinct_keys_toList.imp
  intro entry other different same
  exact different (Std.compare_eq_iff_eq.mpr same)

theorem built_of_build {s : Sheet} {overrides : List (String × String)} {engine : Engine Subject}
    {subject : Subject} (build : s.build overrides = .ok (engine, subject)) :
    Built s overrides engine subject := by
  obtain ⟨start, first, rest⟩ := (bind_eq_ok _ _ _).mp build
  obtain ⟨⟨last, known⟩, run, rest⟩ := (bind_eq_ok _ _ _).mp rest
  obtain ⟨next, added, same⟩ := (bind_eq_ok _ _ _).mp rest
  obtain ⟨rfl, rfl⟩ := Prod.mk.inj (Except.ok.inj same)
  obtain ⟨valid, rfl⟩ := Engine.eq_builtin_of_ofFormat ((mapError_eq_ok _ _ _).mp first)
  obtain ⟨⟨log, declares⟩, kept, given⟩ := (declares_builtin s.number).foldlM
    (nodup_names (s.merged overrides)) (by simp) run
  obtain ⟨final, registered, types, recorded⟩ :=
    declares.registerBuilder .number "round" roundBuilder
  rw [registered] at added
  obtain rfl := Except.ok.inj ((mapError_eq_ok _ _ _).mp added)
  have find? := declares.find?_round types recorded
  have literal {name literal : String} (here : (s.merged overrides).get? name = some literal) :
      (name, literal) ∈ (s.merged overrides).toList :=
    Std.TreeMap.mem_toList_iff_getElem?_eq_some.mpr here
  refine ⟨valid, types, ?_, ?_, by rw [find?, if_pos rfl], ?_⟩
  · intro name
    rw [declared?]
    cases here : (s.merged overrides).get? name with
    | some text =>
        obtain ⟨value, read, known⟩ := given name text (literal here)
        rw [known, Option.bind_some, read]
    | none =>
        rw [kept name, Option.bind_none]
        · simp
        · intro member
          obtain ⟨⟨_, text⟩, listed, rfl⟩ := List.mem_map.mp member
          have there := Std.TreeMap.mem_toList_iff_getElem?_eq_some.mp listed
          rw [← Std.TreeMap.get?_eq_getElem?, here] at there
          cases there
  · intro name text here
    obtain ⟨value, read, -⟩ := given name text (literal here)
    exact ⟨value, read⟩
  · intro name other
    rw [find?, if_neg other]

theorem exists_declare {format : NumberFormat} {engine : Engine Subject} (subject : Subject)
    (types : engine.types = .builtin format) (name : String) {literal : String} {value : Value}
    (read : (Registry.builtin format).readLiteral? literal = some value) :
    ∃ next, declare (engine, subject) (name, literal) = .ok (next, subject.insert name value) ∧
      next.types = .builtin format := by
  obtain ⟨i, -, registered⟩ := registerBuilder_builtin types value.kind name
    (.ofPlaceholder (stored name value.kind))
  rw [← types] at read
  refine ⟨⟨engine.types, engine.tables.modify i fun table =>
    table.insert name (.ofPlaceholder (stored name value.kind))⟩, ?_, types⟩
  simp only [declare, read, registered, Registered.toExcept, Except.map, Except.mapError, bind,
    Except.bind, pure, Except.pure]

theorem exists_foldlM_declare {format : NumberFormat} {engine : Engine Subject} (subject : Subject)
    (types : engine.types = .builtin format) {entries : List (String × String)}
    (read : ∀ entry ∈ entries, ∃ value,
      (Registry.builtin format).readLiteral? entry.2 = some value) :
    ∃ last known, entries.foldlM declare (engine, subject) = .ok (last, known) ∧
      last.types = .builtin format := by
  induction entries generalizing engine subject with
  | nil => exact ⟨engine, subject, rfl, types⟩
  | cons entry entries ih =>
      obtain ⟨value, here⟩ := read entry (by simp)
      obtain ⟨next, declared, types⟩ := exists_declare subject types entry.1 here
      obtain ⟨last, known, run, types⟩ :=
        ih (subject.insert entry.1 value) types fun other member => read other (by simp [member])
      refine ⟨last, known, ?_, types⟩
      rw [List.foldlM_cons, declared]
      exact run

theorem exists_build {s : Sheet} {overrides : List (String × String)}
    (valid : s.number.validate = .ok ())
    (read : ∀ entry ∈ (s.merged overrides).toList, ∃ value,
      (Registry.builtin s.number).readLiteral? entry.2 = some value) :
    ∃ engine subject, s.build overrides = .ok (engine, subject) := by
  obtain ⟨last, known, run, types⟩ := exists_foldlM_declare ∅
    (show (Engine.builtin s.number : Engine Subject).types = .builtin s.number from rfl) read
  obtain ⟨i, -, registered⟩ := registerBuilder_builtin types .number "round" roundBuilder
  refine ⟨{ last with tables := last.tables.modify i (·.insert "round" roundBuilder) }, known, ?_⟩
  simp only [build, Engine.ofFormat, valid, run, registered, Registered.toExcept, Except.map,
    Except.mapError, bind, Except.bind, pure, Except.pure]

theorem roundBuilder_build {name : String} {arguments : List String} {p : Placeholder Subject}
    (built : roundBuilder.build name arguments = .ok p) :
    ∃ target others digits, arguments = target :: others ∧ p = rounded target digits := by
  simp only [roundBuilder] at built
  split at built
  · cases built
  · rename_i target
    exact ⟨target, [], 0, rfl, (Except.ok.inj built).symm⟩
  · rename_i target digits others
    split at built
    · rename_i count _
      exact ⟨target, digits :: others, count, rfl, (Except.ok.inj built).symm⟩
    · cases built

namespace Built

variable {s : Sheet} {overrides : List (String × String)} {engine : Engine Subject}
  {subject : Subject}

/-- A name finds the rounding or a variable that has a value. -/
theorem find?_cases (built : Built s overrides engine subject) {name : String}
    {owner : ValueType} {builder : Builder Subject}
    (found : engine.find? name = some (owner, builder)) :
    name = "round" ∧ builder = roundBuilder ∨
      ∃ value, subject.get? name = some value ∧
        builder = .ofPlaceholder (stored name value.kind) := by
  by_cases round : name = "round"
  · subst round
    rw [built.find?_round, Option.some.injEq, Prod.mk.injEq] at found
    exact Or.inl ⟨rfl, found.2.symm⟩
  · rw [built.find?_variable name round, Option.map_eq_some_iff] at found
    obtain ⟨value, known, same⟩ := found
    exact Or.inr ⟨value, known, (Prod.mk.inj same).2.symm⟩

/-- The kind of a variable is that of its literal, so a built engine is sound for its subject. It
need not be so for another subject. -/
theorem soundAt (built : Built s overrides engine subject) : engine.SoundAt subject where
  types := by
    rw [built.types]
    exact (Engine.sound_builtin (C := Subject) s.number).types
  builders name owner builder found arguments p made := by
    rcases built.find?_cases found with ⟨-, rfl⟩ | ⟨value, known, rfl⟩
    · obtain ⟨target, others, digits, -, rfl⟩ := roundBuilder_build made
      intro value evaluated
      simp only [rounded] at evaluated
      split at evaluated
      · obtain rfl := Except.ok.inj evaluated
        rfl
      · cases evaluated
    · obtain rfl := Except.ok.inj made
      intro other evaluated
      simp only [stored, known, Except.ok.injEq] at evaluated
      rw [← evaluated]
      rfl

theorem resolve_variable (built : Built s overrides engine subject) {name : String} {value : Value}
    (known : s.declared? overrides name = some value) (other : name ≠ "round")
    (bare : Expression.parse? name = some ⟨none, name, []⟩) :
    engine.resolve name = .ok (stored name value.kind) := by
  rw [← built.values] at known
  have found := built.find?_variable name other
  rw [known, Option.map_some] at found
  rw [engine.resolve_of_parse? bare, engine.resolveExpression_uncast rfl, found]
  apply (Builder.instantiate_eq_ok _ _ _ _ _).mpr
  exact ⟨Nat.zero_le _, rfl, by simp [stored]⟩

end Built

end Sheet

end Placeholders
