import Placeholders.Proofs.Grammar
import Placeholders.Proofs.SheetEngine

set_option autoImplicit false

/- What builders are called with. Between the text and a builder stand the grammar, the splitting
of the clause and the number of arguments that the builder asks for. So builders that differ only in
what they make of other calls cannot be told apart by any text. -/
namespace Placeholders

namespace Expression

/-- An argument as an expression gives it: trimmed, without a comma, over the characters of a
clause. -/
structure IsArgument (cs : List Char) : Prop where
  trimmed : Text.Trimmed cs
  chars : ∀ c ∈ cs, ArgumentChar c ∧ c ≠ ','

theorem mem_of_mem_intercalate {separator : Char} {pieces : List (List Char)} {piece : List Char}
    (member : piece ∈ pieces) {c : Char} (inside : c ∈ piece) :
    c ∈ [separator].intercalate pieces := by
  obtain ⟨i, there⟩ := List.mem_iff_getElem?.mp member
  have placed : (pieces.intersperse [separator])[2 * i]? = some piece := by
    rw [List.getElem?_intersperse_two_mul, there]
  exact List.mem_flatten.mpr ⟨piece, List.mem_of_getElem? placed, inside⟩

theorem Lists.isArgument {tail : List Char} {arguments : List String} (here : Tail tail)
    (lists : Lists tail arguments) : ∀ argument ∈ arguments, IsArgument argument.toList := by
  cases lists with
  | absent => simp
  | blank => simp
  | @pieces clause pieces _ joined apart =>
      cases here with
      | clause chars =>
          intro argument member
          obtain ⟨piece, there, rfl⟩ := List.mem_map.mp member
          rw [String.toList_ofList]
          refine ⟨Text.trimmed_trim piece, ?_⟩
          intro c inside
          have inPiece := Text.mem_of_mem_trim inside
          refine ⟨chars c (joined ▸ mem_of_mem_intercalate there inPiece), ?_⟩
          rintro rfl
          exact apart piece there inPiece

theorem isArgument_of_parse? {text : String} {expression : Expression}
    (parsed : parse? text = some expression) :
    ∀ argument ∈ expression.arguments, IsArgument argument.toList := by
  rcases (parse?_eq_some_iff _ _).mp parsed with
    ⟨_, _, _, _, form, lists, rfl⟩ | ⟨-, _, _, _, form, lists, rfl⟩
  · exact lists.isArgument form.tail
  · exact lists.isArgument form.tail

end Expression

variable {C : Type}

/-- Enough arguments for a builder, each of them as an expression gives it. -/
structure Builder.WellCalled (builder : Builder C) (arguments : List String) : Prop where
  enough : builder.required ≤ arguments.length
  formed : ∀ argument ∈ arguments, Expression.IsArgument argument.toList

/-- Two builders that need as many arguments and make the same of them under a name: the same error,
or the same kind and the same value in every context. -/
structure Builder.Alike (name : String) (first second : Builder C) : Prop where
  required : first.required = second.required
  build : ∀ arguments, first.WellCalled arguments →
    first.build name arguments = second.build name arguments

theorem Builder.Alike.refl (name : String) (builder : Builder C) : builder.Alike name builder :=
  ⟨rfl, fun _ _ => rfl⟩

/-- The arguments of an expression make up a proper call, or too short a one, which is refused
before either builder is called. -/
theorem Builder.Alike.instantiate {name : String} {first second : Builder C}
    (alike : first.Alike name second) (owner : ValueType) {arguments : List String}
    (formed : ∀ argument ∈ arguments, Expression.IsArgument argument.toList) :
    first.instantiate owner name arguments = second.instantiate owner name arguments := by
  unfold Builder.instantiate
  rw [← alike.required]
  split
  · rfl
  · rename_i enough
    rw [alike.build arguments ⟨Nat.le_of_not_lt enough, formed⟩]

/-- Two tables with the same names, and builders alike under each of them. -/
def BuilderTable.Alike (first second : BuilderTable C) : Prop :=
  ∀ name, Option.Rel (Builder.Alike name) (first.get? name) (second.get? name)

theorem BuilderTable.Alike.refl (table : BuilderTable C) : table.Alike table := by
  intro name
  cases table.get? name with
  | none => exact .none
  | some builder => exact .some (.refl name builder)

theorem BuilderTable.alike_insert (table : BuilderTable C) {name : String}
    {first second : Builder C} (alike : first.Alike name second) :
    (table.insert name first).Alike (table.insert name second) := by
  intro other
  rw [get?_insert, get?_insert]
  split
  · rename_i same
    exact .some (same ▸ alike)
  · exact BuilderTable.Alike.refl table other

theorem BuilderTable.alike_replace (table : BuilderTable C) {name : String}
    {first second : Builder C} (alike : first.Alike name second) :
    (table.insert name first).Alike ((table.insert name first).insert name second) := by
  intro other
  rw [get?_insert, get?_insert, get?_insert]
  split
  · rename_i same
    exact .some (same ▸ alike)
  · exact BuilderTable.Alike.refl table other

private theorem forall₂_modify {f g : BuilderTable C → BuilderTable C}
    (step : ∀ table, (f table).Alike (g table)) (tables : List (BuilderTable C)) (i : Nat) :
    List.Forall₂ BuilderTable.Alike (tables.modify i f) (tables.modify i g) := by
  induction tables generalizing i with
  | nil => simp
  | cons table tables ih =>
      cases i with
      | zero => exact .cons (step table) (List.forall₂_same.mpr fun other _ => .refl other)
      | succ i => exact .cons (.refl table) (ih i)

/-- Cast names determine their types in every consistent registry of some types. -/
theorem Registry.Consistent.findCast?_congr {r other : Registry} (consistent : r.Consistent)
    (consistent' : other.Consistent) (types : r.types = other.types) (name : String) :
    r.findCast? name = other.findCast? name := by
  apply Option.ext
  intro type
  rw [consistent.findCast?_eq_some_iff, consistent'.findCast?_eq_some_iff, types]

namespace Engine

theorem findSome?_zip_alike {tables others : List (BuilderTable C)}
    (alike : List.Forall₂ BuilderTable.Alike tables others) (types : List ValueType)
    (name : String) :
    Option.Rel (fun first second => first.1 = second.1 ∧ first.2.Alike name second.2)
      ((types.zip tables).findSome? fun (type, table) => (table.get? name).map fun b => (type, b))
      ((types.zip others).findSome? fun (type, table) =>
        (table.get? name).map fun b => (type, b)) := by
  induction alike generalizing types with
  | nil => simp only [List.zip_nil_right, List.findSome?_nil, Option.Rel.none]
  | @cons table other tables others here _ ih =>
      cases types with
      | nil => exact .none
      | cons type types =>
          have both := here name
          simp only [List.zip_cons_cons, List.findSome?_cons]
          generalize table.get? name = first, other.get? name = second at both ⊢
          cases both with
          | some builders => exact .some ⟨rfl, builders⟩
          | none => exact ih types

theorem find?_alike {e other : Engine C} (types : e.types.types = other.types.types)
    (tables : List.Forall₂ BuilderTable.Alike e.tables other.tables) (name : String) :
    Option.Rel (fun first second => first.1 = second.1 ∧ first.2.Alike name second.2)
      (e.find? name) (other.find? name) := by
  rw [find?, find?, ← types]
  exact findSome?_zip_alike tables e.types.types name

theorem types_registerBuilder (e : Engine C) (kind : Kind) (name : String) (builder : Builder C) :
    (e.registerBuilder kind name builder).state.types = e.types := by
  unfold registerBuilder
  split <;> rfl

theorem tables_registerBuilder_alike (e : Engine C) (kind : Kind) {name : String}
    {first second : Builder C} (alike : first.Alike name second) :
    List.Forall₂ BuilderTable.Alike (e.registerBuilder kind name first).state.tables
      (e.registerBuilder kind name second).state.tables := by
  unfold registerBuilder
  split
  · exact forall₂_modify (fun table => table.alike_insert alike) e.tables _
  · exact List.forall₂_same.mpr fun table _ => .refl table

theorem tables_registerBuilder_replace (e : Engine C) (kind : Kind) {name : String}
    {first second : Builder C} (alike : first.Alike name second) :
    List.Forall₂ BuilderTable.Alike (e.registerBuilder kind name first).state.tables
      ((e.registerBuilder kind name first).state.registerBuilder kind name
        second).state.tables := by
  cases place : e.types.position? kind with
  | some i =>
      simp only [registerBuilder, place, List.modify_modify_eq]
      exact forall₂_modify (fun table => table.alike_replace alike) e.tables i
  | none =>
      simp only [registerBuilder, place]
      exact List.forall₂_same.mpr fun table _ => .refl table

/-- Engines with the same types and alike tables resolve every text alike. -/
theorem resolve_alike {e other : Engine C} (types : e.types.types = other.types.types)
    (casts : ∀ name, e.types.findCast? name = other.types.findCast? name)
    (tables : List.Forall₂ BuilderTable.Alike e.tables other.tables) (text : String) :
    e.resolve text = other.resolve text := by
  have literals (literal : String) : e.types.resolveLiteral (C := C) literal =
      other.types.resolveLiteral literal := by
    simp only [Registry.resolveLiteral, Registry.readLiteral?, types]
  have targets (cast : Option String) :
      e.types.resolveCast cast = other.types.resolveCast cast := by
    cases cast with
    | none => rfl
    | some name => simp only [Registry.resolveCast, casts, Registry.castNames, types]
  unfold resolve
  cases parsed : Expression.parse? text with
  | none => exact literals text
  | some expression =>
      have formed := Expression.isArgument_of_parse? parsed
      simp only [resolveExpression, targets]
      have found := find?_alike types tables expression.name
      generalize e.find? expression.name = first, other.find? expression.name = second at found ⊢
      cases found with
      | none => simp only [literals]
      | @some entry entry' same =>
          obtain ⟨owner, builder⟩ := entry
          obtain ⟨_, builder'⟩ := entry'
          obtain ⟨rfl, builders⟩ := same
          simp only [builders.instantiate owner formed]

end Engine

namespace Sheet

theorem exists_registerBuilder_of_build {s : Sheet} {overrides : List (String × String)}
    {engine : Engine Subject} {subject : Subject}
    (build : s.build overrides = .ok (engine, subject)) :
    ∃ last : Engine Subject,
      engine = (last.registerBuilder .number "round" roundBuilder).state := by
  obtain ⟨start, -, rest⟩ := (bind_eq_ok _ _ _).mp build
  obtain ⟨⟨last, known⟩, -, rest⟩ := (bind_eq_ok _ _ _).mp rest
  obtain ⟨next, added, same⟩ := (bind_eq_ok _ _ _).mp rest
  obtain ⟨rfl, -⟩ := Prod.mk.inj (Except.ok.inj same)
  refine ⟨last, ?_⟩
  have registered := (mapError_eq_ok _ _ _).mp added
  cases answer : (last.registerBuilder .number "round" roundBuilder).answer with
  | error error => simp [Registered.toExcept, answer, Except.map] at registered
  | ok _ =>
      simp only [Registered.toExcept, answer, Except.map, Except.ok.injEq] at registered
      exact registered.symm

theorem resolve_replace_round {s : Sheet} {overrides : List (String × String)}
    {engine : Engine Subject} {subject : Subject}
    (build : s.build overrides = .ok (engine, subject)) {builder : Builder Subject}
    (required : builder.required = 1)
    (same : ∀ target others, builder.build "round" (target :: others) =
      roundBuilder.build "round" (target :: others)) (text : String) :
    (engine.registerBuilder .number "round" builder).state.resolve text = engine.resolve text := by
  obtain ⟨last, rfl⟩ := exists_registerBuilder_of_build build
  have alike : roundBuilder.Alike "round" builder := by
    refine ⟨required.symm, ?_⟩
    intro arguments called
    cases arguments with
    | nil => exact absurd called.enough (by decide)
    | cons target others => exact (same target others).symm
  have types := Engine.types_registerBuilder
    (last.registerBuilder .number "round" roundBuilder).state .number "round" builder
  exact (Engine.resolve_alike (by rw [types]) (by simp [types])
    (last.tables_registerBuilder_replace .number alike) text).symm

end Sheet

/-- Builders are called with enough arguments, each of them trimmed, without a comma and over the
characters of a clause. So engines with the same types and names, whose builders ask for as many
arguments and agree on such calls, resolve every text alike; and the builder of `round` in a sheet
is never asked for a first argument that is not there. -/
theorem resolve_well_called :
    (∀ {C : Type} {start start' : Engine C}, Engine.Start start → Engine.Start start' →
      ∀ history history',
        let e := start.afterAll history
        let other := start'.afterAll history'
        e.types.types = other.types.types →
        List.Forall₂ BuilderTable.Alike e.tables other.tables →
        ∀ text, e.resolve text = other.resolve text) ∧
    ∀ (s : Sheet) (overrides : List (String × String)) (engine : Engine Subject)
      (subject : Subject), s.build overrides = .ok (engine, subject) →
      ∀ builder : Builder Subject, builder.required = 1 →
        (∀ target others, builder.build "round" (target :: others) =
          Sheet.roundBuilder.build "round" (target :: others)) →
        ∀ text, (engine.registerBuilder .number "round" builder).state.resolve text =
          engine.resolve text := by
  constructor
  · intro C start start' begun begun' history history' e other types tables text
    have consistent := (begun.recorded_afterAll history).consistent.types
    have consistent' := (begun'.recorded_afterAll history').consistent.types
    exact Engine.resolve_alike types (consistent.findCast?_congr consistent' types) tables text
  · intro s overrides engine subject build builder required same text
    exact Sheet.resolve_replace_round build required same text

/-- A builder that joins its arguments, and one that refuses besides to be called with none or with a
comma in the first; and a `round` with an error of its own for no arguments. -/
theorem resolve_well_called_joined :
    let joined : Builder Unit :=
      ⟨1, fun _ arguments => .ok (.constant (.text (",".intercalate arguments)))⟩
    let strict : Builder Unit :=
      ⟨1, fun name arguments => match arguments with
        | [] => .error (.invalidArgument name "" "no argument")
        | first :: others =>
            if ',' ∈ first.toList then .error (.invalidArgument name first "comma")
            else joined.build name (first :: others)⟩
    let round : Builder Subject :=
      ⟨1, fun name arguments => match arguments with
        | [] => .error (.invalidArgument name "" "no argument")
        | target :: others => Sheet.roundBuilder.build name (target :: others)⟩
    let first : Engine Unit := (Engine.builtin .standard).afterAll [.builder .text "join" joined]
    let second : Engine Unit := (Engine.builtin .standard).afterAll [.builder .text "join" strict]
    (∀ text, first.resolve text = second.resolve text) ∧
      ∃ engine subject, Sheet.empty.build [] = .ok (engine, subject) ∧
        (engine.registerBuilder .number "round" round).state.resolve "round" =
          engine.resolve "round" := by
  intro joined strict round first second
  have alike : joined.Alike "join" strict := by
    refine ⟨rfl, ?_⟩
    intro arguments called
    cases arguments with
    | nil => exact absurd called.enough (by decide)
    | cons argument others =>
        have noComma : ',' ∉ argument.toList := by
          intro comma
          exact ((called.formed argument (by simp)).chars ',' comma).2 rfl
        simp [strict, noComma]
  have tables : List.Forall₂ BuilderTable.Alike first.tables second.tables :=
    Engine.tables_registerBuilder_alike (.builtin .standard) .text alike
  have types : first.types.types = second.types.types := by
    have same (builder : Builder Unit) :=
      Engine.types_registerBuilder (.builtin .standard) .text "join" builder
    exact congrArg Registry.types ((same joined).trans (same strict).symm)
  obtain ⟨engine, subject, build⟩ : ∃ engine subject,
      Sheet.empty.build [] = .ok (engine, subject) := by
    apply Sheet.exists_build (show Sheet.empty.number.validate = .ok () from rfl)
    simp [Sheet.merged, Sheet.empty]
  refine ⟨?_, engine, subject, build, ?_⟩
  · exact resolve_well_called.1 .standard .standard _ _ types tables
  · exact resolve_well_called.2 _ _ engine subject build round rfl (fun _ _ => rfl) "round"

end Placeholders
