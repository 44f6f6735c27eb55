import Placeholders.Proofs.Registration
import Placeholders.Proofs.Resolution

set_option autoImplicit false

namespace Placeholders

namespace Registry

theorem Consistent.findCast?_push {r : Registry} (consistent : r.Consistent) {type : ValueType}
    (kind : r.kindPlaces[type.kind]? = none) (castName : r.castPlaces[type.castName]? = none)
    {name : String} {target : ValueType} (found : r.findCast? name = some target) :
    (r.push type).findCast? name = some target := by
  obtain ⟨member, named⟩ := (consistent.findCast?_eq_some_iff _ _).mp found
  apply ((consistent.push type kind castName).findCast?_eq_some_iff _ _).mpr
  exact ⟨List.mem_append_left _ member, named⟩

theorem Consistent.resolveCast_push {r : Registry} (consistent : r.Consistent) {type : ValueType}
    (kind : r.kindPlaces[type.kind]? = none) (castName : r.castPlaces[type.castName]? = none)
    {cast : Option String} {target : Option ValueType} (resolved : r.resolveCast cast = .ok target) :
    (r.push type).resolveCast cast = .ok target := by
  rw [resolveCast_eq_ok] at resolved ⊢
  rcases resolved with none | ⟨name, found, given, known, rfl⟩
  · exact Or.inl none
  · exact Or.inr ⟨name, found, given, consistent.findCast?_push kind castName known, rfl⟩

theorem resolveLiteral_push {C : Type} {r : Registry} {text : String} {p : Placeholder C}
    (type : ValueType) (resolved : r.resolveLiteral text = .ok p) :
    (r.push type).resolveLiteral text = .ok p := by
  rw [resolveLiteral_eq_ok] at resolved ⊢
  obtain ⟨value, read, rfl⟩ := resolved
  refine ⟨value, ?_, rfl⟩
  have extended : (r.push type).readLiteral? text =
      (r.readLiteral? text).or ([type].findSome? (·.readLiteral? text)) := List.findSome?_append
  rw [extended, read, Option.some_or]

end Registry

namespace Engine

variable {C : Type}

theorem Consistent.find?_push {e : Engine C} (consistent : e.Consistent) (type : ValueType)
    (name : String) :
    (⟨e.types.push type, e.tables ++ [.empty]⟩ : Engine C).find? name = e.find? name := by
  have zipped : (e.types.types ++ [type]).zip (e.tables ++ [.empty]) =
      e.types.types.zip e.tables ++ [(type, .empty)] :=
    List.zip_append consistent.tables.symm
  simp only [find?, Registry.push, zipped, List.findSome?_append, List.findSome?_cons,
    List.findSome?_nil, BuilderTable.get?_empty, Option.map_none, Option.or_none]

theorem Consistent.resolve_push {e : Engine C} (consistent : e.Consistent) {type : ValueType}
    (kind : e.types.kindPlaces[type.kind]? = none)
    (castName : e.types.castPlaces[type.castName]? = none) {text : String} {p : Placeholder C}
    (resolved : e.resolve text = .ok p) :
    (⟨e.types.push type, e.tables ++ [.empty]⟩ : Engine C).resolve text = .ok p := by
  unfold resolve at resolved ⊢
  cases parsed : Expression.parse? text with
  | none =>
      rw [parsed] at resolved
      exact Registry.resolveLiteral_push type resolved
  | some expression =>
      rw [parsed] at resolved
      obtain ⟨target, cast, found⟩ := (e.resolveExpression_eq_ok expression p).mp resolved
      apply (resolveExpression_eq_ok _ expression p).mpr
      refine ⟨target, consistent.types.resolveCast_push kind castName cast, ?_⟩
      rw [consistent.find?_push]
      rcases found with ⟨absent, literal⟩ | built
      · exact Or.inl ⟨absent, Registry.resolveLiteral_push type literal⟩
      · exact Or.inr built

theorem resolve_congr {e other : Engine C} (types : other.types = e.types) {text : String}
    (found : ∀ expression, Expression.parse? text = some expression →
      other.find? expression.name = e.find? expression.name) :
    other.resolve text = e.resolve text := by
  unfold resolve
  cases parsed : Expression.parse? text with
  | none => simp only [resolveLiteral, types]
  | some expression => simp only [resolveExpression, types, found expression parsed]

theorem Recorded.find?_insert_of_ne {first : List ValueType} {log : List (Registration C)}
    {e : Engine C} (recorded : Recorded first log e) {kind : Kind} {name other : String}
    (builder : Builder C) {i : Nat} (place : e.types.position? kind = some i)
    (different : other ≠ name) :
    ({ e with tables := e.tables.modify i (·.insert name builder) } : Engine C).find? other =
      e.find? other := by
  rw [(recorded.insert kind name builder i place).find?_eq, recorded.find?_eq]
  apply findSome?_congr
  intro type _
  rw [lastBuilder?_concat_builder, if_neg fun same => different same.2.symm]

/-- A builder under a later kind stays hidden behind the one that is found first. -/
theorem Recorded.find?_insert_of_earlier {first : List ValueType} {log : List (Registration C)}
    {e : Engine C} (recorded : Recorded first log e) {kind earlier : Kind} {name : String}
    (builder : Builder C) {i j : Nat} (place : e.types.position? kind = some j)
    (earlierPlace : e.types.position? earlier = some i) (before : i < j)
    (known : e.contains earlier name = true) :
    ({ e with tables := e.tables.modify j (·.insert name builder) } : Engine C).find? name =
      e.find? name := by
  have kinds := recorded.consistent.types.kinds
  obtain ⟨owner, here, rfl⟩ := (kinds earlier i).mp earlierPlace
  obtain ⟨last, there, rfl⟩ := (kinds kind j).mp place
  obtain ⟨old, member⟩ := (recorded.contains_iff _ _).mp known
  rw [(recorded.insert last.kind name builder j place).find?_eq, recorded.find?_eq]
  -- Up to the earlier type the two look-ups agree, and they end there at the latest.
  have agree : ∀ type ∈ e.types.types.take (i + 1),
      ((lastBuilder? (log ++ [.builder last.kind name builder]) type.kind name).map
        fun b => (type, b)) = (lastBuilder? log type.kind name).map fun b => (type, b) := by
    intro type taken
    obtain ⟨k, bound, rfl⟩ := List.mem_take_iff_getElem.mp taken
    have different : last.kind ≠ e.types.types[k].kind := by
      intro same
      have := kinds.place_unique there (List.getElem?_eq_getElem (by omega)) same
      omega
    rw [lastBuilder?_concat_builder, if_neg fun both => different both.1]
  have ends : ((e.types.types.take (i + 1)).findSome? fun type =>
      (lastBuilder? log type.kind name).map fun b => (type, b)).isSome = true := by
    rw [List.findSome?_isSome_iff]
    refine ⟨owner, List.mem_of_getElem? (i := i) (by simpa using here), ?_⟩
    rw [Option.isSome_map, Option.isSome_iff_ne_none, ne_eq, lastBuilder?_eq_none_iff]
    exact fun absent => absent old member
  rw [← List.take_append_drop (i + 1) e.types.types, List.findSome?_append,
    List.findSome?_append, findSome?_congr _ agree]
  obtain ⟨entry, found⟩ := Option.isSome_iff_exists.mp ends
  rw [found, Option.some_or, Option.some_or]

/-- A builder is seen by no text but the expressions of its name, and by none at all if an earlier
type has a builder of its name. -/
theorem Recorded.resolve_registerBuilder {first : List ValueType} {log : List (Registration C)}
    {e : Engine C} (recorded : Recorded first log e) (kind : Kind) (name : String)
    (builder : Builder C) {text : String}
    (hidden : (∀ expression, Expression.parse? text = some expression → expression.name ≠ name) ∨
      ∃ earlier i j, e.types.position? earlier = some i ∧ e.types.position? kind = some j ∧
        i < j ∧ e.contains earlier name = true) :
    (e.registerBuilder kind name builder).state.resolve text = e.resolve text := by
  change (e.register (.builder kind name builder)).state.resolve text = e.resolve text
  rcases e.register_cases (.builder kind name builder) with
    ⟨_, other, -⟩ | ⟨_, _, _, j, same, place, step⟩ | ⟨error, step⟩
  · cases other
  · obtain ⟨rfl, rfl, rfl⟩ := Registration.builder.inj same
    rw [step]
    refine resolve_congr (by rfl) ?_
    intro expression parsed
    by_cases mentioned : expression.name = name
    · rcases hidden with other | ⟨earlier, i, _, earlierPlace, samePlace, before, known⟩
      · exact absurd mentioned (other expression parsed)
      · obtain rfl := Option.some.inj (place.symm.trans samePlace)
        rw [mentioned]
        exact recorded.find?_insert_of_earlier builder place earlierPlace before known
    · exact recorded.find?_insert_of_ne builder place mentioned
  · rw [step]

theorem Recorded.resolve_registerType {first : List ValueType} {log : List (Registration C)}
    {e : Engine C} (recorded : Recorded first log e) (type : ValueType) {text : String}
    {p : Placeholder C} (resolved : e.resolve text = .ok p) :
    (e.registerType type).state.resolve text = .ok p := by
  change (e.register (.type type)).state.resolve text = .ok p
  rcases e.register_cases (.type type) with
    ⟨_, same, kind, castName, step⟩ | ⟨_, _, _, _, same, -⟩ | ⟨error, step⟩
  · obtain rfl := Registration.type.inj same
    rw [step]
    exact recorded.consistent.resolve_push kind castName resolved
  · cases same
  · rw [step]
    exact resolved

/-- Registration keeps what resolves. A new type changes no text that resolved; a new builder
changes no text, resolved or not, that mentions another name or none, and no text at all if an
earlier type has a builder of its name. -/
theorem register_extends {start : Engine C} (begun : Start start)
    (history : List (Registration C)) :
    let e := start.afterAll history
    (∀ type, (e.registerType type).answer = .ok () → ∀ text p, e.resolve text = .ok p →
      (e.registerType type).state.resolve text = .ok p) ∧
    ∀ kind name builder, (e.registerBuilder kind name builder).answer = .ok () → ∀ text,
      ((∀ expression, Expression.parse? text = some expression → expression.name ≠ name) ∨
        ∃ earlier i j, e.types.position? earlier = some i ∧ e.types.position? kind = some j ∧
          i < j ∧ e.contains earlier name = true) →
      (e.registerBuilder kind name builder).state.resolve text = e.resolve text := by
  intro e
  have recorded := begun.recorded_afterAll history
  constructor
  · intro type _ text p resolved
    exact recorded.resolve_registerType type resolved
  · intro kind name builder _ text hidden
    exact recorded.resolve_registerBuilder kind name builder hidden

/-- Numbers added to truth values and texts, a builder hidden behind that of an earlier type, and one
of another name. -/
theorem register_extends_text :
    let history : List (Registration Bool) :=
      [.type .boolean, .type .string, .supplier .boolean "open" id]
    let e : Engine Bool := Engine.empty.afterAll history
    let door : Builder Bool := .ofPlaceholder (.supply .text fun _ => "door")
    (∃ p, e.resolve "(string)open" = .ok p ∧
      (e.registerType (.number .standard)).state.resolve "(string)open" = .ok p) ∧
      (e.registerBuilder .text "open" door).state.resolve "(string)open" =
        e.resolve "(string)open" ∧
      (e.registerBuilder .boolean "shut" door).state.resolve "open" = e.resolve "open" := by
  have look (format : NumberFormat) :
      let e : Engine Bool :=
        Engine.empty.afterAll [.type .boolean, .type .string, .supplier .boolean "open" id]
      (e.resolve "(string)open").toOption.isSome = true ∧
        (e.registerType (.number format)).answer = .ok () ∧
        e.types.position? .boolean = some 0 ∧ e.types.position? .text = some 1 ∧
        e.contains .boolean "open" = true := by
    refine ⟨?_, ?_, ?_, ?_, ?_⟩ <;> cbv
  intro history e door
  obtain ⟨resolves, added, earlier, later, known⟩ := look .standard
  have hidden : (e.registerBuilder .text "open" door).answer = .ok () := by
    rw [registerBuilder, later]
  have apart : (e.registerBuilder .boolean "shut" door).answer = .ok () := by
    rw [registerBuilder, earlier]
  have bare : Expression.parse? "open" = some ⟨none, "open", []⟩ := by decide +kernel
  obtain ⟨types, builders⟩ := register_extends .empty history
  obtain ⟨p, resolved⟩ : ∃ p, e.resolve "(string)open" = .ok p := by
    cases found : e.resolve "(string)open" with
    | error error =>
        change (e.resolve _).toOption.isSome = true at resolves
        rw [found] at resolves
        cases resolves
    | ok p => exact ⟨p, rfl⟩
  refine ⟨⟨p, resolved, types _ added _ p resolved⟩, ?_, ?_⟩
  · exact builders _ _ _ hidden _
      (Or.inr ⟨.boolean, 0, 1, earlier, later, by decide, known⟩)
  · refine builders _ _ _ apart _ (Or.inl ?_)
    intro expression parsed
    rw [bare, Option.some.injEq] at parsed
    subst parsed
    decide

end Engine

end Placeholders
