import Mathlib
import Placeholders.Engine.Basic

set_option autoImplicit false

namespace Placeholders

private theorem getElem?_concat_eq_some {α : Type} (xs : List α) (last x : α) (i : Nat) :
    (xs ++ [last])[i]? = some x ↔ xs[i]? = some x ∨ i = xs.length ∧ x = last := by
  rw [List.getElem?_append]
  split
  · rename_i inside
    exact ⟨Or.inl, fun found => found.resolve_right (fun bound => by omega)⟩
  · rename_i outside
    rw [List.getElem?_eq_none (Nat.le_of_not_lt outside), List.getElem?_singleton]
    split
    · have atEnd : i = xs.length := by omega
      simp [atEnd, eq_comm]
    · have beyond : i ≠ xs.length := by omega
      simp [beyond]

theorem findSome?_congr {α β : Type} {f g : α → Option β} (xs : List α)
    (same : ∀ x ∈ xs, f x = g x) : xs.findSome? f = xs.findSome? g := by
  induction xs with
  | nil => rfl
  | cons x xs ih =>
      rw [List.findSome?_cons, List.findSome?_cons, same x (by simp),
        ih (fun y member => same y (by simp [member]))]

/-- `places` holds exactly the keys of `types`, each with the place of its type. -/
def Indexes {K : Type} [BEq K] [Hashable K] (key : ValueType → K) (types : List ValueType)
    (places : Std.HashMap K Nat) : Prop :=
  ∀ k i, places[k]? = some i ↔ ∃ type, types[i]? = some type ∧ key type = k

namespace Indexes

variable {K : Type} [BEq K] [Hashable K] {key : ValueType → K} {types : List ValueType}
  {places : Std.HashMap K Nat}

theorem lt (indexes : Indexes key types places) {k : K} {i : Nat} (place : places[k]? = some i) :
    i < types.length := by
  obtain ⟨type, found, -⟩ := (indexes k i).mp place
  exact (List.getElem?_eq_some_iff.mp found).1

theorem place_unique (indexes : Indexes key types places) {i j : Nat} {left right : ValueType}
    (first : types[i]? = some left) (second : types[j]? = some right)
    (equal : key left = key right) : i = j := by
  have one := (indexes (key left) i).mpr ⟨left, first, rfl⟩
  have other := (indexes (key left) j).mpr ⟨right, second, equal.symm⟩
  rw [one] at other
  exact Option.some.inj other

theorem nodup (indexes : Indexes key types places) : (types.map key).Nodup := by
  rw [List.nodup_iff_pairwise_ne, List.pairwise_iff_getElem]
  intro i j hi hj before equal
  simp only [List.length_map] at hi hj
  simp only [List.getElem_map] at equal
  have same :=
    indexes.place_unique (List.getElem?_eq_getElem hi) (List.getElem?_eq_getElem hj) equal
  omega

theorem lookup_eq_some_iff (indexes : Indexes key types places) (k : K) (type : ValueType) :
    (places[k]?.bind fun i => types[i]?) = some type ↔ type ∈ types ∧ key type = k := by
  rw [Option.bind_eq_some_iff, List.mem_iff_getElem?]
  constructor
  · rintro ⟨i, place, here⟩
    obtain ⟨other, found, equal⟩ := (indexes k i).mp place
    rw [here, Option.some.injEq] at found
    exact ⟨⟨i, here⟩, found ▸ equal⟩
  · rintro ⟨⟨i, here⟩, equal⟩
    exact ⟨i, (indexes k i).mpr ⟨type, here, equal⟩, here⟩

variable [LawfulBEq K]

theorem empty : Indexes key [] (∅ : Std.HashMap K Nat) := by
  intro k i
  simp

/-- A type with a fresh key may be put at the end. -/
theorem push (indexes : Indexes key types places) (type : ValueType)
    (fresh : places[key type]? = none) :
    Indexes key (types ++ [type]) (places.insert (key type) types.length) := by
  intro k i
  simp only [Std.HashMap.getElem?_insert, getElem?_concat_eq_some]
  by_cases same : key type = k
  · subst same
    rw [if_pos BEq.rfl]
    constructor
    · intro place
      exact ⟨type, Or.inr ⟨(Option.some.inj place).symm, rfl⟩, rfl⟩
    · rintro ⟨other, old | ⟨rfl, -⟩, equal⟩
      · have place := (indexes (key type) i).mpr ⟨other, old, equal⟩
        rw [fresh] at place
        cases place
      · rfl
  · rw [if_neg (fun equal => same (eq_of_beq equal)), indexes k i]
    constructor
    · rintro ⟨other, found, equal⟩
      exact ⟨other, Or.inl found, equal⟩
    · rintro ⟨other, found | ⟨-, rfl⟩, equal⟩
      · exact ⟨other, found, equal⟩
      · exact absurd equal same

end Indexes

/-- The two indexes of a registry agree with its types. -/
structure Registry.Consistent (r : Registry) : Prop where
  kinds : Indexes (·.kind) r.types r.kindPlaces
  casts : Indexes (·.castName) r.types r.castPlaces

namespace Registry

theorem consistent_empty : empty.Consistent :=
  ⟨Indexes.empty, Indexes.empty⟩

theorem Consistent.push {r : Registry} (consistent : r.Consistent) (type : ValueType)
    (kind : r.kindPlaces[type.kind]? = none) (castName : r.castPlaces[type.castName]? = none) :
    (r.push type).Consistent :=
  ⟨consistent.kinds.push type kind, consistent.casts.push type castName⟩

/-- The built-in types are put in without a check; their kinds and cast names differ. -/
theorem consistent_builtin (format : NumberFormat) : (builtin format).Consistent := by
  have number := consistent_empty.push (.number format) (by simp [empty]) (by simp [empty])
  have string := number.push .string (by simp [Registry.push, empty, ValueType.number,
    ValueType.string]) (by simp [Registry.push, empty, ValueType.number, ValueType.string])
  exact string.push .boolean
    (by simp [Registry.push, empty, ValueType.number, ValueType.string, ValueType.boolean,
      ValueType.ofReader])
    (by simp [Registry.push, empty, ValueType.number, ValueType.string, ValueType.boolean,
      ValueType.ofReader])

theorem Consistent.findCast?_eq_some_iff {r : Registry} (consistent : r.Consistent)
    (castName : String) (type : ValueType) :
    r.findCast? castName = some type ↔ type ∈ r.types ∧ type.castName = castName :=
  consistent.casts.lookup_eq_some_iff castName type

theorem Consistent.findKind?_eq_some_iff {r : Registry} (consistent : r.Consistent)
    (kind : Kind) (type : ValueType) :
    r.findKind? kind = some type ↔ type ∈ r.types ∧ type.kind = kind :=
  consistent.kinds.lookup_eq_some_iff kind type

/-- A registration puts in a type with a new kind and a new cast name, or changes nothing. -/
theorem register_cases (r : Registry) (type : ValueType) :
    (r.kindPlaces[type.kind]? = none ∧ r.castPlaces[type.castName]? = none ∧
        r.register type = ⟨.ok r.types.length, r.push type⟩) ∨
      ∃ error, r.register type = ⟨.error error, r⟩ := by
  unfold register
  split
  · exact Or.inr ⟨_, rfl⟩
  · rename_i castName
    split
    · exact Or.inr ⟨_, rfl⟩
    · rename_i kind
      exact Or.inl ⟨by simpa using kind, by simpa using castName, rfl⟩

end Registry

def Registration.builder? {C : Type} (kind : Kind) (name : String) :
    Registration C → Option (Builder C)
  | .builder k n b => if k = kind ∧ n = name then some b else none
  | .type _ => none

def Registration.type? {C : Type} : Registration C → Option ValueType
  | .type t => some t
  | .builder .. => none

namespace Engine

variable {C : Type}

/-- The types are consistent, and each has one table. -/
structure Consistent (e : Engine C) : Prop where
  types : e.types.Consistent
  tables : e.tables.length = e.types.types.length

/-- The engines that registration begins with: without types, with the built-in types in the
standard format, and with the built-in types in any format that reads back. -/
inductive Start : Engine C → Prop
  | empty : Start .empty
  | standard : Start (.builtin .standard)
  | ofFormat {format : NumberFormat} {e : Engine C} (valid : ofFormat format = .ok e) : Start e

/-- The registrations of a history that succeed, in order. -/
def accepted (e : Engine C) : List (Registration C) → List (Registration C)
  | [] => []
  | call :: history =>
      match (e.register call).answer with
      | .ok _ => call :: accepted (e.register call).state history
      | .error _ => accepted (e.register call).state history

/-- The builder that the last of some registrations gives to a name under a kind. -/
def lastBuilder? (log : List (Registration C)) (kind : Kind) (name : String) :
    Option (Builder C) :=
  (log.filterMap (·.builder? kind name)).getLast?

/-- All that one registration can do: add a new type with an empty table, set a builder in the
table of its kind, or change nothing. -/
theorem register_cases (e : Engine C) (call : Registration C) :
    (∃ type, call = .type type ∧ e.types.kindPlaces[type.kind]? = none ∧
        e.types.castPlaces[type.castName]? = none ∧
        e.register call = ⟨.ok (), ⟨e.types.push type, e.tables ++ [.empty]⟩⟩) ∨
      (∃ kind name builder i, call = .builder kind name builder ∧
        e.types.position? kind = some i ∧
        e.register call =
          ⟨.ok (), { e with tables := e.tables.modify i (·.insert name builder) }⟩) ∨
      ∃ error, e.register call = ⟨.error error, e⟩ := by
  cases call with
  | type type =>
      rcases e.types.register_cases type with ⟨kind, castName, registered⟩ | ⟨error, refused⟩
      · refine Or.inl ⟨type, rfl, kind, castName, ?_⟩
        simp only [register, registerType, registered]
      · refine Or.inr (Or.inr ⟨error, ?_⟩)
        simp only [register, registerType, refused]
  | builder kind name builder =>
      cases place : e.types.position? kind with
      | some i =>
          refine Or.inr (Or.inl ⟨kind, name, builder, i, rfl, place, ?_⟩)
          simp only [register, registerBuilder, place]
      | none =>
          refine Or.inr (Or.inr ⟨.unknownKind kind name, ?_⟩)
          simp only [register, registerBuilder, place]

theorem state_of_refused (e : Engine C) (call : Registration C) (error : RegistrationError)
    (refused : (e.register call).answer = .error error) : (e.register call).state = e := by
  rcases e.register_cases call with ⟨_, -, -, -, added⟩ | ⟨_, _, _, _, -, -, set⟩ | ⟨_, same⟩
  · rw [added] at refused
    cases refused
  · rw [set] at refused
    cases refused
  · rw [same]

theorem lastBuilder?_nil (kind : Kind) (name : String) :
    lastBuilder? ([] : List (Registration C)) kind name = none :=
  rfl

theorem lastBuilder?_concat_type (log : List (Registration C)) (type : ValueType) (kind : Kind)
    (name : String) :
    lastBuilder? (log ++ [.type type]) kind name = lastBuilder? log kind name := by
  simp [lastBuilder?, Registration.builder?]

theorem lastBuilder?_concat_builder (log : List (Registration C)) (owner kind : Kind)
    (name other : String) (builder : Builder C) :
    lastBuilder? (log ++ [.builder owner name builder]) kind other =
      if owner = kind ∧ name = other then some builder else lastBuilder? log kind other := by
  by_cases same : owner = kind ∧ name = other <;>
    simp [lastBuilder?, Registration.builder?, same]

theorem lastBuilder?_eq_none_iff (log : List (Registration C)) (kind : Kind) (name : String) :
    lastBuilder? log kind name = none ↔ ∀ builder, .builder kind name builder ∉ log := by
  rw [lastBuilder?, List.getLast?_eq_none_iff, List.filterMap_eq_nil_iff]
  constructor
  · intro absent builder member
    simpa [Registration.builder?] using absent _ member
  · intro absent call member
    cases call with
    | type type => rfl
    | builder k n builder =>
        simp only [Registration.builder?]
        split
        · rename_i same
          obtain ⟨rfl, rfl⟩ := same
          exact absurd member (absent builder)
        · rfl

/-- `e` is what the registrations of `log`, all of them successful, make of an engine with the
types `first` and no builders. -/
structure Recorded (first : List ValueType) (log : List (Registration C)) (e : Engine C) :
    Prop where
  consistent : e.Consistent
  types : e.types.types = first ++ log.filterMap (·.type?)
  /-- Builders were only added under kinds that have a place. -/
  placed : ∀ kind name builder, .builder kind name builder ∈ log →
    ∃ i, e.types.position? kind = some i
  tables : ∀ (i : Nat) (type : ValueType) (table : BuilderTable C),
    e.types.types[i]? = some type → e.tables[i]? = some table →
    ∀ name, table.get? name = lastBuilder? log type.kind name

theorem consistent_ofTypes {types : Registry} (consistent : types.Consistent) :
    (ofTypes types : Engine C).Consistent :=
  ⟨consistent, by simp [ofTypes]⟩

theorem recorded_ofTypes {types : Registry} (consistent : types.Consistent) :
    Recorded types.types [] (ofTypes types : Engine C) where
  consistent := consistent_ofTypes consistent
  types := by simp [ofTypes]
  placed kind name builder member := by cases member
  tables i type table _ found name := by
    simp only [ofTypes, List.getElem?_map, Option.map_eq_some_iff] at found
    obtain ⟨-, -, rfl⟩ := found
    rw [BuilderTable.get?_empty, lastBuilder?_nil]

theorem eq_builtin_of_ofFormat {format : NumberFormat} {e : Engine C}
    (valid : ofFormat format = .ok e) : format.validate = .ok () ∧ e = builtin format := by
  cases checked : format.validate with
  | error error => simp [ofFormat, checked, bind, Except.bind] at valid
  | ok _ =>
      simp only [ofFormat, checked, bind, Except.bind, pure, Except.pure, Except.ok.injEq] at valid
      exact ⟨rfl, valid.symm⟩

theorem Start.recorded {e : Engine C} (begun : Start e) : Recorded e.types.types [] e := by
  cases begun with
  | empty => exact recorded_ofTypes Registry.consistent_empty
  | standard => exact recorded_ofTypes (Registry.consistent_builtin .standard)
  | @ofFormat format e valid =>
      obtain ⟨-, rfl⟩ := eq_builtin_of_ofFormat valid
      exact recorded_ofTypes (Registry.consistent_builtin format)

/-- A new type is not the kind of any earlier builder, so its empty table is right. -/
theorem Recorded.push {first : List ValueType} {log : List (Registration C)} {e : Engine C}
    (recorded : Recorded first log e) (type : ValueType)
    (kind : e.types.kindPlaces[type.kind]? = none)
    (castName : e.types.castPlaces[type.castName]? = none) :
    Recorded first (log ++ [.type type]) ⟨e.types.push type, e.tables ++ [.empty]⟩ where
  consistent := ⟨recorded.consistent.types.push type kind castName, by
    simp [Registry.push, recorded.consistent.tables]⟩
  types := by simp [Registry.push, recorded.types, Registration.type?]
  placed owner name builder member := by
    have old : .builder owner name builder ∈ log := by simpa using member
    obtain ⟨i, place⟩ := recorded.placed owner name builder old
    have different : type.kind ≠ owner := by
      rintro rfl
      rw [Registry.position?, kind] at place
      cases place
    refine ⟨i, ?_⟩
    simp only [Registry.position?, Registry.push, Std.HashMap.getElem?_insert,
      beq_eq_false_iff_ne.mpr different]
    exact place
  tables i other table found entry name := by
    rw [lastBuilder?_concat_type]
    rcases (getElem?_concat_eq_some _ _ _ _).mp found with old | ⟨rfl, rfl⟩
    · have bound := (List.getElem?_eq_some_iff.mp old).1
      rw [List.getElem?_append_left (by rw [recorded.consistent.tables]; exact bound)] at entry
      exact recorded.tables i other table old entry name
    · rw [← recorded.consistent.tables, List.getElem?_concat_length, Option.some.injEq] at entry
      subst entry
      rw [BuilderTable.get?_empty, eq_comm, lastBuilder?_eq_none_iff]
      intro builder member
      obtain ⟨i, place⟩ := recorded.placed other.kind name builder member
      rw [Registry.position?, kind] at place
      cases place

/-- A builder goes into the one table of its kind, and no other table changes. -/
theorem Recorded.insert {first : List ValueType} {log : List (Registration C)} {e : Engine C}
    (recorded : Recorded first log e) (kind : Kind) (name : String) (builder : Builder C) (i : Nat)
    (place : e.types.position? kind = some i) :
    Recorded first (log ++ [.builder kind name builder])
      { e with tables := e.tables.modify i (·.insert name builder) } where
  consistent := ⟨recorded.consistent.types, by simp [recorded.consistent.tables]⟩
  types := by simp [recorded.types, Registration.type?]
  placed owner other b member := by
    rcases List.mem_append.mp member with old | new
    · exact recorded.placed owner other b old
    · obtain ⟨rfl, -, -⟩ : owner = kind ∧ other = name ∧ b = builder := by simpa using new
      exact ⟨i, place⟩
  tables j type table found entry other := by
    obtain ⟨owner, here, ownerKind⟩ := (recorded.consistent.types.kinds kind i).mp place
    rw [lastBuilder?_concat_builder]
    by_cases same : i = j
    · subst same
      rw [here, Option.some.injEq] at found
      subst found
      rw [List.getElem?_modify_eq, Option.map_eq_map, Option.map_eq_some_iff] at entry
      obtain ⟨before, entry, rfl⟩ := entry
      rw [BuilderTable.get?_insert, recorded.tables i owner before here entry other]
      simp [ownerKind]
    · have different : kind ≠ type.kind := by
        intro equal
        exact same (recorded.consistent.types.kinds.place_unique here found
          (ownerKind.trans equal))
      rw [List.getElem?_modify_ne _ _ same] at entry
      rw [recorded.tables j type table found entry other]
      simp [different]

theorem accepted_cons (e : Engine C) (call : Registration C) (history : List (Registration C)) :
    e.accepted (call :: history) =
      e.accepted [call] ++ (e.register call).state.accepted history := by
  simp only [accepted]
  cases (e.register call).answer <;> rfl

/-- Step of the record: a registration joins the log if and only if it succeeds. -/
theorem Recorded.register {first : List ValueType} {log : List (Registration C)} {e : Engine C}
    (recorded : Recorded first log e) (call : Registration C) :
    Recorded first (log ++ e.accepted [call]) (e.register call).state := by
  simp only [accepted]
  rcases e.register_cases call with
    ⟨type, rfl, kind, castName, added⟩ | ⟨kind, name, builder, i, rfl, place, set⟩ | ⟨error, same⟩
  · rw [added]
    exact recorded.push type kind castName
  · rw [set]
    exact recorded.insert kind name builder i place
  · rw [same]
    simpa using recorded

theorem Recorded.afterAll {first : List ValueType} {log : List (Registration C)} {e : Engine C}
    (recorded : Recorded first log e) (history : List (Registration C)) :
    Recorded first (log ++ e.accepted history) (e.afterAll history) := by
  induction history generalizing log e with
  | nil => simpa [accepted, Engine.afterAll] using recorded
  | cons call history ih =>
      rw [accepted_cons, ← List.append_assoc]
      exact ih (recorded.register call)

theorem Start.recorded_afterAll {start : Engine C} (begun : Start start)
    (history : List (Registration C)) :
    Recorded start.types.types (start.accepted history) (start.afterAll history) := by
  simpa only [List.nil_append] using begun.recorded.afterAll history

theorem Recorded.contains_iff {first : List ValueType} {log : List (Registration C)}
    {e : Engine C} (recorded : Recorded first log e) (kind : Kind) (name : String) :
    e.contains kind name = true ↔ ∃ builder, .builder kind name builder ∈ log := by
  cases place : e.types.position? kind with
  | none =>
      simp only [contains, place, Bool.false_eq_true, false_iff]
      rintro ⟨builder, member⟩
      obtain ⟨i, found⟩ := recorded.placed kind name builder member
      rw [place] at found
      cases found
  | some i =>
      obtain ⟨type, here, rfl⟩ := (recorded.consistent.types.kinds kind i).mp place
      have bound : i < e.tables.length := by
        rw [recorded.consistent.tables]
        exact recorded.consistent.types.kinds.lt place
      have table := recorded.tables i type e.tables[i] here (List.getElem?_eq_getElem bound) name
      simp only [contains, place, List.getElem?_eq_getElem bound, Option.any_some,
        BuilderTable.contains_eq_isSome, table, Option.isSome_iff_ne_none, ne_eq,
        lastBuilder?_eq_none_iff]
      simp

theorem Recorded.find?_eq {first : List ValueType} {log : List (Registration C)} {e : Engine C}
    (recorded : Recorded first log e) (name : String) :
    e.find? name = e.types.types.findSome? fun type =>
      (lastBuilder? log type.kind name).map fun builder => (type, builder) := by
  have lengths : e.types.types.length ≤ e.tables.length :=
    Nat.le_of_eq recorded.consistent.tables.symm
  calc
    e.find? name = (e.types.types.zip e.tables).findSome? fun entry =>
        (lastBuilder? log entry.1.kind name).map fun builder => (entry.1, builder) := by
      apply findSome?_congr
      rintro ⟨type, table⟩ member
      obtain ⟨i, found⟩ := List.mem_iff_getElem?.mp member
      obtain ⟨here, entry⟩ := List.getElem?_zip_eq_some.mp found
      simp only [recorded.tables i type table here entry name]
    _ = ((e.types.types.zip e.tables).map Prod.fst).findSome? fun type =>
        (lastBuilder? log type.kind name).map fun builder => (type, builder) := by
      rw [List.findSome?_map]
      rfl
    _ = _ := by rw [List.map_fst_zip lengths]

/-- Registration keeps the indexes exact, one table for each type and the engine as it was when
a call is refused; the look-ups answer by the calls that succeeded: the first type with a
builder of the name, and the last builder that its kind was given. -/
theorem afterAll_answers {start : Engine C} (begun : Start start)
    (history : List (Registration C)) :
    let e := start.afterAll history
    let log := start.accepted history
    e.tables.length = e.types.types.length ∧
      Indexes (·.kind) e.types.types e.types.kindPlaces ∧
      Indexes (·.castName) e.types.types e.types.castPlaces ∧
      (e.types.types.map (·.kind)).Nodup ∧ (e.types.types.map (·.castName)).Nodup ∧
      (∀ (kind : Kind) (i : Nat), e.types.kindPlaces[kind]? = some i →
        i < e.types.types.length ∧ i < e.tables.length) ∧
      (∀ (castName : String) (i : Nat), e.types.castPlaces[castName]? = some i →
        i < e.types.types.length) ∧
      (∀ call error, (e.register call).answer = .error error → (e.register call).state = e) ∧
      e.types.types = start.types.types ++ log.filterMap (·.type?) ∧
      (∀ kind name, e.contains kind name = true ↔ ∃ builder, .builder kind name builder ∈ log) ∧
      ∀ name, e.find? name = e.types.types.findSome? fun type =>
        (lastBuilder? log type.kind name).map fun builder => (type, builder) := by
  intro e log
  have recorded : Recorded start.types.types log e := begun.recorded_afterAll history
  have kinds := recorded.consistent.types.kinds
  have casts := recorded.consistent.types.casts
  have tables := recorded.consistent.tables
  refine ⟨tables, kinds, casts, kinds.nodup, casts.nodup, ?_, ?_, e.state_of_refused,
    recorded.types, recorded.contains_iff, recorded.find?_eq⟩
  · intro kind i place
    exact ⟨kinds.lt place, by rw [tables]; exact kinds.lt place⟩
  · intro castName i place
    exact casts.lt place

/-- A kind that is taken, a name under two kinds, and a builder put in place of another. -/
theorem afterAll_answers_standard :
    let history : List (Registration Binary64) :=
      [.type .boolean, .supplier .text "health" fun _ => "full",
        .supplier .number "health" fun _ => .one, .supplier .number "health" id]
    let start : Engine Binary64 := .builtin .standard
    Start start ∧ (start.accepted history).length = 3 ∧
      ((start.afterAll history).find? "health").map (·.1.kind) = some .number ∧
      ∀ kind name, (start.afterAll history).contains kind name = true ↔
        ∃ builder, .builder kind name builder ∈ start.accepted history := by
  intro history start
  obtain ⟨-, -, -, -, -, -, -, -, -, contains, -⟩ := afterAll_answers .standard history
  exact ⟨.standard, by cbv, by cbv, contains⟩

end Engine

end Placeholders
