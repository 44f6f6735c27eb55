import Placeholders.Proofs.EditDistance
import Placeholders.Proofs.Registration
import Placeholders.Proofs.Resolution

set_option autoImplicit false

namespace Placeholders

namespace Text

/-- The least number of edits between a name and a candidate for it. -/
def distanceTo (name candidate : String) : Nat :=
  editDistance name.toList candidate.toList

/-- `ranked` lists the candidates that differ from `name` by one edit, or by up to two if the name
has more than three bytes: the nearer ones first, equally near ones as they are given. -/
structure Ranked (name : String) (available ranked : List String) : Prop where
  sorted : ranked.Pairwise fun s t => distanceTo name s ≤ distanceTo name t
  level : ∀ distance, (ranked.filter fun s => distanceTo name s == distance) =
    if 1 ≤ distance ∧ distance ≤ (if name.utf8ByteSize ≤ 3 then 1 else 2) then
      available.filter fun s => distanceTo name s == distance
    else []

section Levels

variable {α : Type} (key : α → Nat)

/-- In a list sorted by a key, no key is below that of the first entry. -/
theorem key_head_le {x y : α} {xs : List α} (sorted : (x :: xs).Pairwise fun a b => key a ≤ key b)
    (member : y ∈ x :: xs) : key x ≤ key y := by
  rcases List.mem_cons.mp member with rfl | later
  · exact Nat.le_refl _
  · exact List.rel_of_pairwise_cons sorted later

theorem mem_iff_of_levels {xs ys : List α}
    (levels : ∀ d, (xs.filter fun a => key a == d) = ys.filter fun a => key a == d) (z : α) :
    z ∈ xs ↔ z ∈ ys := by
  have level : (z ∈ xs.filter fun a => key a == key z) ↔ z ∈ ys.filter fun a => key a == key z := by
    rw [levels]
  simpa using level

/-- A sorted list is determined by what it holds at each level. -/
theorem eq_of_levels {xs ys : List α} (sortedXs : xs.Pairwise fun a b => key a ≤ key b)
    (sortedYs : ys.Pairwise fun a b => key a ≤ key b)
    (levels : ∀ d, (xs.filter fun a => key a == d) = ys.filter fun a => key a == d) : xs = ys := by
  have members := mem_iff_of_levels key levels
  induction xs generalizing ys with
  | nil => exact (List.eq_nil_iff_forall_not_mem.mpr fun y => by simp [← members y]).symm
  | cons x xs ih =>
      cases ys with
      | nil => exact absurd ((members x).mp List.mem_cons_self) List.not_mem_nil
      | cons y ys =>
          have same : key y = key x := Nat.le_antisymm
            (key_head_le key sortedYs ((members x).mp List.mem_cons_self))
            (key_head_le key sortedXs ((members y).mpr List.mem_cons_self))
          have first := levels (key x)
          simp only [List.filter_cons, same, beq_self_eq_true, if_true, List.cons.injEq] at first
          obtain ⟨rfl, -⟩ := first
          have others (d : Nat) :
              (xs.filter fun a => key a == d) = ys.filter fun a => key a == d := by
            have level := levels d
            simp only [List.filter_cons] at level
            split at level
            · exact (List.cons.inj level).2
            · exact level
          rw [ih sortedXs.of_cons sortedYs.of_cons others (mem_iff_of_levels key others)]

def byLevel (levels : List Nat) (xs : List α) : List α :=
  levels.flatMap fun level => xs.filter fun a => key a == level

theorem sorted_byLevel (start count : Nat) (xs : List α) :
    (byLevel key (List.range' start count) xs).Pairwise fun a b => key a ≤ key b := by
  have atLevel {level : Nat} {a : α} (member : a ∈ xs.filter fun a => key a == level) :
      key a = level := by
    simpa using (List.mem_filter.mp member).2
  rw [byLevel, List.pairwise_flatMap]
  constructor
  · intro level _
    rw [List.pairwise_iff_forall_sublist]
    intro a b both
    have members := both.subset
    rw [atLevel (members (by simp)), atLevel (members (by simp))]
  · apply (List.pairwise_lt_range' (s := start) (n := count)).imp
    intro level next below a first b second
    rw [atLevel first, atLevel second]
    exact Nat.le_of_lt below

theorem filter_byLevel (start count : Nat) (xs : List α) (d : Nat) :
    ((byLevel key (List.range' start count) xs).filter fun a => key a == d) =
      if start ≤ d ∧ d < start + count then xs.filter fun a => key a == d else [] := by
  induction count generalizing start with
  | zero =>
      rw [if_neg (by omega)]
      rfl
  | succ count ih =>
      rw [byLevel, List.range'_succ, List.flatMap_cons, List.filter_append, ← byLevel, ih,
        List.filter_filter]
      by_cases here : start = d
      · subst here
        rw [if_neg (by omega), if_pos (by omega), List.append_nil]
        simp
      · have foreign : (xs.filter fun a => key a == d && key a == start) = [] := by
          rw [List.filter_eq_nil_iff]
          intro a _
          simp only [Bool.and_eq_true, beq_iff_eq]
          omega
        rw [foreign, List.nil_append]
        exact if_congr (by omega) rfl rfl

end Levels

def ranking (name : String) (available : List String) : List String :=
  byLevel (distanceTo name) (List.range' 1 (suggestionLimit name)) available

theorem suggestions_eq_take (name : String) (available : List String) :
    suggestions name available = (ranking name available).take 3 :=
  rfl

theorem ranked_ranking (name : String) (available : List String) :
    Ranked name available (ranking name available) where
  sorted := sorted_byLevel _ _ _ _
  level distance := by
    rw [ranking, filter_byLevel, suggestionLimit]
    exact if_congr (by omega) rfl rfl

theorem Ranked.unique {name : String} {available ranked other : List String}
    (first : Ranked name available ranked) (second : Ranked name available other) :
    ranked = other :=
  eq_of_levels _ first.sorted second.sorted fun d => (first.level d).trans (second.level d).symm

theorem Ranked.mem_iff {name : String} {available ranked : List String}
    (isRanked : Ranked name available ranked) (candidate : String) :
    candidate ∈ ranked ↔ candidate ∈ available ∧ 1 ≤ distanceTo name candidate ∧
      distanceTo name candidate ≤ if name.utf8ByteSize ≤ 3 then 1 else 2 := by
  have level := isRanked.level (distanceTo name candidate)
  have kept : candidate ∈ ranked ↔
      candidate ∈ ranked.filter fun s => distanceTo name s == distanceTo name candidate := by
    simp
  rw [kept, level]
  by_cases near : 1 ≤ distanceTo name candidate ∧
      distanceTo name candidate ≤ if name.utf8ByteSize ≤ 3 then 1 else 2
  · rw [if_pos near]
    simp only [List.mem_filter, beq_self_eq_true, and_true, near]
  · rw [if_neg near]
    simp only [List.not_mem_nil, near, and_false]

/-- A suggestion is one of the candidates, and not the name itself. -/
theorem of_mem_suggestions {name suggestion : String} {available : List String}
    (member : suggestion ∈ suggestions name available) :
    suggestion ∈ available ∧ suggestion ≠ name := by
  rw [suggestions_eq_take] at member
  obtain ⟨given, positive, -⟩ :=
    ((ranked_ranking name available).mem_iff suggestion).mp (List.mem_of_mem_take member)
  refine ⟨given, ?_⟩
  rintro rfl
  rw [distanceTo, editDistance_self] at positive
  exact absurd positive (by decide)

/-- A candidate that is left out is the name itself or no nearer than one that is not. -/
theorem Ranked.le_of_notMem_take {name : String} {available ranked : List String}
    (isRanked : Ranked name available ranked) {count : Nat} {listed omitted : String}
    (shown : listed ∈ ranked.take count) (given : omitted ∈ available)
    (left : omitted ∉ ranked.take count) (other : omitted ≠ name) :
    distanceTo name listed ≤ distanceTo name omitted := by
  have positive : 1 ≤ distanceTo name omitted := by
    apply Nat.pos_of_ne_zero
    intro zero
    exact other (String.toList_injective ((editDistance_eq_zero_iff _ _).mp zero)).symm
  by_cases member : omitted ∈ ranked
  · have sorted := isRanked.sorted
    rw [← List.take_append_drop count ranked] at member sorted
    have later := (List.mem_append.mp member).resolve_left left
    exact (List.pairwise_append.mp sorted).2.2 listed shown omitted later
  · have near := ((isRanked.mem_iff listed).mp (List.mem_of_mem_take shown)).2.2
    rw [isRanked.mem_iff] at member
    exact near.trans (Nat.le_of_not_le fun close => member ⟨given, positive, close⟩)

end Text

/-- The suggestions for a name are the first three, or all, of the candidates near it, ranked by
the length of a shortest edit script and then by the order in which they are given; so no other
name that is left out is nearer than one that is listed. The error of an unknown cast suggests
cast names of the engine that differ from the one in the text, unless a builder made the error. -/
theorem suggestions_nearest :
    (∀ s t : String, IsLeast {n | Text.Edits n s.toList t.toList} (Text.distanceTo s t)) ∧
    (∀ (name : String) (available : List String),
      (∃! ranked, Text.Ranked name available ranked) ∧
      (∀ ranked, Text.Ranked name available ranked →
        Text.suggestions name available = ranked.take 3) ∧
      ∀ listed ∈ Text.suggestions name available, ∀ omitted ∈ available,
        omitted ∉ Text.suggestions name available → omitted ≠ name →
          Text.distanceTo name listed ≤ Text.distanceTo name omitted) ∧
    ∀ {C : Type} (e : Engine C) (text castName : String) (suggestions : List String),
      e.resolve text = .error (.unknownCast castName suggestions) →
      ∃ expression, Expression.parse? text = some expression ∧
        (expression.cast = some castName ∧ e.types.findCast? castName = none ∧
            suggestions = Text.suggestions castName e.types.castNames ∧
            (∀ suggestion ∈ suggestions, suggestion ∈ e.types.castNames ∧ suggestion ≠ castName) ∨
          ∃ owner builder, e.find? expression.name = some (owner, builder) ∧
            builder.build expression.name expression.arguments =
              .error (.unknownCast castName suggestions)) := by
  have start {name : String} {available ranked : List String}
      (isRanked : Text.Ranked name available ranked) :
      Text.suggestions name available = ranked.take 3 := by
    rw [isRanked.unique (Text.ranked_ranking name available), Text.suggestions_eq_take]
  refine ⟨fun s t => Text.isLeast_editDistance _ _, fun name available => ⟨?_, ?_, ?_⟩, ?_⟩
  · exact ⟨_, Text.ranked_ranking name available, fun other isRanked =>
      isRanked.unique (Text.ranked_ranking name available)⟩
  · exact fun ranked isRanked => start isRanked
  · rw [Text.suggestions_eq_take]
    intro listed shown omitted given left other
    exact (Text.ranked_ranking name available).le_of_notMem_take shown given left other
  · intro C e text castName suggestions failed
    obtain ⟨expression, parsed, ⟨given, unknown, rfl⟩ | built⟩ := Engine.resolve_eq_unknownCast failed
    · refine ⟨expression, parsed, Or.inl ⟨given, unknown, rfl, ?_⟩⟩
      intro suggestion member
      exact Text.of_mem_suggestions member
    · exact ⟨expression, parsed, Or.inr built⟩

/-- Two characters in four bytes, with three equally near candidates, the name itself and a farther
candidate; and an engine's cast names for a misspelt one. -/
theorem suggestions_nearest_accents :
    let available := ["e", "éé", "é", "aé", "éa"]
    Text.suggestions "éé" available = ["é", "aé", "éa"] ∧
      Text.distanceTo "éé" "aé" ≤ Text.distanceTo "éé" "e" ∧
      (Engine.builtin .standard : Engine Binary64).resolve "(strin)7" =
        .error (.unknownCast "strin" ["string"]) ∧
      "string" ∈ (Registry.builtin .standard).castNames ∧ "string" ≠ "strin" := by
  intro available
  obtain ⟨-, ranking, casts⟩ := suggestions_nearest
  have listed : Text.suggestions "éé" available = ["é", "aé", "éa"] := by decide +kernel
  have unknown (format : NumberFormat) : (Engine.builtin format : Engine Binary64).resolve
      "(strin)7" = .error (.unknownCast "strin" ["string"]) := by cbv
  obtain ⟨expression, parsed, ⟨-, -, -, known⟩ | ⟨owner, builder, found, -⟩⟩ :=
    casts _ _ _ _ (unknown .standard)
  · refine ⟨listed, ?_, unknown .standard, known "string" (by simp)⟩
    exact (ranking "éé" available).2.2 "aé" (by simp [listed]) "e" (by decide) (by simp [listed])
      (by decide)
  · cases found

/-- Both exceptions are real: a candidate equal to the name is the nearest, but is not listed; and
what a builder suggests need not be a cast name, and may be the name itself. -/
theorem suggestions_exceptions :
    let e : Engine Binary64 := (Engine.builtin .standard).afterAll
      [.builder .number "door" ⟨0, fun _ _ => .error (.unknownCast "number" ["nope", "number"])⟩]
    (Text.suggestions "ab" ["ab", "abc"] = ["abc"] ∧
      Text.distanceTo "ab" "ab" < Text.distanceTo "ab" "abc") ∧
    e.resolve "door" = .error (.unknownCast "number" ["nope", "number"]) ∧
      "nope" ∉ e.types.castNames := by
  have built (format : NumberFormat) :
      let e : Engine Binary64 := (Engine.builtin format).afterAll
        [.builder .number "door" ⟨0, fun _ _ => .error (.unknownCast "number" ["nope", "number"])⟩]
      e.resolve "door" = .error (.unknownCast "number" ["nope", "number"]) ∧
        e.types.castNames = ["number", "string", "boolean"] := by
    constructor <;> cbv
  obtain ⟨passed, names⟩ := built .standard
  intro e
  refine ⟨⟨by decide +kernel, by decide +kernel⟩, passed, ?_⟩
  rw [names]
  decide

end Placeholders
