import Placeholders.Proofs.Calls

set_option autoImplicit false

namespace Placeholders.Expression

theorem mem_intercalate_cases {separator c : Char} {pieces : List (List Char)}
    (member : c ∈ [separator].intercalate pieces) : c = separator ∨ ∃ piece ∈ pieces, c ∈ piece := by
  induction pieces with
  | nil => cases member
  | cons piece pieces ih =>
      by_cases last : pieces = []
      · subst last
        rw [List.intercalate_singleton] at member
        exact Or.inr ⟨piece, List.mem_cons_self, member⟩
      · rw [List.intercalate_cons_of_ne_nil last, List.mem_append, List.mem_append] at member
        rcases member with (inside | between) | later
        · exact Or.inr ⟨piece, List.mem_cons_self, inside⟩
        · exact Or.inl (List.mem_singleton.mp between)
        · rcases ih later with between | ⟨other, there, inside⟩
          · exact Or.inl between
          · exact Or.inr ⟨other, List.mem_cons_of_mem _ there, inside⟩

def tailText (arguments : List String) : List Char :=
  if arguments = [] then [] else ':' :: [','].intercalate (arguments.map String.toList)

theorem toList_text (e : Expression) :
    e.text.toList =
      (match e.cast with | some cast => '(' :: cast.toList ++ [')'] | none => []) ++
        e.name.toList ++ tailText e.arguments := by
  obtain ⟨cast, name, arguments⟩ := e
  have tail : (if arguments = [] then "" else ":" ++ ",".intercalate arguments).toList =
      tailText arguments := by
    rw [tailText]
    split
    · rfl
    · rw [String.toList_append, String.toList_intercalate]
      rfl
  rw [text, String.toList_append, String.toList_append, tail]
  cases cast with
  | none => rfl
  | some cast =>
      simp only [String.toList_append]
      rfl

theorem Lists.ne_blank {tail : List Char} {arguments : List String}
    (lists : Lists tail arguments) : arguments ≠ [""] := by
  cases lists with
  | absent | blank => simp
  | @pieces clause pieces written joined apart =>
      intro single
      obtain ⟨piece, rfl, empty⟩ := List.map_eq_singleton_iff.mp single
      have blank : Text.isBlankText piece = true := by
        rw [← Text.trim_eq_nil_iff]
        exact String.ofList_eq_empty_iff.mp empty
      have alone : [','].intercalate [piece] = piece := by simp
      obtain ⟨c, member, solid⟩ := written
      rw [← joined, alone] at member
      rw [(Text.isBlankText_iff piece).mp blank c member] at solid
      cases solid

/-- What is written for arguments is not blank: there is a comma, or the only argument has text. -/
theorem exists_solid {arguments : List String}
    (formed : ∀ argument ∈ arguments, IsArgument argument.toList) (present : arguments ≠ [])
    (notBlank : arguments ≠ [""]) :
    ∃ c ∈ [','].intercalate (arguments.map String.toList), Text.isBlank c = false := by
  match arguments with
  | [] => exact absurd rfl present
  | [argument] =>
      have text : argument.toList ≠ [] := fun empty => notBlank (by simpa using empty)
      obtain ⟨c, cs, layout⟩ := List.exists_cons_of_ne_nil text
      have trimmed := (formed argument (by simp)).trimmed
      refine ⟨c, by simp [layout], trimmed.first c (by simp [layout])⟩
  | argument :: next :: others =>
      refine ⟨',', ?_, by decide⟩
      rw [List.map_cons, List.map_cons, List.intercalate_cons_cons]
      simp

/-- Arguments with the properties of parsed ones are read back from what is written for them. -/
theorem lists_tailText {arguments : List String}
    (formed : ∀ argument ∈ arguments, IsArgument argument.toList) (notBlank : arguments ≠ [""]) :
    Tail (tailText arguments) ∧ Lists (tailText arguments) arguments := by
  rw [tailText]
  split
  · rename_i absent
    subst absent
    exact ⟨.absent, .absent⟩
  · rename_i present
    constructor
    · refine .clause fun c member => ?_
      rcases mem_intercalate_cases member with rfl | ⟨piece, there, inside⟩
      · exact Or.inr List.mem_cons_self
      · obtain ⟨argument, given, rfl⟩ := List.mem_map.mp there
        exact ((formed argument given).chars c inside).1
    · have read : (arguments.map String.toList).map (fun piece => String.ofList (Text.trim piece)) =
          arguments := by
        rw [List.map_map]
        conv => rhs; rw [← List.map_id arguments]
        apply List.map_congr_left
        intro argument given
        rw [Function.comp_apply, (formed argument given).trimmed.trim_eq, String.ofList_toList, id]
      have lists := Lists.pieces (exists_solid formed present notBlank) rfl ?_
      rwa [read] at lists
      intro piece there
      obtain ⟨argument, given, rfl⟩ := List.mem_map.mp there
      exact fun comma => ((formed argument given).chars _ comma).2 rfl

/-- Whether a name can be read as a cast and a name is settled before its tail. -/
theorem hasCastForm_of_tail {name tail other : List Char} (word : Word NameChar name)
    (here : Tail tail) (there : Tail other) (cast : HasCastForm (name ++ tail)) :
    HasCastForm (name ++ other) := by
  obtain ⟨castName, inner, after, form⟩ := cast
  have whole : BareForm (name ++ tail) ('(' :: castName ++ ')' :: inner) after := by
    refine ⟨by simp [form.layout], ⟨by simp, ?_⟩, form.tail⟩
    intro c member
    simp only [List.cons_append, List.mem_cons, List.mem_append] at member
    rcases member with rfl | inCast | rfl | inName
    · exact Or.inr (Or.inl rfl)
    · exact Or.inl (form.cast.2 c inCast)
    · exact Or.inr (Or.inr rfl)
    · exact form.name.2 c inName
  obtain ⟨rfl, rfl⟩ := whole.unique ⟨rfl, word, here⟩
  exact ⟨castName, inner, other, by simp, form.cast, form.name, there⟩

theorem parse?_of_text {s : String} {e : Expression} (read : parse? s = some e) :
    parse? e.text = some e := by
  have formed := isArgument_of_parse? read
  rcases (parse?_eq_some_iff _ _).mp read with
    ⟨cast, name, tail, arguments, form, lists, rfl⟩ | ⟨bare, name, tail, arguments, form, lists, rfl⟩
  · obtain ⟨written, listed⟩ := lists_tailText formed lists.ne_blank
    refine (parse?_eq_some_iff _ _).mpr (Or.inl ⟨cast, name, _, arguments, ?_, listed, rfl⟩)
    exact ⟨by simp [toList_text], form.cast, form.name, written⟩
  · obtain ⟨written, listed⟩ := lists_tailText formed lists.ne_blank
    have layout : (Expression.text ⟨none, String.ofList name, arguments⟩).toList =
        name ++ tailText arguments := by
      simp [toList_text]
    refine (parse?_eq_some_iff _ _).mpr (Or.inr ⟨?_, name, _, arguments, ?_, listed, rfl⟩)
    · rw [layout]
      rw [form.layout] at bare
      exact fun cast => bare (hasCastForm_of_tail form.name written form.tail cast)
    · exact ⟨layout, form.name, written⟩

/-- The normal form of a parsed expression reads back as the expression. So different parsed
expressions have different normal forms, no engine tells a text from the normal form of what it
reads as, and a single empty argument, which would be written as none, is never read. -/
theorem parse?_text {s : String} {e : Expression} (read : parse? s = some e) :
    parse? e.text = some e ∧
      (∀ t other, parse? t = some other → other.text = e.text → other = e) ∧
      (∀ {C : Type} (engine : Engine C), engine.resolve e.text = engine.resolve s) ∧
      e.arguments ≠ [""] := by
  have again := parse?_of_text read
  refine ⟨again, ?_, ?_, ?_⟩
  · intro t other readOther same
    have back := parse?_of_text readOther
    rw [same, again] at back
    exact (Option.some.inj back).symm
  · intro C engine
    rw [engine.resolve_of_parse? again, engine.resolve_of_parse? read]
  · rcases (parse?_eq_some_iff _ _).mp read with
      ⟨_, _, _, _, -, lists, rfl⟩ | ⟨-, _, _, _, -, lists, rfl⟩
    · exact lists.ne_blank
    · exact lists.ne_blank

/-- Parentheses that are a cast, around a name in parentheses, with a blank argument between two
others; parentheses that are only a name; and a blank clause. -/
theorem parse?_text_parentheses :
    parse? "(x)(y): a, ,b " = some ⟨some "x", "(y)", ["a", "", "b"]⟩ ∧
      Expression.text ⟨some "x", "(y)", ["a", "", "b"]⟩ = "(x)(y):a,,b" ∧
      parse? "(x)(y):a,,b" = some ⟨some "x", "(y)", ["a", "", "b"]⟩ ∧
      parse? "(x):  " = some ⟨none, "(x)", []⟩ ∧ parse? "(x)" = some ⟨none, "(x)", []⟩ := by
  have cast : parse? "(x)(y): a, ,b " = some ⟨some "x", "(y)", ["a", "", "b"]⟩ := by
    decide +kernel
  have bare : parse? "(x):  " = some ⟨none, "(x)", []⟩ := by decide +kernel
  exact ⟨cast, by decide +kernel, (parse?_text cast).1, bare, (parse?_text bare).1⟩

end Placeholders.Expression
