import Placeholders.Proofs.ByteOrder
import Placeholders.Proofs.Literals
import Placeholders.Proofs.SheetEngine

set_option autoImplicit false

namespace Placeholders

namespace Sheet

/-- The last override of a name decides its literal. -/
theorem get?_merged (s : Sheet) (overrides : List (String × String)) (name : String) :
    (s.merged overrides).get? name =
      (overrides.reverse.lookup name).or (s.literals.get? name) := by
  rw [merged, List.foldl_eq_foldr_reverse]
  induction overrides.reverse with
  | nil => rfl
  | cons entry earlier ih =>
      obtain ⟨key, literal⟩ := entry
      rw [List.foldr_cons, List.lookup_cons, get?_insert]
      by_cases same : key = name
      · subst same
        simp
      · have other : (name == key) = false := beq_eq_false_iff_ne.mpr (Ne.symm same)
        rw [if_neg same, ih, other]

/-- Maps with the same look-ups list the same entries. -/
theorem toList_congr {first second : Std.TreeMap String String}
    (same : ∀ name, first.get? name = second.get? name) : first.toList = second.toList :=
  (Std.TreeMap.Equiv.of_forall_constGet?_eq same).toList_eq

/-- Building looks at the number format and at the literal of each name, and at nothing else. -/
theorem build_congr {s t : Sheet} {overrides others : List (String × String)}
    (number : s.number = t.number)
    (same : ∀ name, (s.merged overrides).get? name = (t.merged others).get? name) :
    s.build overrides = t.build others := by
  rw [build, build, number, toList_congr same]

/-- Two overrides of different names do the same in either order. -/
theorem get?_merged_swap (s : Sheet) (before after : List (String × String))
    {first second : String × String} (different : first.1 ≠ second.1) (name : String) :
    (s.merged (before ++ first :: second :: after)).get? name =
      (s.merged (before ++ second :: first :: after)).get? name := by
  obtain ⟨one, literal⟩ := first
  obtain ⟨other, text⟩ := second
  have swap (rest : List (String × String)) :
      ((other, text) :: (one, literal) :: rest).lookup name =
        ((one, literal) :: (other, text) :: rest).lookup name := by
    by_cases same : name = one
    · subst same
      simp only [List.lookup_cons, beq_eq_false_iff_ne.mpr different, beq_self_eq_true]
    · simp only [List.lookup_cons, beq_eq_false_iff_ne.mpr same]
  simp only [get?_merged, List.reverse_append, List.reverse_cons, List.append_assoc,
    List.cons_append, List.nil_append, List.lookup_append, swap]

/-- A variable of a sheet with overrides, with a literal that no built-in type reads. -/
def Unreadable (s : Sheet) (overrides : List (String × String)) (name literal : String) : Prop :=
  (s.merged overrides).get? name = some literal ∧
    ∀ type : ValueType, type.BuiltIn → type.readLiteral? literal = none

theorem readLiteral?_builtin_eq_none_iff (format : NumberFormat) (literal : String) :
    (Registry.builtin format).readLiteral? literal = none ↔
      ∀ type : ValueType, type.BuiltIn → type.readLiteral? literal = none := by
  rw [Registry.readLiteral?, List.findSome?_eq_none_iff]
  constructor
  · intro unread type builtIn
    cases builtIn with
    | number other => exact unread (.number format) (by simp [Registry.mem_builtin])
    | string => exact unread .string (by simp [Registry.mem_builtin])
    | boolean => exact unread .boolean (by simp [Registry.mem_builtin])
  · intro unread type member
    rcases (Registry.mem_builtin format type).mp member with rfl | rfl | rfl
    · exact unread _ (.number format)
    · exact unread _ .string
    · exact unread _ .boolean

theorem build_of_find? {s : Sheet} {overrides : List (String × String)}
    (valid : s.number.validate = .ok ()) {name literal : String}
    (first : (s.merged overrides).toList.find? (fun entry =>
      ((Registry.builtin s.number).readLiteral? entry.2).isNone) = some (name, literal)) :
    s.build overrides = .error (.invalidVariable name literal) := by
  obtain ⟨unread, before, after, entries, reads⟩ := List.find?_eq_some_iff_append.mp first
  have readable : ∀ entry ∈ before, ∃ value,
      (Registry.builtin s.number).readLiteral? entry.2 = some value := by
    intro entry member
    have read := reads entry member
    rw [Bool.not_eq_true', Option.isNone_eq_false_iff] at read
    exact Option.isSome_iff_exists.mp read
  obtain ⟨last, known, run, types⟩ := exists_foldlM_declare ∅
    (show (Engine.builtin s.number : Engine Subject).types = .builtin s.number from rfl) readable
  rw [Option.isNone_iff_eq_none] at unread
  simp only [build, Engine.ofFormat, valid, entries, List.foldlM_append, run, List.foldlM_cons,
    declare, types, unread, Except.mapError, bind, Except.bind, pure, Except.pure, throw,
    throwThe, MonadExceptOf.throw]

theorem pairwise_entries (literals : Std.TreeMap String String) :
    literals.toList.Pairwise fun first second => Text.order first.1 second.1 = .lt := by
  simpa only [Text.order_eq_compare] using literals.ordered_keys_toList

theorem unreadable_iff (s : Sheet) (overrides : List (String × String)) (name literal : String) :
    s.Unreadable overrides name literal ↔ (name, literal) ∈ (s.merged overrides).toList ∧
      ((Registry.builtin s.number).readLiteral? literal).isNone = true := by
  rw [Unreadable, ← readLiteral?_builtin_eq_none_iff s.number, Option.isNone_iff_eq_none,
    Std.TreeMap.mem_toList_iff_getElem?_eq_some, Std.TreeMap.get?_eq_getElem?]

/-- The name of the first entry whose literal does not read is less than the others. -/
theorem unreadable_of_find? {s : Sheet} {overrides : List (String × String)}
    {name literal : String}
    (first : (s.merged overrides).toList.find? (fun entry =>
      ((Registry.builtin s.number).readLiteral? entry.2).isNone) = some (name, literal)) :
    s.Unreadable overrides name literal ∧ ∀ other text, s.Unreadable overrides other text →
      other ≠ name → Text.order name other = .lt := by
  refine ⟨?_, ?_⟩
  · rw [unreadable_iff]
    have unread := List.find?_some first
    exact ⟨List.mem_of_find?_eq_some first, unread⟩
  · intro other text unread different
    obtain ⟨member, bad⟩ := (unreadable_iff ..).mp unread
    obtain ⟨-, before, after, entries, reads⟩ := List.find?_eq_some_iff_append.mp first
    have sorted := pairwise_entries (s.merged overrides)
    rw [entries] at member sorted
    rcases List.mem_append.mp member with early | late
    · have good := reads _ early
      simp [bad] at good
    · rcases List.mem_cons.mp late with same | late
      · exact absurd (congrArg Prod.fst same) different
      · exact List.rel_of_pairwise_cons (List.pairwise_append.mp sorted).2.1 late

/-- What building comes to: a number format that cannot be read back, the first literal that does
not read, or an engine. -/
theorem build_cases (s : Sheet) (overrides : List (String × String)) :
    (∃ reason, s.number.validate = .error (.invalidNumberFormat reason) ∧
      s.build overrides = .error (.registration (.invalidNumberFormat reason))) ∨
    s.number.validate = .ok () ∧
      ((∃ name literal, s.build overrides = .error (.invalidVariable name literal) ∧
          s.Unreadable overrides name literal ∧ ∀ other text, s.Unreadable overrides other text →
            other ≠ name → Text.order name other = .lt) ∨
        (∃ engine subject, s.build overrides = .ok (engine, subject)) ∧
          ∀ name literal, ¬ s.Unreadable overrides name literal) := by
  cases found : s.number.flaw? with
  | some flaw =>
      have invalid : s.number.validate = .error (.invalidNumberFormat flaw.message) := by
        simp only [NumberFormat.validate, found]
      exact Or.inl ⟨_, invalid, by rw [build, Engine.ofFormat, invalid]; rfl⟩
  | none =>
      have valid : s.number.validate = .ok () := by
        simp only [NumberFormat.validate, found]
      refine Or.inr ⟨valid, ?_⟩
      cases first : (s.merged overrides).toList.find? (fun entry =>
        ((Registry.builtin s.number).readLiteral? entry.2).isNone) with
      | some entry => exact Or.inl ⟨_, _, build_of_find? valid first, unreadable_of_find? first⟩
      | none =>
          have reads := List.find?_eq_none.mp first
          refine Or.inr ⟨exists_build valid ?_, ?_⟩
          · intro entry member
            have read := reads entry member
            rw [Bool.not_eq_true, Option.isNone_eq_false_iff] at read
            exact Option.isSome_iff_exists.mp read
          · intro name literal unread
            obtain ⟨member, bad⟩ := (unreadable_iff ..).mp unread
            exact reads _ member bad

theorem get?_merged_insert (s : Sheet) {overrides : List (String × String)} {name : String}
    (literal : String) (overridden : name ∈ overrides.map Prod.fst) (other : String) :
    (Sheet.merged { s with literals := s.literals.insert name literal } overrides).get? other =
      (s.merged overrides).get? other := by
  rw [get?_merged, get?_merged, get?_insert]
  by_cases same : name = other
  · subst same
    obtain ⟨entry, member, rfl⟩ := List.mem_map.mp overridden
    have decided : (overrides.reverse.lookup entry.1).isSome = true :=
      List.lookup_isSome_iff.mpr ⟨entry, List.mem_reverse.mpr member, beq_self_eq_true _⟩
    rw [Option.or_of_isSome decided, Option.or_of_isSome decided]
  · rw [if_neg same]

section Outcomes

variable (s : Sheet) (overrides : List (String × String))

theorem build_eq_registration_iff (error : RegistrationError) :
    s.build overrides = .error (.registration error) ↔ s.number.validate = .error error := by
  rcases s.build_cases overrides with ⟨reason, invalid, failed⟩ |
    ⟨valid, ⟨name, literal, failed, -⟩ | ⟨⟨engine, subject, built⟩, -⟩⟩
  · rw [invalid, failed, Except.error.injEq, Except.error.injEq, SheetError.registration.injEq]
  · simp [valid, failed]
  · simp [valid, built]

theorem build_eq_invalidVariable_iff (name literal : String) :
    s.build overrides = .error (.invalidVariable name literal) ↔
      s.number.validate = .ok () ∧ s.Unreadable overrides name literal ∧
        ∀ other text, s.Unreadable overrides other text → other ≠ name →
          Text.order name other = .lt := by
  rcases s.build_cases overrides with ⟨reason, invalid, failed⟩ |
    ⟨valid, ⟨first, text, failed, unread, least⟩ | ⟨⟨engine, subject, built⟩, reads⟩⟩
  · simp [invalid, failed]
  · rw [failed, Except.error.injEq, SheetError.invalidVariable.injEq]
    constructor
    · rintro ⟨rfl, rfl⟩
      exact ⟨valid, unread, least⟩
    · rintro ⟨-, unreadToo, leastToo⟩
      -- Each of two different least names would be less than the other.
      have same : first = name := by
        by_contra different
        have less := leastToo first text unread different
        rw [← Text.order_swap, least name literal unreadToo (Ne.symm different)] at less
        cases less
      subst same
      exact ⟨rfl, Option.some.inj (unread.1.symm.trans unreadToo.1)⟩
  · simp [built, reads]

theorem build_eq_ok_iff :
    (∃ engine subject, s.build overrides = .ok (engine, subject)) ↔
      s.number.validate = .ok () ∧ ∀ name literal, ¬ s.Unreadable overrides name literal := by
  rcases s.build_cases overrides with ⟨reason, invalid, failed⟩ |
    ⟨valid, ⟨name, literal, failed, unread, -⟩ | ⟨built, reads⟩⟩
  · simp [invalid, failed]
  · simp only [failed, reduceCtorEq, exists_false, false_iff]
    exact fun reads => reads.2 name literal unread
  · exact iff_of_true built ⟨valid, reads⟩

end Outcomes

/-- Building sees the literal of each name after the overrides, the last one of a name, and not how
the literals came about. It fails for a number format that cannot be read back, and else for the
least name whose literal no built-in type reads. -/
theorem build_merged (s : Sheet) (overrides : List (String × String)) :
    (∀ name, (s.merged overrides).get? name =
      (overrides.reverse.lookup name).or (s.literals.get? name)) ∧
    Sheet.build { s with literals := s.merged overrides } [] = s.build overrides ∧
    (∀ (t : Sheet) others, t.number = s.number →
      (∀ name, (t.merged others).get? name = (s.merged overrides).get? name) →
      t.build others = s.build overrides) ∧
    (∀ before after first second, first.1 ≠ second.1 →
      overrides = before ++ first :: second :: after →
      s.build (before ++ second :: first :: after) = s.build overrides) ∧
    (∀ name literal, name ∈ overrides.map Prod.fst →
      Sheet.build { s with literals := s.literals.insert name literal } overrides =
        s.build overrides) ∧
    (∀ error, s.build overrides = .error (.registration error) ↔
      s.number.validate = .error error) ∧
    (∀ error, s.number.validate = .error error → ∃ reason, error = .invalidNumberFormat reason) ∧
    (∀ name literal, s.build overrides = .error (.invalidVariable name literal) ↔
      s.number.validate = .ok () ∧ s.Unreadable overrides name literal ∧
        ∀ other text, s.Unreadable overrides other text → other ≠ name →
          Text.order name other = .lt) ∧
    ((∃ engine subject, s.build overrides = .ok (engine, subject)) ↔
      s.number.validate = .ok () ∧ ∀ name literal, ¬ s.Unreadable overrides name literal) := by
  refine ⟨s.get?_merged overrides, rfl, fun t others => build_congr, ?_, ?_,
    s.build_eq_registration_iff overrides, ?_, s.build_eq_invalidVariable_iff overrides,
    s.build_eq_ok_iff overrides⟩
  · rintro before after first second different rfl
    exact build_congr rfl (s.get?_merged_swap before after (Ne.symm different))
  · intro name literal overridden
    have number : ({ s with literals := s.literals.insert name literal } : Sheet).number =
      s.number := rfl
    exact build_congr number (s.get?_merged_insert literal overridden)
  · intro error refused
    rcases s.build_cases overrides with ⟨reason, invalid, -⟩ | ⟨valid, -⟩
    · exact ⟨reason, Except.error.inj (refused.symm.trans invalid)⟩
    · rw [valid] at refused
      cases refused

/-- A literal that an override replaces, two that do not read, the ASCII name before the other one,
and a format whose separator is a digit. -/
theorem build_merged_unreadable :
    let literals : Std.TreeMap String String :=
      ((∅ : Std.TreeMap ..).insert "a" "closed").insert "z" "open"
    let sheet : Sheet := { Sheet.empty with literals }
    let plain : Sheet := { Sheet.empty with literals := sheet.merged [("é", "odd"), ("a", "1")] }
    let flawed : Sheet := { sheet with number := ⟨'5', none, 3⟩ }
    let refused : Except SheetError (Engine Subject × Subject) :=
      .error (.invalidVariable "z" "open")
    sheet.build [("é", "odd"), ("a", "1")] = refused ∧ plain.build [] = refused ∧
      sheet.build [("a", "1"), ("é", "odd")] = refused ∧
      Sheet.build { sheet with literals := literals.insert "a" "2" } [("é", "odd"), ("a", "1")] =
        refused ∧
      flawed.build [] = .error (.registration (.invalidNumberFormat
        "decimal separator '5' is reserved for numbers")) := by
  intro literals sheet plain flawed refused
  have entries : (sheet.merged [("é", "odd"), ("a", "1")]).toList =
      [("a", "1"), ("z", "open"), ("é", "odd")] := by decide +kernel
  have unread : sheet.Unreadable [("é", "odd"), ("a", "1")] "z" "open" := by
    rw [unreadable_iff, entries]
    decide +kernel
  have least : ∀ other text, sheet.Unreadable [("é", "odd"), ("a", "1")] other text →
      other ≠ "z" → Text.order "z" other = .lt := by
    intro other text unread different
    rw [unreadable_iff, entries] at unread
    obtain ⟨member, bad⟩ := unread
    simp only [List.mem_cons, Prod.mk.injEq, List.not_mem_nil, or_false] at member
    rcases member with ⟨rfl, rfl⟩ | ⟨rfl, rfl⟩ | ⟨rfl, rfl⟩
    · exact absurd bad (by decide +kernel)
    · exact absurd rfl different
    · decide +kernel
  obtain ⟨-, -, same, swap, hidden, -, -, invalid, -⟩ :=
    build_merged sheet [("é", "odd"), ("a", "1")]
  obtain ⟨-, -, -, -, -, registration, -⟩ := build_merged flawed []
  have failed := (invalid "z" "open").mpr ⟨rfl, unread, least⟩
  refine ⟨failed, ?_, ?_, ?_, (registration _).mpr (by decide +kernel)⟩
  · exact (same plain [] rfl fun _ => rfl).trans failed
  · exact (swap [] [] ("é", "odd") ("a", "1") (by decide) rfl).trans failed
  · exact (hidden "a" "2" (by decide)).trans failed

end Sheet

end Placeholders
