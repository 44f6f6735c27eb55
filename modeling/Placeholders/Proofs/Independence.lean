import Placeholders.Proofs.Extension
import Placeholders.Proofs.SheetVariables

set_option autoImplicit false

namespace Placeholders

/-- The names that a text mentions: that of its expression, and the first argument if that is a
rounding. Text outside the grammar mentions none. -/
def Expression.Mentions (text name : String) : Prop :=
  ∃ expression, parse? text = some expression ∧
    (name = expression.name ∨ expression.name = "round" ∧ expression.arguments.head? = some name)

theorem Engine.evaluate_castTo_congr {C : Type} {base : Placeholder C} {first second : C}
    (same : base.evaluate first = base.evaluate second) (owner : ValueType)
    (target : Option ValueType) :
    (castTo owner base target).evaluate first = (castTo owner base target).evaluate second := by
  cases target with
  | none => exact same
  | some type => simp only [castTo, Placeholder.cast, same]

namespace Sheet

theorem stored_evaluate_congr {name : String} {first second : Subject}
    (same : first.get? name = second.get? name) (kind : Kind) :
    (stored name kind).evaluate first = (stored name kind).evaluate second := by
  simp only [stored, same]

theorem rounded_evaluate_congr {target : String} {first second : Subject}
    (same : first.get? target = second.get? target) (digits : Int) :
    (rounded target digits).evaluate first = (rounded target digits).evaluate second := by
  simp only [rounded, same]

variable {s : Sheet} {overrides others : List (String × String)} {engine other : Engine Subject}
  {subject known : Subject}

theorem Built.get?_congr (built : Built s overrides engine subject)
    (rebuilt : Built s others other known) {name : String}
    (same : (s.merged overrides).get? name = (s.merged others).get? name) :
    subject.get? name = known.get? name := by
  rw [built.values, rebuilt.values, declared?, declared?, same]

/-- The look-up of a name depends on the value of that variable only, for the kind of the value
decides which type owns the name. -/
theorem Built.find?_congr (built : Built s overrides engine subject)
    (rebuilt : Built s others other known) {name : String}
    (same : subject.get? name = known.get? name) : engine.find? name = other.find? name := by
  by_cases round : name = "round"
  · subst round
    rw [built.find?_round, rebuilt.find?_round]
  · rw [built.find?_variable name round, rebuilt.find?_variable name round, same]

/-- What is made of an expression reads the subject at the names that the expression mentions. -/
theorem Built.evaluate_congr (built : Built s overrides engine subject) {text : String}
    (agree : ∀ name, Expression.Mentions text name → subject.get? name = known.get? name)
    {p : Placeholder Subject} (resolved : engine.resolve text = .ok p) :
    p.evaluate subject = p.evaluate known := by
  rcases Engine.resolve_cases resolved with
    ⟨_, literal⟩ | ⟨expression, target, owner, builder, base, parsed, -, found, made, rfl⟩
  · obtain ⟨value, -, rfl⟩ := (engine.types.resolveLiteral_eq_ok _ _).mp literal
    rfl
  · apply Engine.evaluate_castTo_congr
    obtain ⟨-, made, -⟩ := (builder.instantiate_eq_ok _ _ _ _).mp made
    rcases built.find?_cases found with ⟨round, rfl⟩ | ⟨value, -, rfl⟩
    · obtain ⟨rounding, rest, digits, arguments, rfl⟩ := roundBuilder_build made
      have mentioned : Expression.Mentions text rounding :=
        ⟨expression, parsed, Or.inr ⟨round, by rw [arguments, List.head?_cons]⟩⟩
      exact rounded_evaluate_congr (agree rounding mentioned) digits
    · obtain rfl := Except.ok.inj made
      have mentioned : Expression.Mentions text expression.name := ⟨expression, parsed, Or.inl rfl⟩
      exact stored_evaluate_congr (agree _ mentioned) value.kind

/-- Two builds of a sheet whose variables differ only in names that a text does not mention resolve
the text alike, to the same error or the same placeholder, and this has the same value or the same
error in the two subjects. -/
theorem build_ignores_unmentioned (build : s.build overrides = .ok (engine, subject))
    (rebuild : s.build others = .ok (other, known)) {text : String}
    (unmentioned : ∀ name, (s.merged overrides).get? name ≠ (s.merged others).get? name →
      ¬ Expression.Mentions text name) :
    engine.resolve text = other.resolve text ∧
      ∀ p, engine.resolve text = .ok p → p.evaluate subject = p.evaluate known := by
  have built := built_of_build build
  have rebuilt := built_of_build rebuild
  have agree : ∀ name, Expression.Mentions text name →
      subject.get? name = known.get? name := by
    intro name mentioned
    apply built.get?_congr rebuilt
    by_contra different
    exact unmentioned name different mentioned
  constructor
  · apply Engine.resolve_congr (built.types.trans rebuilt.types.symm)
    intro expression parsed
    exact built.find?_congr rebuilt (agree _ ⟨expression, parsed, Or.inl rfl⟩)
  · intro p resolved
    exact built.evaluate_congr agree resolved

/-- A text that becomes a truth value and a number that is added, neither of which a rounding
mentions. -/
theorem build_ignores_unmentioned_mood :
    let literals : Std.TreeMap String String :=
      ((∅ : Std.TreeMap ..).insert "level" "2.75").insert "mood" "'calm'"
    let sheet : Sheet := { Sheet.empty with literals }
    ∃ engine subject other known,
      sheet.build [("mood", "true"), ("1", "7")] = .ok (engine, subject) ∧
      sheet.build [] = .ok (other, known) ∧
      engine.resolve "round:level,1" = .ok (rounded "level" 1) ∧
      other.resolve "round:level,1" = .ok (rounded "level" 1) ∧
      (rounded "level" 1).evaluate subject = (rounded "level" 1).evaluate known := by
  intro literals sheet
  have builds (overrides : List (String × String))
      (reads : ((sheet.merged overrides).toList.all fun entry =>
        ((Registry.builtin .standard).readLiteral? entry.2).isSome) = true) :
      ∃ engine subject, sheet.build overrides = .ok (engine, subject) := by
    apply exists_build (show sheet.number.validate = .ok () from rfl)
    intro entry member
    exact Option.isSome_iff_exists.mp (List.all_eq_true.mp reads entry member)
  obtain ⟨engine, subject, build⟩ :=
    builds [("mood", "true"), ("1", "7")] (by decide +kernel)
  obtain ⟨other, known, rebuild⟩ := builds [] (by decide +kernel)
  have parsed : Expression.parse? "round:level,1" = some ⟨none, "round", ["level", "1"]⟩ := by
    decide +kernel
  have unmentioned : ∀ name, (sheet.merged [("mood", "true"), ("1", "7")]).get? name ≠
      (sheet.merged []).get? name → ¬ Expression.Mentions "round:level,1" name := by
    rintro name different ⟨expression, same, mentioned⟩
    obtain rfl := Option.some.inj (parsed.symm.trans same)
    rcases mentioned with rfl | ⟨-, target⟩
    · exact different (by decide +kernel)
    · obtain rfl := Option.some.inj target
      exact different (by decide +kernel)
  obtain ⟨alike, values⟩ := build_ignores_unmentioned build rebuild unmentioned
  have resolved : engine.resolve "round:level,1" = .ok (rounded "level" 1) :=
    (built_of_build build).resolve_round parsed
  exact ⟨engine, subject, other, known, build, rebuild, resolved, alike.symm.trans resolved,
    values _ resolved⟩

end Sheet

end Placeholders
