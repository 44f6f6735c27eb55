import Placeholders.Proofs.SheetEngine

set_option autoImplicit false

namespace Placeholders.Sheet

variable {s : Sheet} {overrides : List (String × String)} {engine : Engine Subject}
  {subject : Subject}

theorem Built.declared?_eq_some (built : Built s overrides engine subject) {name literal : String}
    (given : (s.merged overrides).get? name = some literal) :
    ∃ value, (Registry.builtin s.number).readLiteral? literal = some value ∧
      s.declared? overrides name = some value := by
  obtain ⟨value, read⟩ := built.read name literal given
  exact ⟨value, read, by rw [declared?, given, Option.bind_some, read]⟩

/-- Without a cast, `round` is built from its arguments as soon as there is one. -/
theorem Built.resolve_round (built : Built s overrides engine subject) {text : String}
    {arguments : List String} (parsed : Expression.parse? text = some ⟨none, "round", arguments⟩) :
    engine.resolve text =
      if arguments = [] then .error (.insufficientArguments "round" 0 1)
      else roundBuilder.build "round" arguments := by
  rw [engine.resolve_of_parse? parsed, engine.resolveExpression_uncast rfl, built.find?_round]
  cases arguments with
  | nil => rfl
  | cons target others =>
      rw [if_neg (List.cons_ne_nil target others)]
      apply Builder.instantiate_eq_build (Nat.succ_le_succ (Nat.zero_le _))
      intro p made
      obtain ⟨_, _, digits, -, rfl⟩ := roundBuilder_build made
      rfl

/-- In a built sheet every variable that an expression can name resolves to a placeholder of the
kind of its literal, which has the value of the literal in the subject; `round` resolves to the
rounding, which needs an argument. -/
theorem build_reads_back (build : s.build overrides = .ok (engine, subject)) :
    (∀ name literal, (s.merged overrides).get? name = some literal →
      Expression.parse? name = some ⟨none, name, []⟩ → name ≠ "round" →
      ∃ value p, (Registry.builtin s.number).readLiteral? literal = some value ∧
        engine.resolve name = .ok p ∧ p.kind = value.kind ∧ p.evaluate subject = .ok value) ∧
    engine.find? "round" = some (.number s.number, roundBuilder) ∧
    ∀ text arguments, Expression.parse? text = some ⟨none, "round", arguments⟩ →
      engine.resolve text =
        if arguments = [] then .error (.insufficientArguments "round" 0 1)
        else roundBuilder.build "round" arguments := by
  have built := built_of_build build
  refine ⟨?_, built.find?_round, fun text arguments parsed => built.resolve_round parsed⟩
  intro name literal given bare other
  obtain ⟨value, read, known⟩ := built.declared?_eq_some given
  refine ⟨value, stored name value.kind, read, built.resolve_variable known other bare, rfl, ?_⟩
  simp only [stored, built.values, known]

/-- A variable that looks like a number, one that looks like a cast and is overridden by another
kind, and one that is called `round`. -/
theorem build_reads_back_names :
    let literals : Std.TreeMap String String :=
      (((∅ : Std.TreeMap ..).insert "7" "'seven'").insert "(x)" "2.5").insert "round" "true"
    let sheet : Sheet := { Sheet.empty with literals }
    ∃ engine subject, sheet.build [("(x)", "false")] = .ok (engine, subject) ∧
      (∃ p, engine.resolve "7" = .ok p ∧ p.kind = .text ∧
        p.evaluate subject = .ok (.text "seven")) ∧
      (∃ p, engine.resolve "(x)" = .ok p ∧ p.kind = .boolean ∧
        p.evaluate subject = .ok (.boolean false)) ∧
      engine.resolve "round" = .error (.insufficientArguments "round" 0 1) ∧
      engine.resolve "round:7" = .ok (rounded "7" 0) := by
  intro literals sheet
  have entries : (sheet.merged [("(x)", "false")]).toList =
      [("(x)", "false"), ("7", "'seven'"), ("round", "true")] := by decide +kernel
  have seven : (Registry.builtin .standard).readLiteral? "'seven'" = some (.text "seven") := by
    decide +kernel
  have no : (Registry.builtin .standard).readLiteral? "false" = some (.boolean false) := by
    decide +kernel
  have yes : (Registry.builtin .standard).readLiteral? "true" = some (.boolean true) := by
    decide +kernel
  obtain ⟨engine, subject, build⟩ : ∃ engine subject,
      sheet.build [("(x)", "false")] = .ok (engine, subject) := by
    apply exists_build (show sheet.number.validate = .ok () from rfl)
    rw [entries]
    simp only [List.forall_mem_cons, List.not_mem_nil, false_implies, implies_true, and_true]
    exact ⟨⟨_, no⟩, ⟨_, seven⟩, ⟨_, yes⟩⟩
  obtain ⟨declared, -, round⟩ := build_reads_back build
  refine ⟨engine, subject, build, ?_, ?_, ?_, ?_⟩
  · obtain ⟨value, p, read, resolved, kind, evaluated⟩ :=
      declared "7" "'seven'" (by decide +kernel) (by decide +kernel) (by decide)
    obtain rfl := Option.some.inj (read.symm.trans seven)
    exact ⟨p, resolved, kind, evaluated⟩
  · obtain ⟨value, p, read, resolved, kind, evaluated⟩ :=
      declared "(x)" "false" (by decide +kernel) (by decide +kernel) (by decide)
    obtain rfl := Option.some.inj (read.symm.trans no)
    exact ⟨p, resolved, kind, evaluated⟩
  · exact round "round" [] (by decide +kernel)
  · exact round "round:7" ["7"] (by decide +kernel)

end Placeholders.Sheet
