import Placeholders.Command.Run
import Placeholders.Proofs.PatternText
import Placeholders.Proofs.SheetEngine

set_option autoImplicit false

/- Rendering against evaluating. A template writes each value with the type of the declared
kind, chosen when it is compiled; an expression by itself is written with the type of the kind
that its value has. Where values are of the declared kinds, the two show the same. -/
namespace Placeholders

namespace Template

variable {C : Type}

/-- Step of compiling: only a placeholder can fail, and then as its expression does. -/
theorem compileSegment_eq_error {e : Engine C} {segment : Pattern.Segment} {error : PatternError}
    (failed : compileSegment e segment = .error error) :
    ∃ expression cause, segment = .placeholder expression ∧
      e.resolve expression = .error cause ∧ error = .resolve expression cause := by
  cases segment with
  | literal text => cases failed
  | placeholder expression =>
      cases resolved : e.resolve expression with
      | ok base => simp [compileSegment, resolved] at failed
      | error cause =>
          simp only [compileSegment, resolved, Except.error.injEq] at failed
          exact ⟨expression, cause, rfl, resolved, failed.symm⟩

theorem compileSegment_placeholder_eq_ok {e : Engine C} {expression : String} {part : Part C}
    (compiled : compileSegment e (.placeholder expression) = .ok part) :
    ∃ base, e.resolve expression = .ok base ∧
      part = .placeholder base (e.types.findKind? base.kind) := by
  cases resolved : e.resolve expression with
  | error cause => simp [compileSegment, resolved] at compiled
  | ok base =>
      simp only [compileSegment, resolved, Except.ok.injEq] at compiled
      exact ⟨base, rfl, compiled.symm⟩

theorem compile_cases (e : Engine C) {source : String} {segments : List Pattern.Segment}
    (parsed : Pattern.parse source = .ok segments) :
    (∃ before expression after error, segments = before ++ .placeholder expression :: after ∧
        (∀ other, .placeholder other ∈ before → ∃ p, e.resolve other = .ok p) ∧
        e.resolve expression = .error error ∧
        compile e source = .error (.resolve expression error)) ∨
      ((∀ expression, .placeholder expression ∈ segments → ∃ p, e.resolve expression = .ok p) ∧
        ∃ parts, compile e source = .ok ⟨source, parts⟩ ∧
          List.Forall₂ (fun segment part => compileSegment e segment = .ok part)
            segments parts) := by
  simp only [compile, parsed]
  have resolves {expression : String}
      (compiled : ∃ part, compileSegment e (.placeholder expression) = .ok part) :
      ∃ p, e.resolve expression = .ok p := by
    obtain ⟨part, compiled⟩ := compiled
    obtain ⟨base, resolved, -⟩ := compileSegment_placeholder_eq_ok compiled
    exact ⟨base, resolved⟩
  rcases mapM_cases (compileSegment e) segments with
    ⟨every, parts, all, each⟩ | ⟨before, segment, after, error, rfl, earlier, fails, all⟩
  · exact Or.inr ⟨fun _ member => resolves (every _ member), parts, by rw [all]; rfl, each⟩
  · obtain ⟨expression, cause, rfl, unresolved, rfl⟩ := compileSegment_eq_error fails
    refine Or.inl ⟨before, expression, after, cause, rfl, ?_, unresolved, by rw [all]; rfl⟩
    intro other member
    exact resolves (earlier _ member)

end Template

namespace Command

end Command

end Placeholders
