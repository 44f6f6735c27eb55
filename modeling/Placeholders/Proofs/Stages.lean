import Mathlib.Data.List.Forall2

set_option autoImplicit false

namespace Placeholders

variable {ε α β : Type}

theorem bind_eq_ok (first : Except ε α) (next : α → Except ε β) (b : β) :
    (first >>= next) = .ok b ↔ ∃ a, first = .ok a ∧ next a = .ok b := by
  cases first <;> simp [bind, Except.bind]

theorem bind_eq_error (first : Except ε α) (next : α → Except ε β) (error : ε) :
    (first >>= next) = .error error ↔
      first = .error error ∨ ∃ a, first = .ok a ∧ next a = .error error := by
  cases first <;> simp [bind, Except.bind]

theorem mapError_eq_ok {ε' : Type} (first : Except ε α) (f : ε → ε') (a : α) :
    first.mapError f = .ok a ↔ first = .ok a := by
  cases first <;> simp [Except.mapError]

/-- A stage for each item of a list gives all results, or the failure of the leftmost item that
fails. -/
theorem mapM_cases (stage : α → Except ε β) (items : List α) :
    ((∀ item ∈ items, ∃ result, stage item = .ok result) ∧
        ∃ results, items.mapM stage = .ok results ∧
          List.Forall₂ (fun item result => stage item = .ok result) items results) ∨
      ∃ before item after error, items = before ++ item :: after ∧
        (∀ earlier ∈ before, ∃ result, stage earlier = .ok result) ∧
        stage item = .error error ∧ items.mapM stage = .error error := by
  induction items with
  | nil => exact Or.inl ⟨by simp, [], rfl, .nil⟩
  | cons item items ih =>
      rw [List.mapM_cons]
      cases first : stage item with
      | error error => exact Or.inr ⟨[], item, items, error, rfl, by simp, first, rfl⟩
      | ok result =>
          have extend {others : List α} (rest : ∀ other ∈ others, ∃ r, stage other = .ok r) :
              ∀ other ∈ item :: others, ∃ r, stage other = .ok r := by
            intro other member
            rcases List.mem_cons.mp member with rfl | member
            · exact ⟨result, first⟩
            · exact rest other member
          rcases ih with
            ⟨every, results, all, each⟩ | ⟨before, failing, after, error, rfl, earlier, fails, all⟩
          · exact Or.inl ⟨extend every, result :: results, by rw [all]; rfl, .cons first each⟩
          · exact Or.inr ⟨item :: before, failing, after, error, rfl, extend earlier, fails,
              by rw [all]; rfl⟩

theorem mapM_of_forall₂ {stage : α → Except ε β} {items : List α} {results : List β}
    (each : List.Forall₂ (fun item result => stage item = .ok result) items results) :
    items.mapM stage = .ok results := by
  induction each with
  | nil => rfl
  | cons first _ ih =>
      rw [List.mapM_cons, first, ih]
      rfl

end Placeholders
