import Mathlib.Order.Bounds.Basic
import Mathlib.Order.MinMax
import Placeholders.Text.Distance

set_option autoImplicit false

/- Edit scripts, and the distance as the length of a shortest one. Along the recurrence of the
distance there is a script of that length, and one edit anywhere in a text changes the distance
by at most one, so no script is shorter. -/
namespace Placeholders.Text

/-- One edit: a character put in, taken out, or replaced. -/
inductive Edit : List Char → List Char → Prop
  | insert (front : List Char) (c : Char) (back : List Char) :
      Edit (front ++ back) (front ++ c :: back)
  | delete (front : List Char) (c : Char) (back : List Char) :
      Edit (front ++ c :: back) (front ++ back)
  | replace (front : List Char) (c d : Char) (back : List Char) :
      Edit (front ++ c :: back) (front ++ d :: back)

/-- `Edits n s t`: `n` edits, one after the other, turn `s` into `t`. -/
inductive Edits : Nat → List Char → List Char → Prop
  | none (s : List Char) : Edits 0 s s
  | more {n : Nat} {s t u : List Char} (first : Edit s t) (others : Edits n t u) :
      Edits (n + 1) s u

theorem Edit.cons (a : Char) {s t : List Char} (edit : Edit s t) : Edit (a :: s) (a :: t) := by
  cases edit with
  | insert front c back => exact .insert (a :: front) c back
  | delete front c back => exact .delete (a :: front) c back
  | replace front c d back => exact .replace (a :: front) c d back

theorem Edits.cons (a : Char) {n : Nat} {s t : List Char} (edits : Edits n s t) :
    Edits n (a :: s) (a :: t) := by
  induction edits with
  | none s => exact .none _
  | more first _ ih => exact .more (first.cons a) ih

/-- The distances from `source` to every end part of `target`. -/
def distanceRow (source target : List Char) : List Nat :=
  source.foldr (fun c row => nextRow c target row) (emptyRow target)

theorem length_emptyRow (target : List Char) : (emptyRow target).length = target.length + 1 := by
  induction target with
  | nil => rfl
  | cons d target ih => rw [emptyRow, List.length_cons, ih, List.length_cons]

theorem length_nextRow (c : Char) (target : List Char) (row : List Nat) :
    (nextRow c target row).length = row.length := by
  fun_induction nextRow c target row with
  | case1 d target here diagonal row rest ih =>
      rw [List.length_cons, ih, List.length_cons, List.length_cons, List.length_cons]
  | case2 => rw [List.length_map]

theorem length_distanceRow (source target : List Char) :
    (distanceRow source target).length = target.length + 1 := by
  induction source with
  | nil => exact length_emptyRow target
  | cons c source ih => exact (length_nextRow c target _).trans ih

theorem exists_distanceRow (source target : List Char) :
    ∃ others, distanceRow source target = editDistance source target :: others := by
  have nonempty := List.ne_nil_of_length_eq_add_one (length_distanceRow source target)
  obtain ⟨first, others, row⟩ := List.exists_cons_of_ne_nil nonempty
  exact ⟨others, by rw [editDistance, ← distanceRow, row, List.headD_cons]⟩

theorem nextRow_cons_cons (c d : Char) (target : List Char) (here : Nat) {row : List Nat}
    {diagonal : Nat} {others : List Nat} (next : row = diagonal :: others) :
    nextRow c (d :: target) (here :: row) =
      min (diagonal + if c = d then 0 else 1)
        (min (here + 1) ((nextRow c target row).headD 0 + 1)) :: nextRow c target row := by
  subst next
  rfl

/-- A row continues with the row of the target's tail. -/
theorem distanceRow_cons (source : List Char) (d : Char) (target : List Char) :
    distanceRow source (d :: target) =
      editDistance source (d :: target) :: distanceRow source target := by
  induction source with
  | nil => rfl
  | cons c source ih =>
      obtain ⟨others, next⟩ := exists_distanceRow source target
      have row : distanceRow (c :: source) (d :: target) =
          nextRow c (d :: target) (distanceRow source (d :: target)) := rfl
      rw [editDistance, ← distanceRow, row, ih, nextRow_cons_cons c d target _ next]
      rfl

theorem editDistance_nil_left (target : List Char) : editDistance [] target = target.length := by
  cases target <;> rfl

theorem editDistance_nil_right (source : List Char) : editDistance source [] = source.length := by
  have row : distanceRow source [] = [source.length] := by
    induction source with
    | nil => rfl
    | cons c source ih =>
        rw [distanceRow, List.foldr_cons, ← distanceRow, ih]
        rfl
  rw [editDistance, ← distanceRow, row, List.headD_cons]

theorem editDistance_cons_cons (c d : Char) (source target : List Char) :
    editDistance (c :: source) (d :: target) =
      min (editDistance source target + if c = d then 0 else 1)
        (min (editDistance source (d :: target) + 1) (editDistance (c :: source) target + 1)) := by
  obtain ⟨others, next⟩ := exists_distanceRow source target
  have row : distanceRow (c :: source) (d :: target) =
      nextRow c (d :: target) (distanceRow source (d :: target)) := rfl
  rw [editDistance, ← distanceRow, row, distanceRow_cons, nextRow_cons_cons c d target _ next]
  rfl

/-- A script as long as the distance, read off the recurrence. -/
theorem edits_editDistance (source target : List Char) :
    Edits (editDistance source target) source target := by
  induction source generalizing target with
  | nil =>
      rw [editDistance_nil_left]
      induction target with
      | nil => exact .none []
      | cons d target ih => exact .more (.insert [] d []) (ih.cons d)
  | cons c source ihSource =>
      induction target with
      | nil =>
          have shorter := ihSource []
          rw [editDistance_nil_right] at shorter ⊢
          exact .more (.delete [] c source) shorter
      | cons d target ihTarget =>
          rw [editDistance_cons_cons]
          rcases min_choice (editDistance source target + if c = d then 0 else 1)
            (min (editDistance source (d :: target) + 1) (editDistance (c :: source) target + 1))
            with keep | edit
          · rw [keep]
            have others := (ihSource target).cons d
            split
            · rename_i same
              exact same ▸ others
            · exact .more (.replace [] c d source) others
          · rw [edit]
            rcases min_choice (editDistance source (d :: target) + 1)
              (editDistance (c :: source) target + 1) with delete | insert
            · rw [delete]
              exact .more (.delete [] c source) (ihSource (d :: target))
            · rw [insert]
              exact .more (.insert [] d (c :: source)) (ihTarget.cons d)

theorem editDistance_cons_right_le (d : Char) (source target : List Char) :
    editDistance source (d :: target) ≤ editDistance source target + 1 := by
  cases source with
  | nil => simp [editDistance_nil_left]
  | cons c source =>
      rw [editDistance_cons_cons]
      omega

theorem editDistance_cons_left_le (c : Char) (source target : List Char) :
    editDistance (c :: source) target ≤ editDistance source target + 1 := by
  cases target with
  | nil => simp [editDistance_nil_right]
  | cons d target =>
      rw [editDistance_cons_cons]
      omega

theorem editDistance_le_cons_left (c : Char) (source target : List Char) :
    editDistance source target ≤ editDistance (c :: source) target + 1 := by
  induction target with
  | nil =>
      rw [editDistance_nil_right, editDistance_nil_right, List.length_cons]
      omega
  | cons d target ih =>
      have longer := editDistance_cons_right_le d source target
      rw [editDistance_cons_cons]
      omega

theorem editDistance_replace_le (c d : Char) (source target : List Char) :
    editDistance (c :: source) target ≤ editDistance (d :: source) target + 1 := by
  induction target with
  | nil =>
      rw [editDistance_nil_right, editDistance_nil_right, List.length_cons, List.length_cons]
      omega
  | cons a target ih =>
      rw [editDistance_cons_cons, editDistance_cons_cons]
      split <;> split <;> omega

/-- What an edit can change of the distances, it can after a common first character. -/
theorem editDistance_cons_le (a : Char) {s t : List Char}
    (near : ∀ target, editDistance s target ≤ editDistance t target + 1) (target : List Char) :
    editDistance (a :: s) target ≤ editDistance (a :: t) target + 1 := by
  induction target with
  | nil =>
      have lengths := near []
      rw [editDistance_nil_right, editDistance_nil_right] at lengths ⊢
      simpa using lengths
  | cons d target ih =>
      have shorter := near target
      have same := near (d :: target)
      rw [editDistance_cons_cons, editDistance_cons_cons]
      omega

theorem editDistance_append_le (front : List Char) {s t : List Char}
    (near : ∀ target, editDistance s target ≤ editDistance t target + 1) (target : List Char) :
    editDistance (front ++ s) target ≤ editDistance (front ++ t) target + 1 := by
  induction front generalizing target with
  | nil => exact near target
  | cons a front ih => exact editDistance_cons_le a ih target

/-- One edit of the source changes the distance by at most one. -/
theorem Edit.editDistance_le {s t : List Char} (edit : Edit s t) (target : List Char) :
    editDistance s target ≤ editDistance t target + 1 := by
  cases edit with
  | insert front c back => exact editDistance_append_le front (editDistance_le_cons_left c back) _
  | delete front c back => exact editDistance_append_le front (editDistance_cons_left_le c back) _
  | replace front c d back => exact editDistance_append_le front (editDistance_replace_le c d back) _

theorem editDistance_self (s : List Char) : editDistance s s = 0 := by
  induction s with
  | nil => rfl
  | cons c s ih =>
      rw [editDistance_cons_cons, ih, if_pos rfl]
      omega

/-- No script is shorter than the distance. -/
theorem Edits.editDistance_le {n : Nat} {s t : List Char} (edits : Edits n s t) :
    editDistance s t ≤ n := by
  induction edits with
  | none s => rw [editDistance_self]
  | more first _ ih => exact (first.editDistance_le _).trans (Nat.add_le_add_right ih 1)

theorem isLeast_editDistance (s t : List Char) :
    IsLeast {n | Edits n s t} (editDistance s t) :=
  ⟨edits_editDistance s t, fun _ edits => edits.editDistance_le⟩

theorem editDistance_eq_zero_iff (s t : List Char) : editDistance s t = 0 ↔ s = t := by
  constructor
  · intro zero
    have script := edits_editDistance s t
    rw [zero] at script
    cases script
    rfl
  · rintro rfl
    exact editDistance_self s

end Placeholders.Text
