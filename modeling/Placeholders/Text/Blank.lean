set_option autoImplicit false

namespace Placeholders.Text

/-- The 25 characters with the property `White_Space`. -/
def isBlank (c : Char) : Bool :=
  let n := c.toNat
  (0x0009 ≤ n && n ≤ 0x000D) || n == 0x0020 || n == 0x0085 || n == 0x00A0 || n == 0x1680 ||
    (0x2000 ≤ n && n ≤ 0x200A) || n == 0x2028 || n == 0x2029 || n == 0x202F || n == 0x205F ||
    n == 0x3000

def trimStart (cs : List Char) : List Char :=
  cs.dropWhile isBlank

def trimEnd (cs : List Char) : List Char :=
  (cs.reverse.dropWhile isBlank).reverse

/-- `cs` without the white space at its two ends. -/
def trim (cs : List Char) : List Char :=
  trimEnd (trimStart cs)

def isBlankText (cs : List Char) : Bool :=
  cs.all isBlank

theorem isBlankText_iff (cs : List Char) : isBlankText cs = true ↔ ∀ c ∈ cs, isBlank c = true :=
  List.all_eq_true

structure Trimmed (cs : List Char) : Prop where
  first : ∀ c ∈ cs.head?, isBlank c = false
  last : ∀ c ∈ cs.getLast?, isBlank c = false

/-- The characters of a class at the start of a text end where one outside it follows. -/
theorem span_append {p : Char → Bool} {front back : List Char}
    (inside : ∀ c ∈ front, p c = true) (stop : ∀ c ∈ back.head?, p c = false) :
    (front ++ back).takeWhile p = front ∧ (front ++ back).dropWhile p = back := by
  rw [List.takeWhile_append_of_pos inside, List.dropWhile_append_of_pos inside]
  cases back with
  | nil => simp
  | cons c back => simp [stop c rfl]

private theorem dropWhile_isBlank_eq_self {cs : List Char}
    (first : ∀ c ∈ cs.head?, isBlank c = false) : cs.dropWhile isBlank = cs :=
  (@span_append isBlank [] cs (by simp) first).2

theorem Trimmed.trimEnd_eq {cs : List Char} (trimmed : Trimmed cs) : trimEnd cs = cs := by
  rw [trimEnd, dropWhile_isBlank_eq_self (by simpa using trimmed.last), List.reverse_reverse]

theorem Trimmed.trim_eq {cs : List Char} (trimmed : Trimmed cs) : trim cs = cs := by
  rw [trim, trimStart, dropWhile_isBlank_eq_self trimmed.first, trimmed.trimEnd_eq]

theorem trimEnd_append_blank (cs : List Char) {after : List Char}
    (blank : ∀ c ∈ after, isBlank c = true) : trimEnd (cs ++ after) = trimEnd cs := by
  simp only [trimEnd, List.reverse_append]
  rw [List.dropWhile_append_of_pos (by simpa using blank)]

/-- White space around a trimmed text goes, and nothing else. -/
theorem Trimmed.trim_surrounded {before cs after : List Char} (trimmed : Trimmed cs)
    (blankBefore : ∀ c ∈ before, isBlank c = true) (blankAfter : ∀ c ∈ after, isBlank c = true) :
    trim (before ++ cs ++ after) = cs := by
  rw [trim, trimStart, List.append_assoc, List.dropWhile_append_of_pos blankBefore]
  cases cs with
  | nil =>
      rw [List.nil_append, ← List.append_nil after, List.dropWhile_append_of_pos blankAfter]
      rfl
  | cons c cs =>
      rw [dropWhile_isBlank_eq_self (by simpa using trimmed.first), trimEnd_append_blank _ blankAfter,
        trimmed.trimEnd_eq]

theorem exists_trimEnd (cs : List Char) :
    ∃ after, cs = trimEnd cs ++ after ∧ ∀ c ∈ after, isBlank c = true := by
  refine ⟨(cs.reverse.takeWhile isBlank).reverse, ?_, ?_⟩
  · rw [trimEnd, ← List.reverse_append, List.takeWhile_append_dropWhile, List.reverse_reverse]
  · intro c member
    exact List.all_eq_true.mp List.all_takeWhile c (List.mem_reverse.mp member)

theorem exists_trim (cs : List Char) :
    ∃ before after, cs = before ++ trim cs ++ after ∧ (∀ c ∈ before, isBlank c = true) ∧
      ∀ c ∈ after, isBlank c = true := by
  obtain ⟨after, split, blank⟩ := exists_trimEnd (trimStart cs)
  refine ⟨cs.takeWhile isBlank, after, ?_, List.all_eq_true.mp List.all_takeWhile, blank⟩
  rw [trim, List.append_assoc, ← split, trimStart, List.takeWhile_append_dropWhile]

private theorem head?_dropWhile_isBlank (cs : List Char) :
    ∀ c ∈ (cs.dropWhile isBlank).head?, isBlank c = false := by
  intro c first
  have stops := List.head?_dropWhile_not isBlank cs
  rw [Option.mem_def.mp first] at stops
  exact stops

theorem trimmed_trim (cs : List Char) : Trimmed (trim cs) where
  first := by
    intro c first
    obtain ⟨after, split, -⟩ := exists_trimEnd (trimStart cs)
    apply head?_dropWhile_isBlank cs
    rw [← trimStart, split, List.head?_append, ← trim, Option.mem_def.mp first]
    rfl
  last := by
    rw [trim, trimEnd, List.getLast?_reverse]
    exact head?_dropWhile_isBlank _

theorem trim_trim (cs : List Char) : trim (trim cs) = trim cs :=
  (trimmed_trim cs).trim_eq

theorem mem_of_mem_trim {cs : List Char} {c : Char} (member : c ∈ trim cs) : c ∈ cs := by
  obtain ⟨before, after, split, -, -⟩ := exists_trim cs
  rw [split]
  simp [member]

theorem trim_eq_nil_iff (cs : List Char) : trim cs = [] ↔ isBlankText cs = true := by
  rw [isBlankText_iff]
  constructor
  · intro empty c member
    obtain ⟨before, after, split, blankBefore, blankAfter⟩ := exists_trim cs
    rw [split, empty, List.append_nil] at member
    rcases List.mem_append.mp member with front | back
    · exact blankBefore c front
    · exact blankAfter c back
  · intro blank
    have nothing : Trimmed [] := ⟨by simp, by simp⟩
    simpa using @Trimmed.trim_surrounded [] [] cs nothing (by simp) blank

end Placeholders.Text
