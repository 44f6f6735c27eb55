import Placeholders.Proofs.PatternText

set_option autoImplicit false

namespace Placeholders.Pattern

/-- No token starts at `cs`. -/
def Stuck (cs : List Char) : Prop :=
  ∀ piece token, Spells piece token → ¬ piece <+: cs

/-- `s` is a pattern up to `rest`, at which no token starts. -/
structure StopsAt (s : String) (front rest : List Char) : Prop where
  layout : s.toList = front ++ rest
  accepted : ∃ segments, parse (String.ofList front) = .ok segments
  more : rest ≠ []
  stuck : Stuck rest

/-- How a text with a fault begins: with blank brackets, with a single closing bracket, or with a
single opening one before the next of which none closes. -/
inductive Faulty : Fault → List Char → Prop
  | empty {content after : List Char} (blank : ∀ c ∈ content, Text.isBlank c = true) :
      Faulty .empty ('[' :: content ++ ']' :: after)
  | unmatchedClose {after : List Char} (single : after.head? ≠ some ']') :
      Faulty .unmatchedClose (']' :: after)
  | unclosed {content after : List Char} (single : (content ++ after).head? ≠ some '[')
      (plain : ∀ c ∈ content, isBracket c = false) (next : after = [] ∨ after.head? = some '[') :
      Faulty .unclosed ('[' :: content ++ after)

theorem takeToken?_eq_none_iff (cs : List Char) : takeToken? cs = none ↔ Stuck cs := by
  constructor
  · rintro stop piece token spelled ⟨rest, layout⟩
    have taken := (takeToken?_eq_some_iff cs rest token).mpr ⟨piece, spelled, layout.symm⟩
    cases stop.symm.trans taken
  · intro stuck
    cases taken : takeToken? cs with
    | none => rfl
    | some next =>
        obtain ⟨token, rest⟩ := next
        obtain ⟨piece, spelled, layout⟩ := (takeToken?_eq_some_iff cs rest token).mp taken
        exact absurd ⟨rest, layout.symm⟩ (stuck piece token spelled)

theorem exists_front_of_scan (cs : List Char) :
    ∃ front, cs = front ++ (scan cs).2 ∧ scan front = ((scan cs).1, []) ∧
      takeToken? (scan cs).2 = none := by
  induction cs using scan.induct with
  | case1 cs stop =>
      rw [scan_of_none stop]
      exact ⟨[], rfl, scan_of_none rfl, stop⟩
  | case2 cs token rest taken _ _ _ ih =>
      obtain ⟨piece, spelled, rfl⟩ := (takeToken?_eq_some_iff _ _ _).mp taken
      obtain ⟨front, layout, whole, stop⟩ := ih
      rw [scan_of_spells spelled]
      refine ⟨piece ++ front, ?_, ?_, stop⟩
      · rw [List.append_assoc, ← layout]
      · rw [scan_of_spells spelled, whole]

theorem exists_parse_iff (s : String) :
    (∃ segments, parse s = .ok segments) ↔ (scan s.toList).2 = [] := by
  simp only [parse_eq_ok_iff, exists_and_left, exists_eq', and_true]

/-- Whole tokens before a rest at which no token starts are all that a scan finds. -/
theorem StopsAt.scan_eq {s : String} {front rest : List Char} (stops : StopsAt s front rest) :
    (scan s.toList).2 = rest := by
  have whole := (exists_parse_iff _).mp stops.accepted
  rw [String.toList_ofList] at whole
  have stop := (takeToken?_eq_none_iff rest).mpr stops.stuck
  rw [stops.layout, scan_append whole, scan_of_none stop]

theorem StopsAt.unique {s : String} {front rest other others : List Char}
    (first : StopsAt s front rest) (second : StopsAt s other others) :
    front = other ∧ rest = others := by
  obtain rfl := first.scan_eq.symm.trans second.scan_eq
  have layout := first.layout.symm.trans second.layout
  exact ⟨List.append_cancel_right layout, rfl⟩

theorem StopsAt.parse_eq {s : String} {front rest : List Char} (stops : StopsAt s front rest) :
    parse s = .error ⟨faultAt rest, Text.byteLength front⟩ := by
  have leftover := stops.scan_eq
  have length : Text.byteLength s.toList - Text.byteLength rest = Text.byteLength front := by
    rw [stops.layout, Text.byteLength_append, Nat.add_sub_cancel]
  unfold parse read
  split
  · rename_i whole
    rw [whole] at leftover
    exact absurd leftover.symm stops.more
  · rename_i unfinished
    rw [unfinished] at leftover
    obtain rfl : _ = rest := leftover
    rw [length]

theorem StopsAt.located {s : String} {front rest : List Char} (stops : StopsAt s front rest)
    {fault : Fault} {offset : Nat} (failed : parse s = .error ⟨fault, offset⟩) :
    fault = faultAt rest ∧ offset = Text.byteLength front := by
  have same := failed.symm.trans stops.parse_eq
  rwa [Except.error.injEq, ParseError.mk.injEq] at same

theorem exists_stopsAt_of_error {s : String} {error : ParseError} (failed : parse s = .error error) :
    ∃ front rest, StopsAt s front rest := by
  obtain ⟨front, layout, whole, stop⟩ := exists_front_of_scan s.toList
  refine ⟨front, (scan s.toList).2, layout, ?_, ?_, (takeToken?_eq_none_iff _).mp stop⟩
  · rw [exists_parse_iff, String.toList_ofList, whole]
  · intro finished
    obtain ⟨segments, parsed⟩ := (exists_parse_iff s).mpr finished
    cases failed.symm.trans parsed

theorem isBracket_of_isBlank {c : Char} (blank : Text.isBlank c = true) : isBracket c = false := by
  by_contra bracket
  rw [Bool.not_eq_false, isBracket_iff] at bracket
  rcases bracket with rfl | rfl <;> revert blank <;> decide

theorem dropWhile_plain {content after : List Char} (plain : ∀ c ∈ content, isBracket c = false)
    (next : ∀ c ∈ after.head?, isBracket c = true) :
    (content ++ after).dropWhile (fun c => !isBracket c) = after :=
  (Text.span_append (by simpa using plain) (by simpa using next)).2

theorem Faulty.faultAt_eq {fault : Fault} {cs : List Char} (faulty : Faulty fault cs) :
    faultAt cs = fault := by
  cases faulty with
  | @empty content after blank =>
      have solid : ∀ c ∈ (']' :: after).head?, Text.isBlank c = false := by
        rintro c ⟨⟩
        decide
      have closed := (Text.span_append blank solid).2
      simp only [List.cons_append, faultAt, closed]
  | unmatchedClose single => rfl
  | @unclosed content after single plain next =>
      rw [List.cons_append, faultAt]
      split
      · -- A closing bracket after white space alone would be the first bracket.
        rename_i later closed
        have layout := (content ++ after).takeWhile_append_dropWhile (p := Text.isBlank)
        have blank : ∀ c ∈ (content ++ after).takeWhile Text.isBlank, isBracket c = false :=
          fun c member => isBracket_of_isBlank (List.all_eq_true.mp List.all_takeWhile c member)
        have bracket : ∀ c ∈ after.head?, isBracket c = true := by
          rcases next with rfl | opened
          · simp
          · rw [opened]
            simp [isBracket]
        have first := dropWhile_plain plain bracket
        rw [← layout, closed, dropWhile_plain blank (by simp [isBracket])] at first
        subst first
        simp at next
      · rfl

/-- A text at which no token starts begins in one of the ways. -/
theorem exists_faulty {cs : List Char} (more : cs ≠ []) (stuck : Stuck cs) :
    ∃ fault, Faulty fault cs := by
  obtain ⟨c, cs, rfl⟩ := List.exists_cons_of_ne_nil more
  have single (bracket : isBracket c = true) : cs.head? ≠ some c := by
    intro next
    obtain ⟨rest, rfl⟩ := List.head?_eq_some_iff.mp next
    exact stuck [c, c] _ (.doubled bracket) ⟨rest, rfl⟩
  by_cases bracket : isBracket c = true
  · rcases (isBracket_iff c).mp bracket with rfl | rfl
    · -- What comes first: the end of the text, another opening bracket, or a closing one.
      have layout := cs.takeWhile_append_dropWhile (p := fun c => !isBracket c)
      have plain : ∀ c ∈ cs.takeWhile fun c => !isBracket c, isBracket c = false := by
        intro c member
        simpa using List.all_eq_true.mp List.all_takeWhile c member
      have stops := cs.head?_dropWhile_not (p := fun c => !isBracket c)
      generalize cs.takeWhile _ = content at layout plain
      generalize cs.dropWhile _ = after at layout stops
      subst layout
      cases after with
      | nil => exact ⟨_, .unclosed (single rfl) plain (Or.inl rfl)⟩
      | cons d after =>
          simp only [List.head?_cons, Bool.not_eq_false'] at stops
          rcases (isBracket_iff d).mp stops with rfl | rfl
          · exact ⟨_, .unclosed (single rfl) plain (Or.inr rfl)⟩
          · refine ⟨_, .empty ((Text.isBlankText_iff content).mp ?_)⟩
            by_contra solid
            have filled : IsContent content := ⟨plain, by simpa using solid⟩
            exact stuck _ _ (.placeholder filled) ⟨after, by simp⟩
    · exact ⟨_, .unmatchedClose (single rfl)⟩
  · exact absurd ⟨cs, rfl⟩ (stuck [c] _ (.single (by simpa using bracket)))

theorem exists_pieces {cs : List Char} (whole : (scan cs).2 = []) :
    ∃ pieces : List (List Char), cs = pieces.flatten ∧
      ∀ piece ∈ pieces, ∃ token, Spells piece token := by
  induction cs using scan.induct with
  | case1 cs stop =>
      rw [scan_of_none stop] at whole
      exact ⟨[], whole, by simp⟩
  | case2 cs token rest taken _ _ _ ih =>
      obtain ⟨piece, spelled, rfl⟩ := (takeToken?_eq_some_iff _ _ _).mp taken
      rw [scan_of_spells spelled] at whole
      obtain ⟨pieces, rfl, each⟩ := ih whole
      exact ⟨piece :: pieces, rfl, List.forall_mem_cons.mpr ⟨⟨token, spelled⟩, each⟩⟩

theorem scan_flatten {pieces : List (List Char)}
    (each : ∀ piece ∈ pieces, ∃ token, Spells piece token) : (scan pieces.flatten).2 = [] := by
  induction pieces with
  | nil => rw [List.flatten_nil, scan_of_none rfl]
  | cons piece pieces ih =>
      obtain ⟨⟨token, spelled⟩, later⟩ := List.forall_mem_cons.mp each
      rw [List.flatten_cons, scan_of_spells spelled]
      exact ih later

/-- Reading fails at a byte exactly if the text is, up to there, a pattern and no token starts at the
rest. There is one such place at most, and how the rest begins tells the fault. A text without such
a place is read, and the texts that are read are those made up of tokens. -/
theorem parse_located (s : String) :
    (∀ offset, (∃ fault, parse s = .error ⟨fault, offset⟩) ↔
      ∃ front rest, StopsAt s front rest ∧ Text.byteLength front = offset) ∧
    (∀ front rest other others, StopsAt s front rest → StopsAt s other others →
      front = other ∧ rest = others) ∧
    (∀ fault offset front rest, parse s = .error ⟨fault, offset⟩ → StopsAt s front rest →
      ∀ kind, kind = fault ↔ Faulty kind rest) ∧
    ((∀ front rest, ¬ StopsAt s front rest) → ∃ segments, parse s = .ok segments) ∧
    ((∃ segments, parse s = .ok segments) ↔ ∃ pieces : List (List Char),
      s.toList = pieces.flatten ∧ ∀ piece ∈ pieces, ∃ token, Spells piece token) := by
  refine ⟨?_, fun _ _ _ _ => StopsAt.unique, ?_, ?_, ?_⟩
  · intro offset
    constructor
    · rintro ⟨fault, failed⟩
      obtain ⟨front, rest, stops⟩ := exists_stopsAt_of_error failed
      exact ⟨front, rest, stops, (stops.located failed).2.symm⟩
    · rintro ⟨front, rest, stops, rfl⟩
      exact ⟨_, stops.parse_eq⟩
  · intro fault offset front rest failed stops kind
    rw [(stops.located failed).1]
    constructor
    · rintro rfl
      obtain ⟨fault, faulty⟩ := exists_faulty stops.more stops.stuck
      rwa [faulty.faultAt_eq]
    · intro faulty
      exact faulty.faultAt_eq.symm
  · intro nowhere
    cases parsed : parse s with
    | ok segments => exact ⟨segments, rfl⟩
    | error error =>
        obtain ⟨front, rest, stops⟩ := exists_stopsAt_of_error parsed
        exact absurd stops (nowhere front rest)
  · rw [exists_parse_iff]
    constructor
    · exact exists_pieces
    · rintro ⟨pieces, layout, each⟩
      rw [layout]
      exact scan_flatten each

/-- An opening bracket after a letter of two bytes, a doubled bracket and a placeholder, and before
another opening bracket. -/
theorem parse_located_unclosed :
    StopsAt "é[[ [a] [b[c]" "é[[ [a] ".toList "[b[c]".toList ∧
      parse "é[[ [a] [b[c]" = .error ⟨.unclosed, 9⟩ ∧ Faulty .unclosed "[b[c]".toList := by
  have accepted : parse (String.ofList "é[[ [a] ".toList) =
      .ok [.literal "é[ ", .placeholder "a", .literal " "] := by decide +kernel
  have stops : StopsAt "é[[ [a] [b[c]" "é[[ [a] ".toList "[b[c]".toList :=
    ⟨by decide, ⟨_, accepted⟩, by decide, (takeToken?_eq_none_iff _).mp (by decide)⟩
  have faulty : Faulty .unclosed "[b[c]".toList :=
    @Faulty.unclosed ['b'] ['[', 'c', ']'] (by decide) (List.forall_mem_singleton.mpr rfl) (Or.inr rfl)
  obtain ⟨located, -, kinds, -⟩ := parse_located "é[[ [a] [b[c]"
  obtain ⟨fault, failed⟩ := (located 9).mpr ⟨_, _, stops, by decide⟩
  obtain rfl := (kinds fault 9 _ _ failed stops .unclosed).mpr faulty
  exact ⟨stops, failed, faulty⟩

end Placeholders.Pattern
