import Mathlib.Data.List.Chain
import Placeholders.Engine.Template

set_option autoImplicit false

namespace Placeholders.Pattern

/-- What a placeholder may hold between its brackets. -/
structure IsContent (content : List Char) : Prop where
  plain : ∀ c ∈ content, isBracket c = false
  solid : Text.isBlankText content = false

inductive Spells : List Char → Token → Prop
  | doubled {c : Char} (bracket : isBracket c = true) : Spells [c, c] (.literal c)
  | single {c : Char} (plain : isBracket c = false) : Spells [c] (.literal c)
  | placeholder {content : List Char} (filled : IsContent content) :
      Spells ('[' :: content ++ [']']) (.placeholder (Text.trim content))

theorem isBracket_iff (c : Char) : isBracket c = true ↔ c = '[' ∨ c = ']' := by
  simp [isBracket]

theorem takeContent?_eq_some_iff (cs content rest : List Char) :
    takeContent? cs = some (content, rest) ↔ cs = content ++ ']' :: rest ∧ IsContent content := by
  simp only [takeContent?]
  constructor
  · intro taken
    have split := cs.takeWhile_append_dropWhile (p := fun c => !isBracket c)
    split at taken
    · rename_i after closed
      rw [closed] at split
      rw [Option.ite_none_left_eq_some, Option.some.injEq, Prod.mk.injEq] at taken
      obtain ⟨solid, rfl, rfl⟩ := taken
      refine ⟨split.symm, ?_, by simpa using solid⟩
      intro c member
      simpa using List.all_eq_true.mp List.all_takeWhile c member
    · cases taken
  · rintro ⟨layout, filled⟩
    have inside : ∀ c ∈ content, (!isBracket c) = true := by
      intro c member
      simp [filled.plain c member]
    have stop : ∀ c ∈ (']' :: rest).head?, (!isBracket c) = false := by
      rintro c ⟨⟩
      rfl
    obtain ⟨front, back⟩ := Text.span_append inside stop
    rw [layout, front, back]
    simp [filled.solid]

theorem takeToken?_content {content : List Char} (filled : IsContent content) (rest : List Char) :
    takeToken? ('[' :: content ++ ']' :: rest) = some (.placeholder (Text.trim content), rest) := by
  cases content with
  | nil => cases filled.solid
  | cons c content =>
      have plain := filled.plain c (List.mem_cons_self ..)
      have other : c ≠ '[' := by
        rintro rfl
        cases plain
      have taken := (takeContent?_eq_some_iff _ _ rest).mpr ⟨rfl, filled⟩
      simp only [List.cons_append] at taken ⊢
      rw [takeToken?, taken]
      · rfl
      · simpa using other

theorem takeToken?_eq_some_iff (cs rest : List Char) (token : Token) :
    takeToken? cs = some (token, rest) ↔ ∃ front, Spells front token ∧ cs = front ++ rest := by
  constructor
  · intro taken
    unfold takeToken? at taken
    split at taken
    · cases taken
    · cases taken
      exact ⟨['[', '['], .doubled rfl, rfl⟩
    · cases taken
      exact ⟨[']', ']'], .doubled rfl, rfl⟩
    · obtain ⟨⟨content, after⟩, held, same⟩ := Option.map_eq_some_iff.mp taken
      cases same
      obtain ⟨layout, filled⟩ := (takeContent?_eq_some_iff _ _ _).mp held
      exact ⟨_, .placeholder filled, by simp [layout]⟩
    · cases taken
    · rename_i c after _ _ notOpen notClose
      cases taken
      have plain : isBracket c = false := by
        simp only [isBracket, Bool.or_eq_false_iff, beq_eq_false_iff_ne]
        exact ⟨notOpen, notClose⟩
      exact ⟨[c], .single plain, rfl⟩
  · intro ⟨front, spelled, layout⟩
    subst layout
    cases spelled with
    | @doubled c bracket =>
        rcases (isBracket_iff c).mp bracket with rfl | rfl
        · rfl
        · rfl
    | @single c plain =>
        have notOpen : c ≠ '[' := by rintro rfl; cases plain
        have notClose : c ≠ ']' := by rintro rfl; cases plain
        rw [List.singleton_append, takeToken?]
        · exact fun _ same => absurd same notOpen
        · exact fun _ same => absurd same notClose
        · exact notOpen
        · exact notClose
    | placeholder filled => simpa using takeToken?_content filled rest

theorem takeToken?_append {cs rest : List Char} {token : Token}
    (taken : takeToken? cs = some (token, rest)) (after : List Char) :
    takeToken? (cs ++ after) = some (token, rest ++ after) := by
  obtain ⟨front, spelled, rfl⟩ := (takeToken?_eq_some_iff _ _ _).mp taken
  exact (takeToken?_eq_some_iff _ _ _).mpr ⟨front, spelled, List.append_assoc ..⟩

theorem scan_of_spells {front : List Char} {token : Token} (spelled : Spells front token)
    (rest : List Char) : scan (front ++ rest) = (token :: (scan rest).1, (scan rest).2) :=
  scan_of_some ((takeToken?_eq_some_iff _ _ _).mpr ⟨front, spelled, rfl⟩)

/-- Text that is scanned to its end is scanned alike before any other text. -/
theorem scan_append {cs : List Char} (whole : (scan cs).2 = []) (after : List Char) :
    scan (cs ++ after) = ((scan cs).1 ++ (scan after).1, (scan after).2) := by
  induction cs using scan.induct with
  | case1 cs stop =>
      rw [scan_of_none stop] at whole ⊢
      simp only at whole
      subst whole
      rfl
  | case2 cs token rest taken _ _ _ ih =>
      rw [scan_of_some taken] at whole ⊢
      rw [scan_of_some (takeToken?_append taken after), ih whole]
      rfl

def Segment.tokens : Segment → List Token
  | .literal text => text.toList.map .literal
  | .placeholder expression => [.placeholder expression.toList]

/-- An expression as placeholders hold it. -/
def IsExpression (cs : List Char) : Prop :=
  Text.trim cs = cs ∧ cs ≠ [] ∧ ∀ c ∈ cs, c ≠ '[' ∧ c ≠ ']'

def Segment.Clean : Segment → Prop
  | .literal text => text ≠ ""
  | .placeholder expression => IsExpression expression.toList

/-- Clean segments without two literals side by side. -/
structure Canonical (segments : List Segment) : Prop where
  clean : ∀ segment ∈ segments, segment.Clean
  apart : segments.IsChain fun first second =>
    ∀ text other, first = .literal text → second ≠ .literal other

theorem isContent_of_isExpression {cs : List Char} (expression : IsExpression cs) :
    IsContent cs where
  plain := by
    intro c member
    simpa [isBracket] using expression.2.2 c member
  solid := by
    have solid : ¬ Text.isBlankText cs = true := by
      rw [← Text.trim_eq_nil_iff, expression.1]
      exact expression.2.1
    simpa using solid

theorem isExpression_trim {content : List Char} (filled : IsContent content) :
    IsExpression (Text.trim content) := by
  refine ⟨Text.trim_trim content, ?_, ?_⟩
  · intro empty
    rw [Text.trim_eq_nil_iff, filled.solid] at empty
    cases empty
  · intro c member
    have plain := filled.plain c (Text.mem_of_mem_trim member)
    simpa [isBracket] using plain

theorem scan_escape (cs : List Char) : scan (escape cs) = (cs.map .literal, []) := by
  induction cs with
  | nil => exact scan_of_none rfl
  | cons c cs ih =>
      have taken : takeToken? (escape (c :: cs)) = some (.literal c, escape cs) := by
        apply (takeToken?_eq_some_iff _ _ _).mpr
        by_cases bracket : isBracket c = true
        · exact ⟨[c, c], .doubled bracket, by simp [escape, bracket]⟩
        · exact ⟨[c], .single (by simpa using bracket), by simp [escape, bracket]⟩
      rw [scan_of_some taken, ih]
      rfl

theorem scan_segment {segment : Segment} (clean : segment.Clean) :
    scan segment.source = (segment.tokens, []) := by
  cases segment with
  | literal text => exact scan_escape text.toList
  | placeholder expression =>
      have filled := isContent_of_isExpression clean
      have taken := takeToken?_content filled []
      rw [clean.1] at taken
      rw [Segment.source, scan_of_some taken, scan_of_none rfl]
      rfl

theorem scan_source {segments : List Segment} (clean : ∀ segment ∈ segments, segment.Clean) :
    scan (segments.flatMap Segment.source) = (segments.flatMap Segment.tokens, []) := by
  induction segments with
  | nil => exact scan_of_none rfl
  | cons segment segments ih =>
      have head := scan_segment (clean segment (by simp))
      have tail := ih fun other member => clean other (by simp [member])
      rw [List.flatMap_cons, scan_append (by rw [head]), head, tail]
      rfl

theorem joinRuns_literals (cs run : List Char) (tokens : List Token) :
    joinRuns run (cs.map .literal ++ tokens) = joinRuns (cs.reverse ++ run) tokens := by
  induction cs generalizing run with
  | nil => rfl
  | cons c cs ih => simp [joinRuns, ih]

theorem joinRuns_eq_append {tokens : List Token}
    (ended : ∀ c, tokens.head? ≠ some (.literal c)) (run : List Char) :
    joinRuns run tokens = flushRun run ++ joinRuns [] tokens := by
  cases tokens with
  | nil => simp [joinRuns, flushRun]
  | cons token tokens =>
      cases token with
      | literal c => exact absurd rfl (ended c)
      | placeholder expression => simp [joinRuns, flushRun]

theorem flushRun_reverse {text : String} (nonempty : text ≠ "") :
    flushRun text.toList.reverse = [.literal text] := by
  simp [flushRun, nonempty]

theorem joinRuns_tokens {segments : List Segment} (canonical : Canonical segments) :
    joinRuns [] (segments.flatMap Segment.tokens) = segments := by
  induction segments with
  | nil => rfl
  | cons segment segments ih =>
      have apart := List.isChain_cons.mp canonical.apart
      have tail := ih ⟨fun other member => canonical.clean other (by simp [member]), apart.2⟩
      cases segment with
      | placeholder expression =>
          simp [Segment.tokens, joinRuns, flushRun, tail]
      | literal text =>
          have ended : ∀ c, (segments.flatMap Segment.tokens).head? ≠ some (.literal c) := by
            intro c
            cases segments with
            | nil => simp
            | cons next others =>
                cases next with
                | literal other => exact absurd rfl (apart.1 (.literal other) rfl text other rfl)
                | placeholder expression => simp [Segment.tokens]
          have nonempty : text ≠ "" := canonical.clean (.literal text) (by simp)
          rw [List.flatMap_cons, Segment.tokens, joinRuns_literals, List.append_nil,
            joinRuns_eq_append ended, flushRun_reverse nonempty, tail]
          rfl

/-- Tokens as a scan gives them. -/
def Token.Clean : Token → Prop
  | .literal _ => True
  | .placeholder expression => IsExpression expression

theorem clean_of_mem_scan {cs : List Char} {token : Token} (member : token ∈ (scan cs).1) :
    token.Clean := by
  induction cs using scan.induct with
  | case1 cs stop =>
      rw [scan_of_none stop] at member
      cases member
  | case2 cs first rest taken _ _ _ ih =>
      rw [scan_of_some taken] at member
      rcases List.mem_cons.mp member with rfl | later
      · obtain ⟨front, spelled, -⟩ := (takeToken?_eq_some_iff _ _ _).mp taken
        cases spelled with
        | doubled bracket => trivial
        | single plain => trivial
        | placeholder filled => exact isExpression_trim filled
      · exact ih later

theorem Canonical.cons_placeholder {segments : List Segment} (canonical : Canonical segments)
    {expression : List Char} (held : IsExpression expression) :
    Canonical (.placeholder (String.ofList expression) :: segments) where
  clean := by
    intro segment member
    rcases List.mem_cons.mp member with rfl | later
    · simpa [Segment.Clean] using held
    · exact canonical.clean segment later
  apart := by
    apply List.isChain_cons.mpr
    exact ⟨fun _ _ _ _ literal => (by cases literal), canonical.apart⟩

theorem Canonical.flushRun_append {segments : List Segment} (canonical : Canonical segments)
    (ended : ∀ text, segments.head? ≠ some (.literal text)) (run : List Char) :
    Canonical (flushRun run ++ segments) := by
  by_cases empty : run = []
  · simpa [flushRun, empty] using canonical
  · rw [flushRun, if_neg empty]
    constructor
    · intro segment member
      rcases List.mem_cons.mp member with rfl | later
      · simpa [Segment.Clean] using empty
      · exact canonical.clean segment later
    · apply List.isChain_cons.mpr
      refine ⟨?_, canonical.apart⟩
      intro next first text other _ same
      exact ended other (same ▸ first)

theorem canonical_joinRuns {tokens : List Token} (clean : ∀ token ∈ tokens, token.Clean)
    (run : List Char) : Canonical (joinRuns run tokens) := by
  induction tokens generalizing run with
  | nil =>
      have nothing : Canonical [] := ⟨by simp, .nil⟩
      simpa [joinRuns] using nothing.flushRun_append (by simp) run
  | cons token tokens ih =>
      have tail := ih fun other member => clean other (by simp [member])
      cases token with
      | literal c => exact tail (c :: run)
      | placeholder expression =>
          have held : IsExpression expression := clean (.placeholder expression) (by simp)
          exact ((tail []).cons_placeholder held).flushRun_append (by simp) run

theorem parse_eq_ok_iff (s : String) (segments : List Segment) :
    parse s = .ok segments ↔
      (scan s.toList).2 = [] ∧ joinRuns [] (scan s.toList).1 = segments := by
  unfold parse read
  split
  · rename_i tokens whole
    simp [whole]
  · rename_i tokens leftover stuck whole
    have unfinished : leftover ≠ [] := stuck
    simp [whole, unfinished]

theorem canonical_of_parse {s : String} {segments : List Segment}
    (parsed : parse s = .ok segments) : Canonical segments := by
  obtain ⟨-, rfl⟩ := (parse_eq_ok_iff _ _).mp parsed
  exact canonical_joinRuns (fun _ => clean_of_mem_scan) []

theorem parse_source {segments : List Segment} (canonical : Canonical segments) :
    parse (source segments) = .ok segments := by
  rw [parse_eq_ok_iff, source, String.toList_ofList, scan_source canonical.clean]
  exact ⟨rfl, joinRuns_tokens canonical⟩

theorem parse_escape (text : String) :
    parse (String.ofList (escape text.toList)) =
      .ok (if text = "" then [] else [.literal text]) := by
  rw [parse_eq_ok_iff, String.toList_ofList, scan_escape]
  refine ⟨rfl, ?_⟩
  rw [← List.append_nil (List.map _ _), joinRuns_literals, List.append_nil, joinRuns]
  split
  · rename_i empty
    subst empty
    rfl
  · rename_i nonempty
    exact flushRun_reverse nonempty

/-- Without placeholders, compiling needs nothing of the engine and rendering nothing of the
context. -/
theorem compile_escape {C : Type} (e : Engine C) (text : String) :
    ∃ template, Template.compile e (String.ofList (escape text.toList)) = .ok template ∧
      template.placeholderCount = 0 ∧ ∀ context, template.render context = .ok text := by
  unfold Template.compile
  rw [parse_escape]
  by_cases empty : text = ""
  · subst empty
    exact ⟨_, rfl, rfl, fun _ => rfl⟩
  · rw [if_neg empty]
    refine ⟨_, rfl, rfl, fun context => ?_⟩
    simp [Template.render, Template.Part.render, bind, Except.bind, pure, Except.pure]

/-- Written segments read back, and what reads at all reads as segments that do. Text with its
brackets doubled compiles on every engine and renders to itself. -/
theorem parse_source_canonical :
    (∀ segments, Canonical segments → parse (source segments) = .ok segments) ∧
    (∀ s segments, parse s = .ok segments →
      Canonical segments ∧ parse (source segments) = .ok segments) ∧
    ∀ {C : Type} (e : Engine C) (text : String), ∃ template,
      Template.compile e (String.ofList (escape text.toList)) = .ok template ∧
        template.placeholderCount = 0 ∧ ∀ context, template.render context = .ok text := by
  refine ⟨fun _ => parse_source, ?_, compile_escape⟩
  intro s segments parsed
  have canonical := canonical_of_parse parsed
  exact ⟨canonical, parse_source canonical⟩

/-- A literal that ends in a bracket before a placeholder, and one that begins with a bracket
after it. -/
theorem parse_source_canonical_nested :
    let segments : List Segment := [.literal "[", .placeholder "x", .literal "] ]"]
    Canonical segments ∧ source segments = "[[[x]]] ]]" ∧ parse "[[[x]]] ]]" = .ok segments := by
  intro segments
  have written : source segments = "[[[x]]] ]]" := by decide +kernel
  have canonical : Canonical segments := by
    refine ⟨?_, ?_⟩
    · simp [segments, Segment.Clean, IsExpression]
      decide
    · simp [segments]
  exact ⟨canonical, written, written ▸ parse_source_canonical.1 segments canonical⟩

end Placeholders.Pattern
