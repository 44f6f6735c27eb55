import Placeholders.Proofs.PatternFaults
import Placeholders.Proofs.Rendering

set_option autoImplicit false

namespace Placeholders

namespace Pattern

/-- Puts a segment before others, and a literal before a literal as one. -/
def Segment.joinTo : Segment → List Segment → List Segment
  | .literal text, .literal other :: segments => .literal (text ++ other) :: segments
  | segment, segments => segment :: segments

/-- Segments with neighbouring literals joined. -/
def merge (segments : List Segment) : List Segment :=
  segments.foldr Segment.joinTo []

theorem Segment.joinTo_literal (text other : String) (segments : List Segment) :
    (literal text).joinTo ((literal other).joinTo segments) =
      (literal (text ++ other)).joinTo segments := by
  cases segments with
  | nil => rfl
  | cons segment segments =>
      cases segment with
      | literal third => simp [Segment.joinTo, String.append_assoc]
      | placeholder expression => rfl

theorem merge_eq_self {segments : List Segment} (canonical : Canonical segments) :
    merge segments = segments := by
  induction segments with
  | nil => rfl
  | cons segment segments ih =>
      have apart := List.isChain_cons.mp canonical.apart
      have tail := ih ⟨fun other member => canonical.clean other (by simp [member]), apart.2⟩
      rw [merge, List.foldr_cons, ← merge, tail]
      cases segment with
      | placeholder expression => rfl
      | literal text =>
          cases segments with
          | nil => rfl
          | cons next segments =>
              cases next with
              | placeholder expression => rfl
              | literal other => exact absurd rfl (apart.1 (.literal other) rfl text other rfl)

theorem merge_append {first second : List Segment} (canonical : Canonical second) :
    merge (first ++ second) = first.foldr Segment.joinTo second := by
  rw [merge, List.foldr_append, ← merge, merge_eq_self canonical]

theorem foldr_flushRun_cons (c : Char) (run : List Char) (segments : List Segment) :
    (flushRun (c :: run)).foldr Segment.joinTo segments =
      (flushRun run).foldr Segment.joinTo ((flushRun [c]).foldr Segment.joinTo segments) := by
  by_cases empty : run = []
  · subst empty
    rfl
  · simp [flushRun, empty, Segment.joinTo_literal]

theorem foldr_flushRun_of_ended {segments : List Segment}
    (ended : ∀ text, segments.head? ≠ some (.literal text)) (run : List Char) :
    (flushRun run).foldr Segment.joinTo segments = flushRun run ++ segments := by
  by_cases empty : run = []
  · subst empty
    rfl
  · rw [flushRun, if_neg empty]
    cases segments with
    | nil => rfl
    | cons segment segments =>
        cases segment with
        | literal text => exact absurd rfl (ended text)
        | placeholder expression => rfl

/-- The literal run before some tokens is a segment before theirs. -/
theorem joinRuns_eq_foldr (run : List Char) (tokens : List Token) :
    joinRuns run tokens = (flushRun run).foldr Segment.joinTo (joinRuns [] tokens) := by
  induction tokens generalizing run with
  | nil =>
      have nothing : joinRuns [] [] = [] := rfl
      rw [nothing, foldr_flushRun_of_ended (by simp), List.append_nil, joinRuns]
  | cons token tokens ih =>
      cases token with
      | literal c => rw [joinRuns, ih, joinRuns, ih [c], foldr_flushRun_cons]
      | placeholder expression =>
          have alone : joinRuns [] (.placeholder expression :: tokens) =
              .placeholder (String.ofList expression) :: joinRuns [] tokens := rfl
          rw [alone, foldr_flushRun_of_ended (by simp), joinRuns]

/-- Tokens after tokens give the segments of both, joined at the seam. -/
theorem joinRuns_append (run : List Char) (first second : List Token) :
    joinRuns run (first ++ second) =
      (joinRuns run first).foldr Segment.joinTo (joinRuns [] second) := by
  induction first generalizing run with
  | nil => exact joinRuns_eq_foldr run second
  | cons token first ih =>
      cases token with
      | literal c => exact ih (c :: run)
      | placeholder expression =>
          have ended : ∀ text, (Segment.placeholder (String.ofList expression) ::
              joinRuns [] (first ++ second)).head? ≠ some (.literal text) := by simp
          rw [List.cons_append, joinRuns, joinRuns, List.foldr_append, List.foldr_cons, ← ih,
            ← foldr_flushRun_of_ended ended]
          rfl

theorem parse_append {p q : String} {front back : List Segment} (first : parse p = .ok front)
    (second : parse q = .ok back) : parse (p ++ q) = .ok (merge (front ++ back)) := by
  have canonical := canonical_of_parse second
  obtain ⟨whole, rfl⟩ := (parse_eq_ok_iff _ _).mp first
  obtain ⟨finished, rfl⟩ := (parse_eq_ok_iff _ _).mp second
  rw [parse_eq_ok_iff, String.toList_append, scan_append whole, merge_append canonical]
  exact ⟨finished, joinRuns_append [] _ _⟩

theorem StopsAt.append {q : String} {front rest : List Char} (stops : StopsAt q front rest)
    {p : String} (parsed : ∃ segments, parse p = .ok segments) :
    StopsAt (p ++ q) (p.toList ++ front) rest where
  layout := by rw [String.toList_append, stops.layout, List.append_assoc]
  accepted := by
    obtain ⟨segments, parsed⟩ := parsed
    obtain ⟨others, accepted⟩ := stops.accepted
    rw [String.ofList_append, String.ofList_toList]
    exact ⟨_, parse_append parsed accepted⟩
  more := stops.more
  stuck := stops.stuck

theorem parse_append_of_error {p q : String} {fault : Fault} {offset : Nat}
    (parsed : ∃ segments, parse p = .ok segments) (failed : parse q = .error ⟨fault, offset⟩) :
    parse (p ++ q) = .error ⟨fault, p.utf8ByteSize + offset⟩ := by
  obtain ⟨front, rest, stops⟩ := exists_stopsAt_of_error failed
  obtain ⟨rfl, rfl⟩ := stops.located failed
  rw [(stops.append parsed).parse_eq, Text.byteLength_append, ← Text.utf8ByteSize_eq]

end Pattern

namespace Template

variable {C : Type}

/-- Puts a part before others, and a literal before a literal as one. -/
def Part.joinTo : Part C → List (Part C) → List (Part C)
  | .literal text, .literal other :: parts => .literal (text ++ other) :: parts
  | part, parts => part :: parts

/-- Each segment is compiled to the part at its place. -/
abbrev Compiles (e : Engine C) : List Pattern.Segment → List (Part C) → Prop :=
  List.Forall₂ fun segment part => compileSegment e segment = .ok part

theorem compiles_joinTo {e : Engine C} {segment : Pattern.Segment} {part : Part C}
    (first : compileSegment e segment = .ok part) {segments : List Pattern.Segment}
    {parts : List (Part C)} (rest : Compiles e segments parts) :
    Compiles e (segment.joinTo segments) (part.joinTo parts) := by
  cases segment with
  | placeholder expression =>
      obtain ⟨base, -, rfl⟩ := compileSegment_placeholder_eq_ok first
      exact .cons first rest
  | literal text =>
      obtain rfl := Except.ok.inj first
      cases rest with
      | nil => exact .cons rfl .nil
      | @cons segment part segments parts next rest =>
          cases segment with
          | literal other =>
              obtain rfl := Except.ok.inj next
              exact .cons rfl rest
          | placeholder expression =>
              obtain ⟨base, -, rfl⟩ := compileSegment_placeholder_eq_ok next
              exact .cons rfl (.cons next rest)

theorem compiles_foldr {e : Engine C} {first second : List Pattern.Segment}
    {front back : List (Part C)} (before : Compiles e first front) (after : Compiles e second back) :
    Compiles e (first.foldr Pattern.Segment.joinTo second) (front.foldr Part.joinTo back) := by
  induction before with
  | nil => exact after
  | cons segment _ ih => exact compiles_joinTo segment ih

theorem exists_compiles {e : Engine C} {source : String} {template : Template C}
    (compiled : compile e source = .ok template) :
    ∃ segments, Pattern.parse source = .ok segments ∧ Compiles e segments template.parts := by
  cases parsed : Pattern.parse source with
  | error fault => simp [compile, parsed] at compiled
  | ok segments =>
      rcases compile_cases e parsed with ⟨_, _, _, _, -, -, -, failed⟩ | ⟨-, parts, same, each⟩
      · cases failed.symm.trans compiled
      · obtain rfl := Except.ok.inj (same.symm.trans compiled)
        exact ⟨segments, rfl, each⟩

theorem compile_of_compiles {e : Engine C} {source : String} {segments : List Pattern.Segment}
    (parsed : Pattern.parse source = .ok segments) {parts : List (Part C)}
    (each : Compiles e segments parts) : compile e source = .ok ⟨source, parts⟩ := by
  simp only [compile, parsed, mapM_of_forall₂ each]
  rfl

theorem render_cons (source : String) (part : Part C) (parts : List (Part C)) (context : C) :
    render ⟨source, part :: parts⟩ context = do
      return (← part.render context) ++ (← render ⟨source, parts⟩ context) := by
  simp only [render, List.mapM_cons]
  cases part.render context with
  | error error => rfl
  | ok text => cases parts.mapM (·.render context) <;> simp

theorem render_joinTo (source : String) (part : Part C) (parts : List (Part C)) (context : C) :
    render ⟨source, part.joinTo parts⟩ context = render ⟨source, part :: parts⟩ context := by
  cases part with
  | placeholder base type => rfl
  | literal text =>
      cases parts with
      | nil => rfl
      | cons next parts =>
          cases next with
          | placeholder base type => rfl
          | literal other =>
              rw [Part.joinTo, render_cons, render_cons, render_cons]
              cases render ⟨source, parts⟩ context with
              | error error => rfl
              | ok rest => exact congrArg Except.ok (String.append_assoc ..)

theorem placeholderCount_joinTo (source : String) (part : Part C) (parts : List (Part C)) :
    placeholderCount ⟨source, part.joinTo parts⟩ = placeholderCount ⟨source, part :: parts⟩ := by
  cases part with
  | placeholder base type => rfl
  | literal text =>
      cases parts with
      | nil => rfl
      | cons next parts => cases next <;> rfl

theorem render_foldr (first second both : String) (front back : List (Part C)) (context : C) :
    render ⟨both, front.foldr Part.joinTo back⟩ context = do
      return (← render ⟨first, front⟩ context) ++ (← render ⟨second, back⟩ context) := by
  induction front with
  | nil => simp [render]
  | cons part front ih =>
      rw [List.foldr_cons, render_joinTo, render_cons, ih, render_cons]
      cases part.render context with
      | error error => rfl
      | ok text =>
          cases render ⟨first, front⟩ context with
          | error error => rfl
          | ok others =>
              cases render ⟨second, back⟩ context with
              | error error => rfl
              | ok rest => exact congrArg Except.ok (String.append_assoc ..).symm

theorem placeholderCount_foldr (first second both : String) (front back : List (Part C)) :
    placeholderCount ⟨both, front.foldr Part.joinTo back⟩ =
      placeholderCount ⟨first, front⟩ + placeholderCount ⟨second, back⟩ := by
  induction front with
  | nil => simp [placeholderCount]
  | cons part front ih =>
      rw [List.foldr_cons, placeholderCount_joinTo]
      simp only [placeholderCount, List.countP_cons] at ih ⊢
      omega

end Template

/-- A text after a pattern is read as it is by itself: its segments are merged with those before
them, and its fault is that far behind. Two patterns that compile do so together, with the
placeholders of both, and render to both texts, or fail as the first one fails or else the second. -/
theorem compile_append {C : Type} (e : Engine C) {p : String} {front : List Pattern.Segment}
    (parsed : Pattern.parse p = .ok front) (q : String) :
    (∀ back, Pattern.parse q = .ok back →
      Pattern.parse (p ++ q) = .ok (Pattern.merge (front ++ back))) ∧
    (∀ fault offset, Pattern.parse q = .error ⟨fault, offset⟩ →
      Pattern.parse (p ++ q) = .error ⟨fault, p.utf8ByteSize + offset⟩) ∧
    ∀ first second, Template.compile e p = .ok first → Template.compile e q = .ok second →
      ∃ both, Template.compile e (p ++ q) = .ok both ∧
        both.placeholderCount = first.placeholderCount + second.placeholderCount ∧
        ∀ context, both.render context =
          match first.render context, second.render context with
          | .ok text, .ok other => .ok (text ++ other)
          | .error error, _ => .error error
          | .ok _, .error error => .error error := by
  refine ⟨fun _ => Pattern.parse_append parsed, ?_, ?_⟩
  · intro fault offset failed
    exact Pattern.parse_append_of_error ⟨front, parsed⟩ failed
  · intro first second compiled compiledToo
    obtain ⟨segments, read, each⟩ := Template.exists_compiles compiled
    obtain ⟨others, readToo, eachToo⟩ := Template.exists_compiles compiledToo
    have canonical := Pattern.canonical_of_parse readToo
    have together := Pattern.parse_append read readToo
    rw [Pattern.merge_append canonical] at together
    refine ⟨_, Template.compile_of_compiles together (Template.compiles_foldr each eachToo),
      Template.placeholderCount_foldr first.source second.source _ _ _, ?_⟩
    intro context
    rw [Template.render_foldr first.source second.source]
    cases first.render context with
    | error error => rfl
    | ok text => cases second.render context <;> rfl

/-- A placeholder and a literal of two bytes before a literal, and before a fault. -/
theorem compile_append_seam :
    let e : Engine Unit := .builtin .standard
    Pattern.parse ("[true]é" ++ "b]]") = .ok [.placeholder "true", .literal "éb]"] ∧
      Pattern.parse ("[true]é" ++ "b]") = .error ⟨.unmatchedClose, 9⟩ ∧
      ∃ both, Template.compile e ("[true]é" ++ "b]]") = .ok both ∧ both.placeholderCount = 1 ∧
        both.render () = .ok "trueéb]" := by
  have parsed : Pattern.parse "[true]é" = .ok [.placeholder "true", .literal "é"] := by
    decide +kernel
  have parsedToo : Pattern.parse "b]]" = .ok [.literal "b]"] := by decide +kernel
  have failed : Pattern.parse "b]" = .error ⟨.unmatchedClose, 1⟩ := by decide +kernel
  have resolved (format : NumberFormat) : (Engine.builtin format : Engine Unit).resolve "true" =
      .ok (.constant (.boolean true)) := by cbv
  intro e
  have each : Template.Compiles e [.placeholder "true", .literal "é"]
      [.placeholder (.constant (.boolean true)) (some .boolean), .literal "é"] := by
    refine .cons ?_ (.cons rfl .nil)
    simp only [Template.compileSegment, e, resolved]
    rw [show (Engine.builtin .standard : Engine Unit).types = .builtin .standard from rfl,
      Registry.findKind?_builtin]
    rfl
  have eachToo : Template.Compiles e [.literal "b]"] [.literal "b]"] := .cons rfl .nil
  obtain ⟨merged, -, together⟩ := compile_append e parsed "b]]"
  obtain ⟨-, shifted, -⟩ := compile_append e parsed "b]"
  obtain ⟨both, compiled, count, rendered⟩ := together _ _
    (Template.compile_of_compiles parsed each) (Template.compile_of_compiles parsedToo eachToo)
  exact ⟨merged _ parsedToo, shifted _ _ failed, both, compiled, count, rendered ()⟩

end Placeholders
