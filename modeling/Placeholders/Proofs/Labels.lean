import Placeholders.Diagnostic
import Placeholders.Proofs.Grammar
import Placeholders.Proofs.Rendering

set_option autoImplicit false

namespace Placeholders

namespace Text

/-- `first` is the text before the first occurrence of `needle` in `cs`. -/
structure FirstAt (needle cs first : List Char) : Prop where
  here : first ++ needle <+: cs
  earliest : ∀ other, other ++ needle <+: cs → first <+: other

theorem offsetOf?_of_infix {needle cs : List Char} (occurs : needle <:+: cs) :
    ∃ first, FirstAt needle cs first ∧ offsetOf? needle cs = some (byteLength first) := by
  induction cs with
  | nil =>
      obtain rfl := List.infix_nil.mp occurs
      exact ⟨[], ⟨List.prefix_rfl, fun other _ => List.nil_prefix⟩, rfl⟩
  | cons c cs ih =>
      by_cases now : needle <+: c :: cs
      · refine ⟨[], ⟨now, fun other _ => List.nil_prefix⟩, ?_⟩
        rw [offsetOf?, if_pos (List.isPrefixOf_iff_prefix.mpr now)]
        rfl
      · obtain ⟨first, ⟨here, earliest⟩, offset⟩ :=
          ih ((List.infix_cons_iff.mp occurs).resolve_left now)
        refine ⟨c :: first, ⟨List.cons_prefix_cons.mpr ⟨rfl, here⟩, ?_⟩, ?_⟩
        · intro other stands
          cases other with
          | nil => exact absurd stands now
          | cons d other =>
              obtain ⟨rfl, later⟩ := List.cons_prefix_cons.mp stands
              exact List.cons_prefix_cons.mpr ⟨rfl, earliest other later⟩
        · rw [offsetOf?, if_neg (by rwa [List.isPrefixOf_iff_prefix]), offset, Option.map_some,
            byteLength_cons]

/-- An expression that does not occur before its placeholder first occurs in it: there is a bracket
between, which it cannot hold, and then white space, with which it cannot begin. -/
theorem FirstAt.eq_of_fresh {needle before leading rest first : List Char}
    (place : FirstAt needle (before ++ '[' :: leading ++ needle ++ rest) first)
    (held : Pattern.IsExpression needle) (blank : ∀ c ∈ leading, isBlank c = true)
    (fresh : ¬ needle <:+: before) : first = before ++ '[' :: leading := by
  obtain ⟨trimmed, nonempty, clean⟩ := held
  obtain ⟨gap, split⟩ := place.earliest _ (List.prefix_append _ rest)
  obtain ⟨after, layout⟩ := place.here
  rw [← split, List.append_assoc, List.append_assoc, List.append_assoc,
    List.append_cancel_left_eq] at layout
  -- The gap between the two places begins in the text before the bracket, or at it and after it.
  rcases List.append_eq_append_iff.mp split with ⟨mid, rfl, rfl⟩ | ⟨mid, rfl, inner⟩
  · exfalso
    rw [List.append_assoc, List.cons_append] at layout
    rcases List.append_eq_append_iff.mp layout with ⟨between, rfl, -⟩ | ⟨between, rfl, inside⟩
    · exact fresh ⟨first, between, by simp⟩
    · cases between with
      | nil => exact fresh ⟨first, [], by simp⟩
      | cons c between =>
          obtain ⟨rfl, -⟩ := List.cons.inj inside
          exact (clean '[' (by simp)).1 rfl
  · cases gap with
    | nil => rw [inner, List.append_nil]
    | cons c gap =>
        exfalso
        obtain ⟨d, needle, rfl⟩ := List.exists_cons_of_ne_nil nonempty
        obtain ⟨rfl, -⟩ := List.cons.inj layout
        have member : d ∈ '[' :: leading := by simp [inner]
        rcases List.mem_cons.mp member with bracket | space
        · exact (clean d (by simp)).1 bracket
        · have solid := (trimmed_trim (d :: needle)).first
          rw [trimmed] at solid
          exact Bool.false_ne_true ((solid d rfl).symm.trans (blank d space))

/-- The first occurrence is in the placeholder if there is none before it, and else begins before
its bracket. -/
theorem offsetOf?_bracketed {needle leading : List Char} (held : Pattern.IsExpression needle)
    (blank : ∀ c ∈ leading, isBlank c = true) (before rest : List Char) :
    ∃ first, first ++ needle <+: before ++ '[' :: leading ++ needle ++ rest ∧
      offsetOf? needle (before ++ '[' :: leading ++ needle ++ rest) = some (byteLength first) ∧
      (¬ needle <:+: before → first = before ++ '[' :: leading) ∧
      (needle <:+: before → byteLength first < byteLength (before ++ '[' :: leading)) := by
  have occurs : needle <:+: before ++ '[' :: leading ++ needle ++ rest := ⟨_, rest, rfl⟩
  obtain ⟨first, place, offset⟩ := offsetOf?_of_infix occurs
  refine ⟨first, place.here, offset, place.eq_of_fresh held blank, ?_⟩
  rintro ⟨early, late, rfl⟩
  have stands : early ++ needle <+: early ++ needle ++ late ++ '[' :: leading ++ needle ++ rest :=
    ⟨late ++ '[' :: leading ++ needle ++ rest, by simp⟩
  obtain ⟨gap, rfl⟩ := place.earliest early stands
  have positive := Char.utf8Size_pos '['
  simp only [byteLength_append, byteLength_cons]
  omega

end Text

namespace Pattern

theorem placeholder_notMem_flushRun (expression : String) (run : List Char) :
    .placeholder expression ∉ flushRun run := by
  unfold flushRun
  split <;> simp

/-- Joined tokens are cut at a placeholder as their segments are. -/
theorem exists_tokens_of_joinRuns {tokens : List Token} {run : List Char}
    {before after : List Segment} {expression : String}
    (joined : joinRuns run tokens = before ++ .placeholder expression :: after) :
    ∃ first second, tokens = first ++ .placeholder expression.toList :: second ∧
      joinRuns run first = before := by
  -- On the tokens, for any run: literal tokens join it, and only a placeholder makes segments.
  induction tokens generalizing run before with
  | nil =>
      have member : .placeholder expression ∈ flushRun run := by
        rw [show flushRun run = _ from joined]
        simp
      exact absurd member (placeholder_notMem_flushRun expression run)
  | cons token tokens ih =>
      cases token with
      | literal c =>
          obtain ⟨first, second, rfl, front⟩ := ih joined
          exact ⟨.literal c :: first, second, rfl, front⟩
      | placeholder other =>
          rw [joinRuns] at joined
          have flushed : flushRun run <+: before := by
            rcases List.append_eq_append_iff.mp joined with ⟨mid, rfl, -⟩ | ⟨mid, front, back⟩
            · exact List.prefix_append _ mid
            · cases mid with
              | nil => rw [front, List.append_nil]
              | cons segment mid =>
                  obtain ⟨rfl, -⟩ := List.cons.inj back
                  exact absurd (by simp [front]) (placeholder_notMem_flushRun expression run)
          obtain ⟨mid, rfl⟩ := flushed
          rw [List.append_assoc, List.append_cancel_left_eq] at joined
          cases mid with
          | nil =>
              obtain ⟨same, rfl⟩ := List.cons.inj joined
              obtain rfl := Segment.placeholder.inj same
              exact ⟨[], tokens, by simp, by simp [joinRuns]⟩
          | cons segment mid =>
              obtain ⟨rfl, later⟩ := List.cons.inj joined
              obtain ⟨first, second, rfl, rfl⟩ := ih later
              exact ⟨.placeholder other :: first, second, rfl, rfl⟩

theorem exists_rest_of_scan {cs leftover : List Char} {token : Token} {tokens : List Token}
    (scanned : scan cs = (token :: tokens, leftover)) :
    ∃ front rest, Spells front token ∧ cs = front ++ rest ∧ scan rest = (tokens, leftover) := by
  cases taken : takeToken? cs with
  | none =>
      rw [scan_of_none taken] at scanned
      cases scanned
  | some next =>
      obtain ⟨other, rest⟩ := next
      obtain ⟨front, spelled, rfl⟩ := (takeToken?_eq_some_iff _ _ _).mp taken
      rw [scan_of_some taken, Prod.mk.injEq, List.cons.injEq] at scanned
      obtain ⟨⟨rfl, tokens⟩, stuck⟩ := scanned
      exact ⟨front, rest, spelled, rfl, Prod.ext tokens stuck⟩

/-- A placeholder among the tokens of a text stands in it between brackets, after a text of the
tokens before it. -/
theorem exists_text_of_scan {cs leftover expression : List Char} {first second : List Token}
    (scanned : scan cs = (first ++ .placeholder expression :: second, leftover)) :
    ∃ early content late, cs = early ++ '[' :: content ++ ']' :: late ∧ IsContent content ∧
      Text.trim content = expression ∧ scan early = (first, []) := by
  induction first generalizing cs with
  | nil =>
      obtain ⟨front, rest, spelled, rfl, -⟩ := exists_rest_of_scan scanned
      cases spelled with
      | @placeholder content filled =>
          exact ⟨[], content, rest, by simp, filled, rfl, scan_of_none rfl⟩
  | cons token first ih =>
      obtain ⟨front, rest, spelled, rfl, later⟩ := exists_rest_of_scan scanned
      obtain ⟨early, content, late, rfl, filled, trimmed, before⟩ := ih later
      refine ⟨front ++ early, content, late, by simp, filled, trimmed, ?_⟩
      rw [scan_of_spells spelled, before]

/-- A placeholder of a pattern stands in it between brackets and white space, after a pattern for
the segments before it. -/
theorem exists_text_of_parse {s expression : String} {before after : List Segment}
    (parsed : parse s = .ok (before ++ .placeholder expression :: after)) :
    ∃ early leading trailing late,
      s.toList = early ++ '[' :: leading ++ expression.toList ++ trailing ++ ']' :: late ∧
      (∀ c ∈ leading ++ trailing, Text.isBlank c = true) ∧ IsExpression expression.toList ∧
      parse (String.ofList early) = .ok before := by
  obtain ⟨whole, joined⟩ := (parse_eq_ok_iff _ _).mp parsed
  obtain ⟨first, second, tokens, rfl⟩ := exists_tokens_of_joinRuns joined
  obtain ⟨early, content, late, layout, filled, trimmed, scanned⟩ :=
    exists_text_of_scan (Prod.ext tokens whole)
  obtain ⟨leading, trailing, split, blankBefore, blankAfter⟩ := Text.exists_trim content
  rw [trimmed] at split
  refine ⟨early, leading, trailing, late, by simp [layout, split], ?_, ?_, ?_⟩
  · simpa [or_imp, forall_and] using ⟨blankBefore, blankAfter⟩
  · exact trimmed ▸ isExpression_trim filled
  · rw [parse_eq_ok_iff, String.toList_ofList, scanned]
    exact ⟨rfl, rfl⟩

end Pattern

/-- What an unresolved expression is faulted for, with the text before that in the expression: the
name of an unknown cast, after its parenthesis, or the whole. -/
inductive ResolveError.Faults (expression : List Char) :
    ResolveError → List Char → List Char → Prop
  | cast {name : String} {rest : List Char}
      (layout : expression = '(' :: name.toList ++ ')' :: rest) (suggestions : List String) :
      Faults expression (.unknownCast name suggestions) ['('] name.toList
  | whole {cause : ResolveError}
      (other : ∀ name suggestions, cause ≠ .unknownCast name suggestions) :
      Faults expression cause [] expression

theorem ResolveError.Faults.inside {expression front target : List Char} {cause : ResolveError}
    (faults : cause.Faults expression front target) : front ++ target <+: expression := by
  cases faults with
  | @cast name rest layout suggestions => exact ⟨')' :: rest, by simp [layout]⟩
  | whole other => exact List.prefix_rfl

namespace Engine

variable {C : Type}

/-- The text is an expression with a cast to `name`, of which the engine knows no type. -/
def RefusesCast (e : Engine C) (text name : String) : Prop :=
  ∃ expression, Expression.parse? text = some expression ∧ expression.cast = some name ∧
    e.types.findCast? name = none

theorem RefusesCast.layout {e : Engine C} {text name : String} (refuses : e.RefusesCast text name) :
    ∃ rest, text.toList = '(' :: name.toList ++ ')' :: rest := by
  obtain ⟨expression, parsed, given, -⟩ := refuses
  rcases (Expression.parse?_eq_some_iff _ _).mp parsed with
    ⟨castChars, _, _, _, form, -, rfl⟩ | ⟨-, _, _, _, -, -, rfl⟩
  · obtain rfl := Option.some.inj given
    exact ⟨_, by simpa using form.layout⟩
  · cases given

/-- An unknown cast is refused by the engine, unless a builder reports it. -/
theorem refusesCast_or_built {e : Engine C} {text name : String} {suggestions : List String}
    (failed : e.resolve text = .error (.unknownCast name suggestions)) :
    e.RefusesCast text name ∨
      ∃ placeholder owner builder arguments, e.find? placeholder = some (owner, builder) ∧
        builder.build placeholder arguments = .error (.unknownCast name suggestions) := by
  obtain ⟨expression, parsed, ⟨given, unknown, -⟩ | ⟨owner, builder, found, built⟩⟩ :=
    resolve_eq_unknownCast failed
  · exact Or.inl ⟨expression, parsed, given, unknown⟩
  · exact Or.inr ⟨_, owner, builder, _, found, built⟩

/-- An unknown cast stands in the expression, unless a builder reports it. -/
theorem exists_faults_or_built (e : Engine C) {text : String} {cause : ResolveError}
    (failed : e.resolve text = .error cause) :
    (∃ front target, cause.Faults text.toList front target) ∨
      ∃ name owner builder arguments, e.find? name = some (owner, builder) ∧
        builder.build name arguments = .error cause := by
  by_cases cast : ∃ name suggestions, cause = .unknownCast name suggestions
  · obtain ⟨name, suggestions, rfl⟩ := cast
    rcases refusesCast_or_built failed with refuses | built
    · obtain ⟨rest, layout⟩ := refuses.layout
      exact Or.inl ⟨_, _, .cast layout _⟩
    · exact Or.inr built
  · refine Or.inl ⟨[], text.toList, .whole ?_⟩
    intro name suggestions same
    exact cast ⟨name, suggestions, same⟩

end Engine

namespace Diagnostic

/-- The label of a diagnostic is on `target`, which stands in the content after `front`. -/
structure Selects (d : Diagnostic) (front target : List Char) : Prop where
  content : front ++ target <+: d.content.toList
  offset : d.offset = Text.byteLength front
  length : d.length = Text.byteLength target

theorem clamped_selects {content : String} {front target : List Char}
    (inside : front ++ target <+: content.toList) (origin message : String)
    (help? : Option String) :
    (clamped origin content (Text.byteLength front) (Text.byteLength target) message
      help?).Selects front target := by
  obtain ⟨rest, layout⟩ := inside
  have size : content.utf8ByteSize =
      Text.byteLength front + Text.byteLength target + Text.byteLength rest := by
    simp only [Text.utf8ByteSize_eq, ← layout, Text.byteLength_append]
  refine ⟨⟨rest, layout⟩, ?_, ?_⟩
  · simp only [clamped]
    omega
  · simp only [clamped]
    omega

theorem span_of_faults {expression : String} {cause : ResolveError} {front target : List Char}
    (faults : cause.Faults expression.toList front target) (start : Nat) :
    span start expression cause = (start + Text.byteLength front, Text.byteLength target) := by
  cases faults with
  | cast layout suggestions =>
      rw [span, Text.utf8ByteSize_eq]
      rfl
  | whole other =>
      rw [span, Text.utf8ByteSize_eq]
      · rfl
      · exact other

theorem ofPatternError_selects {pattern expression : String} {cause : ResolveError}
    {first front target : List Char} (here : first ++ expression.toList <+: pattern.toList)
    (offset : Text.offsetOf? expression.toList pattern.toList = some (Text.byteLength first))
    (faults : cause.Faults expression.toList front target) (origin : String) :
    (ofPatternError origin pattern (.resolve expression cause)).Selects (first ++ front)
      target := by
  have inside : first ++ front ++ target <+: pattern.toList := by
    rw [List.append_assoc]
    exact ((List.prefix_append_right_inj first).mpr faults.inside).trans here
  simp only [ofPatternError, offset, Option.getD_some, span_of_faults faults,
    ← Text.byteLength_append]
  exact clamped_selects inside origin _ _

/-- The unresolved expression of a pattern stands in brackets, after a text that compiles. The label
is on what it is faulted for in these brackets exactly if the expression does not occur in the text
before them. It is faulted for something, unless a builder reports the unknown cast. -/
theorem ofPatternError_selects_iff {C : Type} {e : Engine C} {pattern expression : String}
    {cause : ResolveError}
    (failed : Template.compile e pattern = .error (.resolve expression cause)) (origin : String) :
    ∃ before leading trailing after,
      pattern.toList =
        before ++ '[' :: leading ++ expression.toList ++ trailing ++ ']' :: after ∧
      (∀ c ∈ leading ++ trailing, Text.isBlank c = true) ∧
      Pattern.IsExpression expression.toList ∧ e.resolve expression = .error cause ∧
      (∃ template, Template.compile e (String.ofList before) = .ok template) ∧
      (∀ front target, cause.Faults expression.toList front target →
        ((ofPatternError origin pattern (.resolve expression cause)).Selects
          (before ++ '[' :: leading ++ front) target ↔ ¬ expression.toList <:+: before)) ∧
      ((∃ front target, cause.Faults expression.toList front target) ∨
        ∃ name owner builder arguments, e.find? name = some (owner, builder) ∧
          builder.build name arguments = .error cause) := by
  cases parsed : Pattern.parse pattern with
  | error fault => simp [Template.compile, parsed] at failed
  | ok segments =>
      rcases Template.compile_cases e parsed with
        ⟨before, other, after, error, rfl, earlier, unresolved, same⟩ | ⟨-, parts, compiled, -⟩
      · obtain ⟨rfl, rfl⟩ := PatternError.resolve.inj (Except.error.inj (failed.symm.trans same))
        obtain ⟨early, leading, trailing, late, layout, blank, held, front⟩ :=
          Pattern.exists_text_of_parse parsed
        refine ⟨early, leading, trailing, late, layout, blank, held, unresolved, ?_, ?_,
          e.exists_faults_or_built unresolved⟩
        · rcases Template.compile_cases e front with
            ⟨_, other, _, error, rfl, -, failure, -⟩ | ⟨-, parts, compiled, -⟩
          · obtain ⟨p, resolved⟩ := earlier other (by simp)
            cases failure.symm.trans resolved
          · exact ⟨_, compiled⟩
        · intro front target faults
          have blankBefore : ∀ c ∈ leading, Text.isBlank c = true := fun c member =>
            blank c (by simp [member])
          obtain ⟨first, here, offset, fresh, occurring⟩ :=
            Text.offsetOf?_bracketed held blankBefore early (trailing ++ ']' :: late)
          rw [← List.append_assoc, ← layout] at here offset
          have selected := ofPatternError_selects here offset faults origin
          constructor
          · intro selects occurs
            have same := selected.offset.symm.trans selects.offset
            have less := occurring occurs
            rw [Text.byteLength_append, Text.byteLength_append _ front] at same
            omega
          · intro new
            rwa [← fresh new]
      · cases failed.symm.trans compiled

/-- The name of an unknown cast, after white space. -/
theorem ofPatternError_selects_iff_cast :
    let failure : PatternError := .resolve "(strin)level" (.unknownCast "strin" ["string"])
    Template.compile (Engine.builtin .standard : Engine Unit) "Level [ (strin)level ]" =
        .error failure ∧
      (ofPatternError "texts.title" "Level [ (strin)level ]" failure).Selects
        "Level [ (".toList "strin".toList := by
  have compiled (format : NumberFormat) :
      Template.compile (Engine.builtin format : Engine Unit) "Level [ (strin)level ]" =
        .error (.resolve "(strin)level" (.unknownCast "strin" ["string"])) := by cbv
  intro failure
  have failed := compiled .standard
  obtain ⟨before, leading, trailing, after, layout, -, -, -, -, selects, -⟩ :=
    ofPatternError_selects_iff failed "texts.title"
  -- No other bracket and no other parenthesis opens, so the placeholder is where it seems to be.
  have layout : "Level ".toList ++ '[' :: " (strin)level ]".toList =
      before ++ '[' :: (leading ++ "(strin)level".toList ++ trailing ++ ']' :: after) := by
    simpa using layout
  obtain ⟨rfl, -, inside⟩ := (List.append_cons_inj_of_notMem (by decide) (by decide)).mp layout
  have inside : " ".toList ++ '(' :: "strin)level ]".toList =
      leading ++ '(' :: ("strin)level".toList ++ trailing ++ ']' :: after) := by
    simpa using inside
  obtain ⟨rfl, -, -⟩ := (List.append_cons_inj_of_notMem (by decide) (by decide)).mp inside
  have layout : "(strin)level".toList = '(' :: "strin".toList ++ ')' :: "level".toList := by decide
  exact ⟨failed, (selects _ _ (.cast layout _)).mpr (by decide)⟩

/-- A literal before the placeholder can hold the text of the expression. Then the label is on that
literal, and not in brackets. -/
theorem ofPatternError_selects_literal :
    let failure : PatternError := .resolve "health" (.unparsableLiteral "health")
    let d := ofPatternError "texts.title" "health: [health]" failure
    Template.compile (Engine.builtin .standard : Engine Unit) "health: [health]" = .error failure ∧
      d.Selects [] "health".toList ∧
      ∀ before inside target, ¬ d.Selects (before ++ '[' :: inside) target := by
  have compiled (format : NumberFormat) :
      Template.compile (Engine.builtin format : Engine Unit) "health: [health]" =
        .error (.resolve "health" (.unparsableLiteral "health")) := by cbv
  intro failure d
  have offset : d.offset = 0 := by decide +kernel
  refine ⟨compiled .standard, ⟨by decide +kernel, offset, by decide +kernel⟩, ?_⟩
  intro before inside target selects
  have positive := Char.utf8Size_pos '['
  have same := offset.symm.trans selects.offset
  rw [Text.byteLength_append, Text.byteLength_cons] at same
  omega

end Diagnostic

end Placeholders
