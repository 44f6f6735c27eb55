import Placeholders.Proofs.ConditionLists
import Placeholders.Proofs.Labels
import Placeholders.Proofs.PatternFaults
import Placeholders.Text.Order

set_option autoImplicit false

namespace Placeholders

namespace Text

theorem length_flatMap_encode (cs : List Char) :
    (cs.flatMap String.utf8EncodeChar).length = byteLength cs := by
  induction cs with
  | nil => rfl
  | cons c cs ih =>
      rw [List.flatMap_cons, List.length_append, ih, String.length_utf8EncodeChar, byteLength_cons]

/-- What stands after `front` in a text begins in its bytes where those of `front` end. -/
theorem bytes_slice {s : String} {front target : List Char}
    (inside : front ++ target <+: s.toList) :
    ((bytes s).drop (byteLength front)).take (byteLength target) =
      target.flatMap String.utf8EncodeChar := by
  obtain ⟨rest, layout⟩ := inside
  rw [bytes, ← layout, List.flatMap_append, List.flatMap_append, List.append_assoc,
    ← length_flatMap_encode front, List.drop_left, ← length_flatMap_encode target, List.take_left]

theorem isValid_byteLength {s : String} {front : List Char} (start : front <+: s.toList) :
    String.Pos.Raw.IsValid s ⟨byteLength front⟩ := by
  obtain ⟨rest, layout⟩ := start
  refine String.Pos.Raw.isValid_iff_exists_append.mpr
    ⟨String.ofList front, String.ofList rest, ?_, ?_⟩
  · rw [← String.ofList_append, layout, String.ofList_toList]
  · rw [String.rawEndPos, utf8ByteSize_eq, String.toList_ofList]

end Text

namespace Diagnostic

/-- The diagnostic is about `content`, and its label does not leave it. -/
structure Within (d : Diagnostic) (content : String) : Prop where
  about : d.content = content
  start : d.offset ≤ content.utf8ByteSize
  stop : d.offset + d.length ≤ content.utf8ByteSize

def selected (d : Diagnostic) : List UInt8 :=
  ((Text.bytes d.content).drop d.offset).take d.length

/-- The label is on `target`, which stands in `text` after `front`: the bytes under it are those of
`target`, and it begins and ends between characters. -/
structure Marks (d : Diagnostic) (text : String) (front target : List Char) : Prop extends
    d.Selects front target where
  about : d.content = text
  bytes : d.selected = target.flatMap String.utf8EncodeChar
  start : String.Pos.Raw.IsValid d.content ⟨d.offset⟩
  stop : String.Pos.Raw.IsValid d.content ⟨d.offset + d.length⟩

theorem Selects.marks {d : Diagnostic} {front target : List Char}
    (selects : d.Selects front target) : d.Marks d.content front target := by
  refine ⟨selects, rfl, ?_, ?_, ?_⟩
  · rw [selected, selects.offset, selects.length, Text.bytes_slice selects.content]
  · rw [selects.offset]
    exact Text.isValid_byteLength ((List.prefix_append front target).trans selects.content)
  · rw [selects.offset, selects.length, ← Text.byteLength_append]
    exact Text.isValid_byteLength selects.content

theorem clamped_within (origin content : String) (offset length : Nat) (message : String)
    (help? : Option String) :
    (clamped origin content offset length message help?).Within content := by
  refine ⟨rfl, Nat.min_le_right _ _, ?_⟩
  simp only [clamped]
  omega

theorem ofPatternError_within (origin pattern : String) (error : PatternError) :
    (ofPatternError origin pattern error).Within pattern := by
  cases error <;> exact clamped_within ..

theorem ofResolveError_selects {text : String} {cause : ResolveError} {front target : List Char}
    (faults : cause.Faults text.toList front target) (origin : String) :
    (ofResolveError origin text cause).Selects front target := by
  simp only [ofResolveError, span_of_faults faults, Nat.zero_add]
  exact clamped_selects faults.inside origin _ _

theorem ofConditionError_selects {text : String} {cause : ResolveError} {front target : List Char}
    (faults : cause.Faults text.toList front target) (origin : String) :
    (ofConditionError origin (.resolve text cause)).Selects front target := by
  simp only [ofConditionError, span_of_faults faults, Nat.zero_add]
  exact clamped_selects faults.inside origin _ _

end Diagnostic

/-- The text that an error of a condition is about: the operand that did not resolve, or none. -/
def ConditionError.content : ConditionError → String
  | .resolve operand _ => operand
  | _ => ""

theorem Diagnostic.ofConditionError_within (origin : String) (error : ConditionError) :
    (ofConditionError origin error).Within error.content := by
  cases error <;> exact clamped_within ..

namespace Pattern

def Fault.bracket : Fault → Char
  | .unclosed => '['
  | .empty => '['
  | .unmatchedClose => ']'

theorem Faulty.exists_bracket {fault : Fault} {cs : List Char} (faulty : Faulty fault cs) :
    ∃ rest, cs = fault.bracket :: rest := by
  cases faulty <;> exact ⟨_, rfl⟩

/-- The offset of a fault is that of its bracket. -/
theorem exists_bracket_of_error {s : String} {error : ParseError}
    (failed : parse s = .error error) :
    ∃ front rest, s.toList = front ++ error.fault.bracket :: rest ∧
      error.offset = Text.byteLength front := by
  obtain ⟨front, rest, stops⟩ := exists_stopsAt_of_error failed
  obtain ⟨fault, offset⟩ := stops.located failed
  obtain ⟨kind, faulty⟩ := exists_faulty stops.more stops.stuck
  obtain ⟨after, begins⟩ := faulty.exists_bracket
  refine ⟨front, after, ?_, offset⟩
  rw [fault, faulty.faultAt_eq, stops.layout, begins]

end Pattern

theorem Diagnostic.ofPatternError_marks_bracket {pattern : String} {error : Pattern.ParseError}
    (failed : Pattern.parse pattern = .error error) (origin : String) :
    ∃ front rest, pattern.toList = front ++ error.fault.bracket :: rest ∧
      (ofPatternError origin pattern (.parse error)).Marks pattern front [error.fault.bracket] ∧
      (ofPatternError origin pattern (.parse error)).length = 1 := by
  obtain ⟨front, rest, layout, offset⟩ := Pattern.exists_bracket_of_error failed
  have one : Text.byteLength [error.fault.bracket] = 1 := by
    cases error.fault <;> rfl
  have selects : (ofPatternError origin pattern (.parse error)).Selects front
      [error.fault.bracket] := by
    simp only [ofPatternError, offset, ← one]
    exact clamped_selects ⟨rest, by simp [layout]⟩ origin _ _
  exact ⟨front, rest, layout, selects.marks, selects.length.trans one⟩

namespace Engine

variable {C : Type} {e : Engine C} {text : String} {cause : ResolveError}

/-- How to label a text that did not resolve: on the name in the parentheses of a refused cast, and
on all of the text for an error of another kind. -/
structure Labels (e : Engine C) (text : String) (cause : ResolveError) (d : Diagnostic) : Prop where
  cast : ∀ name, e.RefusesCast text name → ∃ rest,
    text.toList = '(' :: name.toList ++ ')' :: rest ∧ d.Marks text ['('] name.toList
  other : (∀ name suggestions, cause ≠ .unknownCast name suggestions) → d.Marks text [] text.toList

theorem RefusesCast.resolve {name : String} (refuses : e.RefusesCast text name) :
    e.resolve text = .error (.unknownCast name (Text.suggestions name e.types.castNames)) := by
  obtain ⟨expression, parsed, given, unknown⟩ := refuses
  simp only [resolve_of_parse? e parsed, resolveExpression, given, Registry.resolveCast, unknown,
    bind, Except.bind]

/-- A label on what the text is faulted for is put as it should be. -/
theorem labels_of_selects (failed : e.resolve text = .error cause) {d : Diagnostic}
    (content : d.content = text)
    (selects : ∀ front target, cause.Faults text.toList front target → d.Selects front target) :
    e.Labels text cause d := by
  subst content
  constructor
  · intro name refuses
    obtain rfl := Except.error.inj (failed.symm.trans refuses.resolve)
    obtain ⟨rest, layout⟩ := refuses.layout
    exact ⟨rest, layout, (selects _ _ (.cast layout _)).marks⟩
  · intro other
    exact (selects _ _ (.whole other)).marks

end Engine

namespace Condition

variable {C : Type} {e : Engine C} {operand : String} {cause : ResolveError}

theorem resolve_eq_error_of_operand {expression : String}
    (failed : resolveOperand e expression = .error (.resolve operand cause)) :
    operand = expression ∧ e.resolve operand = .error cause := by
  unfold resolveOperand at failed
  cases resolved : e.resolve expression with
  | ok p =>
      rw [resolved] at failed
      cases failed
  | error error =>
      rw [resolved] at failed
      obtain ⟨rfl, rfl⟩ := ConditionError.resolve.inj (Except.error.inj failed)
      exact ⟨rfl, resolved⟩

/-- The operand that a comparison is refused for is one of the two, and does not resolve. -/
theorem resolve_eq_error_of_compare {first second : String} {comparison : Comparison}
    (failed : compare e first comparison second = .error (.resolve operand cause)) :
    (operand = first ∨ operand = second) ∧ e.resolve operand = .error cause := by
  rcases (bind_eq_error _ _ _).mp failed with early | ⟨left, -, later⟩
  · obtain ⟨rfl, unresolved⟩ := resolve_eq_error_of_operand early
    exact ⟨Or.inl rfl, unresolved⟩
  · rcases (bind_eq_error _ _ _).mp later with early | ⟨right, -, checked⟩
    · obtain ⟨rfl, unresolved⟩ := resolve_eq_error_of_operand early
      exact ⟨Or.inr rfl, unresolved⟩
    · split at checked <;> cases checked

theorem resolve_eq_error_of_refused {spec : ConditionSpec}
    (refused : spec.Refused e (.resolve operand cause)) :
    (operand = spec.first ∨ operand = spec.second) ∧ e.resolve operand = .error cause := by
  cases refused with
  | first operation unresolved => exact ⟨Or.inl rfl, unresolved⟩
  | second operation first unresolved => exact ⟨Or.inr rfl, unresolved⟩

/-- The operand that a list is refused for is one of an entry, and does not resolve. -/
theorem resolve_eq_error_of_ofSpecs {specs : List ConditionSpec}
    (failed : ofSpecs e specs = .error (.resolve operand cause)) :
    (∃ spec ∈ specs, operand = spec.first ∨ operand = spec.second) ∧
      e.resolve operand = .error cause := by
  rcases accepted_or_first_refused e specs with
    all | ⟨before, spec, after, error, rfl, earlier, refused⟩
  · obtain ⟨condition, compiled, -⟩ := foldlM_of_accepted all .always
    cases failed.symm.trans compiled
  · obtain rfl := Except.error.inj
      (failed.symm.trans (foldlM_of_refused earlier refused after .always))
    obtain ⟨of, unresolved⟩ := resolve_eq_error_of_refused refused
    exact ⟨⟨spec, by simp, of⟩, unresolved⟩

end Condition

namespace Diagnostic

/-- No label leaves its content, whatever the error is. On a text that the engine does not resolve,
also where it is an operand of a comparison or of a list of them, the label is on the name of the
cast that the engine refuses, and on the whole text for an error of another kind. On a pattern with
a fault it is on the one byte of the bracket. All of these begin and end between characters. -/
theorem spans_targeted {C : Type} (e : Engine C) (origin : String) :
    (∀ content error, (ofResolveError origin content error).Within content) ∧
    (∀ content error, (ofPatternError origin content error).Within content) ∧
    (∀ error, (ofConditionError origin error).Within error.content) ∧
    (∀ text name, e.RefusesCast text name →
      ∃ suggestions, e.resolve text = .error (.unknownCast name suggestions)) ∧
    (∀ text name suggestions, e.resolve text = .error (.unknownCast name suggestions) →
      e.RefusesCast text name ∨
        ∃ placeholder owner builder arguments, e.find? placeholder = some (owner, builder) ∧
          builder.build placeholder arguments = .error (.unknownCast name suggestions)) ∧
    (∀ text cause, e.resolve text = .error cause →
      e.Labels text cause (ofResolveError origin text cause)) ∧
    (∀ first comparison second operand cause,
      Condition.compare e first comparison second = .error (.resolve operand cause) →
        (operand = first ∨ operand = second) ∧ e.resolve operand = .error cause ∧
        e.Labels operand cause (ofConditionError origin (.resolve operand cause))) ∧
    (∀ specs operand cause, Condition.ofSpecs e specs = .error (.resolve operand cause) →
      (∃ spec ∈ specs, operand = spec.first ∨ operand = spec.second) ∧
        e.resolve operand = .error cause ∧
        e.Labels operand cause (ofConditionError origin (.resolve operand cause))) ∧
    ∀ pattern error, Pattern.parse pattern = .error error →
      ∃ front rest, pattern.toList = front ++ error.fault.bracket :: rest ∧
        (ofPatternError origin pattern (.parse error)).Marks pattern front [error.fault.bracket] ∧
        (ofPatternError origin pattern (.parse error)).length = 1 := by
  have operand {text : String} {cause : ResolveError} (failed : e.resolve text = .error cause) :
      e.Labels text cause (ofConditionError origin (.resolve text cause)) :=
    e.labels_of_selects failed rfl fun _ _ faults => ofConditionError_selects faults origin
  refine ⟨fun _ _ => clamped_within .., ofPatternError_within origin,
    ofConditionError_within origin, fun _ _ refuses => ⟨_, refuses.resolve⟩,
    fun _ _ _ => Engine.refusesCast_or_built, ?_, ?_, ?_,
    fun _ _ failed => ofPatternError_marks_bracket failed origin⟩
  · intro text cause failed
    exact e.labels_of_selects failed rfl fun _ _ faults => ofResolveError_selects faults origin
  · intro first comparison second text cause failed
    obtain ⟨of, unresolved⟩ := Condition.resolve_eq_error_of_compare failed
    exact ⟨of, unresolved, operand unresolved⟩
  · intro specs text cause failed
    obtain ⟨of, unresolved⟩ := Condition.resolve_eq_error_of_ofSpecs failed
    exact ⟨of, unresolved, operand unresolved⟩

/-- An operand with an unknown cast, one that is no literal, of one letter of two bytes, and an
opening bracket some way after such a letter. -/
theorem spans_targeted_operands :
    let e : Engine Unit := .builtin .standard
    let cast : ResolveError := .unknownCast "strin" ["string"]
    let literal : ResolveError := .unparsableLiteral "é"
    let unclosed : Pattern.ParseError := ⟨.unclosed, 9⟩
    Condition.compare e "(strin)level" .less "'a'" = .error (.resolve "(strin)level" cast) ∧
      (ofConditionError "entry" (.resolve "(strin)level" cast)).Marks "(strin)level" ['(']
        "strin".toList ∧
      Condition.compare e "'a'" .less "é" = .error (.resolve "é" literal) ∧
      (ofConditionError "entry" (.resolve "é" literal)).Marks "é" [] ['é'] ∧
      Pattern.parse "é[[ [a] [b[c]" = .error unclosed ∧
      (ofPatternError "title" "é[[ [a] [b[c]" (.parse unclosed)).selected = [0x5B] := by
  have compiled (format : NumberFormat) :
      Condition.compare (Engine.builtin format : Engine Unit) "(strin)level" .less "'a'" =
          .error (.resolve "(strin)level" (.unknownCast "strin" ["string"])) ∧
        Condition.compare (Engine.builtin format : Engine Unit) "'a'" .less "é" =
          .error (.resolve "é" (.unparsableLiteral "é")) := by
    constructor <;> cbv
  have refuses (format : NumberFormat) :
      (Engine.builtin format : Engine Unit).RefusesCast "(strin)level" "strin" :=
    ⟨⟨some "strin", "level", []⟩, by cbv, rfl, by cbv⟩
  intro e cast literal unclosed
  obtain ⟨unknown, unparsable⟩ := compiled .standard
  obtain ⟨-, -, -, -, -, -, operands, -, patterns⟩ := spans_targeted e "entry"
  obtain ⟨-, -, onCast⟩ := operands _ _ _ _ _ unknown
  obtain ⟨-, -, onLiteral⟩ := operands _ _ _ _ _ unparsable
  obtain ⟨rest, -, marksCast⟩ := onCast.cast "strin" (refuses .standard)
  have parsed : Pattern.parse "é[[ [a] [b[c]" = .error unclosed := by decide +kernel
  obtain ⟨front, after, -, marksBracket, -⟩ := patterns _ _ parsed
  exact ⟨unknown, marksCast, unparsable, onLiteral.other (by simp), parsed,
    marksBracket.bytes⟩

end Diagnostic

end Placeholders
