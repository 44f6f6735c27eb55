import Placeholders.Proofs.Casting

set_option autoImplicit false

namespace Placeholders

namespace Comparison

def symbol : Comparison → String
  | equal => "=="
  | notEqual => "!="
  | greater => ">"
  | greaterOrEqual => ">="
  | less => "<"
  | lessOrEqual => "<="

/-- `text` is an operator, with any white space around it. -/
def Written (comparison : Comparison) (text : String) : Prop :=
  Text.trim text.toList = comparison.symbol.toList

theorem parse_of_written {comparison : Comparison} {text : String}
    (written : comparison.Written text) : parse text = .ok comparison := by
  unfold parse
  rw [show Text.trim text.toList = _ from written]
  cases comparison <;> rfl

theorem parse_of_not_written {text : String}
    (unsupported : ∀ comparison : Comparison, ¬ comparison.Written text) :
    parse text = .error (.unsupportedOperation text) := by
  unfold parse
  split
  · exact absurd ‹_› (unsupported equal)
  · exact absurd ‹_› (unsupported notEqual)
  · exact absurd ‹_› (unsupported greater)
  · exact absurd ‹_› (unsupported greaterOrEqual)
  · exact absurd ‹_› (unsupported less)
  · exact absurd ‹_› (unsupported lessOrEqual)
  · rfl

theorem Written.unique {comparison other : Comparison} {text : String}
    (written : comparison.Written text) (same : other.Written text) : comparison = other :=
  Except.ok.inj ((parse_of_written written).symm.trans (parse_of_written same))

end Comparison

namespace Gate

def word : Gate → String
  | and => "and"
  | or => "or"

/-- `text` is the word for a gate, with any of its letters as capitals. -/
def Written (gate : Gate) (text : String) : Prop :=
  List.Forall₂ (fun c letter => c = letter ∨ c = letter.toUpper) text.toList gate.word.toList

private theorem toLower_eq_iff {letter : Char} (small : letter.toLower = letter) (c : Char) :
    c.toLower = letter ↔ c = letter ∨ c = letter.toUpper := by
  constructor
  · rintro rfl
    by_cases capital : c.isUpper = true
    · right
      rw [Char.toUpper_toLower_eq_toUpper,
        Char.toUpper_eq_of_not_isLower (Char.not_isLower_of_isUpper capital)]
    · exact Or.inl (Char.toLower_eq_of_not_isUpper capital).symm
  · rintro (rfl | rfl)
    · exact small
    · rw [Char.toLower_toUpper_eq_toLower, small]

private theorem map_toLower_eq_iff {letters : List Char}
    (small : ∀ letter ∈ letters, letter.toLower = letter) (cs : List Char) :
    cs.map Char.toLower = letters ↔
      List.Forall₂ (fun c letter => c = letter ∨ c = letter.toUpper) cs letters := by
  induction letters generalizing cs with
  | nil => simp
  | cons letter letters ih =>
      cases cs with
      | nil => simp
      | cons c cs =>
          rw [List.map_cons, List.cons.injEq, List.forall₂_cons,
            toLower_eq_iff (small letter (by simp)),
            ih (fun other member => small other (by simp [member]))]

theorem written_iff (gate : Gate) (text : String) :
    gate.Written text ↔ text.toList.map Char.toLower = gate.word.toList := by
  apply (map_toLower_eq_iff ?_ _).symm
  cases gate <;> simp [word]

theorem parse_of_written {gate : Gate} {text : String} (written : gate.Written text) :
    parse text = .ok gate := by
  unfold parse
  rw [(written_iff gate text).mp written]
  cases gate <;> rfl

theorem parse_of_not_written {text : String} (unknown : ∀ gate : Gate, ¬ gate.Written text) :
    parse text = .error (.unsupportedGate text) := by
  simp only [written_iff] at unknown
  unfold parse
  split
  · exact absurd ‹_› (unknown and)
  · exact absurd ‹_› (unknown or)
  · rfl

end Gate

namespace ConditionSpec

/-- The gate of an entry: `and` unless one of the two words is given. -/
inductive Gated (spec : ConditionSpec) : Gate → Prop
  | absent (none : spec.gate = none) : Gated spec .and
  | given {text : String} (given : spec.gate = some text) {gate : Gate}
      (written : gate.Written text) : Gated spec gate

theorem parseGate_of_gated {spec : ConditionSpec} {gate : Gate} (gated : spec.Gated gate) :
    spec.parseGate = .ok gate := by
  cases gated with
  | absent none => rw [parseGate, none]
  | given given written => simp only [parseGate, given, Gate.parse_of_written written]

theorem Gated.unique {spec : ConditionSpec} {gate other : Gate} (gated : spec.Gated gate)
    (same : spec.Gated other) : gate = other :=
  Except.ok.inj ((parseGate_of_gated gated).symm.trans (parseGate_of_gated same))

theorem exists_gated_or (spec : ConditionSpec) :
    (∃ gate, spec.Gated gate) ∨
      ∃ text, spec.gate = some text ∧ ∀ gate : Gate, ¬ gate.Written text := by
  cases given : spec.gate with
  | none => exact Or.inl ⟨.and, .absent given⟩
  | some text =>
      by_cases known : ∃ gate : Gate, gate.Written text
      · obtain ⟨gate, written⟩ := known
        exact Or.inl ⟨gate, .given given written⟩
      · exact Or.inr ⟨text, rfl, not_exists.mp known⟩

variable {C : Type}

/-- An entry with a supported operation, two operands that resolve to the same kind, and no gate or
a known one. -/
structure Accepted (e : Engine C) (spec : ConditionSpec) : Prop where
  operation : ∃ comparison : Comparison, comparison.Written spec.operation
  operands : ∃ left right, e.resolve spec.first = .ok left ∧ e.resolve spec.second = .ok right ∧
    left.kind = right.kind
  gate : ∃ gate, spec.Gated gate

/-- Why an entry is refused. Each check is made only after the ones above it have passed. -/
inductive Refused (e : Engine C) (spec : ConditionSpec) : ConditionError → Prop
  | operation (unsupported : ∀ comparison : Comparison, ¬ comparison.Written spec.operation) :
      Refused e spec (.unsupportedOperation spec.operation)
  | first {comparison : Comparison} (operation : comparison.Written spec.operation)
      {cause : ResolveError} (unresolved : e.resolve spec.first = .error cause) :
      Refused e spec (.resolve spec.first cause)
  | second {comparison : Comparison} (operation : comparison.Written spec.operation)
      {left : Placeholder C} (first : e.resolve spec.first = .ok left)
      {cause : ResolveError} (unresolved : e.resolve spec.second = .error cause) :
      Refused e spec (.resolve spec.second cause)
  | kinds {comparison : Comparison} (operation : comparison.Written spec.operation)
      {left right : Placeholder C} (first : e.resolve spec.first = .ok left)
      (second : e.resolve spec.second = .ok right) (different : left.kind ≠ right.kind) :
      Refused e spec (.kindMismatch spec.first left.kind spec.second right.kind)
  | gate {comparison : Comparison} (operation : comparison.Written spec.operation)
      {left right : Placeholder C} (first : e.resolve spec.first = .ok left)
      (second : e.resolve spec.second = .ok right) (same : left.kind = right.kind)
      {text : String} (given : spec.gate = some text)
      (unknown : ∀ gate : Gate, ¬ gate.Written text) :
      Refused e spec (.unsupportedGate text)

/-- Both operands have a value, and the operation holds between the two. -/
def Matches (e : Engine C) (spec : ConditionSpec) (context : C) : Prop :=
  ∃ (comparison : Comparison) (a b : Value), comparison.Written spec.operation ∧
    e.valueOf spec.first context = .ok (.ok a) ∧ e.valueOf spec.second context = .ok (.ok b) ∧
    comparison.apply a b = true

/-- The comparison of an entry, or its opposite if the entry is negated: then it also holds where an
operand has no value. -/
def Holds (e : Engine C) (spec : ConditionSpec) (context : C) : Prop :=
  Xor (spec.negated = true) (spec.Matches e context)

theorem accepted_or_refused (e : Engine C) (spec : ConditionSpec) :
    spec.Accepted e ∨ ∃ error, spec.Refused e error := by
  by_cases supported : ∃ comparison : Comparison, comparison.Written spec.operation
  · obtain ⟨comparison, operation⟩ := supported
    cases first : e.resolve spec.first with
    | error cause => exact Or.inr ⟨_, .first operation first⟩
    | ok left =>
        cases second : e.resolve spec.second with
        | error cause => exact Or.inr ⟨_, .second operation first second⟩
        | ok right =>
            by_cases kinds : left.kind = right.kind
            · rcases spec.exists_gated_or with gate | ⟨text, given, unknown⟩
              · exact Or.inl ⟨⟨comparison, operation⟩, ⟨left, right, first, second, kinds⟩, gate⟩
              · exact Or.inr ⟨_, .gate operation first second kinds given unknown⟩
            · exact Or.inr ⟨_, .kinds operation first second kinds⟩
  · exact Or.inr ⟨_, .operation (not_exists.mp supported)⟩

theorem compile_of_kinds {e : Engine C} {spec : ConditionSpec} {comparison : Comparison}
    (operation : comparison.Written spec.operation) {left right : Placeholder C}
    (first : e.resolve spec.first = .ok left) (second : e.resolve spec.second = .ok right)
    (kinds : left.kind = right.kind) :
    spec.compile e = .ok (.ofPlaceholders left comparison right) := by
  simp only [compile, Comparison.parse_of_written operation, bind, Except.bind]
  exact Condition.compare_of_kinds first second kinds comparison

theorem joinTo_of_refused {e : Engine C} {spec : ConditionSpec} {error : ConditionError}
    (refused : spec.Refused e error) (start : Condition C) :
    spec.joinTo e start = .error error := by
  cases refused with
  | operation unsupported =>
      simp only [joinTo, compile, Comparison.parse_of_not_written unsupported, bind, Except.bind]
  | first operation unresolved =>
      simp only [joinTo, compile, Comparison.parse_of_written operation, Condition.compare,
        Condition.resolveOperand, unresolved, Except.mapError, bind, Except.bind]
  | second operation first unresolved =>
      simp only [joinTo, compile, Comparison.parse_of_written operation, Condition.compare,
        Condition.resolveOperand, first, unresolved, Except.mapError, bind, Except.bind]
  | kinds operation first second different =>
      simp only [joinTo, compile, Comparison.parse_of_written operation, Condition.compare,
        Condition.resolveOperand, first, second, Except.mapError, bind, Except.bind,
        if_neg different, throw, throwThe, MonadExceptOf.throw]
  | gate operation first second same given unknown =>
      simp only [joinTo, compile_of_kinds operation first second same, parseGate, given,
        Gate.parse_of_not_written unknown, bind, Except.bind]

theorem ofPlaceholders_holds {e : Engine C} {spec : ConditionSpec} {comparison : Comparison}
    (operation : comparison.Written spec.operation) {left right : Placeholder C}
    (first : e.resolve spec.first = .ok left) (second : e.resolve spec.second = .ok right)
    (context : C) :
    (Condition.ofPlaceholders left comparison right).holds context = true ↔
      spec.Matches e context := by
  simp only [Matches, e.valueOf_eq_ok, first, second, Except.ok.injEq, exists_eq_left']
  constructor
  · intro holds
    simp only [Condition.ofPlaceholders] at holds
    split at holds
    · rename_i a b evaluatedFirst evaluatedSecond
      exact ⟨comparison, a, b, operation, evaluatedFirst, evaluatedSecond, holds⟩
    · cases holds
  · rintro ⟨other, a, b, written, evaluatedFirst, evaluatedSecond, holds⟩
    obtain rfl := written.unique operation
    simp only [Condition.ofPlaceholders, evaluatedFirst, evaluatedSecond, holds]

/-- Step of joining, where the entry is accepted: it is joined by its gate, as a condition that
holds where the entry does. -/
theorem joinTo_of_accepted {e : Engine C} {spec : ConditionSpec} (accepted : spec.Accepted e)
    (start : Condition C) :
    ∃ gate condition, spec.Gated gate ∧ spec.joinTo e start = .ok (start.join gate condition) ∧
      ∀ context, condition.holds context = true ↔ spec.Holds e context := by
  obtain ⟨comparison, operation⟩ := accepted.operation
  obtain ⟨left, right, first, second, kinds⟩ := accepted.operands
  obtain ⟨gate, gated⟩ := accepted.gate
  let comparing := Condition.ofPlaceholders left comparison right
  refine ⟨gate, if spec.negated then comparing.not else comparing, gated, ?_, ?_⟩
  · simp only [joinTo, compile_of_kinds operation first second kinds, parseGate_of_gated gated,
      bind, Except.bind, pure, Except.pure, comparing]
  · intro context
    have holds : comparing.holds context = true ↔ _ :=
      ofPlaceholders_holds operation first second context
    cases negated : spec.negated with
    | false => simpa [Holds, Xor, negated] using holds
    | true => simp [Holds, Xor, negated, Condition.not, ← holds]

end ConditionSpec

theorem Condition.join_holds {C : Type} (a b : Condition C) (gate : Gate) (context : C) :
    (a.join gate b).holds context = true ↔
      match gate with
      | .and => a.holds context = true ∧ b.holds context = true
      | .or => a.holds context = true ∨ b.holds context = true := by
  cases gate with
  | and => simp [join, Condition.and]
  | or => simp [join, Condition.or]

namespace Condition

variable {C : Type}

/-- Every `and` among some entries holds. -/
def AndsHold (e : Engine C) (specs : List ConditionSpec) (context : C) : Prop :=
  ∀ spec ∈ specs, spec.Gated .and → spec.Holds e context

/-- Some `or` holds, and so does every `and` after it. -/
def OrHolds (e : Engine C) (specs : List ConditionSpec) (context : C) : Prop :=
  ∃ before spec after, specs = before ++ spec :: after ∧ spec.Gated .or ∧
    spec.Holds e context ∧ AndsHold e after context

theorem orHolds_cons (e : Engine C) (spec : ConditionSpec) (specs : List ConditionSpec)
    (context : C) :
    OrHolds e (spec :: specs) context ↔
      spec.Gated .or ∧ spec.Holds e context ∧ AndsHold e specs context ∨
        OrHolds e specs context := by
  constructor
  · rintro ⟨before, last, after, split, gated, holds, ands⟩
    cases before with
    | nil =>
        obtain ⟨rfl, rfl⟩ := List.cons.inj split
        exact Or.inl ⟨gated, holds, ands⟩
    | cons first before =>
        obtain ⟨-, rfl⟩ := List.cons.inj split
        exact Or.inr ⟨before, last, after, rfl, gated, holds, ands⟩
  · rintro (⟨gated, holds, ands⟩ | ⟨before, last, after, rfl, rest⟩)
    · exact ⟨[], spec, specs, rfl, gated, holds, ands⟩
    · exact ⟨spec :: before, last, after, rfl, rest⟩

/-- Run of joining accepted entries to any condition: that condition only matters as long as no `or`
holds. -/
theorem foldlM_of_accepted {e : Engine C} {specs : List ConditionSpec}
    (accepted : ∀ spec ∈ specs, spec.Accepted e) (start : Condition C) :
    ∃ condition, specs.foldlM (ConditionSpec.joinTo e) start = .ok condition ∧
      ∀ context, condition.holds context = true ↔
        start.holds context = true ∧ AndsHold e specs context ∨ OrHolds e specs context := by
  -- For any start, since joining the first entry changes it.
  induction specs generalizing start with
  | nil => exact ⟨start, rfl, fun context => by simp [AndsHold, OrHolds]⟩
  | cons spec specs ih =>
      obtain ⟨gate, comparing, gated, joined, holds⟩ :=
        ConditionSpec.joinTo_of_accepted (accepted spec (by simp)) start
      obtain ⟨condition, rest, meaning⟩ :=
        ih (fun other member => accepted other (by simp [member])) (start.join gate comparing)
      refine ⟨condition, by rw [List.foldlM_cons, joined]; exact rest, ?_⟩
      intro context
      rw [meaning, orHolds_cons, join_holds, holds, AndsHold, AndsHold, List.forall_mem_cons]
      cases gate with
      | and =>
          have noOr : ¬ spec.Gated .or := fun other => by cases gated.unique other
          simp only [gated, noOr, forall_const, false_and, false_or, and_assoc]
      | or =>
          have noAnd : ¬ spec.Gated .and := fun other => by cases gated.unique other
          simp only [gated, noAnd, false_implies, true_and, or_and_right, or_assoc]

theorem accepted_or_first_refused (e : Engine C) (specs : List ConditionSpec) :
    (∀ spec ∈ specs, spec.Accepted e) ∨
      ∃ before spec after error, specs = before ++ spec :: after ∧
        (∀ earlier ∈ before, earlier.Accepted e) ∧ spec.Refused e error := by
  induction specs with
  | nil => exact Or.inl (by simp)
  | cons spec specs ih =>
      rcases spec.accepted_or_refused e with accepted | ⟨error, refused⟩
      · rcases ih with all | ⟨before, failing, after, error, rfl, earlier, refused⟩
        · exact Or.inl (List.forall_mem_cons.mpr ⟨accepted, all⟩)
        · exact Or.inr ⟨spec :: before, failing, after, error, rfl,
            List.forall_mem_cons.mpr ⟨accepted, earlier⟩, refused⟩
      · exact Or.inr ⟨[], spec, specs, error, rfl, by simp, refused⟩

theorem foldlM_of_refused {e : Engine C} {before : List ConditionSpec} {spec : ConditionSpec}
    {error : ConditionError} (earlier : ∀ other ∈ before, other.Accepted e)
    (refused : spec.Refused e error) (after : List ConditionSpec) (start : Condition C) :
    (before ++ spec :: after).foldlM (ConditionSpec.joinTo e) start = .error error := by
  obtain ⟨condition, joined, -⟩ := foldlM_of_accepted earlier start
  rw [List.foldlM_append, joined]
  change List.foldlM (ConditionSpec.joinTo e) condition (spec :: after) = _
  rw [List.foldlM_cons, ConditionSpec.joinTo_of_refused refused]
  rfl

/-- A list of entries is accepted exactly if each of them is, and else refused for the first that is
not, by the first of its checks that fails. An accepted list holds where every `and` holds, or every
`and` after some `or` that holds. -/
theorem ofSpecs_meaning (e : Engine C) (specs : List ConditionSpec) :
    ((∃ condition, ofSpecs e specs = .ok condition) ↔ ∀ spec ∈ specs, spec.Accepted e) ∧
    (∀ error, ofSpecs e specs = .error error ↔
      ∃ before spec after, specs = before ++ spec :: after ∧
        (∀ earlier ∈ before, earlier.Accepted e) ∧ spec.Refused e error) ∧
    ∀ condition, ofSpecs e specs = .ok condition → ∀ context,
      condition.holds context = true ↔
        (∀ spec ∈ specs, spec.Gated .and → spec.Holds e context) ∨
        ∃ before spec after, specs = before ++ spec :: after ∧ spec.Gated .or ∧
          spec.Holds e context ∧ ∀ later ∈ after, later.Gated .and → later.Holds e context := by
  have accepted_of_ok {condition : Condition C} (compiled : ofSpecs e specs = .ok condition) :
      ∀ spec ∈ specs, spec.Accepted e := by
    rcases accepted_or_first_refused e specs with
      all | ⟨before, spec, after, error, rfl, earlier, refused⟩
    · exact all
    · cases (foldlM_of_refused earlier refused after .always).symm.trans compiled
  refine ⟨⟨?_, ?_⟩, ?_, ?_⟩
  · rintro ⟨condition, compiled⟩
    exact accepted_of_ok compiled
  · intro accepted
    obtain ⟨condition, compiled, -⟩ := foldlM_of_accepted accepted .always
    exact ⟨condition, compiled⟩
  · intro error
    constructor
    · intro failed
      rcases accepted_or_first_refused e specs with
        all | ⟨before, spec, after, first, rfl, earlier, refused⟩
      · obtain ⟨condition, compiled, -⟩ := foldlM_of_accepted all .always
        cases failed.symm.trans compiled
      · obtain rfl := Except.error.inj
          (failed.symm.trans (foldlM_of_refused earlier refused after .always))
        exact ⟨before, spec, after, rfl, earlier, refused⟩
    · rintro ⟨before, spec, after, rfl, earlier, refused⟩
      exact foldlM_of_refused earlier refused after .always
  · intro condition compiled context
    obtain ⟨same, joined, meaning⟩ := foldlM_of_accepted (accepted_of_ok compiled) .always
    obtain rfl := Except.ok.inj (compiled.symm.trans joined)
    simpa [always, AndsHold, OrHolds] using meaning context

/-- An `or` that holds makes up for an entry before it that does not, and a negated `and` after it
holds as its comparison does not. In the refused list, the kinds are compared before the gate is
read. -/
theorem ofSpecs_meaning_reset :
    let e : Engine Unit := .builtin .standard
    let passed : ConditionSpec := ⟨"'a'", "'a'", " != ", false, none⟩
    let chosen : ConditionSpec := ⟨"'a'", "'b'", "<", false, some "OR"⟩
    let kept : ConditionSpec := ⟨"'a'", "'b'", "==", true, some "And"⟩
    let mixed : ConditionSpec := ⟨"'a'", "true", ">=", false, some "xor"⟩
    (∃ condition, ofSpecs e [passed, chosen, kept] = .ok condition ∧
      ∀ context, condition.holds context = true) ∧
      ofSpecs e [chosen, mixed, passed] = .error (.kindMismatch "'a'" .text "true" .boolean) := by
  have look (format : NumberFormat) :
      (Engine.builtin format : Engine Unit).resolve "'a'" = .ok (.constant (.text "a")) ∧
      (Engine.builtin format : Engine Unit).resolve "'b'" = .ok (.constant (.text "b")) ∧
      (Engine.builtin format : Engine Unit).resolve "true" = .ok (.constant (.boolean true)) := by
    refine ⟨?_, ?_, ?_⟩ <;> cbv
  have written : Comparison.notEqual.Written " != " ∧ Comparison.less.Written "<" ∧
      Comparison.equal.Written "==" ∧ Comparison.greaterOrEqual.Written ">=" := by
    simp only [Comparison.Written]
    decide
  intro e passed chosen kept mixed
  obtain ⟨a, b, yes⟩ := look .standard
  obtain ⟨notEqual, less, equal, greaterOrEqual⟩ := written
  have or : chosen.Gated .or := .given rfl ((Gate.written_iff _ _).mpr (by decide))
  have and : kept.Gated .and := .given rfl ((Gate.written_iff _ _).mpr (by decide))
  have chosenAccepted : chosen.Accepted e := ⟨⟨_, less⟩, ⟨_, _, a, b, rfl⟩, ⟨_, or⟩⟩
  have accepted : ∀ spec ∈ [passed, chosen, kept], spec.Accepted e := by
    simp only [List.forall_mem_cons]
    exact ⟨⟨⟨_, notEqual⟩, ⟨_, _, a, a, rfl⟩, ⟨_, .absent rfl⟩⟩, chosenAccepted,
      ⟨⟨_, equal⟩, ⟨_, _, a, b, rfl⟩, ⟨_, and⟩⟩, by simp⟩
  constructor
  · obtain ⟨accepts, -, meaning⟩ := ofSpecs_meaning e [passed, chosen, kept]
    obtain ⟨condition, compiled⟩ := accepts.mpr accepted
    refine ⟨condition, compiled, fun context => (meaning condition compiled context).mpr ?_⟩
    have first : e.valueOf "'a'" context = .ok (.ok (.text "a")) :=
      (e.valueOf_eq_ok _ _ _).mpr ⟨_, a, rfl⟩
    have second : e.valueOf "'b'" context = .ok (.ok (.text "b")) :=
      (e.valueOf_eq_ok _ _ _).mpr ⟨_, b, rfl⟩
    have chosenHolds : chosen.Holds e context :=
      Or.inr ⟨⟨_, _, _, less, first, second, by decide⟩, by simp [chosen]⟩
    have keptHolds : kept.Holds e context := by
      refine Or.inl ⟨rfl, ?_⟩
      rintro ⟨comparison, x, y, operation, firstValue, secondValue, holds⟩
      obtain rfl := operation.unique equal
      cases firstValue.symm.trans first
      cases secondValue.symm.trans second
      revert holds
      decide
    exact Or.inr ⟨[passed], chosen, [kept], rfl, or, chosenHolds, by simpa using fun _ => keptHolds⟩
  · have refused : mixed.Refused e (.kindMismatch "'a'" .text "true" .boolean) :=
      @ConditionSpec.Refused.kinds _ e mixed _ greaterOrEqual _ _ a yes
        (show Kind.text ≠ Kind.boolean by decide)
    exact ((ofSpecs_meaning e [chosen, mixed, passed]).2.1 _).mpr
      ⟨[chosen], mixed, [passed], rfl, by simpa using chosenAccepted, refused⟩

end Condition

end Placeholders
