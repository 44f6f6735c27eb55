import Placeholders.Engine.Resolve

set_option autoImplicit false

namespace Placeholders

inductive ConditionError where
  | unsupportedGate (gate : String)
  | unsupportedOperation (operation : String)
  | resolve (expression : String) (error : ResolveError)
  | kindMismatch (first : String) (firstKind : Kind) (second : String) (secondKind : Kind)
  deriving DecidableEq

def ConditionError.message : ConditionError → String
  | .unsupportedGate gate => "unsupported gate: '" ++ gate ++ "'"
  | .unsupportedOperation operation => "unsupported operation: '" ++ operation ++ "'"
  | .resolve expression error =>
      "in condition operand '" ++ expression ++ "': " ++ error.message
  | .kindMismatch first firstKind second secondKind =>
      "cannot compare '" ++ first ++ "' (" ++ firstKind.name ++ ") with '" ++ second ++ "' (" ++
        secondKind.name ++ ")"

/-- How a condition joins the ones before it. -/
inductive Gate where
  | and
  | or
  deriving DecidableEq

/-- Reads `and` or `or` in any ASCII case. -/
def Gate.parse (text : String) : Except ConditionError Gate :=
  match text.toList.map Char.toLower with
  | ['a', 'n', 'd'] => .ok .and
  | ['o', 'r'] => .ok .or
  | _ => .error (.unsupportedGate text)

inductive Comparison where
  | equal
  | notEqual
  | greater
  | greaterOrEqual
  | less
  | lessOrEqual
  deriving DecidableEq

namespace Comparison

/-- Reads an operator between optional white space. -/
def parse (text : String) : Except ConditionError Comparison :=
  match Text.trim text.toList with
  | ['=', '='] => .ok equal
  | ['!', '='] => .ok notEqual
  | ['>'] => .ok greater
  | ['>', '='] => .ok greaterOrEqual
  | ['<'] => .ok less
  | ['<', '='] => .ok lessOrEqual
  | _ => .error (.unsupportedOperation text)

/-- Whether the comparison holds. Values without an order are in none. -/
def apply (comparison : Comparison) (a b : Value) : Bool :=
  match comparison with
  | equal => a.equal b
  | notEqual => !a.equal b
  | greater => (a.order? b).any Ordering.isGT
  | greaterOrEqual => (a.order? b).any Ordering.isGE
  | less => (a.order? b).any Ordering.isLT
  | lessOrEqual => (a.order? b).any Ordering.isLE

end Comparison

structure Condition (C : Type) where
  holds : C → Bool

namespace Condition

variable {C : Type}

def always : Condition C := ⟨fun _ => true⟩

def and (a b : Condition C) : Condition C :=
  ⟨fun context => a.holds context && b.holds context⟩

def or (a b : Condition C) : Condition C :=
  ⟨fun context => a.holds context || b.holds context⟩

def not (a : Condition C) : Condition C :=
  ⟨fun context => !a.holds context⟩

def join (a : Condition C) : Gate → Condition C → Condition C
  | .and, b => a.and b
  | .or, b => a.or b

/-- Compares two placeholders; a side without a value makes the comparison false. -/
def ofPlaceholders (left : Placeholder C) (comparison : Comparison) (right : Placeholder C) :
    Condition C where
  holds context :=
    match left.evaluate context, right.evaluate context with
    | .ok a, .ok b => comparison.apply a b
    | _, _ => false

def resolveOperand (e : Engine C) (expression : String) :
    Except ConditionError (Placeholder C) :=
  (e.resolve expression).mapError (.resolve expression)

/-- Compares two expressions, the first resolved before the second; they must be of one
kind. -/
def compare (e : Engine C) (first : String) (comparison : Comparison) (second : String) :
    Except ConditionError (Condition C) := do
  let left ← resolveOperand e first
  let right ← resolveOperand e second
  if left.kind = right.kind then return ofPlaceholders left comparison right
  else throw (.kindMismatch first left.kind second right.kind)

end Condition

/-- A comparison as configuration writes it: two expressions, an operator, whether to negate
the result, and the gate to the entries before it. -/
structure ConditionSpec where
  first : String
  second : String
  operation : String
  negated : Bool
  gate : Option String
  deriving DecidableEq

namespace ConditionSpec

variable {C : Type}

/-- The comparison of an entry, without negation and gate. -/
def compile (e : Engine C) (spec : ConditionSpec) : Except ConditionError (Condition C) := do
  Condition.compare e spec.first (← Comparison.parse spec.operation) spec.second

/-- The gate of an entry, `and` unless it is written. -/
def parseGate (spec : ConditionSpec) : Except ConditionError Gate :=
  match spec.gate with
  | some gate => Gate.parse gate
  | none => .ok .and

/-- Joins an entry to the condition of the entries before it. -/
def joinTo (e : Engine C) (condition : Condition C) (spec : ConditionSpec) :
    Except ConditionError (Condition C) := do
  let comparison ← spec.compile e
  let gate ← spec.parseGate
  return condition.join gate (if spec.negated then comparison.not else comparison)

end ConditionSpec

/-- Joins a list of entries from the left, beginning with the condition that always holds. -/
def Condition.ofSpecs {C : Type} (e : Engine C) (specs : List ConditionSpec) :
    Except ConditionError (Condition C) :=
  specs.foldlM (ConditionSpec.joinTo e) .always

end Placeholders
