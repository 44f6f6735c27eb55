import Placeholders.Engine.Resolve
import Placeholders.Pattern

set_option autoImplicit false

namespace Placeholders

inductive PatternError where
  | parse (error : Pattern.ParseError)
  | resolve (expression : String) (error : ResolveError)
  deriving DecidableEq

def PatternError.message : PatternError → String
  | .parse error => error.message
  | .resolve expression error => "in placeholder '[" ++ expression ++ "]': " ++ error.message

/-- A compiled piece of a pattern. A placeholder is written with the type of its declared
kind, or plainly if there is none. -/
inductive Template.Part (C : Type) where
  | literal (text : String)
  | placeholder (base : Placeholder C) (type : Option ValueType)

structure Template (C : Type) where
  source : String
  parts : List (Template.Part C)

namespace Template

variable {C : Type}

def compileSegment (e : Engine C) : Pattern.Segment → Except PatternError (Part C)
  | .literal text => .ok (.literal text)
  | .placeholder expression =>
      match e.resolve expression with
      | .ok base => .ok (.placeholder base (e.types.findKind? base.kind))
      | .error error => .error (.resolve expression error)

/-- Compiles a pattern; the first placeholder that does not resolve is the error. -/
def compile (e : Engine C) (source : String) : Except PatternError (Template C) :=
  match Pattern.parse source with
  | .error error => .error (.parse error)
  | .ok segments => return ⟨source, ← segments.mapM (compileSegment e)⟩

def Part.render (context : C) : Part C → Except EvalError String
  | .literal text => .ok text
  | .placeholder base type => do
      let value ← base.evaluate context
      match type with
      | some type => return type.write value
      | none => return value.display

/-- The text of the whole pattern in a context; the first placeholder without a value is
the error. -/
def render (t : Template C) (context : C) : Except EvalError String :=
  return String.join (← t.parts.mapM (·.render context))

def placeholderCount (t : Template C) : Nat :=
  t.parts.countP fun
    | .placeholder .. => true
    | .literal _ => false

end Template

end Placeholders
