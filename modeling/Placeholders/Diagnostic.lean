import Placeholders.Condition
import Placeholders.Engine.Template

set_option autoImplicit false

namespace Placeholders

/-- A diagnostic. Offset and length are in bytes of `content`. -/
structure Diagnostic where
  origin : String
  content : String
  offset : Nat
  length : Nat
  message : String
  help? : Option String
  deriving DecidableEq

def ResolveError.help? : ResolveError → Option String
  | .unparsableLiteral _ =>
      some "no placeholder has this name; quote text literals, e.g. 'hello'"
  | .insufficientArguments .. =>
      some "arguments follow the name after ':', separated by commas"
  | _ => none

def Pattern.Fault.help? : Pattern.Fault → Option String
  | .unclosed => some "close it with ']' or escape it as '[['"
  | .unmatchedClose => some "escape a literal ']' as ']]'"
  | .empty => none

namespace Diagnostic

def code : String := "plex::expression"

def label : String := "here"

/-- A diagnostic whose span is cut down to what lies within the content. -/
def clamped (origin content : String) (offset length : Nat) (message : String)
    (help? : Option String) : Diagnostic :=
  let start := min offset content.utf8ByteSize
  ⟨origin, content, start, min length (content.utf8ByteSize - start), message, help?⟩

/-- The span of an error in an expression that stands at byte `start`: the name of an
unknown cast after its parenthesis, else the whole expression. -/
def span (start : Nat) (expression : String) : ResolveError → Nat × Nat
  | .unknownCast name _ => (start + 1, name.utf8ByteSize)
  | _ => (start, expression.utf8ByteSize)

/-- Points at an expression that did not resolve. -/
def ofResolveError (origin expression : String) (error : ResolveError) : Diagnostic :=
  let (offset, length) := span 0 expression error
  clamped origin expression offset length error.message error.help?

/-- Points into a pattern that did not compile: at a malformed place, or at the first
occurrence of the text of the placeholder that did not resolve. -/
def ofPatternError (origin pattern : String) (error : PatternError) : Diagnostic :=
  match error with
  | .parse fault => clamped origin pattern fault.offset 1 error.message fault.fault.help?
  | .resolve expression cause =>
      let start := (Text.offsetOf? expression.toList pattern.toList).getD 0
      let (offset, length) := span start expression cause
      clamped origin pattern offset length error.message cause.help?

/-- Points at the operand that did not resolve; other errors point at nothing. -/
def ofConditionError (origin : String) (error : ConditionError) : Diagnostic :=
  match error with
  | .resolve expression cause =>
      let (offset, length) := span 0 expression cause
      clamped origin expression offset length error.message cause.help?
  | _ => clamped origin "" 0 0 error.message none

end Diagnostic

end Placeholders
