import Placeholders.Engine.Basic
import Placeholders.Expression

set_option autoImplicit false

/- Resolving expressions. Text outside the grammar is a literal. Else the cast must name a
type, and the name is looked up in the order of the types; a name without a builder is a
literal, and then cast and arguments do not count. A builder gets its arguments only when
there are enough of them, and its placeholder must be of the type that owns the name. -/
namespace Placeholders

def Registry.resolveLiteral {C : Type} (r : Registry) (text : String) :
    Except ResolveError (Placeholder C) :=
  match r.readLiteral? text with
  | some value => .ok (.constant value)
  | none => .error (.unparsableLiteral text)

def Registry.resolveCast (r : Registry) : Option String → Except ResolveError (Option ValueType)
  | none => .ok none
  | some name =>
      match r.findCast? name with
      | some type => .ok (some type)
      | none => .error (.unknownCast name (Text.suggestions name r.castNames))

/-- Calls a builder that `owner` owns, if there are enough arguments, and holds its
placeholder to the owner's kind. -/
def Builder.instantiate {C : Type} (builder : Builder C) (owner : ValueType) (name : String)
    (arguments : List String) : Except ResolveError (Placeholder C) :=
  if arguments.length < builder.required then
    .error (.insufficientArguments name arguments.length builder.required)
  else do
    let placeholder ← builder.build name arguments
    if placeholder.kind = owner.kind then return placeholder
    else throw (.kindMismatch name owner.kind placeholder.kind)

namespace Engine

variable {C : Type}

/-- Resolves text as a literal, without looking for placeholders. -/
def resolveLiteral (e : Engine C) (text : String) : Except ResolveError (Placeholder C) :=
  e.types.resolveLiteral text

def resolveExpression (e : Engine C) (expression : Expression) :
    Except ResolveError (Placeholder C) := do
  let target ← e.types.resolveCast expression.cast
  match e.find? expression.name with
  | none => e.types.resolveLiteral expression.name
  | some (owner, builder) =>
      let base ← builder.instantiate owner expression.name expression.arguments
      match target with
      | some type => return base.cast owner type
      | none => return base

def resolve (e : Engine C) (text : String) : Except ResolveError (Placeholder C) :=
  match Expression.parse? text with
  | some expression => e.resolveExpression expression
  | none => e.resolveLiteral text

end Engine

end Placeholders
