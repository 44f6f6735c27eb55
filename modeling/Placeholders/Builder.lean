import Placeholders.Placeholder
import Placeholders.Text.Distance
import Std.Data.TreeMap

set_option autoImplicit false

namespace Placeholders

/-- Why an expression does not resolve to a placeholder. -/
inductive ResolveError where
  | unknownCast (name : String) (suggestions : List String)
  | insufficientArguments (name : String) (found required : Nat)
  | unparsableLiteral (text : String)
  | invalidArgument (name argument reason : String)
  | kindMismatch (name : String) (expected found : Kind)
  deriving DecidableEq

namespace ResolveError

/-- The question that names the suggested spellings, if there are any. -/
def suggestionText (suggestions : List String) : String :=
  if suggestions = [] then ""
  else ", did you mean " ++ " or ".intercalate (suggestions.map fun s => "'" ++ s ++ "'") ++ "?"

def message : ResolveError → String
  | unknownCast name suggestions =>
      "unknown cast type '" ++ name ++ "'" ++ suggestionText suggestions
  | insufficientArguments name found required =>
      "placeholder '" ++ name ++ "' requires at least " ++ toString required ++
        " arguments, found " ++ toString found
  | unparsableLiteral text => "unable to parse literal '" ++ text ++ "'"
  | invalidArgument name argument reason =>
      "invalid argument '" ++ argument ++ "' for placeholder '" ++ name ++ "': " ++ reason
  | kindMismatch name expected found =>
      "placeholder '" ++ name ++ "' is a " ++ found.name ++ ", expected a " ++ expected.name

end ResolveError

/-- Makes placeholders. `build` gets the name it is registered under and the arguments; the
resolver passes at least `required` of them. -/
structure Builder (C : Type) where
  required : Nat
  build : String → List String → Except ResolveError (Placeholder C)

def Builder.ofPlaceholder {C : Type} (placeholder : Placeholder C) : Builder C :=
  ⟨0, fun _ _ => .ok placeholder⟩

structure BuilderTable (C : Type) where
  builders : Std.TreeMap String (Builder C)

namespace BuilderTable

variable {C : Type}

def empty : BuilderTable C := ⟨∅⟩

def get? (t : BuilderTable C) (name : String) : Option (Builder C) :=
  t.builders.get? name

def contains (t : BuilderTable C) (name : String) : Bool :=
  t.builders.contains name

def size (t : BuilderTable C) : Nat :=
  t.builders.size

/-- Adds a builder, in place of one with the same name. -/
def insert (t : BuilderTable C) (name : String) (builder : Builder C) : BuilderTable C :=
  ⟨t.builders.insert name builder⟩

@[simp]
theorem get?_empty (name : String) : (empty : BuilderTable C).get? name = none := by
  simp [empty, get?]

theorem get?_insert (t : BuilderTable C) (name other : String) (builder : Builder C) :
    (t.insert name builder).get? other = if name = other then some builder else t.get? other := by
  simp only [insert, get?, Std.TreeMap.get?_eq_getElem?, Std.TreeMap.getElem?_insert,
    Std.compare_eq_iff_eq]

theorem contains_eq_isSome (t : BuilderTable C) (name : String) :
    t.contains name = (t.get? name).isSome := by
  simp [contains, get?]

end BuilderTable

end Placeholders
