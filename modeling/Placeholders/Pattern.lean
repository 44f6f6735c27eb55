import Placeholders.Text.Blank
import Placeholders.Text.Offset

set_option autoImplicit false

/- Text patterns: literal text with embedded `[expression]` placeholders, where `[[` and
`]]` stand for single brackets. A pattern is scanned token by token; text at which no
token starts is an error located there. -/
namespace Placeholders.Pattern

/-- A piece of a pattern: literal text, or a placeholder's trimmed expression. -/
inductive Segment where
  | literal (text : String)
  | placeholder (expression : String)
  deriving DecidableEq

/-- What one token of a pattern stands for. -/
inductive Token where
  | literal (c : Char)
  | placeholder (expression : List Char)
  deriving DecidableEq

/-- Why no token starts at some place of a pattern. -/
inductive Fault where
  | unclosed
  | empty
  | unmatchedClose
  deriving DecidableEq

/-- A malformed pattern: the fault and its offset in bytes. -/
structure ParseError where
  fault : Fault
  offset : Nat
  deriving DecidableEq

def Fault.description : Fault → String
  | .unclosed => "unclosed '['"
  | .empty => "empty placeholder"
  | .unmatchedClose => "unmatched ']'"

def ParseError.message (e : ParseError) : String :=
  e.fault.description ++ " at offset " ++ toString e.offset

def isBracket (c : Char) : Bool :=
  c == '[' || c == ']'

/-- Splits the content of a placeholder from the text after its `]`, given the text after
its `[`. The content holds no bracket and is not blank. -/
def takeContent? (cs : List Char) : Option (List Char × List Char) :=
  let content := cs.takeWhile fun c => !isBracket c
  match cs.dropWhile fun c => !isBracket c with
  | ']' :: rest => if Text.isBlankText content then none else some (content, rest)
  | _ => none

/-- Splits the first token off the text. -/
def takeToken? : List Char → Option (Token × List Char)
  | [] => none
  | '[' :: '[' :: rest => some (.literal '[', rest)
  | ']' :: ']' :: rest => some (.literal ']', rest)
  | '[' :: cs => (takeContent? cs).map fun (content, rest) => (.placeholder (Text.trim content), rest)
  | ']' :: _ => none
  | c :: rest => some (.literal c, rest)

private theorem length_dropWhile_le {α : Type} (p : α → Bool) (cs : List α) :
    (cs.dropWhile p).length ≤ cs.length :=
  (List.dropWhile_suffix p).length_le

theorem takeContent?_length_lt {cs content rest : List Char}
    (h : takeContent? cs = some (content, rest)) : rest.length < cs.length := by
  have le := length_dropWhile_le (fun c => !isBracket c) cs
  simp only [takeContent?] at h
  split at h
  · rename_i rest' closed
    split at h
    · cases h
    · cases h
      rw [closed, List.length_cons] at le
      omega
  · cases h

theorem takeToken?_length_lt {cs rest : List Char} {token : Token}
    (h : takeToken? cs = some (token, rest)) : rest.length < cs.length := by
  unfold takeToken? at h
  split at h
  · cases h
  · cases h; simp only [List.length_cons]; omega
  · cases h; simp only [List.length_cons]; omega
  · obtain ⟨⟨content, after⟩, taken, same⟩ := Option.map_eq_some_iff.mp h
    cases same
    have := takeContent?_length_lt taken
    simp only [List.length_cons]
    omega
  · cases h
  · cases h; simp

/-- The tokens of a text, and the rest at which no further token starts. -/
def scan (cs : List Char) : List Token × List Char :=
  match _taken : takeToken? cs with
  | none => ([], cs)
  | some (token, rest) =>
      let (tokens, leftover) := scan rest
      (token :: tokens, leftover)
termination_by cs.length
decreasing_by exact takeToken?_length_lt _taken

theorem scan_of_none {cs : List Char} (h : takeToken? cs = none) : scan cs = ([], cs) := by
  unfold scan
  split
  · rfl
  · rename_i taken
    rw [h] at taken
    cases taken

theorem scan_of_some {cs rest : List Char} {token : Token}
    (h : takeToken? cs = some (token, rest)) :
    scan cs = (token :: (scan rest).1, (scan rest).2) := by
  rw [scan]
  split
  · rename_i taken
    rw [h] at taken
    cases taken
  · rename_i taken
    rw [h] at taken
    cases taken
    rfl

/-- Why no token starts at `leftover`: blank brackets, an open bracket that is not closed
before another opens, or a lone closing bracket. -/
def faultAt : List Char → Fault
  | '[' :: cs =>
      match cs.dropWhile Text.isBlank with
      | ']' :: _ => .empty
      | _ => .unclosed
  | _ => .unmatchedClose

/-- The literal segment of the characters collected in `run`, last one first. -/
def flushRun (run : List Char) : List Segment :=
  if run = [] then [] else [.literal (String.ofList run.reverse)]

/-- Joins neighbouring literal tokens into segments; `run` holds the literal characters
since the last placeholder, last one first. -/
def joinRuns (run : List Char) : List Token → List Segment
  | [] => flushRun run
  | .literal c :: tokens => joinRuns (c :: run) tokens
  | .placeholder expression :: tokens =>
      flushRun run ++ .placeholder (String.ofList expression) :: joinRuns [] tokens

def read (cs : List Char) : Except ParseError (List Segment) :=
  match scan cs with
  | (tokens, []) => .ok (joinRuns [] tokens)
  | (_, leftover) => .error ⟨faultAt leftover, Text.byteLength cs - Text.byteLength leftover⟩

def parse (s : String) : Except ParseError (List Segment) :=
  read s.toList

/-- Literal text as it is written in a pattern, with its brackets doubled. -/
def escape (cs : List Char) : List Char :=
  cs.flatMap fun c => if isBracket c then [c, c] else [c]

def Segment.source : Segment → List Char
  | .literal text => escape text.toList
  | .placeholder expression => '[' :: expression.toList ++ [']']

def source (segments : List Segment) : String :=
  String.ofList (segments.flatMap Segment.source)

end Placeholders.Pattern
