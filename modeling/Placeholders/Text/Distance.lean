set_option autoImplicit false

namespace Placeholders.Text

/-- Distances from the empty text to every end part of `target`. -/
def emptyRow : List Char → List Nat
  | [] => [0]
  | _ :: target => (target.length + 1) :: emptyRow target

/-- The row of `c :: s` from the row of `s`: each entry takes the cheapest of keeping or
replacing `c`, deleting `c`, and inserting the target's character. -/
def nextRow (c : Char) : List Char → List Nat → List Nat
  | d :: target, here :: diagonal :: row =>
      let rest := nextRow c target (diagonal :: row)
      min (diagonal + if c = d then 0 else 1) (min (here + 1) (rest.headD 0 + 1)) :: rest
  | _, row => row.map (· + 1)

/-- The least number of single-character insertions, deletions and replacements that
turn `source` into `target`. -/
def editDistance (source target : List Char) : Nat :=
  (source.foldr (fun c row => nextRow c target row) (emptyRow target)).headD 0

/-- How far a suggestion may be from `name`: one edit for a name of at most three bytes,
else two. -/
def suggestionLimit (name : String) : Nat :=
  if name.utf8ByteSize ≤ 3 then 1 else 2

/-- The first three of the `available` names that differ from `name` by at most
`suggestionLimit` edits: nearer names first, equally near ones in their given order. -/
def suggestions (name : String) (available : List String) : List String :=
  ((List.range' 1 (suggestionLimit name)).flatMap fun distance =>
    available.filter fun candidate => editDistance name.toList candidate.toList == distance).take 3

end Placeholders.Text
