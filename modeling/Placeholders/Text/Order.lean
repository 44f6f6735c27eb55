set_option autoImplicit false

namespace Placeholders.Text

def bytes (s : String) : List UInt8 :=
  s.toList.flatMap String.utf8EncodeChar

/-- Lexicographic order of byte strings, a proper start before its extensions. -/
def compareBytes : List UInt8 → List UInt8 → Ordering
  | [], [] => .eq
  | [], _ :: _ => .lt
  | _ :: _, [] => .gt
  | x :: xs, y :: ys => (compare x y).then (compareBytes xs ys)

/-- The order of two texts by their UTF-8 bytes. -/
def order (s t : String) : Ordering :=
  compareBytes (bytes s) (bytes t)

end Placeholders.Text
