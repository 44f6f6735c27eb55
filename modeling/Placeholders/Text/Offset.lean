set_option autoImplicit false

namespace Placeholders.Text

/-- The length of `cs` in UTF-8 bytes, the unit of every offset. -/
def byteLength (cs : List Char) : Nat :=
  cs.foldr (fun c length => c.utf8Size + length) 0

@[simp]
theorem byteLength_nil : byteLength [] = 0 := rfl

@[simp]
theorem byteLength_cons (c : Char) (cs : List Char) :
    byteLength (c :: cs) = c.utf8Size + byteLength cs := by
  simp [byteLength]

@[simp]
theorem byteLength_append (cs ds : List Char) :
    byteLength (cs ++ ds) = byteLength cs + byteLength ds := by
  induction cs with
  | nil => simp
  | cons c cs ih => rw [List.cons_append, byteLength_cons, ih, byteLength_cons, Nat.add_assoc]

theorem utf8ByteSize_eq (s : String) : s.utf8ByteSize = byteLength s.toList := by
  have listed (cs : List Char) : (String.ofList cs).utf8ByteSize = byteLength cs := by
    induction cs with
    | nil => rfl
    | cons c cs ih =>
        have split : String.ofList (c :: cs) = String.singleton c ++ String.ofList cs := by
          rw [String.singleton_eq_ofList, ← String.ofList_append]
          rfl
        rw [split, String.utf8ByteSize_append, String.utf8ByteSize_singleton, ih, byteLength_cons]
  rw [← listed, String.ofList_toList]

/-- The byte offset at which `needle` first occurs in a text. -/
def offsetOf? (needle : List Char) : List Char → Option Nat
  | [] => if needle = [] then some 0 else none
  | c :: cs =>
      if needle.isPrefixOf (c :: cs) then some 0 else (offsetOf? needle cs).map (c.utf8Size + ·)

end Placeholders.Text
