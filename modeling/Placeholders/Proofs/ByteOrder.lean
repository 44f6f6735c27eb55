import Mathlib.Data.String.Basic
import Placeholders.Text.Order

set_option autoImplicit false

/- The order of texts by their bytes is the order by their characters. The first byte of a
character grows with the number of its bytes, and the bytes after it are its base 64 digits; so of
two different characters the smaller one has the smaller bytes, whatever text follows. -/
namespace Placeholders.Text

theorem compareBytes_cons_lt_iff (x y : UInt8) (xs ys : List UInt8) :
    compareBytes (x :: xs) (y :: ys) = .lt ↔
      x.toNat < y.toNat ∨ x.toNat = y.toNat ∧ compareBytes xs ys = .lt := by
  rw [compareBytes, Ordering.then_eq_lt, Std.compare_eq_iff_eq, ← UInt8.toNat_inj,
    Std.compare_eq_lt, UInt8.lt_iff_toNat_lt]

theorem compareBytes_eq_lt_iff (xs ys : List UInt8) : compareBytes xs ys = .lt ↔ xs < ys := by
  induction xs generalizing ys with
  | nil => cases ys <;> simp [compareBytes]
  | cons x xs ih =>
      cases ys with
      | nil => simp [compareBytes]
      | cons y ys =>
          rw [compareBytes_cons_lt_iff, ih, List.cons_lt_cons_iff, UInt8.lt_iff_toNat_lt,
            UInt8.toNat_inj]

theorem compareBytes_append (front xs ys : List UInt8) :
    compareBytes (front ++ xs) (front ++ ys) = compareBytes xs ys := by
  induction front with
  | nil => rfl
  | cons x front ih =>
      rw [List.cons_append, List.cons_append, compareBytes, ih, Std.compare_self]
      rfl

theorem compareBytes_swap (xs ys : List UInt8) :
    (compareBytes xs ys).swap = compareBytes ys xs := by
  induction xs generalizing ys with
  | nil => cases ys <;> rfl
  | cons x xs ih =>
      cases ys with
      | nil => rfl
      | cons y ys =>
          rw [compareBytes, compareBytes, Ordering.swap_then, ih, ← Std.OrientedCmp.eq_swap]

/-- The bytes after the first one of a character: its last `count` digits to the base 64. -/
def digitBytes : Nat → Nat → List UInt8
  | 0, _ => []
  | count + 1, n => UInt8.ofNat (n / 64 ^ count % 64 + 0x80) :: digitBytes count n

theorem toNat_digitByte (n : Nat) : (UInt8.ofNat (n % 64 + 0x80)).toNat = n % 64 + 0x80 := by
  rw [UInt8.toNat_ofNat']
  omega

/-- Among numbers that agree before their last digits, the smaller one has the smaller digits. -/
theorem compareBytes_digitBytes {count m n : Nat} (below : m < n)
    (agree : m / 64 ^ count = n / 64 ^ count) (xs ys : List UInt8) :
    compareBytes (digitBytes count m ++ xs) (digitBytes count n ++ ys) = .lt := by
  induction count with
  | zero =>
      simp only [Nat.pow_zero, Nat.div_one] at agree
      omega
  | succ count ih =>
      rw [digitBytes, digitBytes, List.cons_append, List.cons_append, compareBytes_cons_lt_iff,
        toNat_digitByte, toNat_digitByte]
      have ordered : m / 64 ^ count ≤ n / 64 ^ count := Nat.div_le_div_right (Nat.le_of_lt below)
      rw [Nat.pow_succ, ← Nat.div_div_eq_div_mul, ← Nat.div_div_eq_div_mul] at agree
      rcases Nat.lt_or_eq_of_le ordered with less | same
      · exact Or.inl (by omega)
      · exact Or.inr ⟨by rw [same], ih same⟩

/-- `Lead n count lead`: the character `n` is the byte `lead` and `count` digits. -/
inductive Lead : Nat → Nat → Nat → Prop
  | one {n : Nat} (high : n < 0x80) : Lead n 0 n
  | two {n : Nat} (low : 0x80 ≤ n) (high : n < 0x800) : Lead n 1 (n / 64 ^ 1 + 0xc0)
  | three {n : Nat} (low : 0x800 ≤ n) (high : n < 0x10000) : Lead n 2 (n / 64 ^ 2 + 0xe0)
  | four {n : Nat} (low : 0x10000 ≤ n) (high : n < 0x110000) : Lead n 3 (n / 64 ^ 3 + 0xf0)

/-- A smaller character has a smaller first byte, or the same one and fewer digits in front of which
nothing differs. -/
theorem Lead.lt_or {m n j k x y : Nat} (first : Lead m j x) (second : Lead n k y) (below : m < n) :
    x < y ∨ x = y ∧ j = k ∧ m / 64 ^ k = n / 64 ^ k := by
  cases first <;> cases second <;> simp only [Nat.reducePow, Nat.div_one, true_and] <;> omega

theorem toNat_lt (c : Char) : c.toNat < 0x110000 := by
  have valid : c.toNat.isValidChar := c.valid
  unfold Nat.isValidChar at valid
  omega

theorem exists_lead (c : Char) :
    ∃ count lead, Lead c.toNat count lead.toNat ∧
      String.utf8EncodeChar c = lead :: digitBytes count c.toNat := by
  have small := toNat_lt c
  have number : c.val.toNat = c.toNat := rfl
  have byte {n value : Nat} (same : n % 256 = value) : (UInt8.ofNat n).toNat = value := by
    rw [UInt8.toNat_ofNat', same]
  have place : 64 ^ 2 = 4096 ∧ 64 ^ 1 = 64 ∧ c.toNat / 64 ^ 0 = c.toNat := by simp
  simp only [String.utf8EncodeChar, number]
  split
  · refine ⟨0, _, ?_, rfl⟩
    rw [byte (show c.toNat % 256 = c.toNat by omega)]
    exact .one (by omega)
  · split
    · refine ⟨1, .ofNat (c.toNat / 64 % 0x20 + 0xc0), ?_, by simp only [digitBytes, place]⟩
      rw [byte (show _ = c.toNat / 64 ^ 1 + 0xc0 by omega)]
      exact .two (by omega) (by omega)
    · split
      · refine ⟨2, .ofNat (c.toNat / 4096 % 0x10 + 0xe0), ?_, by simp only [digitBytes, place]⟩
        rw [byte (show _ = c.toNat / 64 ^ 2 + 0xe0 by omega)]
        exact .three (by omega) (by omega)
      · refine ⟨3, .ofNat (c.toNat / 262144 % 0x08 + 0xf0), ?_, by simp only [digitBytes, place]⟩
        rw [byte (show _ = c.toNat / 64 ^ 3 + 0xf0 by omega)]
        exact .four (by omega) (by omega)

theorem compareBytes_encode {c d : Char} (below : c < d) (xs ys : List UInt8) :
    compareBytes (String.utf8EncodeChar c ++ xs) (String.utf8EncodeChar d ++ ys) = .lt := by
  obtain ⟨j, x, first, spelledC⟩ := exists_lead c
  obtain ⟨k, y, second, spelledD⟩ := exists_lead d
  have numbers : c.toNat < d.toNat := below
  rw [spelledC, spelledD, List.cons_append, List.cons_append, compareBytes_cons_lt_iff]
  rcases first.lt_or second numbers with less | ⟨same, rfl, agree⟩
  · exact Or.inl less
  · exact Or.inr ⟨same, compareBytes_digitBytes numbers agree xs ys⟩

/-- The bytes of texts are ordered as their characters, a proper start before its extensions. -/
theorem compareBytes_chars_lt_iff (cs ds : List Char) :
    compareBytes (cs.flatMap String.utf8EncodeChar) (ds.flatMap String.utf8EncodeChar) = .lt ↔
      cs < ds := by
  induction cs generalizing ds with
  | nil =>
      cases ds with
      | nil => simp [compareBytes]
      | cons d ds =>
          obtain ⟨count, lead, -, spelled⟩ := exists_lead d
          rw [List.flatMap_cons, spelled]
          simp [compareBytes]
  | cons c cs ih =>
      cases ds with
      | nil =>
          obtain ⟨count, lead, -, spelled⟩ := exists_lead c
          rw [List.flatMap_cons, spelled]
          simp [compareBytes]
      | cons d ds =>
          rw [List.flatMap_cons, List.flatMap_cons, List.cons_lt_cons_iff]
          rcases lt_trichotomy c d with below | rfl | above
          · simp [compareBytes_encode below, below]
          · rw [compareBytes_append, ih]
            simp
          · rw [← compareBytes_swap, compareBytes_encode above]
            simp [above.not_gt, above.ne']

def scalars (s : String) : List Nat :=
  s.toList.map Char.toNat

theorem map_toNat_lt_iff (cs ds : List Char) :
    cs.map Char.toNat < ds.map Char.toNat ↔ cs < ds := by
  induction cs generalizing ds with
  | nil => cases ds <;> simp
  | cons c cs ih =>
      cases ds with
      | nil => simp
      | cons d ds =>
          rw [List.map_cons, List.map_cons, List.cons_lt_cons_iff, ih, List.cons_lt_cons_iff,
            Char.toNat_inj]
          rfl

theorem order_eq_lt_iff (s t : String) : order s t = .lt ↔ s < t :=
  compareBytes_chars_lt_iff s.toList t.toList

theorem order_swap (s t : String) : (order s t).swap = order t s :=
  compareBytes_swap _ _

theorem order_eq_compare (s t : String) : order s t = compare s t := by
  rcases lt_trichotomy s t with below | rfl | above
  · rw [(order_eq_lt_iff s t).mpr below, compare_lt_iff_lt.mpr below]
  · have same := order_swap s s
    rw [Std.compare_self]
    cases self : order s s with
    | eq => rfl
    | lt | gt =>
        rw [self] at same
        cases same
  · rw [← order_swap, (order_eq_lt_iff t s).mpr above, compare_gt_iff_gt.mpr above]
    rfl

end Placeholders.Text
