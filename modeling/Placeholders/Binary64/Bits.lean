import Placeholders.Binary64.Basic

set_option autoImplicit false

namespace Placeholders.Binary64

theorem shiftLeft_lt_one_shiftLeft (k e n : Nat) (hk : k < 1 <<< 53) (he : 53 + e ≤ n) :
    k <<< e < 1 <<< n := by
  rw [Nat.one_shiftLeft, Nat.shiftLeft_eq]
  have lt : k * 2 ^ e < 2 ^ (53 + e) := by
    rw [Nat.pow_add]
    exact Nat.mul_lt_mul_of_pos_right hk (Nat.two_pow_pos e)
  exact Nat.lt_of_lt_of_le lt (Nat.pow_le_pow_right Nat.two_pos he)

theorem shiftLeft_lt_overflow (k e : Nat) (hk : k < 1 <<< 53) (he : e ≤ 2045) :
    k <<< e < overflowUnits :=
  shiftLeft_lt_one_shiftLeft k e 2098 hk (by omega)

/-- The number `significand <<< exponent` units, for a significand of at most 53 bits. -/
def ofFields (negative : Bool) (significand exponent : Nat) (hs : significand < 1 <<< 53)
    (he : exponent ≤ 2045) : Binary64 :=
  .finite negative (significand <<< exponent)
    (representable_shiftLeft _ _ (Nat.le_of_lt hs) (shiftLeft_lt_overflow _ _ hs he))

/-- Decodes the low 64 bits of `bits`. -/
def ofBits (bits : Nat) : Binary64 :=
  let negative := (bits >>> 63) % 2 == 1
  let exponent := (bits >>> 52) % 2048
  let fraction := bits % (1 <<< 52)
  have exponent_lt : exponent < 2048 := Nat.mod_lt _ (by omega)
  have fraction_lt : fraction < 1 <<< 52 := Nat.mod_lt _ (by omega)
  if special : exponent = 2047 then
    if fraction = 0 then .infinite negative else .nan
  else if subnormal : exponent = 0 then
    ofFields negative fraction 0 (by omega) (by omega)
  else
    ofFields negative ((1 <<< 52) + fraction) (exponent - 1) (by omega) (by omega)

/-- Encodes a number in 64 bits; `none` for a `nan`, which has many encodings. -/
def toBits? : Binary64 → Option Nat
  | .finite negative units _ =>
      let exponent := units.log2 - 52
      some ((negative.toNat <<< 63) + (exponent <<< 52) + (units >>> exponent))
  | .infinite negative => some ((negative.toNat <<< 63) + (2047 <<< 52))
  | .nan => none

end Placeholders.Binary64
