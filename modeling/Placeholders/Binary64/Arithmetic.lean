import Placeholders.Binary64.Basic

set_option autoImplicit false

namespace Placeholders.Binary64

def mul : Binary64 → Binary64 → Binary64
  | .finite s m _, .finite t n _ => nearest (s ^^ t) (m * n) unitsPerOne
  | .infinite s, .infinite t => .infinite (s ^^ t)
  | .infinite s, .finite t n _ | .finite s n _, .infinite t =>
      if n = 0 then .nan else .infinite (s ^^ t)
  | .nan, _ | _, .nan => .nan

/-- The quotient, rounded once. A nonzero number over zero is infinite. -/
def div : Binary64 → Binary64 → Binary64
  | .finite s m _, .finite t n _ =>
      if n = 0 then
        if m = 0 then .nan else .infinite (s ^^ t)
      else nearest (s ^^ t) (m * unitsPerOne) n
  | .infinite s, .finite t _ _ => .infinite (s ^^ t)
  | .finite s _ _, .infinite t => zero (s ^^ t)
  | .infinite _, .infinite _ => .nan
  | .nan, _ | _, .nan => .nan

/-- The nearest whole number, halves away from zero. -/
def round : Binary64 → Binary64
  | .finite s m _ => nearest s ((2 * m + unitsPerOne) / (2 * unitsPerOne) * unitsPerOne) 1
  | x => x

/-- `acc * base ^ n` by repeated squaring, each product rounded. -/
def powerLoop (base acc : Binary64) (n : Nat) : Binary64 :=
  let acc := if n % 2 = 1 then mul acc base else acc
  if n / 2 = 0 then acc else powerLoop (mul base base) acc (n / 2)
termination_by n

/-- `base ^ n` by repeated squaring. For a negative exponent the power of its absolute
value is computed first and then inverted. -/
def power (base : Binary64) (n : Int) : Binary64 :=
  let magnitude := powerLoop base one n.natAbs
  if n < 0 then div one magnitude else magnitude

end Placeholders.Binary64
