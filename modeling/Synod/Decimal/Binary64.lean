/-!
Magnitudes of double-precision numbers as a significand times a power of two, in exact arithmetic:
each operation is the exact result rounded once, to nearest, ties to the even significand.
-/
namespace Synod

/-- The number `significand * 2 ^ power`, with a significand below `bound` and a power of at least
-1074. -/
structure Binary64 where
  significand : Nat
  power : Int
deriving DecidableEq, Inhabited

namespace Binary64

/-- One past the greatest significand. -/
def bound : Nat := Nat.pow 2 53

/-- The least significand of a number that is not subnormal. -/
def normal : Nat := Nat.pow 2 52

def zero : Binary64 := ⟨0, -1074⟩

/-- The integer nearest to a quotient, the even one of two. -/
def nearest (num den : Nat) : Nat :=
  let q := num / den
  let twice := 2 * (num % den)
  if twice < den then q else if den < twice then q + 1 else q + q % 2

/-- A quotient divided by a power of two, as a quotient. -/
def scaleDown (num den : Nat) (power : Int) : Nat × Nat :=
  if 0 ≤ power then (num, den * Nat.pow 2 power.toNat) else (num * Nat.pow 2 (-power).toNat, den)

/-- The double nearest to a quotient; none if it is beyond the largest. -/
def ofQuotient (num den : Nat) : Option Binary64 :=
  if num = 0 then some zero
  else
    let guess : Int := (num.log2 : Int) - den.log2 - 52
    let (n, d) := scaleDown num den guess
    let power := max (if n / d < normal then guess - 1 else guess) (-1074)
    let (n, d) := scaleDown num den power
    let m := nearest n d
    let (m, power) := if m = bound then (normal, power + 1) else (m, power)
    if 971 < power then none else some ⟨m, power⟩

def ofNat (n : Nat) : Option Binary64 := ofQuotient n 1

/-- The magnitude as a quotient. -/
def quotient (f : Binary64) : Nat × Nat :=
  if 0 ≤ f.power then (f.significand * Nat.pow 2 f.power.toNat, 1)
  else (f.significand, Nat.pow 2 (-f.power).toNat)

def mul (f g : Binary64) : Option Binary64 :=
  ofQuotient (f.quotient.1 * g.quotient.1) (f.quotient.2 * g.quotient.2)

def div (f g : Binary64) : Option Binary64 :=
  ofQuotient (f.quotient.1 * g.quotient.2) (f.quotient.2 * g.quotient.1)

end Binary64
end Synod
