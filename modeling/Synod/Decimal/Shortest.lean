import Synod.Decimal.Binary64

/-!
The fewest decimal digits that read back as a given double, the nearest of them to it. Zero has the
single digit zero.
-/
namespace Synod.Binary64

/-- The bounds of the numbers that round to a double, as a common denominator and two numerators. -/
def interval (f : Binary64) : Nat × Nat × Nat :=
  let below := if f.significand = normal ∧ -1074 < f.power then 1 else 2
  let (n, d) := quotient ⟨1, f.power⟩
  (4 * d, (4 * f.significand - below) * n, (4 * f.significand + 2) * n)

/-- A decimal number of whole digits times a power of ten, as a quotient. -/
def decimal (digits : Nat) (power : Int) : Nat × Nat :=
  if 0 ≤ power then (digits * Nat.pow 10 power.toNat, 1) else (digits, Nat.pow 10 (-power).toNat)

/-- Whether a decimal number rounds to a double. -/
def readsBack (f : Binary64) (digits : Nat) (power : Int) : Bool :=
  let (d, low, high) := f.interval
  let (n, e) := decimal digits power
  if f.significand % 2 = 0 then low * e ≤ n * d && n * d ≤ high * e
  else low * e < n * d && n * d < high * e

/-- The place of the leading digit: the greatest power of ten not above a positive double. -/
def leadingPlace (f : Binary64) : Int :=
  let (n, d) := f.quotient
  if d ≤ n then (Nat.toDigits 10 (n / d)).length - 1
  else -(Nat.toDigits 10 ((d + n - 1) / n - 1)).length

/-- The neighbours of a double among the decimal numbers with `count` digits that read back as it,
the nearer one if both do. -/
def candidate? (f : Binary64) (count : Nat) : Option (Nat × Int) :=
  let power := f.leadingPlace - count + 1
  let (n, d) := f.quotient
  let (u, v) := decimal 1 power
  let num := n * v
  let den := d * u
  let low := num / den
  let twice := 2 * (num % den)
  let lowFirst := twice < den || (twice == den && low % 2 == 0)
  match f.readsBack low power, f.readsBack (low + 1) power with
  | true, true => some (if lowFirst then low else low + 1, power)
  | true, false => some (low, power)
  | false, true => some (low + 1, power)
  | false, false => none

/-- Moves trailing zeros of the digits into the power of ten, at most `fuel` of them. -/
def trim : Nat → Nat × Int → Nat × Int
  | 0, r => r
  | fuel + 1, (digits, power) =>
    if digits ≠ 0 ∧ digits % 10 = 0 then trim fuel (digits / 10, power + 1) else (digits, power)

def shortest (f : Binary64) : Nat × Int :=
  if f.significand = 0 then (0, 0)
  else trim 20 (((List.range 17).findSome? fun i => f.candidate? (i + 1)).getD (0, 0))

/-- Positional from the fifth place after the point up to the sixteenth before it, else with an
exponent that has a sign. An integer ends in a point and a zero. -/
def text (f : Binary64) : String :=
  let (digits, power) := f.shortest
  let ds := Nat.toDigits 10 digits
  let place : Int := ds.length + power - 1
  let zeros (n : Int) := List.replicate n.toNat '0'
  String.ofList <|
    if 0 ≤ power ∧ place ≤ 15 then ds ++ zeros power ++ ['.', '0']
    else if 0 ≤ place ∧ place ≤ 15 then
      ds.take (place.toNat + 1) ++ ['.'] ++ ds.drop (place.toNat + 1)
    else if -5 ≤ place ∧ place < 0 then ['0', '.'] ++ zeros (-place - 1) ++ ds
    else
      ds.take 1 ++ (if ds.length = 1 then [] else '.' :: ds.drop 1)
        ++ ['e', if place < 0 then '-' else '+'] ++ Nat.toDigits 10 place.natAbs

end Synod.Binary64
