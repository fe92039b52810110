/-! Decimal numbers as they are typed: an optional plus sign and digits, below a bound. -/
namespace Synod.Text

def isAsciiDigit (c : Char) : Bool := '0' ≤ c && c ≤ '9'

def digitValue (c : Char) : Nat := c.toNat - '0'.toNat

/-- The number that digits spell after those that spelled `n`. -/
def digitsValue (n : Nat) (cs : List Char) : Nat := cs.foldl (fun n c => 10 * n + digitValue c) n

/-- A number below a bound. At least one digit is due after the sign. -/
def decimal? (bound : Nat) (cs : List Char) : Option Nat :=
  let digits := match cs with
    | '+' :: cs => cs
    | cs => cs
  if digits ≠ [] ∧ digits.all isAsciiDigit then
    let n := digitsValue 0 digits
    if n < bound then some n else none
  else none

def word16? (cs : List Char) : Option UInt16 := (decimal? UInt16.size cs).map UInt16.ofNat

def word64? (cs : List Char) : Option UInt64 := (decimal? UInt64.size cs).map UInt64.ofNat

end Synod.Text
