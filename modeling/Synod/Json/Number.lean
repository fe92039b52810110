import Synod.Json.Error

/-!
JSON numbers. An integer that does not fit becomes a double: its leading digits as far as they fit a
word, rounded, then multiplied or divided by a rounded power of ten.
-/
namespace Synod.Json

/-- One past the largest machine word. -/
def wordBound : Nat := UInt64.size

/-- The digits at the front of a text, as far as the number they spell stays below a bound, how many
they are, and the rest. -/
def digitsBelow (bound : Nat) : Nat → Nat → Bytes → Nat × Nat × Bytes
  | n, count, [] => (n, count, [])
  | n, count, b :: bs =>
    if isDigit b ∧ n * 10 + digit b < bound then
      digitsBelow bound (n * 10 + digit b) (count + 1) bs
    else (n, count, b :: bs)

def startsWithDigit : Bytes → Bool
  | [] => false
  | b :: _ => isDigit b

def startsWithExponent : Bytes → Bool
  | [] => false
  | b :: _ => b = code 'e' || b = code 'E'

/-- The double nearest to a power of ten. -/
def powerOfTen (n : Nat) : Binary64 := (Binary64.ofNat (Nat.pow 10 n)).getD .zero

/-- A significand scaled by a power of ten, in factors of at most `10 ^ 308`. -/
def scale : Nat → Binary64 → Int → Except Error Binary64
  | 0, f, _ => .ok f
  | fuel + 1, f, exponent =>
    if exponent.natAbs ≤ 308 then
      let p := powerOfTen exponent.natAbs
      if 0 ≤ exponent then
        match f.mul p with
        | some f => .ok f
        | none => .error .numberOutOfRange
      else .ok ((f.div p).getD .zero)
    else if f.significand = 0 then .ok f
    else if 0 ≤ exponent then .error .numberOutOfRange
    else scale fuel ((f.div (powerOfTen 308)).getD .zero) (exponent + 308)

def doubleOf (negative : Bool) (significand : Nat) (exponent : Int) : Except Error Number := do
  let f := (Binary64.ofNat significand).getD .zero
  return .double negative (← scale 8 f exponent)

/-- The exponent after its letter. One that exceeds a machine integer makes the number zero, or
takes it out of range. -/
def exponentPart (negative : Bool) (significand : Nat) (start : Int) (bs : Bytes) :
    Except Error (Number × Bytes) :=
  let (down, bs) :=
    match bs with
    | b :: r => if b = code '-' then (true, r) else if b = code '+' then (false, r) else (false, bs)
    | [] => (false, [])
  match bs with
  | [] => .error .endInValue
  | b :: _ =>
    if !isDigit b then .error .invalidNumber
    else
      let (e, _, rest) := digitsBelow 2147483648 0 0 bs
      if startsWithDigit rest then
        if significand ≠ 0 ∧ !down then .error .numberOutOfRange
        else .ok (.double negative .zero, rest.dropWhile isDigit)
      else do
        return (← doubleOf negative significand (if down then start - e else start + e), rest)

/-- What may follow the digits of a number: an exponent or nothing. -/
def afterDigits (negative : Bool) (significand : Nat) (exponent : Int) (bs : Bytes) :
    Except Error (Number × Bytes) :=
  if startsWithExponent bs then exponentPart negative significand exponent (bs.drop 1)
  else do
    return (← doubleOf negative significand exponent, bs)

/-- The digits after the point. Those that do not fit the significand are dropped. -/
def fractionPart (negative : Bool) (significand : Nat) (exponent : Int) (bs : Bytes) :
    Except Error (Number × Bytes) :=
  let (m, count, rest) := digitsBelow wordBound significand 0 bs
  if startsWithDigit rest then
    afterDigits negative m (exponent - count) (rest.dropWhile isDigit)
  else if count = 0 then
    match rest with
    | [] => .error .endInValue
    | _ :: _ => .error .invalidNumber
  else afterDigits negative m (exponent - count) rest

/-- A number after its sign. -/
def unsignedNumber (negative : Bool) (bs : Bytes) : Except Error (Number × Bytes) :=
  match bs with
  | [] => .error .endInValue
  | b :: r =>
    if !isDigit b then .error .invalidNumber
    else if b = code '0' ∧ startsWithDigit r then .error .invalidNumber
    else
      let (m, _, rest) := digitsBelow wordBound 0 0 bs
      let tooLong := startsWithDigit rest
      let dropped := (rest.takeWhile isDigit).length
      let rest := rest.dropWhile isDigit
      match rest with
      | c :: r =>
        if c = code '.' then fractionPart negative m dropped r
        else if startsWithExponent rest then afterDigits negative m dropped rest
        else whole tooLong m dropped rest
      | [] => whole tooLong m dropped rest
where
  whole (tooLong : Bool) (m dropped : Nat) (rest : Bytes) : Except Error (Number × Bytes) :=
    if tooLong then do return (← doubleOf negative m dropped, rest)
    else if !negative then .ok (.natural (UInt64.ofNat m), rest)
    else if 0 < m ∧ m ≤ 9223372036854775808 then .ok (.negative m, rest)
    else do return (← doubleOf true m 0, rest)

def number : Parser Number := fun bs =>
  match bs with
  | b :: r => if b = code '-' then unsignedNumber true r else unsignedNumber false bs
  | [] => .error .endInValue

end Synod.Json
