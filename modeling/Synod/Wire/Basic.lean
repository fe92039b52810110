import Synod.Text.Utf8
import Synod.Rank

/-!
Binary values: integers of fixed width, tags before alternatives, lengths before contents. Values
are read in order, the first failure is reported, and bytes after the value are left over.
-/
namespace Synod

/-- Why a value could not be read. -/
inductive WireError where
  | endOfInput
  | shortContents
  | invalidBool (found : UInt8)
  | invalidOption (found : UInt8)
  | unknownVariant (found : UInt32) (count : Nat)
  | unknownOutcome (found : UInt32)
  | invalidText (cause : Text.Utf8Error)
  | invalidIdentity (length : Nat)
  | custom (text : String)
deriving DecidableEq, Inhabited

def WireError.message : WireError → String
  | endOfInput => "io error: unexpected end of file"
  | shortContents => "io error: "
  | invalidBool n => s!"invalid u8 while decoding bool, expected 0 or 1, found {n.toNat}"
  | invalidOption n => s!"tag for enum is not valid, found {n.toNat}"
  | unknownVariant n count =>
    s!"invalid value: integer `{n.toNat}`, expected variant index 0 <= i < {count}"
  | unknownOutcome n => s!"invalid value: integer `{n.toNat}`, expected `Ok` or `Err`"
  | invalidText e => s!"string is not valid utf8: {e.message}"
  | invalidIdentity n => s!"UUID parsing failed: invalid length: expected 16 bytes, found {n}"
  | custom text => text

/-- Takes a value off the front of the input. -/
abbrev Reader (α : Type) := Bytes → Except WireError (α × Bytes)

namespace Reader

variable {α β : Type}

def pure (a : α) : Reader α := fun bs => .ok (a, bs)

def fail (e : WireError) : Reader α := fun _ => .error e

def bind (read : Reader α) (next : α → Reader β) : Reader β := fun bs =>
  match read bs with
  | .ok (a, rest) => next a rest
  | .error e => .error e

instance : Monad Reader where
  pure := pure
  bind := bind

/-- The next `n` bytes. -/
def take (n : Nat) (short : WireError) : Reader Bytes := fun bs =>
  match bs.split? n with
  | some found => .ok found
  | none => .error short

/-- A fixed number of values, with those read so far in reverse. -/
def repeated (read : Reader α) : Nat → List α → Reader (List α)
  | 0, done, bs => .ok (done.reverse, bs)
  | n + 1, done, bs =>
    match read bs with
    | .ok (a, rest) => repeated read n (a :: done) rest
    | .error e => .error e

end Reader

/-- Values with a binary form. -/
class Wire (α : Type) where
  encode : α → Bytes
  read : Reader α

namespace Wire

variable {α : Type}

/-- The value that a byte string begins with. -/
def decode [Wire α] (bs : Bytes) : Except WireError α := (read bs).map Prod.fst

instance : Wire UInt8 where
  encode n := [n]
  read
    | [] => .error .endOfInput
    | b :: bs => .ok (b, bs)

instance : Wire UInt32 where
  encode n := Bytes.littleEndian 4 n.toNat
  read := do
    let bs ← Reader.take 4 .endOfInput
    return UInt32.ofNat bs.ofLittleEndian

instance : Wire UInt64 where
  encode n := Bytes.littleEndian 8 n.toNat
  read := do
    let bs ← Reader.take 8 .endOfInput
    return UInt64.ofNat bs.ofLittleEndian

instance : Wire Bool where
  encode b := [if b then 1 else 0]
  read := do
    let tag : UInt8 ← read
    if tag = 0 then return false
    else if tag = 1 then return true
    else Reader.fail (.invalidBool tag)

/-- A length of contents or of a list, modulo the width of its field. -/
def encodeLength (n : Nat) : Bytes := encode (UInt64.ofNat n)

def readLength : Reader Nat := do
  let n : UInt64 ← read
  return n.toNat

instance [Wire α] : Wire (Option α) where
  encode
    | none => [0]
    | some a => 1 :: encode a
  read := do
    let tag : UInt8 ← read
    if tag = 0 then return none
    else if tag = 1 then return some (← read)
    else Reader.fail (.invalidOption tag)

instance [Wire α] : Wire (List α) where
  encode as := encodeLength as.length ++ as.flatMap encode
  read := do
    let n ← readLength
    Reader.repeated read n []

instance : Wire String where
  encode text :=
    let bs := Text.encode text
    encodeLength bs.length ++ bs
  read := do
    let n ← readLength
    let bs ← Reader.take n .shortContents
    match Text.decode bs with
    | .ok text => return text
    | .error e => Reader.fail (.invalidText e)

instance : Wire ProposerId where
  encode p := encodeLength 16 ++ p.bytes
  read := do
    let n ← readLength
    let bs ← Reader.take n .shortContents
    if n = 16 then return ProposerId.ofBytes bs
    else Reader.fail (.invalidIdentity n)

instance : Wire Rank where
  encode r := encode r.sequence ++ encode r.proposer
  read := do
    let sequence ← read
    let proposer ← read
    return ⟨sequence, proposer⟩

end Wire
end Synod
