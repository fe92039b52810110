import Synod.Bytes

/-!
UTF-8. A text that is not well formed is refused at its first bad sequence, told by position and
length.
-/
namespace Synod.Text

/-- Where a byte string stops being UTF-8. A missing length means that it ends inside a sequence. -/
structure Utf8Error where
  validUpTo : Nat
  length : Option Nat
deriving DecidableEq, Inhabited

def Utf8Error.message (e : Utf8Error) : String :=
  match e.length with
  | some n => s!"invalid utf-8 sequence of {n} bytes from index {e.validUpTo}"
  | none => s!"incomplete utf-8 byte sequence from index {e.validUpTo}"

/-- What a leading byte announces: the length of its sequence and the range of the second byte. -/
structure Lead where
  length : Nat
  low : UInt8
  high : UInt8
deriving DecidableEq

def lead? (b : UInt8) : Option Lead :=
  if b < 0xC2 then none
  else if b ≤ 0xDF then some ⟨2, 0x80, 0xBF⟩
  else if b = 0xE0 then some ⟨3, 0xA0, 0xBF⟩
  else if b = 0xED then some ⟨3, 0x80, 0x9F⟩
  else if b ≤ 0xEF then some ⟨3, 0x80, 0xBF⟩
  else if b = 0xF0 then some ⟨4, 0x90, 0xBF⟩
  else if b ≤ 0xF3 then some ⟨4, 0x80, 0xBF⟩
  else if b = 0xF4 then some ⟨4, 0x80, 0x8F⟩
  else none

def isContinuation (b : UInt8) : Bool := 0x80 ≤ b && b ≤ 0xBF

def char2 (a b : UInt8) : Char := Char.ofNat ((a.toNat - 0xC0) * 64 + (b.toNat - 0x80))

def char3 (a b c : UInt8) : Char :=
  Char.ofNat ((a.toNat - 0xE0) * 4096 + (b.toNat - 0x80) * 64 + (c.toNat - 0x80))

def char4 (a b c d : UInt8) : Char :=
  Char.ofNat ((a.toNat - 0xF0) * 262144 + (b.toNat - 0x80) * 4096 + (c.toNat - 0x80) * 64
    + (d.toNat - 0x80))

/-- Reads characters up to the end, `at` bytes in, with those read so far in reverse. -/
def decodeFrom : Nat → List Char → Bytes → Except Utf8Error (List Char)
  | _, done, [] => .ok done.reverse
  | i, done, a :: r =>
    if a < 0x80 then decodeFrom (i + 1) (Char.ofNat a.toNat :: done) r
    else match lead? a with
      | none => .error ⟨i, some 1⟩
      | some l =>
        match r with
        | [] => .error ⟨i, none⟩
        | b :: r =>
          if b < l.low ∨ l.high < b then .error ⟨i, some 1⟩
          else if l.length = 2 then decodeFrom (i + 2) (char2 a b :: done) r
          else match r with
            | [] => .error ⟨i, none⟩
            | c :: r =>
              if !isContinuation c then .error ⟨i, some 2⟩
              else if l.length = 3 then decodeFrom (i + 3) (char3 a b c :: done) r
              else match r with
                | [] => .error ⟨i, none⟩
                | d :: r =>
                  if !isContinuation d then .error ⟨i, some 3⟩
                  else decodeFrom (i + 4) (char4 a b c d :: done) r

def decode (bs : Bytes) : Except Utf8Error String :=
  (decodeFrom 0 [] bs).map String.ofList

/-- The bytes of a text, character by character. -/
def encode (text : String) : Bytes := text.toList.flatMap String.utf8EncodeChar

end Synod.Text
