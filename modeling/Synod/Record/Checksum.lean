import Synod.Bytes

/-!
The cyclic redundancy check over 32 bits with the Castagnoli polynomial, lowest bit first. The
register starts and ends inverted.
-/
namespace Synod.Checksum

def polynomial : UInt32 := 0x82F63B78

/-- Shifts one bit out of the register and folds the polynomial in if it was set. -/
def shift (register : UInt32) : UInt32 :=
  if register &&& 1 = 1 then (register >>> 1) ^^^ polynomial else register >>> 1

/-- Shifts a number of bits out of the register. -/
def shifts : Nat → UInt32 → UInt32
  | 0, register => register
  | n + 1, register => shifts n (shift register)

/-- Takes one byte into the register. -/
def absorb (register : UInt32) (b : UInt8) : UInt32 := shifts 8 (register ^^^ b.toUInt32)

def of (bs : Bytes) : UInt32 := bs.foldl absorb 0xFFFFFFFF ^^^ 0xFFFFFFFF

-- The check value: the checksum of the digits from 1 to 9.
example : of [0x31, 0x32, 0x33, 0x34, 0x35, 0x36, 0x37, 0x38, 0x39] = 0xE3069283 := by
  decide +kernel

end Synod.Checksum
