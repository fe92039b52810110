/-! Byte strings: integers of a fixed width, least significant byte first, and hexadecimal text. -/
namespace Synod

abbrev Bytes := List UInt8

namespace Bytes

/-- The last `width` base-256 digits of a number, least significant first. -/
def littleEndian : Nat → Nat → Bytes
  | 0, _ => []
  | width + 1, n => UInt8.ofNat n :: littleEndian width (n / 256)

/-- The number whose base-256 digits, least significant first, are given. -/
def ofLittleEndian : Bytes → Nat
  | [] => 0
  | b :: bs => b.toNat + 256 * ofLittleEndian bs

def bigEndian (width n : Nat) : Bytes := (littleEndian width n).reverse

def ofBigEndian (bs : Bytes) : Nat := ofLittleEndian bs.reverse

@[simp] theorem length_littleEndian (width n : Nat) : (littleEndian width n).length = width := by
  induction width generalizing n with
  | zero => rfl
  | succ width ih => simp [littleEndian, ih]

@[simp] theorem length_bigEndian (width n : Nat) : (bigEndian width n).length = width := by
  simp [bigEndian]

/-- How many numbers have a given number of base-256 digits or fewer. -/
def bound : Nat → Nat
  | 0 => 1
  | width + 1 => 256 * bound width

theorem bound_le_bound {n m : Nat} (h : n ≤ m) : bound n ≤ bound m := by
  induction h with
  | refl => exact Nat.le_refl _
  | step _ ih =>
    rw [bound]
    omega

theorem ofLittleEndian_lt (bs : Bytes) : ofLittleEndian bs < bound bs.length := by
  induction bs with
  | nil => simp [ofLittleEndian, bound]
  | cons b bs ih =>
    have hb := b.toNat_lt
    simp only [ofLittleEndian, List.length_cons, bound]
    omega

/-- A number below the width's bound is read back from its digits. -/
theorem ofLittleEndian_littleEndian {width n : Nat} (h : n < bound width) :
    ofLittleEndian (littleEndian width n) = n := by
  induction width generalizing n with
  | zero =>
    simp only [bound] at h
    simp only [littleEndian, ofLittleEndian]
    omega
  | succ width ih =>
    have hq : n / 256 < bound width := by
      rw [bound] at h
      omega
    simp only [littleEndian, ofLittleEndian, ih hq, UInt8.toNat_ofNat']
    omega

/-- Digits are determined by the number they spell. -/
theorem littleEndian_ofLittleEndian (bs : Bytes) :
    littleEndian bs.length (ofLittleEndian bs) = bs := by
  induction bs with
  | nil => rfl
  | cons b bs ih =>
    have hb := b.toNat_lt
    have hq : (b.toNat + 256 * ofLittleEndian bs) / 256 = ofLittleEndian bs := by omega
    have hr : UInt8.ofNat (b.toNat + 256 * ofLittleEndian bs) = b := by
      apply UInt8.toNat_inj.mp
      rw [UInt8.toNat_ofNat']
      omega
    simp only [List.length_cons, ofLittleEndian, littleEndian, hq, hr, ih]

theorem littleEndian_inj {width m n : Nat} (hm : m < bound width) (hn : n < bound width)
    (h : littleEndian width m = littleEndian width n) : m = n := by
  rw [← ofLittleEndian_littleEndian hm, h, ofLittleEndian_littleEndian hn]

/-- Four bytes are the digits of a word. -/
theorem littleEndian_word {bs : Bytes} (h : bs.length = 4) :
    littleEndian 4 (UInt32.ofNat (ofLittleEndian bs)).toNat = bs := by
  have hlt := ofLittleEndian_lt bs
  rw [h] at hlt
  rw [UInt32.toNat_ofNat_of_lt' hlt, ← h]
  exact littleEndian_ofLittleEndian bs

theorem ofBigEndian_bigEndian {width n : Nat} (h : n < bound width) :
    ofBigEndian (bigEndian width n) = n := by
  simp [ofBigEndian, bigEndian, ofLittleEndian_littleEndian h]

theorem bigEndian_ofBigEndian (bs : Bytes) : bigEndian bs.length (ofBigEndian bs) = bs := by
  have h := littleEndian_ofLittleEndian bs.reverse
  rw [List.length_reverse] at h
  simp [ofBigEndian, bigEndian, h]

/-- A lowercase hexadecimal digit. -/
def hexDigit (n : Nat) : Char := (Nat.toDigits 16 (n % 16)).headD '0'

def hexValue? (c : Char) : Option Nat :=
  if '0' ≤ c ∧ c ≤ '9' then some (c.toNat - '0'.toNat)
  else if 'a' ≤ c ∧ c ≤ 'f' then some (c.toNat - 'a'.toNat + 10)
  else if 'A' ≤ c ∧ c ≤ 'F' then some (c.toNat - 'A'.toNat + 10)
  else none

/-- Two lowercase hexadecimal digits for each byte. -/
def hexChars (bs : Bytes) : List Char :=
  bs.flatMap fun b => [hexDigit (b.toNat / 16), hexDigit b.toNat]

def hex (bs : Bytes) : String := String.ofList (hexChars bs)

def ofHexChars? (cs : List Char) : Option Bytes :=
  go cs []
where
  go : List Char → Bytes → Option Bytes
    | [], read => some read.reverse
    | [_], _ => none
    | c :: d :: cs, read =>
      match hexValue? c, hexValue? d with
      | some high, some low => go cs (UInt8.ofNat (16 * high + low) :: read)
      | _, _ => none

def ofHex? (text : String) : Option Bytes := ofHexChars? text.toList

/-- Moves `n` bytes from the front of the second part onto the first, which is in reverse. -/
def splitFrom : Nat → Bytes → Bytes → Option (Bytes × Bytes)
  | 0, first, rest => some (first.reverse, rest)
  | _ + 1, _, [] => none
  | n + 1, first, b :: rest => splitFrom n (b :: first) rest

/-- The first `n` bytes and the rest, if there are that many. -/
def split? (n : Nat) (bs : Bytes) : Option (Bytes × Bytes) := splitFrom n [] bs

theorem splitFrom_append (bs done rest : Bytes) :
    splitFrom bs.length done (bs ++ rest) = some (done.reverse ++ bs, rest) := by
  induction bs generalizing done with
  | nil => simp [splitFrom]
  | cons b bs ih => simp [splitFrom, ih]

theorem splitFrom_eq_some {n : Nat} {bs done first rest : Bytes}
    (h : splitFrom n done bs = some (first, rest)) :
    ∃ taken, bs = taken ++ rest ∧ first = done.reverse ++ taken ∧ taken.length = n := by
  induction n generalizing bs done with
  | zero =>
    simp only [splitFrom, Option.some.injEq, Prod.mk.injEq] at h
    obtain ⟨rfl, rfl⟩ := h
    exact ⟨[], by simp⟩
  | succ n ih =>
    cases bs with
    | nil => simp [splitFrom] at h
    | cons b bs =>
      obtain ⟨taken, rfl, rfl, rfl⟩ := ih h
      exact ⟨b :: taken, by simp⟩

theorem split?_append (bs rest : Bytes) : split? bs.length (bs ++ rest) = some (bs, rest) := by
  simp [split?, splitFrom_append]

theorem split?_eq_some {n : Nat} {bs first rest : Bytes} (h : split? n bs = some (first, rest)) :
    bs = first ++ rest ∧ first.length = n := by
  obtain ⟨taken, rfl, rfl, rfl⟩ := splitFrom_eq_some h
  simp

end Bytes
end Synod
