import Synod.Bytes

/-!
Ranks order the proposals of a round: by sequence number, then by the proposer that owns them. An
absent rank is below every rank.
-/
namespace Synod

/-- The identity of a proposer: sixteen bytes, ordered as one number, the first most significant. -/
structure ProposerId where
  bits : BitVec 128
deriving DecidableEq, Inhabited

namespace ProposerId

def toNat (p : ProposerId) : Nat := p.bits.toNat

instance : LT ProposerId := ⟨fun p q => p.bits < q.bits⟩

instance (p q : ProposerId) : Decidable (p < q) := inferInstanceAs (Decidable (p.bits < q.bits))

theorem lt_iff_toNat {p q : ProposerId} : p < q ↔ p.toNat < q.toNat := BitVec.lt_def

/-- How many identities there are. -/
def count : Nat := 340282366920938463463374607431768211456

theorem toNat_lt (p : ProposerId) : p.toNat < count := p.bits.isLt

theorem toNat_inj {p q : ProposerId} : p.toNat = q.toNat ↔ p = q := by
  cases p
  cases q
  simp [toNat, BitVec.toNat_inj]

def ofBytes (bs : Bytes) : ProposerId := ⟨BitVec.ofNat 128 (Bytes.ofBigEndian bs)⟩

def bytes (p : ProposerId) : Bytes := Bytes.bigEndian 16 p.toNat

@[simp] theorem length_bytes (p : ProposerId) : p.bytes.length = 16 := by simp [bytes]

theorem bound_sixteen : Bytes.bound 16 = count := rfl

theorem toNat_ofBytes {bs : Bytes} (h : bs.length = 16) :
    (ofBytes bs).toNat = Bytes.ofBigEndian bs := by
  have hlt := Bytes.ofLittleEndian_lt bs.reverse
  rw [List.length_reverse, h, bound_sixteen] at hlt
  rw [toNat, ofBytes, BitVec.toNat_ofNat]
  exact Nat.mod_eq_of_lt hlt

theorem ofBytes_bytes (p : ProposerId) : ofBytes p.bytes = p := by
  apply toNat_inj.mp
  rw [toNat_ofBytes p.length_bytes, bytes, Bytes.ofBigEndian_bigEndian p.toNat_lt]

theorem bytes_ofBytes {bs : Bytes} (h : bs.length = 16) : (ofBytes bs).bytes = bs := by
  rw [bytes, toNat_ofBytes h, ← h]
  exact Bytes.bigEndian_ofBigEndian bs

/-- Hexadecimal digits in groups of 8, 4, 4, 4 and 12, joined by hyphens. -/
def text (p : ProposerId) : String :=
  let digits := Bytes.hexChars p.bytes
  String.ofList <| List.intercalate ['-']
    [digits.take 8, (digits.drop 8).take 4, (digits.drop 12).take 4, (digits.drop 16).take 4,
      digits.drop 20]

/-- Reads the digits of an identity, hyphens left out of account. -/
def ofText? (text : String) : Option ProposerId :=
  match Bytes.ofHexChars? (text.toList.filter (· ≠ '-')) with
  | some bs => if bs.length = 16 then some (ofBytes bs) else none
  | none => none

end ProposerId

structure Rank where
  sequence : UInt64
  proposer : ProposerId
deriving DecidableEq, Inhabited

namespace Rank

instance : LT Rank :=
  ⟨fun a b => a.sequence < b.sequence ∨ (a.sequence = b.sequence ∧ a.proposer < b.proposer)⟩

instance : LE Rank := ⟨fun a b => ¬ b < a⟩

instance (a b : Rank) : Decidable (a < b) :=
  inferInstanceAs (Decidable (_ ∨ _))

instance (a b : Rank) : Decidable (a ≤ b) := inferInstanceAs (Decidable (¬ b < a))

instance : Max Rank := maxOfLe

instance : Ord Rank := ⟨fun a b => compareOfLessAndEq a b⟩

instance (a b : Option Rank) : Decidable (a < b) :=
  inferInstanceAs (Decidable (Option.lt (· < ·) a b))

instance (a b : Option Rank) : Decidable (a ≤ b) :=
  match a, b with
  | none, none => .isTrue trivial
  | none, some _ => .isTrue trivial
  | some _, none => .isFalse id
  | some a, some b => inferInstanceAs (Decidable (a ≤ b))

/-- A rank as one number, in the same order. -/
def key (r : Rank) : Nat := r.sequence.toNat * ProposerId.count + r.proposer.toNat

theorem lt_iff_key {a b : Rank} : a < b ↔ a.key < b.key := by
  have ha := a.proposer.toNat_lt
  have hb := b.proposer.toNat_lt
  change (a.sequence < b.sequence ∨ (a.sequence = b.sequence ∧ a.proposer < b.proposer)) ↔ _
  rw [UInt64.lt_iff_toNat_lt, ← UInt64.toNat_inj, ProposerId.lt_iff_toNat, key, key]
  simp only [ProposerId.count] at *
  omega

theorem le_iff_key {a b : Rank} : a ≤ b ↔ a.key ≤ b.key := by
  change ¬ b < a ↔ _
  rw [lt_iff_key]
  omega

theorem key_inj {a b : Rank} : a.key = b.key ↔ a = b := by
  constructor
  · intro h
    have ha := a.proposer.toNat_lt
    have hb := b.proposer.toNat_lt
    simp only [key, ProposerId.count] at *
    have hs : a.sequence = b.sequence := UInt64.toNat_inj.mp (by omega)
    have hp : a.proposer = b.proposer := ProposerId.toNat_inj.mp (by rw [hs] at h; omega)
    cases a
    cases b
    simp_all
  · rintro rfl
    rfl

/-- The smallest rank of a proposer that beats another; none if the sequence numbers run out. -/
def above (other : Option Rank) (proposer : ProposerId) : Option Rank :=
  match other with
  | none => some ⟨1, proposer⟩
  | some r =>
    if r.proposer < proposer then some ⟨r.sequence, proposer⟩
    else if r.sequence.toNat + 1 < UInt64.size then some ⟨r.sequence + 1, proposer⟩
    else none

def text (r : Rank) : String := s!"rank({r.sequence.toNat}, {r.proposer.text})"

/-- Absent ranks first, then the others in ascending order. -/
def sort (rs : List (Option Rank)) : List (Option Rank) :=
  rs.mergeSort (fun a b => decide (a ≤ b))

end Rank
end Synod
