import Synod.Proofs.Order

/-!
The rank that a proposer takes to beat another rank: the smallest of its own that does, unless the
sequence numbers have run out.
-/
namespace Synod.Rank

variable {a b r x : Rank} {o : Option Rank} {p : ProposerId}

/-- By how much the sequence number has to go up for a proposer to beat a rank. -/
def lead (x : Rank) (p : ProposerId) : Nat := if x.proposer < p then 0 else 1

theorem lt_iff_lead : a < b ↔ a.sequence.toNat + a.lead b.proposer ≤ b.sequence.toNat := by
  change (a.sequence < b.sequence ∨ a.sequence = b.sequence ∧ a.proposer < b.proposer) ↔ _
  rw [UInt64.lt_iff_toNat_lt, ← UInt64.toNat_inj, lead]
  by_cases hp : a.proposer < b.proposer
  · rw [if_pos hp, and_iff_left hp]
    omega
  · rw [if_neg hp, or_iff_left fun h => hp h.2]
    omega

theorem lead_self (x : Rank) : x.lead x.proposer = 1 := by
  have hirrefl : ¬ x.proposer < x.proposer := by
    rw [ProposerId.lt_iff_toNat]
    exact Nat.lt_irrefl _
  rw [lead, if_neg hirrefl]

/-- Of the ranks of one proposer, the sequence number tells the order. -/
theorem le_iff_sequence (h : a.proposer = b.proposer) :
    a ≤ b ↔ a.sequence.toNat ≤ b.sequence.toNat := by
  rw [← Std.not_lt, lt_iff_lead, h, lead_self]
  omega

/-- What becomes of a proposer that is to beat a rank. -/
inductive Outbids (x : Rank) (p : ProposerId) : Option Rank → Prop where
  | taken {r : Rank} (hp : r.proposer = p)
      (hs : r.sequence.toNat = x.sequence.toNat + x.lead p) : Outbids x p (some r)
  | exhausted (h : UInt64.size ≤ x.sequence.toNat + x.lead p) : Outbids x p none

theorem outbids_above (x : Rank) (p : ProposerId) : Outbids x p (above (some x) p) := by
  simp only [above]
  by_cases hp : x.proposer < p
  · have hlead : x.lead p = 0 := if_pos hp
    rw [if_pos hp]
    exact .taken rfl (by rw [hlead, Nat.add_zero])
  · have hlead : x.lead p = 1 := if_neg hp
    rw [if_neg hp]
    split
    · rename_i hs
      refine .taken rfl ?_
      rw [hlead, UInt64.toNat_add]
      exact Nat.mod_eq_of_lt hs
    · rename_i hs
      exact .exhausted (by rw [hlead]; omega)

theorem proposer_of_above (h : above o p = some r) : r.proposer = p := by
  cases o with
  | none =>
    obtain rfl := Option.some.inj h
    rfl
  | some x =>
    have hx := outbids_above x p
    rw [h] at hx
    cases hx with
    | taken hp => exact hp

/-- The rank taken beats the other. -/
theorem lt_of_above (h : above o p = some r) : ∀ x ∈ o, x < r := by
  rintro x rfl
  have hx := outbids_above x p
  rw [h] at hx
  cases hx with
  | taken hp hs =>
    refine lt_iff_lead.mpr (Nat.le_of_eq ?_)
    rw [hp, hs]

/-- No smaller rank of the proposer does. -/
theorem above_le (h : above (some x) p = some r) (ha : a.proposer = p) (hlt : x < a) : r ≤ a := by
  have hx := outbids_above x p
  rw [h] at hx
  cases hx with
  | taken hp hs =>
    rw [lt_iff_lead, ha] at hlt
    rw [le_iff_sequence (hp.trans ha.symm)]
    omega

/-- There is none to be taken only if the other rank bears the last sequence number, and then no rank
of the proposer beats it. -/
theorem above_eq_none (h : above o p = none) : ∃ x ∈ o, x.sequence.toNat + 1 = UInt64.size ∧
    ∀ a : Rank, a.proposer = p → a ≤ x := by
  cases o with
  | none => cases h
  | some x =>
    have hx := outbids_above x p
    rw [h] at hx
    cases hx with
    | exhausted hs =>
      have hlt := x.sequence.toNat_lt_size
      have hlead : x.lead p ≤ 1 := by
        unfold lead
        split
        · exact Nat.zero_le 1
        · exact Nat.le_refl 1
      refine ⟨x, rfl, by omega, fun a ha => ?_⟩
      have halt := a.sequence.toNat_lt_size
      rw [← Std.not_lt, lt_iff_lead, ha]
      omega

end Synod.Rank
