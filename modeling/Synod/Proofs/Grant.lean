import Synod.Proofs.Order
import Synod.Rules

/-! What the rules grant, request by request, and what every grant preserves. -/
namespace Synod.State

variable {s t : State} {q : Request} {a : Response}

/-- The requests that move a state, with the next state and the answer that is then due. -/
inductive Grant (s : State) : Request → State → Response → Prop where
  | bootstrap {l : Layout} (hb : s.bootstrapped = false) :
      Grant s (.bootstrap l) { s with bootstrapped := true, epoch := 0, layout := some l } .ack
  | setEpoch {e : UInt64} (hb : s.bootstrapped = true) (he : s.epoch < e) :
      Grant s (.setEpoch e) (s.advance e) .ack
  | prepare {r : Rank} {e : UInt64} (he : e = s.epoch) (hb : s.bootstrapped = true)
      (hr : ∀ p ∈ s.promised, p < r) :
      Grant s (.prepare r e) { s with promised := some r }
        (.prepareAck s.acceptedRank s.acceptedLayout)
  | propose {r : Rank} {l : Layout} {e : UInt64} (he : e = s.epoch) (hb : s.bootstrapped = true)
      (hp : s.promised = some r) (ha : s.acceptedRank ≠ some r) :
      Grant s (.propose r l e) { s with accepted := some ⟨r, l⟩ } .ack
  | committed {r : Rank} {l : Layout} {e : UInt64} (he : e = s.epoch)
      (hb : s.bootstrapped = true) :
      Grant s (.committed r l e) { s.advance l.epoch with layout := some l } .ack

theorem fence_eq_none_iff : s.fence q = none ↔ ∀ e ∈ q.epoch?, e = s.epoch := by
  unfold fence
  cases q.epoch? with
  | none => simp
  | some e => by_cases h : e = s.epoch <;> simp [h]

theorem judge_of_fence (hf : ∀ e ∈ q.epoch?, e = s.epoch) : s.judge q = s.rule q := by
  simp [judge, fence_eq_none_iff.mpr hf]

theorem judge_of_grant (h : Grant s q t a) : s.judge q = .move t a := by
  cases h with
  | bootstrap hb =>
    rw [judge_of_fence (by simp [Request.epoch?])]
    simp [rule, onBootstrap, hb]
  | setEpoch hb he =>
    rw [judge_of_fence (by simp [Request.epoch?])]
    simp [rule, onSetEpoch, hb, he]
  | prepare he hb hr =>
    rw [judge_of_fence (by simp [Request.epoch?, he])]
    simp [rule, onPrepare, hb, Rank.not_some_le_iff.mpr hr]
  | propose he hb hp ha =>
    rw [judge_of_fence (by simp [Request.epoch?, he])]
    simp [rule, onPropose, hb, hp, ha]
  | committed he hb =>
    rw [judge_of_fence (by simp [Request.epoch?, he])]
    simp [rule, onCommitted, hb]

/-- What is granted is answered positively, and layout queries are not granted. -/
theorem isReject_of_grant (h : Grant s q t a) : a.isReject = false := by
  cases h <;> rfl

/-- A granted request that is stamped bears the epoch of the state. -/
theorem epoch_of_grant (h : Grant s q t a) : ∀ e ∈ q.epoch?, e = s.epoch := by
  cases h <;> simp_all [Request.epoch?]

/-- Before its first layout, a state is the initial one. -/
def Clean (s : State) : Prop := s.bootstrapped = false → s = .initial

theorem clean_initial : Clean .initial := fun _ => rfl

theorem bootstrapped_of_grant (h : Grant s q t a) : t.bootstrapped = true := by
  cases h <;> simp_all [advance]

theorem clean_grant (h : Grant s q t a) : Clean t := by
  intro hb
  simp [bootstrapped_of_grant h] at hb

theorem epoch_advance (s : State) (e : UInt64) :
    (s.advance e).epoch = if s.epoch ≤ e then e else s.epoch := rfl

theorem le_epoch_advance (s : State) (e : UInt64) : s.epoch ≤ (s.advance e).epoch := by
  rw [epoch_advance]
  split
  · assumption
  · exact Std.le_refl _

theorem le_epoch_advance_right (s : State) (e : UInt64) : e ≤ (s.advance e).epoch := by
  rw [epoch_advance]
  split
  · exact Std.le_refl _
  · exact Std.le_of_not_ge ‹_›

theorem lt_epoch_advance {e : UInt64} (h : s.epoch < e) : s.epoch < (s.advance e).epoch := by
  rw [epoch_advance, if_pos (Std.le_of_lt h)]
  exact h

/-- Bootstrapping puts the epoch to zero, but a clean state is there already. -/
theorem epoch_le_grant (hs : Clean s) (h : Grant s q t a) : s.epoch ≤ t.epoch := by
  cases h with
  | bootstrap hb =>
    obtain rfl := hs hb
    exact Std.le_refl _
  | setEpoch => exact le_epoch_advance s _
  | prepare => exact Std.le_refl _
  | propose => exact Std.le_refl _
  | committed => exact le_epoch_advance s _

end Synod.State
