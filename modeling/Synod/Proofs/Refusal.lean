import Synod.Proofs.Grant

/-!
The requests that the rules refuse, each with the answer it is given. What is neither refused nor a
layout query is granted.
-/
namespace Synod.State

variable {s t : State} {q : Request} {a : Response}

/-- The requests that are refused. The fence comes first: the others are not stamped, or they are
stamped with the epoch of the state. -/
inductive Refused (s : State) : Request → Response → Prop where
  | fenced {q : Request} {e : UInt64} (hq : q.epoch? = some e) (he : e ≠ s.epoch) :
      Refused s q (.wrongEpoch s.epoch)
  | unbootstrapped {q : Request} (hf : ∀ e ∈ q.epoch?, e = s.epoch) (hb : s.bootstrapped = false)
      (hl : ∀ l, q ≠ .bootstrap l) (hq : q ≠ .getLayout) : Refused s q .noBootstrap
  | bootstrapped {l : Layout} (hb : s.bootstrapped = true) :
      Refused s (.bootstrap l) .alreadyBootstrapped
  | reached {e : UInt64} (hb : s.bootstrapped = true) (he : e ≤ s.epoch) :
      Refused s (.setEpoch e) (.wrongEpoch s.epoch)
  | notAbove {r : Rank} (hb : s.bootstrapped = true) (hr : some r ≤ s.promised) :
      Refused s (.prepare r s.epoch) (.prepareReject s.promised)
  | notPromised {r : Rank} {l : Layout} (hb : s.bootstrapped = true) (hr : s.promised ≠ some r) :
      Refused s (.propose r l s.epoch) (.proposeReject s.promised s.acceptedRank)
  | accepted {r : Rank} {l : Layout} (hb : s.bootstrapped = true) (hr : s.acceptedRank = some r) :
      Refused s (.propose r l s.epoch) (.proposeReject s.promised s.acceptedRank)

theorem isReject_of_refused (h : Refused s q a) : a.isReject = true := by
  cases h <;> rfl

theorem judge_getLayout (s : State) : s.judge .getLayout = .keep (Snapshot.of s).respond := rfl

theorem judge_of_refused (h : Refused s q a) : s.judge q = .keep a := by
  cases h with
  | fenced hq he => simp [judge, fence, hq, he]
  | unbootstrapped hf hb hl hq =>
    rw [judge_of_fence hf]
    cases q with
    | bootstrap l => exact absurd rfl (hl l)
    | getLayout => exact absurd rfl hq
    | setEpoch e => simp [rule, onSetEpoch, hb]
    | prepare r e => simp [rule, onPrepare, hb]
    | propose r l e => simp [rule, onPropose, hb]
    | committed r l e => simp [rule, onCommitted, hb]
  | bootstrapped hb =>
    rw [judge_of_fence (by simp [Request.epoch?])]
    simp [rule, onBootstrap, hb]
  | reached hb he =>
    rw [judge_of_fence (by simp [Request.epoch?])]
    simp [rule, onSetEpoch, hb, he]
  | notAbove hb hr =>
    rw [judge_of_fence (by simp [Request.epoch?])]
    simp [rule, onPrepare, hb, hr]
  | notPromised hb hr =>
    rw [judge_of_fence (by simp [Request.epoch?])]
    simp [rule, onPropose, hb, hr]
  | accepted hb hr =>
    rw [judge_of_fence (by simp [Request.epoch?])]
    simp [rule, onPropose, hb, hr]

/-- What is answered with nothing to be saved. -/
theorem judge_of_told (h : Refused s q a ∨ q = .getLayout ∧ a = (Snapshot.of s).respond) :
    s.judge q = .keep a := by
  rcases h with h | ⟨rfl, rfl⟩
  · exact judge_of_refused h
  · exact judge_getLayout s

theorem ack_of_grant (h : Grant s q t a) : a = .ack ∨ ∃ p l, a = .prepareAck p l := by
  cases h with
  | prepare => exact Or.inr ⟨_, _, rfl⟩
  | _ => exact Or.inl rfl

/-- Every request but a layout query is refused or granted. -/
theorem refused_or_grant (s : State) (hq : q ≠ .getLayout) :
    (∃ a, Refused s q a) ∨ ∃ t a, Grant s q t a := by
  by_cases hf : ∀ e ∈ q.epoch?, e = s.epoch
  · cases hb : s.bootstrapped with
    | false =>
      cases q with
      | bootstrap l => exact Or.inr ⟨_, _, .bootstrap hb⟩
      | getLayout => exact absurd rfl hq
      | _ => exact Or.inl ⟨_, .unbootstrapped hf hb (by simp) hq⟩
    | true =>
      cases q with
      | bootstrap l => exact Or.inl ⟨_, .bootstrapped hb⟩
      | getLayout => exact absurd rfl hq
      | setEpoch e =>
        by_cases h : e ≤ s.epoch
        · exact Or.inl ⟨_, .reached hb h⟩
        · exact Or.inr ⟨_, _, .setEpoch hb (UInt64.not_le.mp h)⟩
      | prepare r e =>
        obtain rfl := hf e rfl
        by_cases h : some r ≤ s.promised
        · exact Or.inl ⟨_, .notAbove hb h⟩
        · exact Or.inr ⟨_, _, .prepare rfl hb (Rank.not_some_le_iff.mp h)⟩
      | propose r l e =>
        obtain rfl := hf e rfl
        by_cases hp : s.promised = some r
        · by_cases ha : s.acceptedRank = some r
          · exact Or.inl ⟨_, .accepted hb ha⟩
          · exact Or.inr ⟨_, _, .propose rfl hb hp ha⟩
        · exact Or.inl ⟨_, .notPromised hb hp⟩
      | committed r l e => exact Or.inr ⟨_, _, .committed (hf e rfl) hb⟩
  · obtain ⟨e, hn⟩ := Classical.not_forall.mp hf
    obtain ⟨he, hne⟩ := Classical.not_imp.mp hn
    exact Or.inl ⟨_, .fenced he hne⟩

theorem refused_of_judge (hq : q ≠ .getLayout) (h : s.judge q = .keep a) : s.Refused q a := by
  rcases refused_or_grant s hq with ⟨b, hb⟩ | ⟨t, b, hg⟩
  · rw [judge_of_refused hb] at h
    exact Verdict.keep.inj h ▸ hb
  · rw [judge_of_grant hg] at h
    cases h

/-- A request that moves no state is rejected, layout queries apart. -/
inductive Kept (s : State) : Request → Response → Prop where
  | query : Kept s .getLayout (Snapshot.of s).respond
  | reject {q : Request} {a : Response} (ha : a.isReject = true) : Kept s q a

/-- Either the rules keep the state, or they grant the request. -/
theorem judge_cases (s : State) (q : Request) :
    (∃ a, s.judge q = .keep a ∧ Kept s q a) ∨ ∃ t a, Grant s q t a := by
  by_cases hq : q = .getLayout
  · subst hq
    exact Or.inl ⟨_, judge_getLayout s, .query⟩
  · rcases refused_or_grant s hq with ⟨a, ha⟩ | hg
    · exact Or.inl ⟨a, judge_of_refused ha, .reject (isReject_of_refused ha)⟩
    · exact Or.inr hg

theorem judge_eq_move_iff : s.judge q = .move t a ↔ Grant s q t a := by
  refine ⟨fun h => ?_, judge_of_grant⟩
  rcases judge_cases s q with ⟨b, hk, _⟩ | ⟨u, b, hg⟩
  · simp [hk] at h
  · have hm := judge_of_grant hg
    simp only [hm, Verdict.move.injEq] at h
    obtain ⟨rfl, rfl⟩ := h
    exact hg

end Synod.State
