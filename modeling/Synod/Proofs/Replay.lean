import Synod.Proofs.Epoch

/-!
A state is a matter of the requests that were answered positively: each field of it is told by the
list of them, whatever was rejected, failed or restarted in between.
-/
namespace Synod

variable {s t : State} {q : Request} {a : Response} {qs : List Request} {es : List Event}
  {e : Event}

namespace Request

def isBootstrap : Request → Bool
  | bootstrap _ => true
  | _ => false

/-- The layout that becomes the current one. -/
def installs? : Request → Option Layout
  | bootstrap l | committed _ l _ => some l
  | _ => none

end Request

/-- The state that requests lead to if all of them are granted. -/
def State.replay (qs : List Request) : State where
  bootstrapped := qs.any Request.isBootstrap
  epoch := (qs.filterMap Request.reaches?).foldl max 0
  layout := (qs.filterMap Request.installs?).getLast?
  promised := ((lastRound Request.resets qs).filterMap Request.promise?).maxOn? id
  accepted := ((lastRound Request.resets qs).filterMap Request.vote?).maxOn? Accepted.rank

/-- The requests that were answered positively. -/
def acked (es : List Event) : List Request := es.filterMap Event.acked?

theorem acked_snoc (es : List Event) (e : Event) :
    acked (es ++ [e]) = acked es ++ e.acked?.toList :=
  filterMap_snoc _ es e

section Maximum

variable {α : Type} {rank : α → Rank} {xs : List α} {o : Option α} {x : α}

theorem maxOn?_snoc (rank : α → Rank) (xs : List α) (o : Option α) :
    (xs ++ o.toList).maxOn? rank = Option.merge (maxOn rank) (xs.maxOn? rank) o := by
  rw [List.maxOn?_append]
  cases o <;> simp

theorem merge_some (h : ∀ y ∈ o, rank y < rank x) :
    Option.merge (maxOn rank) o (some x) = some x := by
  cases o with
  | none => rfl
  | some y => simp [maxOn_eq_right_of_lt (h y rfl)]

end Maximum

namespace State

/-- What one more request adds. -/
theorem replay_snoc (qs : List Request) (q : Request) :
    replay (qs ++ [q]) =
      { bootstrapped := (replay qs).bootstrapped || q.isBootstrap
        epoch := q.reaches?.elim (replay qs).epoch (max (replay qs).epoch)
        layout := q.installs?.or (replay qs).layout
        promised :=
          if q.resets then none else Option.merge (maxOn id) (replay qs).promised q.promise?
        accepted :=
          if q.resets then none
          else Option.merge (maxOn Accepted.rank) (replay qs).accepted q.vote? } := by
  simp only [replay, lastRound_snoc, filterMap_snoc, List.any_append, List.foldl_append]
  congr 1
  · simp
  · cases q.reaches? <;> rfl
  · cases q.installs? <;> simp
  · split
    · rfl
    · rw [filterMap_snoc, maxOn?_snoc]
  · split
    · rfl
    · rw [filterMap_snoc, maxOn?_snoc]

theorem replay_getLayout (qs : List Request) : replay (qs ++ [.getLayout]) = replay qs := by
  rw [replay_snoc]
  simp [Request.isBootstrap, Request.reaches?, Request.installs?]

/-- A granted request adds to the state what it adds to the list. Only a state that is bootstrapped
has anything to lose, and nothing is accepted above the promise. -/
theorem replay_grant (hs : s.Clean) (hle : ∀ v ∈ s.accepted, ∃ p ∈ s.promised, v.rank ≤ p)
    (h : Grant s q t a) (hq : s = replay qs) : t = replay (qs ++ [q]) := by
  rw [replay_snoc, ← hq]
  cases h with
  | bootstrap hb =>
    obtain rfl := hs hb
    rfl
  | setEpoch hb he =>
    simp [advance, hb, Request.isBootstrap, Request.reaches?, Request.installs?]
  | prepare he hb hr =>
    have hmax : Option.merge (maxOn id) s.promised (some _) = some _ := merge_some hr
    simp [hb, hmax, Request.isBootstrap, Request.reaches?, Request.installs?]
  | @propose r l n he hb hp ha =>
    have hlt : ∀ v ∈ s.accepted, v.rank < r := by
      intro v hv
      obtain ⟨p, hp', hvp⟩ := hle v hv
      obtain rfl := Option.some.inj (hp.symm.trans hp')
      refine Std.lt_of_le_of_ne hvp fun hne => ha ?_
      rw [acceptedRank, hv, ← hne]
      rfl
    have hmax : Option.merge (maxOn Accepted.rank) s.accepted (some ⟨r, l⟩) = some ⟨r, l⟩ :=
      merge_some hlt
    simp [hb, hmax, Request.isBootstrap, Request.reaches?, Request.installs?]
  | committed he hb =>
    simp [advance, hb, Request.isBootstrap, Request.reaches?, Request.installs?]

end State

/-- A state is told by the requests that were acked. -/
theorem replay_history (h : History es s) : s = .replay (acked es) := by
  induction h with
  | nil => rfl
  | snoc h he ih =>
    rw [acked_snoc]
    rcases turn_cases he with ⟨hn | hn, rfl⟩ | ⟨q, a, _, ha, hg⟩
    · simpa [hn] using ih
    · rw [hn, Option.toList_some, State.replay_getLayout]
      exact ih
    · rw [ha, Option.toList_some]
      exact State.replay_grant (clean_history h) (recalls_history h).accepted_le hg ih

/-- A node is bootstrapped once. -/
theorem bootstraps_history (h : History es s) : (acked es).countP Request.isBootstrap ≤ 1 := by
  induction h with
  | nil => simp [acked]
  | @snoc es e s t h he ih =>
    rw [acked_snoc, List.countP_append]
    rcases turn_cases he with ⟨hn | hn, _⟩ | ⟨q, a, _, ha, hg⟩
    · simpa [hn] using ih
    · simpa [hn, Request.isBootstrap] using ih
    · rw [ha, Option.toList_some]
      cases hg with
      | bootstrap hb =>
        -- It is granted only to a state that tells of none before.
        rw [replay_history h] at hb
        have hnone : ∀ q ∈ acked es, ¬ q.isBootstrap = true := by
          simpa [State.replay] using hb
        rw [List.countP_eq_zero.mpr hnone]
        simp [Request.isBootstrap]
      | _ => simpa [Request.isBootstrap] using ih

end Synod
