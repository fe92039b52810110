import Synod.Proofs.Outbid
import Synod.Proofs.Reliable
import Synod.Proofs.Round

/-!
A proposer that nobody interferes with can finish a round, whatever was promised and accepted before.
If the sequence numbers have run out, it can in any later epoch.
-/
namespace Synod.Acceptor

variable {σ : Type}

section Finishes

variable [Store σ] {m : σ} {s : State} {r : Rank}

/-- The three requests of a proposer, one after the other, are answered positively, the promise tells
what was accepted before, and then the layout is the current one and a fresh round has begun. -/
def Finishes (a : Acceptor σ) (r : Rank) (l : Layout) (n : UInt64) : Prop :=
  ∃ b c d, a.handle (.prepare r n)
      = (.ok (.prepareAck a.state.acceptedRank a.state.acceptedLayout), b) ∧
    b.handle (.propose r l n) = (.ok .ack, c) ∧
    c.handle (.committed r l n) = (.ok .ack, d) ∧
    d.handle .getLayout = (.ok (.layout l (max n l.epoch)), d) ∧
    d.state.promised = none ∧ d.state.accepted = none

/-- It is enough to beat the promise: nothing is accepted above that, so the rank is a fresh one. -/
theorem finishes_of_lt (hm : Reliable m) (hb : s.bootstrapped = true)
    (hle : ∀ v ∈ s.accepted, ∃ p ∈ s.promised, v.rank ≤ p) (hr : ∀ p ∈ s.promised, p < r)
    (l : Layout) : Finishes ⟨s, m⟩ r l s.epoch := by
  have hfresh : s.acceptedRank ≠ some r := by
    intro he
    obtain ⟨v, hv, rfl⟩ := Option.map_eq_some_iff.mp he
    obtain ⟨p, hp, hvp⟩ := hle v hv
    exact Std.not_lt_of_ge hvp (hr p hp)
  let promising : State := { s with promised := some r }
  let voted : State := { promising with accepted := some ⟨r, l⟩ }
  obtain ⟨m₁, h₁, hm₁⟩ := handle_granted hm (.prepare rfl hb hr)
  obtain ⟨m₂, h₂, hm₂⟩ := handle_granted (s := promising) hm₁ (.propose rfl hb rfl hfresh)
  obtain ⟨m₃, h₃, _⟩ := handle_granted (s := voted) hm₂ (.committed (r := r) rfl hb)
  refine ⟨_, _, _, h₁, h₂, h₃, ?_, rfl, rfl⟩
  have htold : (Snapshot.of { voted.advance l.epoch with layout := some l }).respond
      = .layout l (max s.epoch l.epoch) := if_pos hb
  rw [handle_getLayout, htold]

end Finishes

variable {τ : Type} [StableStore σ] [Store τ] {a b : Acceptor σ} {es : List Event} {m : τ}

/-- In every bootstrapped state of a life that began in the initial state, if saves succeed, a proposer
finishes at the rank by which it beats the promise. There is no such rank only if the promise bears the
last sequence number; then any later epoch can be set, and the proposer finishes there at its first
rank. -/
theorem lone_proposer_finishes (ha : a.Fresh) (h : a.Run es b)
    (hb : b.state.bootstrapped = true) (hm : Reliable m) (p : ProposerId) (l : Layout) :
    (∀ r, Rank.above b.state.promised p = some r →
        Finishes ⟨b.state, m⟩ r l b.state.epoch) ∧
      (Rank.above b.state.promised p = none →
        (∃ x ∈ b.state.promised, x.sequence.toNat + 1 = UInt64.size) ∧
        ∀ n, b.state.epoch < n → ∃ c, handle ⟨b.state, m⟩ (.setEpoch n) = (.ok .ack, c) ∧
          Finishes c ⟨1, p⟩ l n) := by
  have hle := (recalls_history (run_history ha h).1).accepted_le
  constructor
  · intro r hr
    exact finishes_of_lt hm hb hle (Rank.lt_of_above hr) l
  · intro hnone
    obtain ⟨x, hx, hlast, _⟩ := Rank.above_eq_none hnone
    refine ⟨⟨x, hx, hlast⟩, fun n hn => ?_⟩
    obtain ⟨k, hset, hk⟩ := handle_granted hm (.setEpoch hb hn)
    have hepoch : (b.state.advance n).epoch = n := by
      rw [State.epoch_advance, if_pos (Std.le_of_lt hn)]
    have hfin := finishes_of_lt (s := b.state.advance n) (r := ⟨1, p⟩) hk hb
      (by simp [State.advance]) (by simp [State.advance]) l
    rw [hepoch] at hfin
    exact ⟨_, hset, hfin⟩

/-- The last sequence number has been promised and a layout accepted at it: the proposer after the one
that holds the promise still beats it, the one before needs another epoch. -/
theorem lone_proposer_finishes_at_last_sequence :
    let l : Layout := ⟨3, ["a"], [], []⟩
    let x : Rank := ⟨18446744073709551615, ⟨9⟩⟩
    let y : Rank := ⟨18446744073709551615, ⟨11⟩⟩
    let es : List Event := [.handled (.bootstrap l) (.ok .ack),
      .handled (.prepare x 0) (.ok (.prepareAck none none)), .handled (.propose x l 0) (.ok .ack)]
    ∃ b : Acceptor MemoryStore, Run ⟨.initial, {}⟩ es b ∧ b.state.accepted = some ⟨x, l⟩ ∧
      Finishes b y l 0 ∧ Rank.above b.state.promised ⟨7⟩ = none ∧
      ∃ c, b.handle (.setEpoch 1) = (.ok .ack, c) ∧ Finishes c ⟨1, ⟨7⟩⟩ l 1 := by
  intro l x y es
  let s : State := ⟨true, 0, some l, some x, some ⟨x, l⟩⟩
  have hrun : Run (⟨.initial, {}⟩ : Acceptor MemoryStore) es ⟨s, ⟨s, false, false⟩⟩ :=
    run_cons (.handled rfl rfl) <| run_cons (.handled rfl rfl) <| run_cons (.handled rfl rfl) .nil
  have hm := reliable_memory s false
  have hafter := (lone_proposer_finishes ⟨rfl, rfl⟩ hrun rfl hm ⟨11⟩ l).1 y (by decide)
  have hbefore := (lone_proposer_finishes ⟨rfl, rfl⟩ hrun rfl hm ⟨7⟩ l).2 (by decide)
  exact ⟨_, hrun, rfl, hafter, by decide, hbefore.2 1 (by decide)⟩

end Synod.Acceptor
