import Synod.Proofs.Round

/-!
What holds of an acceptor at every point of its life, and what it never takes back: the epoch, being
bootstrapped, and that a committed layout is of an epoch reached.
-/
namespace Synod

variable {s t : State} {es : List Event} {e x : Event} {q : Request} {a : Response}

namespace State

/-- A layout is there exactly if the state is bootstrapped. -/
def Furnished (s : State) : Prop := s.bootstrapped = true ↔ s.layout.isSome = true

theorem furnished_initial : Furnished .initial := by simp [Furnished, initial]

theorem furnished_grant (hs : s.Furnished) (h : Grant s q t a) : t.Furnished := by
  cases h with
  | bootstrap hb => simp [Furnished]
  | setEpoch hb he => exact hs
  | prepare he hb hr => exact hs
  | propose he hb hp ha => exact hs
  | committed he hb => simp [Furnished, advance, hb]

/-- A layout query is answered with a layout exactly if the state is bootstrapped. -/
theorem respond_eq_layout_iff (hs : s.Furnished) :
    (∃ l n, (Snapshot.of s).respond = .layout l n) ↔ s.bootstrapped = true := by
  cases hl : s.layout with
  | none =>
    have hb : s.bootstrapped = false := by simpa [Furnished, hl] using hs
    simp [Snapshot.respond, Snapshot.of, hl, hb]
  | some l =>
    have hb : s.bootstrapped = true := by simpa [Furnished, hl] using hs
    simp [Snapshot.respond, Snapshot.of, hl, hb]

/-- The epoch of the current layout has been reached. -/
def Reached (s : State) : Prop := ∀ l ∈ s.layout, l.epoch ≤ s.epoch

theorem reached_advance (s : State) (l : Layout) :
    Reached { s.advance l.epoch with layout := some l } := by
  rintro _ ⟨⟩
  exact le_epoch_advance_right s l.epoch

/-- Only bootstrapping brings a layout of an epoch not reached. -/
theorem reached_grant (hb : s.bootstrapped = true) (hs : s.Reached) (h : Grant s q t a) :
    t.Reached := by
  cases h with
  | bootstrap hn => simp [hb] at hn
  | setEpoch _ he => exact fun l hl => Std.le_trans (hs l hl) (le_epoch_advance s _)
  | prepare => exact hs
  | propose => exact hs
  | committed => exact reached_advance s _

end State

theorem bootstrapped_turn (hb : s.bootstrapped = true) (h : Turn s e t) : t.bootstrapped = true :=
  holds_turn (P := fun t => t.bootstrapped = true) h hb State.bootstrapped_of_grant

theorem furnished_history (h : History es s) : s.Furnished :=
  holds_history h State.furnished_initial State.furnished_grant

theorem bootstrapped_of_acked (h : History es s) (hx : x ∈ es) (ha : x.acked? = some q)
    (hq : q ≠ .getLayout) : s.bootstrapped = true := by
  refine history_since h hx (fun _ ht => ?_) fun _ hb ht => bootstrapped_turn hb ht
  obtain ⟨a, _, hg⟩ := turn_grant ht ha hq
  exact State.bootstrapped_of_grant hg

/-- Once a layout has been committed, the epoch of the current one has been reached. -/
theorem reached_of_committed {r : Rank} {l : Layout} {n : UInt64} (h : History es s)
    (hx : x ∈ es) (ha : x.acked? = some (.committed r l n)) : s.Reached := by
  refine (history_since (P := fun s => s.bootstrapped = true ∧ s.Reached) h hx
    (fun _ ht => ?_) fun _ hp ht => ?_).2
  · obtain ⟨a, _, hg⟩ := turn_grant ht ha (by simp)
    refine ⟨State.bootstrapped_of_grant hg, ?_⟩
    cases hg with
    | committed => exact State.reached_advance _ l
  · exact ⟨bootstrapped_turn hp.1 ht, holds_turn ht hp.2 (State.reached_grant hp.1 hp.2)⟩

namespace Acceptor

variable {σ : Type} [StableStore σ] {a b : Acceptor σ}

/-- At every point of a life that began in the initial state: before the first layout the state is
the initial one, a layout is there and is told exactly if the state is bootstrapped, nothing is
accepted above the promise, and since a layout was committed the epoch of the current one has been
reached. Whatever happens next, the epoch does not fall, and what is bootstrapped stays so. -/
theorem life_invariant (ha : a.Fresh) (h : a.Run es b) :
    (b.state.bootstrapped = false → b.state = .initial) ∧
      (b.state.bootstrapped = true ↔ b.state.layout.isSome = true) ∧
      (∃ r, b.handle .getLayout = (.ok r, b) ∧
        ((∃ l n, r = .layout l n) ↔ b.state.bootstrapped = true)) ∧
      (∀ v ∈ b.state.accepted, ∃ p ∈ b.state.promised, v.rank ≤ p) ∧
      ((∃ x ∈ es, ∃ r l n, x.acked? = some (.committed r l n)) →
        ∀ l ∈ b.state.layout, l.epoch ≤ b.state.epoch) ∧
      ∀ e c, b.Step e c → b.state.epoch ≤ c.state.epoch ∧
        (b.state.bootstrapped = true → c.state.bootstrapped = true) := by
  obtain ⟨hh, hs⟩ := run_history ha h
  have hclean := clean_history hh
  have hf := furnished_history hh
  refine ⟨hclean, hf, ⟨_, handle_getLayout b, State.respond_eq_layout_iff hf⟩,
    (recalls_history hh).accepted_le, ?_, ?_⟩
  · rintro ⟨x, hx, r, l, n, hc⟩
    exact reached_of_committed hh hx hc
  · intro e c he
    have ht := (step_turn hs he).1
    exact ⟨epoch_le_turn hclean ht, fun hb => bootstrapped_turn hb ht⟩

/-- The first layout is of an epoch not reached. A save fails, and the state is recovered before
another layout is committed. -/
theorem life_invariant_after_commit :
    let l : Layout := ⟨5, ["a"], [], []⟩
    let l' : Layout := ⟨1, ["b"], [], []⟩
    let r : Rank := ⟨1, ⟨7⟩⟩
    let e : StorageError := .io (.other "disk full")
    let es : List Event := [.handled (.bootstrap l) (.ok .ack),
      .handled (.prepare r 0) (.ok (.prepareAck none none)),
      .handled (.propose r l' 0) (.error e), .restarted, .handled (.propose r l' 0) (.ok .ack),
      .handled (.committed r l' 0) (.ok .ack)]
    ∃ b : Acceptor MemoryStore, Run ⟨.initial, {}⟩ es b ∧
      (∀ l ∈ b.state.layout, l.epoch ≤ b.state.epoch) ∧
      (∃ r, b.handle .getLayout = (.ok r, b) ∧
        ((∃ l n, r = .layout l n) ↔ b.state.bootstrapped = true)) ∧
      ∀ e c, b.Step e c → b.state.epoch ≤ c.state.epoch := by
  intro l l' r e es
  have hrun : ∃ b, Run (⟨.initial, {}⟩ : Acceptor MemoryStore) es b :=
    ⟨_, run_cons (.handled rfl rfl) <| run_cons (.handled rfl rfl) <|
      run_cons (.handled (m := ⟨⟨true, 0, some l, some r, none⟩, false, true⟩) rfl rfl) <|
      run_cons (.restarted (m := ⟨⟨true, 0, some l, some r, none⟩, false, false⟩) rfl rfl) <|
      run_cons (.handled rfl rfl) <| run_cons (.handled rfl rfl) .nil⟩
  obtain ⟨b, hb⟩ := hrun
  obtain ⟨_, _, hquery, _, hreached, hnext⟩ := life_invariant ⟨rfl, rfl⟩ hb
  have hmem : .handled (.committed r l' 0) (.ok .ack) ∈ es := by simp [es]
  exact ⟨b, hb, hreached ⟨_, hmem, r, l', 0, rfl⟩, hquery, fun e c he => (hnext e c he).1⟩

end Acceptor
end Synod
