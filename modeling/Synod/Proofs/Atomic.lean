import Synod.Proofs.History

/-!
All or nothing: a request is answered from the state as it is, or the next state is saved as a whole
and then answered, or the save fails and nothing is changed.
-/
namespace Synod

/-- A store that notes what is to be saved in it. -/
structure Logged (σ : Type) where
  store : σ
  /-- The states of the saves attempted, whether or not they succeeded. -/
  attempts : List State

namespace Logged

variable {σ : Type}

instance [Store σ] : Store (Logged σ) where
  load l := Store.load l.store
  save s l :=
    let (outcome, store) := Store.save s l.store
    (outcome, ⟨store, l.attempts ++ [s]⟩)

theorem save_eq [Store σ] (s : State) (l : Logged σ) :
    Store.save s l = ((Store.save s l.store).1, ⟨(Store.save s l.store).2, l.attempts ++ [s]⟩) :=
  rfl

instance [StableStore σ] : StableStore (Logged σ) where
  held l := StableStore.held l.store
  held_of_load h := StableStore.held_of_load h
  held_of_save {l m s} h := by
    obtain ⟨ho, rfl⟩ := Prod.mk.inj h
    exact StableStore.held_of_save (Prod.ext ho rfl)
  held_of_fault {l m s e} h := by
    obtain ⟨ho, rfl⟩ := Prod.mk.inj h
    exact StableStore.held_of_fault (Prod.ext ho rfl)

end Logged

namespace Acceptor

variable {σ : Type} {q : Request} {r : Response} {t : State}

/-- Whoever is rejected has changed nothing. -/
theorem eq_of_isReject [Store σ] {a b : Acceptor σ} (h : a.handle q = (.ok r, b))
    (hr : r.isReject = true) : b = a := by
  cases handled_of_eq h with
  | kept => rfl
  | saved hg =>
    rw [State.isReject_of_grant hg] at hr
    cases hr

/-- The acceptor over the store itself. -/
def unlogged (a : Acceptor (Logged σ)) : Acceptor σ := ⟨a.state, a.store.store⟩

/-- What is noted changes nothing. -/
theorem handle_unlogged [Store σ] (a : Acceptor (Logged σ)) (q : Request) :
    a.unlogged.handle q = ((a.handle q).1, (a.handle q).2.unlogged) := by
  cases hj : a.state.judge q with
  | keep r =>
    rw [handle_keep hj, handle_keep (a := a.unlogged) hj]
  | move t r =>
    have hs := Logged.save_eq t a.store
    cases h : Store.save t a.store.store with
    | mk o m =>
    rw [h] at hs
    cases o with
    | ok =>
      rw [handle_saved hj hs, handle_saved (a := a.unlogged) hj h]
      rfl
    | error e =>
      rw [handle_fault hj hs, handle_fault (a := a.unlogged) hj h]
      rfl

variable [StableStore σ] {a b : Acceptor (Logged σ)} {es : List Event}

/-- One save is attempted, of one state. If it succeeds, this is the state from then on, and the
answer is given; if it fails, so does the request, and the state is the one before. -/
structure SavesOnce (a : Acceptor (Logged σ)) (q : Request) (t : State) (r : Response) : Prop where
  attempts : (a.handle q).2.store.attempts = a.store.attempts ++ [t]
  saved : (Store.save t a.store).1 = .ok () → (a.handle q).1 = .ok r ∧
    (a.handle q).2.state = t ∧ StableStore.held (a.handle q).2.store = t
  fault : ∀ e, (Store.save t a.store).1 = .error e → (a.handle q).1 = .error e ∧
    (a.handle q).2.state = a.state ∧
      StableStore.held (a.handle q).2.store = StableStore.held a.store

theorem savesOnce (hj : a.state.judge q = .move t r) : a.SavesOnce q t r := by
  have hs := Logged.save_eq t a.store
  cases h : Store.save t a.store.store with
  | mk o m =>
  rw [h] at hs
  cases o with
  | ok =>
    have hh := handle_saved hj hs
    refine ⟨by rw [hh], fun _ => ?_, fun e he => ?_⟩
    · rw [hh]
      exact ⟨rfl, rfl, StableStore.held_of_save hs⟩
    · rw [hs] at he
      cases he
  | error e =>
    have hh := handle_fault hj hs
    refine ⟨by rw [hh], fun hok => ?_, fun e' he => ?_⟩
    · rw [hs] at hok
      cases hok
    · rw [hs] at he
      obtain rfl := Except.error.inj he
      rw [hh]
      exact ⟨rfl, rfl, StableStore.held_of_fault hs⟩

/-- At every point of a life that began in the initial state, what an acceptor remembers is what its
store loads. In whatever order the store is then, a request that is refused, or a layout query, is
answered with no save attempted and nothing changed. Any other request attempts one save, of the
whole next state; if that fails, the state and the store are as before. -/
theorem all_or_nothing (ha : a.Fresh) (h : a.Run es b) :
    (StableStore.held b.store = b.state ∧ ∀ s, Store.load b.store = .ok s → s = b.state) ∧
      ∀ (q : Request) (m : Logged σ),
        (∀ r, b.state.Refused q r ∨ q = .getLayout ∧ r = (Snapshot.of b.state).respond →
          handle ⟨b.state, m⟩ q = (.ok r, ⟨b.state, m⟩)) ∧
        (q ≠ .getLayout → (∀ r, ¬ b.state.Refused q r) → ∃ t r, b.state.Grant q t r ∧
          (r = .ack ∨ ∃ p l, r = .prepareAck p l) ∧ SavesOnce ⟨b.state, m⟩ q t r) ∧
        (∀ r c, handle ⟨b.state, m⟩ q = (.ok r, c) → r.isReject = true → c = ⟨b.state, m⟩) ∧
        handle ⟨b.state, m.store⟩ q
          = ((handle ⟨b.state, m⟩ q).1, (handle ⟨b.state, m⟩ q).2.unlogged) := by
  have hs : b.Settled := (run_history ha h).2
  refine ⟨⟨hs, fun s hl => (StableStore.held_of_load hl).symm.trans hs⟩, fun q m => ⟨?_, ?_, ?_, ?_⟩⟩
  · intro r hr
    exact handle_keep (a := ⟨b.state, m⟩) (State.judge_of_told hr)
  · intro hq hn
    rcases b.state.refused_or_grant hq with ⟨r, hr⟩ | ⟨t, r, hg⟩
    · exact absurd hr (hn r)
    · exact ⟨t, r, hg, State.ack_of_grant hg, savesOnce (State.judge_of_grant hg)⟩
  · intro r c hc hr
    exact eq_of_isReject hc hr
  · exact handle_unlogged ⟨b.state, m⟩ q

/-- A promise whose save failed before a restart, asked for again while saves fail. -/
theorem all_or_nothing_while_failing :
    let l : Layout := ⟨0, ["a"], [], []⟩
    let r : Rank := ⟨1, ⟨7⟩⟩
    let e : StorageError := .io (.other "disk full")
    let es : List Event := [.handled (.bootstrap l) (.ok .ack), .handled (.prepare r 0) (.error e),
      .restarted]
    let broken : Logged MemoryStore := ⟨⟨⟨true, 0, some l, none, none⟩, false, true⟩, []⟩
    ∃ b : Acceptor (Logged MemoryStore), Run ⟨.initial, ⟨{}, []⟩⟩ es b ∧
      StableStore.held b.store = b.state ∧
      handle ⟨b.state, broken⟩ (.bootstrap l) = (.ok .alreadyBootstrapped, ⟨b.state, broken⟩) ∧
      ∃ t c, handle ⟨b.state, broken⟩ (.prepare r 0) = (.error e, c) ∧ c.store.attempts = [t] ∧
        t.promised = some r ∧ c.state = b.state ∧ StableStore.held c.store = b.state := by
  intro l r e es broken
  let holding : State := ⟨true, 0, some l, none, none⟩
  have hrun : Run (⟨.initial, ⟨{}, []⟩⟩ : Acceptor (Logged MemoryStore)) es ⟨holding, broken⟩ :=
    run_cons (.handled rfl rfl) <| run_cons (.handled (m := broken) rfl rfl) <|
      run_cons (.restarted (m := broken) rfl rfl) .nil
  obtain ⟨⟨hs, _⟩, hall⟩ := all_or_nothing ⟨rfl, rfl⟩ hrun
  refine ⟨_, hrun, hs, (hall _ broken).1 _ (Or.inl (.bootstrapped rfl)), ?_⟩
  have hg : holding.Grant (.prepare r 0) { holding with promised := some r } _ :=
    .prepare rfl rfl (by simp [holding])
  have hn : ∀ a, ¬ holding.Refused (.prepare r 0) a := by
    intro a ha
    cases (State.judge_of_grant hg).symm.trans (State.judge_of_refused ha)
  obtain ⟨t, a, ht, _, hsave⟩ := (hall (.prepare r 0) broken).2.1 (by simp) hn
  obtain ⟨rfl, rfl⟩ := Verdict.move.inj ((State.judge_of_grant hg).symm.trans (State.judge_of_grant ht))
  obtain ⟨ho, hc, hheld⟩ := hsave.fault e rfl
  exact ⟨_, _, Prod.ext ho rfl, hsave.attempts, rfl, hc, hheld⟩

end Acceptor
end Synod
