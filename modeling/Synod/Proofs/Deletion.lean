import Mathlib.Data.List.Forall2
import Synod.Proofs.Replay

/-!
Requests that were rejected, that could not be saved or that asked for the layout may be left out of
a life: the others are answered as before, and lead to the same state.
-/
namespace Synod

namespace Event

/-- Whether nothing is granted. -/
def Idle (e : Event) : Prop := e.acked? = none ∨ e.acked? = some .getLayout

def request? : Event → Option Request
  | handled q _ => some q
  | restarted => none

/-- The outcome of the save, if there was one. -/
def saved? : Event → Option (Except StorageError Unit)
  | handled _ (.error e) => some (.error e)
  | handled q (.ok a) => if a.isReject ∨ q = .getLayout then none else some (.ok ())
  | restarted => none

end Event

/-- Leaves out some of the events that granted nothing. -/
inductive Abridges : List Event → List Event → Prop where
  | nil : Abridges [] []
  | keep {es fs : List Event} {e : Event} (h : Abridges es fs) : Abridges (es ++ [e]) (fs ++ [e])
  | drop {es fs : List Event} {e : Event} (h : Abridges es fs) (he : e.Idle) :
      Abridges (es ++ [e]) fs

/-- An event of the same request, where a save that was due in both had the same outcome. -/
structure Resembles (x y : Event) : Prop where
  request : y.request? = x.request?
  saved : ∀ w ∈ x.saved?, ∀ v ∈ y.saved?, v = w

variable {es fs gs : List Event} {e x y : Event}

theorem forall₂_snoc {α β : Type} {R : α → β → Prop} {xs : List α} {x : α} {ys : List β}
    (h : List.Forall₂ R (xs ++ [x]) ys) : ∃ zs z, ys = zs ++ [z] ∧ List.Forall₂ R xs zs ∧ R x z := by
  rw [← List.forall₂_reverse_iff, List.reverse_append] at h
  obtain ⟨z, zs, hz, hzs, hy⟩ := List.forall₂_cons_left_iff.mp h
  refine ⟨zs.reverse, z, ?_, ?_, hz⟩
  · rw [← List.reverse_reverse ys, hy, List.reverse_cons]
  · rwa [← List.forall₂_reverse_iff, List.reverse_reverse]

namespace Acceptor

variable {σ : Type} [StableStore σ] {a b c d : Acceptor σ}

/-- Acceptors that nobody can tell apart but by the order that their stores are in. -/
structure Alike (a b : Acceptor σ) : Prop where
  state : b.state = a.state
  held : StableStore.held b.store = StableStore.held a.store

theorem step_of_alike (h : Alike a b) (hs : Step a e c) : Step b e c := by
  obtain ⟨s, m⟩ := b
  obtain rfl : s = a.state := h.state
  cases hs with
  | handled hm hh => exact .handled (hm.trans h.held.symm) hh
  | restarted hm hr => exact .restarted (hm.trans h.held.symm) hr

/-- What handling a request comes to, told by the event. -/
theorem handled_cases {q : Request} {o : Except StorageError Response} (h : a.handle q = (o, b)) :
    (∃ r, a.state.judge q = .keep r ∧ o = .ok r ∧ b.state = a.state) ∨
      ∃ t r, a.state.judge q = .move t r ∧
        ((o = .ok r ∧ (Event.handled q o).saved? = some (.ok ()) ∧ b.state = t) ∨
          ∃ e, o = .error e ∧ (Event.handled q o).saved? = some (.error e) ∧ b.state = a.state) := by
  cases handled_of_eq h with
  | kept hj => exact Or.inl ⟨_, hj, rfl, rfl⟩
  | saved hg =>
    have hq : q ≠ .getLayout := by
      rintro rfl
      cases hg
    refine Or.inr ⟨_, _, State.judge_of_grant hg, Or.inl ⟨rfl, ?_, rfl⟩⟩
    simp [Event.saved?, State.isReject_of_grant hg, hq]
  | fault hg => exact Or.inr ⟨_, _, State.judge_of_grant hg, Or.inr ⟨_, rfl, rfl, rfl⟩⟩

theorem eq_of_resembles (ha : a.Settled) (hb : b.Settled) (hs : b.state = a.state)
    (hx : Step a x c) (hy : Step b y d) (h : Resembles x y) : y = x ∧ d.state = c.state := by
  cases hx with
  | @handled m q o _ _ hx =>
    cases hy with
    | @handled m' q' o' _ _ hy =>
      obtain rfl : q' = q := Option.some.inj h.request
      have hcx := handled_cases hx
      have hcy := handled_cases hy
      dsimp only at hcx hcy
      rw [hs] at hcy
      rcases hcx with ⟨r, hj, rfl, hc⟩ | ⟨t, r, hj, hcx⟩
      · rcases hcy with ⟨r', hj', rfl, hd⟩ | ⟨t', r', hj', _⟩
        · obtain rfl := Verdict.keep.inj (hj.symm.trans hj')
          exact ⟨rfl, hd.trans hc.symm⟩
        · cases hj.symm.trans hj'
      · rcases hcy with ⟨r', hj', _⟩ | ⟨t', r', hj', hcy⟩
        · cases hj.symm.trans hj'
        · -- A save was due in both, with the same outcome.
          obtain ⟨rfl, rfl⟩ := Verdict.move.inj (hj.symm.trans hj')
          rcases hcx with ⟨rfl, hw, hc⟩ | ⟨e, rfl, hw, hc⟩
          · rcases hcy with ⟨rfl, _, hd⟩ | ⟨e', rfl, hv, _⟩
            · exact ⟨rfl, hd.trans hc.symm⟩
            · cases h.saved _ hw _ hv
          · rcases hcy with ⟨rfl, hv, _⟩ | ⟨e', rfl, hv, hd⟩
            · cases h.saved _ hw _ hv
            · obtain rfl := Except.error.inj (h.saved _ hw _ hv)
              exact ⟨rfl, hd.trans hc.symm⟩
    | restarted => cases h.request
  | restarted hm hr =>
    cases hy with
    | handled => cases h.request
    | restarted hm' hr' =>
      refine ⟨rfl, ?_⟩
      rw [(recover_state hr').1, (recover_state hr).1, hm', hm, hb, ha, hs]

theorem alike_of_idle (ha : a.Settled) (he : e.Idle) (hs : Step a e b) : Alike a b := by
  obtain ⟨ht, hb⟩ := step_turn ha hs
  have hstate : b.state = a.state := by
    rcases turn_cases ht with ⟨_, h⟩ | ⟨q, r, _, hq, hg⟩
    · exact h
    · rcases he with he | he
      · simp [he] at hq
      · obtain rfl := Option.some.inj (he.symm.trans hq)
        cases hg
  exact ⟨hstate, hb.trans (hstate.trans ha.symm)⟩

theorem run_snoc (h : Run a (es ++ [e]) c) : ∃ b, Run a es b ∧ Step b e c := by
  generalize hx : es ++ [e] = xs at h
  cases h with
  | nil => simp at hx
  | snoc h he =>
    obtain ⟨rfl, hl⟩ := List.append_inj' hx rfl
    obtain rfl := (List.cons.inj hl).1
    exact ⟨_, h, he⟩

/-- What is left of a life is possible as it was. -/
theorem run_abridged (ha : a.Settled) (h : Run a es b) (hf : Abridges es fs) :
    ∃ c, Run a fs c ∧ Alike b c := by
  induction hf generalizing b with
  | nil =>
    obtain rfl := run_nil_iff.mp h
    exact ⟨b, .nil, rfl, rfl⟩
  | keep _ ih =>
    obtain ⟨b', hb', he⟩ := run_snoc h
    obtain ⟨c, hc, hl⟩ := ih hb'
    exact ⟨b, .snoc hc (step_of_alike hl he), rfl, rfl⟩
  | drop _ hi ih =>
    obtain ⟨b', hb', he⟩ := run_snoc h
    obtain ⟨c, hc, hl⟩ := ih hb'
    have hidle := alike_of_idle (settled_run ha hb') hi he
    exact ⟨c, hc, hl.state.trans hidle.state.symm, hl.held.trans hidle.held.symm⟩

/-- The same requests, with the same outcomes of their saves, are answered alike. -/
theorem run_resembles (ha : a.Settled) (h : Run a fs b) (hg : Run a gs c)
    (hr : List.Forall₂ Resembles fs gs) : gs = fs ∧ c.state = b.state := by
  induction h generalizing gs c with
  | nil =>
    obtain rfl := List.forall₂_nil_left_iff.mp hr
    obtain rfl := run_nil_iff.mp hg
    exact ⟨rfl, rfl⟩
  | snoc h he ih =>
    obtain ⟨zs, z, rfl, hzs, hz⟩ := forall₂_snoc hr
    obtain ⟨c', hc', hstep⟩ := run_snoc hg
    obtain ⟨rfl, hs⟩ := ih hc' hzs
    obtain ⟨rfl, hd⟩ := eq_of_resembles (settled_run ha h) (settled_run ha hc') hs he hstep hz
    exact ⟨rfl, hd⟩

/-- The state that a life leads to is told by the requests that were acked, of which at most one is a
bootstrap. If requests that were rejected, that could not be saved or that asked for the layout are
left out, what is left can happen as it did. And whenever its requests are handled, with the same
outcomes of their saves, they have the same answers and lead to the same state. -/
theorem state_of_acked (ha : a.Fresh) (h : a.Run es b) :
    b.state = .replay (acked es) ∧ (acked es).countP Request.isBootstrap ≤ 1 ∧
      ∀ fs, Abridges es fs → (∃ c, a.Run fs c ∧ c.state = b.state) ∧
        ∀ gs c, a.Run gs c → List.Forall₂ Resembles fs gs → gs = fs ∧ c.state = b.state := by
  have hh := (run_history ha h).1
  have hs := settled_of_fresh ha
  refine ⟨replay_history hh, bootstraps_history hh, fun fs hf => ?_⟩
  obtain ⟨c, hc, hl⟩ := run_abridged hs h hf
  refine ⟨⟨c, hc, hl.state⟩, fun gs d hd hr => ?_⟩
  obtain ⟨rfl, hds⟩ := run_resembles hs hc hd hr
  exact ⟨rfl, hds.trans hl.state⟩

/-- A save that failed, a request that was rejected and a query are left out of a life with a
restart in it. -/
theorem state_of_acked_with_failures :
    let l : Layout := ⟨0, ["a"], [], []⟩
    let l' : Layout := ⟨3, ["b"], [], []⟩
    let r : Rank := ⟨1, ⟨7⟩⟩
    let boot : Event := .handled (.bootstrap l) (.ok .ack)
    let epoch : Event := .handled (.setEpoch 2) (.ok .ack)
    let failed : Event := .handled (.prepare r 2) (.error (.io (.other "disk full")))
    let promise : Event := .handled (.prepare r 2) (.ok (.prepareAck none none))
    let rejected : Event := .handled (.prepare r 2) (.ok (.prepareReject (some r)))
    let query : Event := .handled .getLayout (.ok (.layout l 2))
    let vote : Event := .handled (.propose r l' 2) (.ok .ack)
    let es : List Event := [boot, epoch, failed, promise, rejected, .restarted, query, vote]
    let fs : List Event := [boot, epoch, promise, .restarted, vote]
    ∃ b : Acceptor MemoryStore, Run ⟨.initial, {}⟩ es b ∧
      b.state = ⟨true, 2, some l, some r, some ⟨r, l'⟩⟩ ∧ Abridges es fs ∧
      ∃ c, Run (⟨.initial, {}⟩ : Acceptor MemoryStore) fs c ∧ c.state = b.state := by
  intro l l' r boot epoch failed promise rejected query vote es fs
  have hrun : ∃ b, Run (⟨.initial, {}⟩ : Acceptor MemoryStore) es b :=
    ⟨_, run_cons (.handled rfl rfl) <| run_cons (.handled rfl rfl) <|
      run_cons (.handled (m := ⟨⟨true, 2, some l, none, none⟩, false, true⟩) rfl rfl) <|
      run_cons (.handled (m := ⟨⟨true, 2, some l, none, none⟩, false, false⟩) rfl rfl) <|
      run_cons (.handled rfl rfl) <| run_cons (.restarted rfl rfl) <|
      run_cons (.handled rfl rfl) <| run_cons (.handled rfl rfl) .nil⟩
  have h1 := (Abridges.nil.keep (e := boot)).keep (e := epoch)
  have h2 := (h1.drop (e := failed) (Or.inl rfl)).keep (e := promise)
  have h3 := (h2.drop (e := rejected) (Or.inl rfl)).keep (e := .restarted)
  have hf : Abridges es fs := (h3.drop (e := query) (Or.inr rfl)).keep (e := vote)
  obtain ⟨b, hb⟩ := hrun
  obtain ⟨hs, _, hall⟩ := state_of_acked ⟨rfl, rfl⟩ hb
  exact ⟨b, hb, hs, hf, (hall fs hf).1⟩

end Acceptor
end Synod
