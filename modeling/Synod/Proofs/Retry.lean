import Synod.Proofs.Bench
import Synod.Proofs.Reliable

/-!
Retries of a session among nodes. A node that turned the session down, and was left alone since, grants
what the session asks of it next at a retry.
-/
namespace Synod

/-- Whether a proposer was turned down by the promise of a node. -/
inductive Response.Outranked : Response → Prop where
  | prepare {promised : Option Rank} : Outranked (.prepareReject promised)
  | propose {promised accepted : Option Rank} : Outranked (.proposeReject promised accepted)

namespace State

variable {s : State} {q : Request} {r : Response} {x : Rank}

/-- A node turns a proposer down only if it is bootstrapped, and tells what it has promised. -/
theorem told_of_refused (h : s.Refused q r) (hr : r.Outranked) :
    s.bootstrapped = true ∧ ∀ x ∈ s.promised, x ∈ r.ranks := by
  cases h with
  | notAbove hb => exact ⟨hb, fun x hx => Option.mem_toList.mpr hx⟩
  | notPromised hb =>
    exact ⟨hb, fun x hx => List.mem_append_left _ (Option.mem_toList.mpr hx)⟩
  | accepted hb =>
    exact ⟨hb, fun x hx => List.mem_append_left _ (Option.mem_toList.mpr hx)⟩
  | _ => cases hr

end State

namespace Node

variable {σ : Type} [Store σ] {n m : Node σ} {q : Request} {r : Response}

/-- The refusal of a proposer leaves a node as it was. -/
theorem answer_outranked (h : n.answer q = (.ok r, m)) (hr : r.Outranked) :
    m.acceptor = n.acceptor ∧ n.acceptor.state.Refused q r := by
  by_cases hq : q = .getLayout
  · subst hq
    obtain ⟨ha, rfl⟩ := Prod.mk.inj h
    have hout : n.published.respond.Outranked := Except.ok.inj ha ▸ hr
    unfold Snapshot.respond at hout
    split at hout
    · split at hout <;> cases hout
    · cases hout
  · cases hh : n.acceptor.handle q with
    | mk o b =>
    obtain ⟨ho, rfl⟩ := Prod.mk.inj ((answer_eq hq hh).symm.trans h)
    obtain rfl := eq_of_reply ho
    cases Acceptor.handled_of_eq hh with
    | kept hj => exact ⟨rfl, State.refused_of_judge hq hj⟩
    | saved hg => rcases State.ack_of_grant hg with rfl | ⟨p, l, rfl⟩ <;> cases hr

/-- A working node grants every rank above its promise. -/
theorem answer_prepare (hb : n.acceptor.state.bootstrapped = true)
    (hm : Reliable n.acceptor.store) {x : Rank} (hx : ∀ y ∈ n.acceptor.state.promised, y < x) :
    (n.answer (.prepare x n.acceptor.state.epoch)).1 =
      .ok (.prepareAck n.acceptor.state.acceptedRank n.acceptor.state.acceptedLayout) := by
  obtain ⟨k, hk, _⟩ := Acceptor.handle_granted hm (.prepare rfl hb hx)
  rw [answer_eq (n := n) (by simp) hk]
  rfl

end Node

namespace Shell

/-- Among the ranks that a session was told are those of each answer that it got. -/
theorem mem_ranks_of_met {ι : Type} {es fs : List (Scene ι)} {i : ι} {q : Request} {r : Response}
    {x : Rank} (hx : x ∈ r.ranks) : x ∈ ranks (deeds (es ++ .met i q (.ok r) :: fs)) := by
  refine List.mem_flatMap.mpr ⟨.asked q (.ok r), ?_, List.mem_append_right _ hx⟩
  exact List.mem_filterMap.mpr ⟨.met i q (.ok r), by simp, rfl⟩

namespace World

variable {ι σ : Type} [DecidableEq ι] [Store σ] {w v u : World ι σ} {es fs : List (Scene ι)} {i : ι}
  {q : Request} {r : Response}

/-- A node that turned the session down, and that nothing happened to since, is bootstrapped, and what
it has promised was told. -/
theorem told_of_met (h : Step w (.met i q (.ok r)) v) (hr : r.Outranked) (hf : Run v fs u)
    (hi : ∀ e ∈ fs, e.node? ≠ some i) : (u.node i).acceptor.state.bootstrapped = true ∧
      ∀ x ∈ (u.node i).acceptor.state.promised, x ∈ r.ranks := by
  cases h with
  | @met _ _ _ t reply n hs hn ho =>
    obtain rfl := ho r rfl
    obtain ⟨hsame, hrefused⟩ := Node.answer_outranked hn hr
    have hnode : u.node i = n := (node_of_run hf hi).trans (Function.update_self i n w.node)
    rw [hnode, hsame]
    exact State.told_of_refused hrefused hr

section Proposer

variable {p : ProposerId} {node : ι → Node σ}

/-- What a session remembers that began without any rank. -/
theorem top_of_run (h : Run ⟨{ proposer := p }, node⟩ es w) :
    w.session.proposer = p ∧ IsTop id (ranks (deeds es)) w.session.seen :=
  Session.top_run (run_deeds h)

theorem retries_of_run (h : Run ⟨{ proposer := p }, node⟩ es w)
    (hc : w.session.connection.isSome = true) (load : String → Except LoadError Layout) (n : UInt64) :
    Session.Retries (ranks (deeds es)) w.session n (w.session.turn load (.retry n)) := by
  rw [Session.turn_retry hc]
  exact Session.retries_request (top_of_run h).2 n

theorem granted_of_met (h : Run ⟨{ proposer := p }, node⟩ es w) (hm : Step w (.met i q (.ok r)) v)
    (hr : r.Outranked) (hf : Run v fs u) (hi : ∀ e ∈ fs, e.node? ≠ some i)
    (hw : Reliable (u.node i).acceptor.store) (hc : u.session.connection.isSome = true)
    (load : String → Except LoadError Layout) :
    let n := (u.node i).acceptor.state.epoch
    (u.session.turn load (.retry n)).1 = .say [u.session.exhaustion] ∨
      ∃ lines x k l, (u.session.turn load (.retry n)).1 = .ask lines (.prepare x n) ∧
        ((u.node i).answer (.prepare x n)).1 = .ok (.prepareAck k l) := by
  intro n
  obtain ⟨hb, hpromised⟩ := told_of_met hm hr hf hi
  have hrun : Run ⟨{ proposer := p }, node⟩ (es ++ .met i q (.ok r) :: fs) u := by
    rw [List.append_cons]
    exact run_append (.snoc h hm) hf
  generalize hturn : u.session.turn load (.retry n) = a
  cases hturn ▸ retries_of_run hrun hc load n with
  | @preparing x hp hlt =>
    have hx : ∀ y ∈ (u.node i).acceptor.state.promised, y < x := fun y hy =>
      hlt y (mem_ranks_of_met (hpromised y hy))
    exact Or.inr ⟨_, x, _, _, rfl, Node.answer_prepare hb hw hx⟩
  | exhausted => exact Or.inl rfl

end Proposer

/-- A session of a proposer, whatever the nodes and others answer and whichever connections fail; every
session of the shell is one. What it remembers is the highest rank that it has sent in a first phase or
been told of, and never decreases. A retry is at the least rank of the proposer above all of those; it
has none only if no rank of the proposer is above the one remembered. Once a node turned the session
down by its promise and was left alone since, it grants a retry in its epoch if its store works. -/
theorem retry_law (p : ProposerId) (node : ι → Node σ) :
    (∀ (b : Drill.Bench) port input absent, b.session = { proposer := p } →
        ∃ es, Run ⟨{ proposer := p }, b.node absent⟩ es
          ⟨(b.run port input).2.session, (b.run port input).2.node absent⟩) ∧
      ∀ es w, Run ⟨{ proposer := p }, node⟩ es w →
        (w.session.proposer = p ∧ IsTop id (ranks (deeds es)) w.session.seen) ∧
        (∀ fs v, Run w fs v → w.session.seen ≤ v.session.seen) ∧
        (w.session.connection.isSome = true → ∀ load n,
          Session.Retries (ranks (deeds es)) w.session n (w.session.turn load (.retry n))) ∧
        ∀ i q r v fs u, Step w (.met i q (.ok r)) v → r.Outranked → Run v fs u →
          (∀ e ∈ fs, e.node? ≠ some i) → Reliable (u.node i).acceptor.store →
          u.session.connection.isSome = true → ∀ load,
            let n := (u.node i).acceptor.state.epoch
            (u.session.turn load (.retry n)).1 = .say [u.session.exhaustion] ∨
              ∃ lines x k l, (u.session.turn load (.retry n)).1 = .ask lines (.prepare x n) ∧
                ((u.node i).answer (.prepare x n)).1 = .ok (.prepareAck k l) := by
  constructor
  · intro b port input absent hb
    rw [← hb]
    exact Drill.Bench.world_run (by rw [hb]) port input absent
  · intro es w h
    refine ⟨top_of_run h, fun fs v hf => Session.seen_le_run (run_deeds hf), retries_of_run h, ?_⟩
    intro i q r v fs u hm hr hf hi hw hc load
    exact granted_of_met h hm hr hf hi hw hc load

/-- Another proposer holds the promise. While the session waits, the other node changes. -/
theorem retry_law_after_rejection :
    let x : Rank := ⟨7, ⟨9⟩⟩
    let s : State := ⟨true, 0, some (.single "a"), some x, none⟩
    let node : Bool → Node MemoryStore := fun _ => .ofAcceptor ⟨s, s, false, false⟩
    let q : Request := .prepare ⟨3, ⟨4⟩⟩ 0
    ∃ w v u, Run ⟨{ proposer := ⟨4⟩ }, node⟩ [.apart (.dialled 1 (.ok ()))] w ∧
      Step w (.met true q (.ok (.prepareReject (some x)))) v ∧ Run v [.elsewhere false] u ∧
      ∀ load, ∃ lines y k l, (u.session.turn load (.retry 0)).1 = .ask lines (.prepare y 0) ∧
        ((u.node true).answer (.prepare y 0)).1 = .ok (.prepareAck k l) := by
  intro x s node q
  let load : String → Except LoadError Layout := fun _ => .ok default
  let a : Session := { proposer := ⟨4⟩ }
  let b : Session := { a with connection := some 1 }
  let c : Session := { b with seen := some ⟨3, ⟨4⟩⟩ }
  have hdial : a.turn load (.connect 1) = (.dial 1, a) := rfl
  have hask : b.turn load (.prepare 3 0) = (.ask [] q, c) := rfl
  have hw : Run ⟨a, node⟩ [.apart (.dialled 1 (.ok ()))] ⟨b, node⟩ :=
    .snoc .nil (.apart (.dialled hdial (.ok ())))
  let v : World Bool MemoryStore := ⟨{ b with seen := some x }, Function.update node true (node true)⟩
  have hv : Step ⟨b, node⟩ (.met true q (.ok (.prepareReject (some x)))) v :=
    .met (n := node true) (.asked hask (.ok (.prepareReject (some x)))) rfl
      fun r hr => Except.ok.inj hr ▸ rfl
  have hu : Run v [.elsewhere false] _ := .snoc .nil (.elsewhere (node true))
  refine ⟨_, _, _, hw, hv, hu, fun load => ?_⟩
  have hlaw := ((retry_law ⟨4⟩ node).2 _ _ hw).2.2.2 _ _ _ _ _ _ hv .prepare hu
    (by simp [Scene.node?]) (reliable_memory s false) rfl load
  exact hlaw.resolve_left nofun

end World
end Shell
end Synod
