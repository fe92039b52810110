import Mathlib.Logic.Function.Basic
import Synod.Node
import Synod.Proofs.History

/-!
The steps of a running node: connections that take one request at a time, a queue in order of
arrival, and a worker that handles, publishes and replies. They interleave in any way.
-/
namespace Synod

/-- A request, told by its connection and by how many were answered there before. -/
structure Op (ι : Type) where
  connection : ι
  index : Nat
deriving DecidableEq

/-- What a connection is doing. -/
inductive Phase where
  | idle
  | received (request : Request)
  | waiting
  | replying (reply : Reply)
  | closed

/-- Whether the request that a connection is at was put in the queue or answered. -/
def Phase.begun : Phase → Bool
  | idle | received _ => false
  | waiting | replying _ | closed => true

structure Connection where
  /-- How many requests were answered. -/
  index : Nat
  phase : Phase

/-- What the worker is doing. -/
inductive Worker (ι : Type) where
  | idle
  | handled (op : Op ι) (outcome : Except StorageError Response)
  | published (op : Op ι) (outcome : Except StorageError Response)

inductive Act (ι : Type) where
  | received (op : Op ι) (request : Request)
  /-- A layout query is answered from the snapshot. -/
  | read (op : Op ι) (reply : Reply)
  | queued (op : Op ι)
  | handled (op : Op ι)
  | published
  /-- The worker replies, whether or not the connection is still there. -/
  | sent (op : Op ι) (reply : Reply)
  | forwarded (op : Op ι) (reply : Reply)
  | dropped (connection : ι)

namespace Act

variable {ι : Type} {x : Op ι} {q : Request} {r : Reply}

/-- The reply that is sent or forwarded. -/
def reply? : Act ι → Option (Op ι × Reply)
  | read x r | sent x r | forwarded x r => some (x, r)
  | _ => none

/-- The request that is received, or that reads the snapshot. -/
def start? : Act ι → Option (Op ι)
  | received x _ | read x _ => some x
  | _ => none

/-- The request that is handled, by the worker or from the snapshot. -/
def handles? : Act ι → Option (Op ι)
  | handled x | read x _ => some x
  | _ => none

/-- The acts of one request that meets no other. -/
def alone (x : Op ι) (q : Request) (r : Reply) : List (Act ι) :=
  match q with
  | .getLayout => [.received x q, .read x r, .forwarded x r]
  | q => [.received x q, .queued x, .handled x, .published, .sent x r, .forwarded x r]

theorem alone_ne (hq : q ≠ .getLayout) : alone x q r =
    [.received x q, .queued x, .handled x, .published, .sent x r, .forwarded x r] := by
  cases q <;> first | exact absurd rfl hq | rfl

end Act

structure Server (ι σ : Type) where
  node : Node σ
  queue : List (Op ι × Request)
  worker : Worker ι
  connection : ι → Connection

/-- The reply that reports an outcome. -/
def Node.reply (o : Except StorageError Response) : Reply :=
  o.mapError fun e => (Error.storage e).message

theorem Node.eq_of_reply {o : Except StorageError Response} {r : Response}
    (h : Node.reply o = .ok r) : o = .ok r := by
  cases o with
  | error e => cases h
  | ok a => exact congrArg Except.ok (Except.ok.inj h)

/-- All but a layout query is answered by the worker. -/
theorem Node.answer_eq {σ : Type} [Store σ] {n : Node σ} {b : Acceptor σ} {q : Request}
    {o : Except StorageError Response} (hq : q ≠ .getLayout) (h : n.acceptor.handle q = (o, b)) :
    n.answer q = (Node.reply o, .ofAcceptor b) := by
  have hw : n.work q = (o, .ofAcceptor b) := by rw [Node.work, h]
  cases q <;> first | exact absurd rfl hq | simp only [Node.answer, hw, Node.reply]

namespace Server

variable {ι σ : Type} {s t : Server ι σ} {c d : ι} {p : Phase} {x y : Op ι} {q : Request}
  {r : Reply} {e : Act ι} {es : List (Act ι)}

/-- A node over an acceptor, before any request. -/
def start [Store σ] (a : Acceptor σ) : Server ι σ :=
  ⟨.ofAcceptor a, [], .idle, fun _ => ⟨0, .idle⟩⟩

/-- The request that a connection is at. -/
def op (s : Server ι σ) (c : ι) : Op ι := ⟨c, (s.connection c).index⟩

def phase (s : Server ι σ) (c : ι) : Phase := (s.connection c).phase

/-- Whether a connection waits for the reply to a request. -/
def Awaits (s : Server ι σ) (x : Op ι) : Prop :=
  s.op x.connection = x ∧ s.phase x.connection = .waiting

/-- Whether a request was put in the queue or answered. -/
def Begun (s : Server ι σ) (x : Op ι) : Prop :=
  x.index < (s.op x.connection).index ∨
    s.op x.connection = x ∧ (s.phase x.connection).begun = true

theorem not_begun_op (h : (s.phase c).begun = false) : ¬ s.Begun (s.op c) := by
  rintro (hlt | ⟨_, hb⟩)
  · exact Nat.lt_irrefl _ hlt
  · exact Bool.noConfusion (h.symm.trans hb)

variable [DecidableEq ι]

def setPhase (s : Server ι σ) (c : ι) (p : Phase) : Server ι σ :=
  { s with connection := Function.update s.connection c ⟨(s.connection c).index, p⟩ }

/-- Moves a connection on to its next request. -/
def advance (s : Server ι σ) (c : ι) : Server ι σ :=
  { s with connection := Function.update s.connection c ⟨(s.connection c).index + 1, .idle⟩ }

@[simp] theorem op_setPhase : (s.setPhase c p).op d = s.op d := by
  by_cases h : d = c
  · subst h
    simp [op, setPhase]
  · simp [op, setPhase, h]

theorem phase_setPhase : (s.setPhase c p).phase d = if d = c then p else s.phase d := by
  by_cases h : d = c
  · subst h
    simp [phase, setPhase]
  · simp [phase, setPhase, h]

theorem op_advance_self : (s.advance c).op c = ⟨c, (s.op c).index + 1⟩ := by
  simp [op, advance]

theorem op_advance_ne (h : d ≠ c) : (s.advance c).op d = s.op d := by
  simp [op, advance, h]

theorem phase_advance : (s.advance c).phase d = if d = c then .idle else s.phase d := by
  by_cases h : d = c
  · subst h
    simp [phase, advance]
  · simp [phase, advance, h]

theorem begun_setPhase (h : p.begun = true) : (s.setPhase c p).Begun (s.op c) := by
  have hc : (s.op c).connection = c := rfl
  exact Or.inr ⟨op_setPhase, by simp [phase_setPhase, hc, h]⟩

variable [StableStore σ] {a b : Acceptor σ}

/-- One step. The worker meets the store in any working order, holding what it held before. -/
inductive Step (s : Server ι σ) : Act ι → Server ι σ → Prop where
  | received {c : ι} {q : Request} (h : s.phase c = .idle) :
      Step s (.received (s.op c) q) (s.setPhase c (.received q))
  | read {c : ι} (h : s.phase c = .received .getLayout) :
      Step s (.read (s.op c) (s.node.answer .getLayout).1)
        (s.setPhase c (.replying (s.node.answer .getLayout).1))
  | queued {c : ι} {q : Request} (h : s.phase c = .received q) (hq : q ≠ .getLayout) :
      Step s (.queued (s.op c))
        ({ s with queue := s.queue ++ [(s.op c, q)] }.setPhase c .waiting)
  | handled {x : Op ι} {q : Request} {l : List (Op ι × Request)} {m : σ}
      {o : Except StorageError Response} {b : Acceptor σ} (hw : s.worker = .idle)
      (hl : s.queue = (x, q) :: l)
      (hm : StableStore.held m = StableStore.held s.node.acceptor.store)
      (h : Acceptor.handle ⟨s.node.acceptor.state, m⟩ q = (o, b)) :
      Step s (.handled x)
        { s with node := ⟨b, s.node.published⟩, queue := l, worker := .handled x o }
  | published {x : Op ι} {o : Except StorageError Response} (hw : s.worker = .handled x o) :
      Step s .published { s with node := .ofAcceptor s.node.acceptor, worker := .published x o }
  | sent {x : Op ι} {o : Except StorageError Response} (hw : s.worker = .published x o)
      (hx : s.Awaits x) :
      Step s (.sent x (Node.reply o))
        ({ s with worker := .idle }.setPhase x.connection (.replying (Node.reply o)))
  | sentToNobody {x : Op ι} {o : Except StorageError Response} (hw : s.worker = .published x o)
      (hx : ¬ s.Awaits x) : Step s (.sent x (Node.reply o)) { s with worker := .idle }
  | forwarded {c : ι} {r : Reply} (h : s.phase c = .replying r) :
      Step s (.forwarded (s.op c) r) (s.advance c)
  | dropped {c : ι} : Step s (.dropped c) (s.setPhase c .closed)

/-- Runs of any number of steps in any order. -/
inductive Run (a : Acceptor σ) : List (Act ι) → Server ι σ → Prop where
  | nil : Run a [] (start a)
  | snoc {es : List (Act ι)} {e : Act ι} {s t : Server ι σ} (h : Run a es s) (he : Step s e t) :
      Run a (es ++ [e]) t

/-- What a step may do to a connection. -/
theorem connection_step (h : Step s e t) (d : ι) :
    (t.op d = s.op d ∧ (t.phase d = s.phase d ∨ t.phase d = .waiting ∨ t.phase d = .closed)) ∨
      (∃ q, s.phase d = .idle ∧ e = .received (s.op d) q ∧ t.op d = s.op d ∧
        t.phase d = .received q) ∨
      (∃ r, e.reply? = some (s.op d, r) ∧ t.op d = s.op d ∧ t.phase d = .replying r) ∨
      ∃ r, s.phase d = .replying r ∧ e = .forwarded (s.op d) r ∧
        t.op d = ⟨d, (s.op d).index + 1⟩ ∧ t.phase d = .idle := by
  have hset : ∀ {c p}, d ≠ c → (s.setPhase c p).phase d = s.phase d := by
    intro c p hd
    rw [phase_setPhase, if_neg hd]
  cases h with
  | @received c q h =>
    by_cases hd : d = c
    · subst hd
      exact Or.inr (Or.inl ⟨q, h, rfl, op_setPhase, by simp [phase_setPhase]⟩)
    · exact Or.inl ⟨op_setPhase, Or.inl (hset hd)⟩
  | @read c h =>
    by_cases hd : d = c
    · subst hd
      exact Or.inr (Or.inr (Or.inl ⟨_, rfl, op_setPhase, by simp [phase_setPhase]⟩))
    · exact Or.inl ⟨op_setPhase, Or.inl (hset hd)⟩
  | @queued c q h hq =>
    refine Or.inl ⟨op_setPhase, ?_⟩
    rw [phase_setPhase]
    split
    · exact Or.inr (Or.inl rfl)
    · exact Or.inl rfl
  | handled => exact Or.inl ⟨rfl, Or.inl rfl⟩
  | published => exact Or.inl ⟨rfl, Or.inl rfl⟩
  | @sent x o hw hx =>
    by_cases hd : d = x.connection
    · subst hd
      refine Or.inr (Or.inr (Or.inl ⟨Node.reply o, ?_, op_setPhase, by simp [phase_setPhase]⟩))
      rw [hx.1]
      rfl
    · refine Or.inl ⟨op_setPhase, Or.inl ?_⟩
      rw [phase_setPhase, if_neg hd]
      rfl
  | sentToNobody => exact Or.inl ⟨rfl, Or.inl rfl⟩
  | @forwarded c r h =>
    by_cases hd : d = c
    · subst hd
      exact Or.inr (Or.inr (Or.inr ⟨r, h, rfl, op_advance_self, by simp [phase_advance]⟩))
    · exact Or.inl ⟨op_advance_ne hd, Or.inl (by rw [phase_advance, if_neg hd])⟩
  | @dropped c =>
    by_cases hd : d = c
    · subst hd
      exact Or.inl ⟨op_setPhase, Or.inr (Or.inr (by simp [phase_setPhase]))⟩
    · exact Or.inl ⟨op_setPhase, Or.inl (hset hd)⟩

theorem begun_step (h : Step s e t) (hx : s.Begun x) : t.Begun x := by
  unfold Begun at hx ⊢
  rcases connection_step h x.connection with
      ⟨ho, hp⟩ | ⟨q, hi, _, ho, hp⟩ | ⟨r, _, ho, hp⟩ | ⟨r, _, _, ho, hp⟩
  · rw [ho]
    rcases hp with hp | hp | hp <;> rw [hp]
    · exact hx
    · exact hx.imp id fun h => ⟨h.1, rfl⟩
    · exact hx.imp id fun h => ⟨h.1, rfl⟩
  · rw [ho]
    exact Or.inl (hx.resolve_right fun h => by simp [hi, Phase.begun] at h)
  · rw [ho, hp]
    exact hx.imp id fun h => ⟨h.1, rfl⟩
  · rw [ho]
    rcases hx with hlt | ⟨hop, _⟩
    · exact Or.inl (Nat.lt_succ_of_lt hlt)
    · rw [hop]
      exact Or.inl (Nat.lt_succ_self _)

/-- A request that meets no other is answered as by the node itself. -/
theorem run_answer (h : Run a es s) (hw : s.worker = .idle) (hl : s.queue = [])
    (hc : s.phase c = .idle) (q : Request) :
    ∃ t, Run a (es ++ Act.alone (s.op c) q (s.node.answer q).1) t ∧
      t.node = (s.node.answer q).2 := by
  by_cases hq : q = .getLayout
  · subst hq
    have h1 := Run.snoc h (.received (q := .getLayout) hc)
    have h2 := Run.snoc h1 (.read (c := c) (by simp [phase, setPhase]))
    have h3 := Run.snoc h2 (.forwarded (c := c) (r := (s.node.answer .getLayout).1)
      (by simp [phase, setPhase]))
    obtain ⟨t, ht, hn⟩ : ∃ t, Run a _ t ∧ t.node = s.node := ⟨_, h3, rfl⟩
    exact ⟨t, by simpa [Act.alone, op, setPhase] using ht, hn⟩
  · cases hh : s.node.acceptor.handle q with
    | mk o b =>
    rw [Node.answer_eq hq hh, Act.alone_ne hq]
    have h1 := Run.snoc h (.received (q := q) hc)
    have h2 := Run.snoc h1 (.queued (c := c) (q := q) (by simp [phase, setPhase]) hq)
    have h3 := Run.snoc h2 (.handled (x := s.op c) (q := q) (l := []) hw
      (by simp [hl, setPhase, op]) rfl hh)
    have h4 := Run.snoc h3 (.published rfl)
    have h5 := Run.snoc h4 (.sent rfl (by simp [Awaits, phase, setPhase, op]))
    have h6 := Run.snoc h5 (.forwarded (c := c) (r := Node.reply o) (by simp [phase, setPhase, op]))
    obtain ⟨t, ht, hn⟩ : ∃ t, Run a _ t ∧ t.node = .ofAcceptor b := ⟨_, h6, rfl⟩
    exact ⟨t, by simpa [op, setPhase] using ht, hn⟩

end Server
end Synod
