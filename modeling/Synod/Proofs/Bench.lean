import Synod.Drill.Shell
import Synod.Proofs.Conversation
import Synod.Proofs.World

/-!
A shell at work, down to the bytes of its connections. Its session is one among the nodes that it can
reach: what it is told of a request is what the node answers, unless the connection fails.
-/
namespace Synod

section Client

variable {σ : Type} [Store σ] {c : Client} {n : Node σ} {q : Request}

/-- The one frame of a request is answered with one frame, or the connection is closed. -/
theorem Node.serve_frame (n : Node σ) (hq : (Wire.encode q).length ≤ Frame.limit) :
    n.serve (Frame.encode (Wire.encode q)) =
      if Frame.limit < (Wire.encode (n.answer q).1).length then ([], [], true, (n.answer q).2)
      else ([Frame.encode (Wire.encode (n.answer q).1)], [], false, (n.answer q).2) := by
  have hfront := Frame.front_encode_self hq
  have hdecode := decode_framed hq
  split
  · rename_i hl
    exact serve_unsendable hfront hdecode hl
  · rename_i hl
    rw [serve_request hfront hdecode (Nat.not_lt.mp hl), serve_unfinished rfl]

/-- The near end of a connection on which nothing is left to be read. -/
structure Client.Idle (c : Client) : Prop where
  inbound : c.inbound = []
  whole : c.broken = false

theorem Client.receive_idle (hc : c.Idle) : c.receive = (.error .closed, c) := by
  obtain ⟨hi, hb⟩ := hc
  have hfront : Frame.front c.inbound = .unfinished := by
    rw [hi]
    rfl
  have hcut : Frame.isCut c.inbound = false := by
    rw [hi]
    rfl
  simp [Client.receive, hb, hfront, hcut]

/-- A reply in a frame of its own is told as it is, and nothing is left. -/
theorem Client.receive_reply {reply : Reply} (hb : c.broken = false)
    (hi : c.inbound = Frame.encode (Wire.encode reply))
    (hl : (Wire.encode reply).length ≤ Frame.limit) :
    ∃ o k, c.receive = (o, k) ∧ k.Idle ∧ ∀ r, o = .ok r → reply = .ok r := by
  have hfront := Frame.front_encode_self hl
  rw [← hi] at hfront
  refine ⟨Client.replyOf (Wire.encode reply), { c with inbound := [] }, ?_, ⟨rfl, hb⟩, ?_⟩
  · simp [Client.receive, hb, hfront]
  · intro r ho
    simp only [Client.replyOf, decode_framed hl] at ho
    cases reply with
    | ok a => exact congrArg Except.ok (Except.ok.inj ho)
    | error text => cases ho

/-- What may come of a request to a node: the connection fails before the node knows of it, or the node
answers. -/
inductive Node.Asked (n : Node σ) (q : Request) : Except Error Response → Node σ → Prop where
  | unsent {e : Error} : Asked n q (.error e) n
  | answered {o : Except Error Response} {reply : Reply} {m : Node σ}
      (hn : n.answer q = (reply, m)) (ho : ∀ r, o = .ok r → reply = .ok r) : Asked n q o m

theorem Client.send_idle (hc : c.Idle) (n : Node σ) (q : Request) :
    ∃ o k m, c.send n q = (o, k, m) ∧ k.Idle ∧ n.Asked q o m := by
  by_cases hq : Frame.limit < (Wire.encode q).length
  · exact ⟨.error (.io .oversizedFrame), c, n, by simp only [send, if_pos hq], hc, .unsent⟩
  cases he : c.ended with
  | true =>
    refine ⟨.error .closed, c, n, ?_, hc, .unsent⟩
    simp [send, hq, he, receive_idle hc]
  | false =>
    have hserve := n.serve_frame (Nat.not_lt.mp hq)
    have hsend : c.send n q =
        let reached := n.serve (Frame.encode (Wire.encode q))
        let near : Client := { c with
          inbound := c.inbound ++ reached.1.flatten, ended := reached.2.2.1 }
        (near.receive.1, near.receive.2, reached.2.2.2) := by
      simp only [send, if_neg hq, he]
      rfl
    rw [hsend, hserve, hc.inbound]
    by_cases hl : Frame.limit < (Wire.encode (n.answer q).1).length
    · have hr := receive_idle (c := { c with inbound := [], ended := true }) ⟨rfl, hc.whole⟩
      simp only [if_pos hl]
      exact ⟨_, _, _, rfl, hr ▸ ⟨rfl, hc.whole⟩, .answered rfl (by simp [hr])⟩
    · have hi : ([] : Bytes) ++ [Frame.encode (Wire.encode (n.answer q).1)].flatten
          = Frame.encode (Wire.encode (n.answer q).1) := by simp
      obtain ⟨o, k, hr, hk, ho⟩ := receive_reply
        (c := { c with inbound := _, ended := false }) hc.whole hi (Nat.not_lt.mp hl)
      simp only [if_neg hl]
      exact ⟨o, k, (n.answer q).2, by rw [hr], hk, .answered rfl ho⟩

end Client

namespace Drill

open Shell (Session Scene World Command)

/-- The node at an endpoint, if there is one. -/
def Endpoint.node? (e : Endpoint) : Option (Node Storage) :=
  match e.listener with
  | .node n => some n
  | .script _ => none

theorem Endpoint.node?_connected (e : Endpoint) : e.connected.node? = e.node? := by
  cases e with
  | mk port listener accepting => cases listener <;> rfl

theorem Endpoint.port_connected (e : Endpoint) : e.connected.port = e.port := by
  cases e with
  | mk port listener accepting => cases listener <;> rfl

namespace Bench

variable {b : Bench} {e : Endpoint} {port : UInt16}

/-- The node at a port, and another one where there is none. -/
def node (b : Bench) (absent : Node Storage) (port : UInt16) : Node Storage :=
  ((b.endpoint? port).bind Endpoint.node?).getD absent

/-- Nothing is left to be read on a connection to a node. -/
def InStep (b : Bench) : Prop :=
  ∀ port ∈ b.session.connection, ∀ e ∈ b.endpoint? port, e.node?.isSome = true → b.client.Idle

theorem port_of_endpoint (h : b.endpoint? port = some e) : e.port = port := by
  simpa using List.find?_some h

theorem endpoint_replace (b : Bench) (e : Endpoint) (port : UInt16) :
    (b.replace e).endpoint? port = (b.endpoint? port).map fun f => if port = e.port then e else f := by
  have hport : ∀ f : Endpoint, (if f.port = e.port then e else f).port = f.port := by
    intro f
    split
    · rename_i hf
      exact hf.symm
    · rfl
  simp only [endpoint?, replace, List.find?_map, Function.comp_def, hport]
  apply Option.map_congr
  intro f hf
  rw [port_of_endpoint hf]

/-- What takes the place of an endpoint is what is found there. -/
theorem endpoint_replace_self {f : Endpoint} (h : b.endpoint? e.port = some f) :
    (b.replace e).endpoint? e.port = some e := by
  rw [endpoint_replace, h, Option.map_some, if_pos rfl]

theorem node_replace {f : Endpoint} (h : b.endpoint? e.port = some f) (absent : Node Storage) :
    (b.replace e).node absent = Function.update (b.node absent) e.port (e.node?.getD absent) := by
  funext port
  by_cases hp : port = e.port
  · subst hp
    simp [node, endpoint_replace_self h]
  · simp [node, endpoint_replace, hp]

theorem node_replace_same {f : Endpoint} (h : b.endpoint? e.port = some f) (hn : e.node? = f.node?)
    (absent : Node Storage) : (b.replace e).node absent = b.node absent := by
  rw [node_replace h, hn]
  refine Function.update_eq_self_iff.mpr ?_
  rw [node, h, Option.bind_some]

theorem dial_eq (b : Bench) (port : UInt16) : ∃ o : Except Error Unit,
    (b.dial port).2.session = (b.session.dialled port o).2 ∧ (b.dial port).2.client = {} ∧
      ∀ absent, (b.dial port).2.node absent = b.node absent := by
  refine ⟨(b.link.dial ((b.endpoint? port).filter Endpoint.accepting).isSome).mapError .io, ?_⟩
  unfold dial
  dsimp only
  split
  · rename_i e _ he
    obtain ⟨hf, _⟩ := Option.filter_eq_some_iff.mp he
    rw [← port_of_endpoint hf, ← e.port_connected] at hf
    exact ⟨rfl, rfl, node_replace_same hf e.node?_connected⟩
  · exact ⟨rfl, rfl, fun absent => rfl⟩

variable {s : Session} {load : String → Except LoadError Layout} {c : Command} {lines : List String}
  {q : Request}

theorem inStep_of_connection {t : Session} (hb : b.InStep)
    (hc : t.connection = b.session.connection ∨ t.connection = none) :
    InStep { b with session := t } := by
  intro port hp
  rcases hc with hc | hc
  · exact hb port (hc ▸ hp)
  · cases hc.symm.trans hp

/-- A connection is made or refused. -/
theorem world_dial (b : Bench) (port : UInt16) (absent : Node Storage) : ∃ o,
    World.Step ⟨b.session, b.node absent⟩ (.apart (.dialled port o))
      ⟨(b.dial port).2.session, (b.dial port).2.node absent⟩ ∧ (b.dial port).2.InStep := by
  obtain ⟨o, hs, hc, hn⟩ := dial_eq b port
  have hturn : b.session.turn (Layout.load b.files) (.connect port) = (.dial port, b.session) := rfl
  rw [hs, hn]
  refine ⟨o, .apart (.dialled hturn o), fun _ _ _ _ _ => ?_⟩
  rw [hc]
  exact ⟨rfl, rfl⟩

section Ask

variable (hturn : s.turn load c = (.ask lines q, b.session))
  (hport : b.session.connection = some e.port) (he : b.endpoint? e.port = some e)
include hturn hport he

/-- A node is asked, and is as its answer leaves it. -/
theorem world_ask_node {n : Node Storage} (hb : b.InStep) (hl : e.listener = .node n)
    (absent : Node Storage) : ∃ x, World.Step ⟨s, b.node absent⟩ x
      ⟨(b.ask q).2.session, (b.ask q).2.node absent⟩ ∧ (b.ask q).2.InStep := by
  have hnode : e.node? = some n := by rw [Endpoint.node?, hl]
  have hbefore : (b.node absent) e.port = n := by
    rw [node, he, Option.bind_some, hnode]
    rfl
  obtain ⟨o, k, m, hsend, hk, hasked⟩ := Client.send_idle (hb _ hport e he (by rw [hnode]; rfl)) n q
  have hsent : e.send b.client q = (o, k, { e with listener := .node m }) := by
    simp only [Endpoint.send, hl, hsend]
  let asked : Bench := { b with session := (b.session.heard o).2, client := k }
  let left : Endpoint := { e with listener := .node m }
  have hfound : asked.endpoint? left.port = some e := he
  have hafter : (asked.replace left).node absent = Function.update (b.node absent) e.port m :=
    node_replace hfound absent
  simp only [ask, hport, Option.bind_some, he, hsent]
  rw [hafter]
  cases hasked with
  | unsent =>
    rw [← hbefore, Function.update_eq_self]
    exact ⟨_, .apart (.asked hturn _), fun _ _ _ _ _ => hk⟩
  | answered hn ho =>
    rw [← hbefore] at hn
    exact ⟨_, .met (.asked hturn o) hn ho, fun _ _ _ _ _ => hk⟩

theorem world_ask_script {r : Script} (hl : e.listener = .script r) (absent : Node Storage) :
    ∃ x, World.Step ⟨s, b.node absent⟩ x ⟨(b.ask q).2.session, (b.ask q).2.node absent⟩ ∧
      (b.ask q).2.InStep := by
  obtain ⟨o, k, r', hsend⟩ : ∃ o k r', b.client.send r q = (o, k, r') := ⟨_, _, _, rfl⟩
  have hsent : e.send b.client q = (o, k, { e with listener := .script r' }) := by
    simp only [Endpoint.send, hl, hsend]
  let asked : Bench := { b with session := (b.session.heard o).2, client := k }
  let left : Endpoint := { e with listener := .script r' }
  have hfound : asked.endpoint? left.port = some e := he
  have hafter : (asked.replace left).node absent = b.node absent :=
    node_replace_same hfound (by rw [Endpoint.node?, Endpoint.node?, hl]) absent
  simp only [ask, hport, Option.bind_some, he, hsent]
  refine ⟨.apart (.asked q o), ?_, ?_⟩
  · rw [hafter]
    exact .apart (.asked hturn o)
  · -- What the session may still be connected to is a script.
    intro port hp f hf hsome
    obtain rfl := Option.some.inj (hport.symm.trans (Session.connection_heard o port hp))
    obtain rfl := Option.some.inj ((endpoint_replace_self hfound).symm.trans hf)
    cases hsome

end Ask

/-- A request is answered by the node that the session is connected to, or by another peer. -/
theorem world_ask (hb : b.InStep) (h : s.turn load c = (.ask lines q, b.session))
    (absent : Node Storage) : ∃ x, World.Step ⟨s, b.node absent⟩ x
      ⟨(b.ask q).2.session, (b.ask q).2.node absent⟩ ∧ (b.ask q).2.InStep := by
  cases hf : b.session.connection.bind b.endpoint? with
  | none =>
    simp only [ask, hf]
    exact ⟨_, .apart (.asked h (.error .closed)), by rintro port ⟨⟩⟩
  | some e =>
    obtain ⟨port, hport, he⟩ := Option.bind_eq_some_iff.mp hf
    obtain rfl := port_of_endpoint he
    cases hl : e.listener with
    | node n => exact world_ask_node h hport he hb hl absent
    | script r => exact world_ask_script h hport he hl absent

/-- A line of input is at most one thing that happens. -/
theorem world_line (hb : b.InStep) (text : String) (absent : Node Storage) : ∃ es,
    World.Run ⟨b.session, b.node absent⟩ es
      ⟨(b.line text).2.session, (b.line text).2.node absent⟩ ∧ (b.line text).2.InStep := by
  unfold line
  rcases b.session.enter_cases (Layout.load b.files) text with ⟨lines, h⟩ | ⟨c, h⟩
  · rw [h]
    exact ⟨[], .nil, hb⟩
  · rw [h]
    have hturned := b.session.turned_turn (Layout.load b.files) c
    split
    · rename_i lines t h
      cases h ▸ hturned with
      | say _ _ hc => exact ⟨_, .snoc .nil (.apart (.said h)), inStep_of_connection hb hc⟩
    · rename_i port t h
      cases h ▸ hturned with
      | dial =>
        obtain ⟨o, hstep, hin⟩ := world_dial b port absent
        exact ⟨_, .snoc .nil hstep, hin⟩
    · rename_i lines q t h
      cases h ▸ hturned with
      | ask _ _ hc =>
        have hin := inStep_of_connection hb (Or.inl hc)
        obtain ⟨e, hstep, hin⟩ := world_ask hin h absent
        exact ⟨_, .snoc .nil hstep, hin⟩

theorem world_read (hb : b.InStep) (input : List Bytes) (absent : Node Storage) : ∃ es,
    World.Run ⟨b.session, b.node absent⟩ es
      ⟨(b.read input).2.session, (b.read input).2.node absent⟩ := by
  induction input generalizing b with
  | nil => exact ⟨[], .nil⟩
  | cons bytes rest ih =>
    unfold read
    split
    · exact ⟨[], .nil⟩
    · rename_i text _
      obtain ⟨es, hes, hin⟩ := world_line hb text absent
      obtain ⟨fs, hfs⟩ := ih hin
      exact ⟨es ++ fs, World.run_append hes hfs⟩

/-- What a shell does on any input is a run of its session among the nodes that it can reach. -/
theorem world_run (hb : b.session.connection = none) (port : Option UInt16) (input : Bytes)
    (absent : Node Storage) : ∃ es, World.Run ⟨b.session, b.node absent⟩ es
      ⟨(b.run port input).2.session, (b.run port input).2.node absent⟩ := by
  cases port with
  | none =>
    refine world_read (fun port hp => ?_) _ absent
    rw [hb] at hp
    cases hp
  | some port =>
    obtain ⟨o, hstep, hin⟩ := world_dial b port absent
    obtain ⟨es, hes⟩ := world_read hin (inputLines input) absent
    exact ⟨_, World.run_append (.snoc .nil hstep) hes⟩

end Bench
end Drill
end Synod
