import Synod.Errand
import Synod.Proofs.Conversation

/-!
Nodes and clients that leave their saves and sends to an action do as those that have a store or a
far end of their own.
-/
namespace Synod

variable {σ : Type} [Store σ]

/-- A save as an action on a store. -/
def saveIn (s : State) : StateM σ (Except StorageError Unit) := modifyGet (Store.save s)

namespace Acceptor

section StandIn

variable {s t : State} {q : Request} {r : Response} {p : StoreStandIn}

theorem handle_standIn_keep (hj : s.judge q = .keep r) :
    handle (⟨s, p⟩ : Acceptor StoreStandIn) q = (.ok r, ⟨s, p⟩) :=
  handle_keep hj

/-- A stand-in notes down what is to be saved, whatever is supposed to come of it. -/
theorem handle_standIn_move (hj : s.judge q = .move t r) :
    handle (⟨s, p⟩ : Acceptor StoreStandIn) q =
      (p.outcome.map fun _ => r,
        ⟨if p.outcome.isOk then t else s, { p with asked := some t }⟩) := by
  obtain ⟨content, outcome, asked⟩ := p
  cases outcome with
  | ok => exact handle_saved hj rfl
  | error e => exact handle_fault hj rfl

end StandIn

/-- What handling a request comes to is known once it is known what came of the save. -/
theorem errand_handle {γ : Type} (f : Except StorageError Response → State → γ)
    (a : Acceptor σ) (content : Except StorageError State) (q : Request) :
    (errand saveIn (.ok ()) fun outcome =>
        let (o, b) := handle ⟨a.state, ({ content, outcome } : StoreStandIn)⟩ q
        (f o b.state, b.store.asked)).run a.store =
      (f (a.handle q).1 (a.handle q).2.state, (a.handle q).2.store) := by
  cases hj : a.state.judge q with
  | keep r =>
    rw [handle_keep hj, errand_idle (by rw [handle_standIn_keep hj])]
    rfl
  | move t r =>
    rw [errand_act (by rw [handle_standIn_move hj])]
    simp only [saveIn, StateT.run_bind, StateT.run_modifyGet, handle_standIn_move hj]
    rcases hs : Store.save t a.store with ⟨e | _, store⟩
    · rw [handle_fault hj hs]
      rfl
    · rw [handle_saved hj hs]
      rfl

end Acceptor

namespace Node

/-- A node whose saves are made by an action takes a frame as it does over the store. -/
theorem takeBy_run (n : Node σ) (body : Bytes) :
    (takeBy saveIn (n.withStore ()) body).run n.acceptor.store =
      (((n.take body).1, (n.take body).2.withStore ()), (n.take body).2.acceptor.store) := by
  cases hd : (Wire.decode body : Except WireError Request) with
  | error e =>
    simp only [takeBy, take, hd]
    rfl
  | ok q =>
    cases q with
    | getLayout =>
      simp only [takeBy, take, hd]
      rfl
    | _ =>
      simp only [takeBy, take, hd]
      let told (o : Except StorageError Response) (s : State) : Option Bytes × Node Unit :=
        (frame? (reply o), ofAcceptor ⟨s, ()⟩)
      exact Acceptor.errand_handle told n.acceptor _ _

/-- A frame that is taken by a node apart from its store. -/
def takeApart (body : Bytes) : StateM (Node Unit × σ) (Option Bytes) :=
  modifyGet fun (n, store) =>
    let ((out, n), store) := (takeBy saveIn n body).run store
    (out, n, store)

/-- A node apart from its store answers the frames of a stream as the node does. -/
theorem each_takeApart_run (n : Node σ) (stream : Bytes) :
    (Frame.each takeApart stream).run (n.withStore (), n.acceptor.store) =
      let (frames, left, closed, n) := n.serve stream
      ((frames, left, closed), n.withStore (), n.acceptor.store) := by
  induction stream using Frame.bodies.induct generalizing n with
  | case1 stream body rest hf _ ih =>
    have htake : (takeApart body).run (n.withStore (), n.acceptor.store) =
        ((n.take body).1, (n.take body).2.withStore (), (n.take body).2.acceptor.store) := by
      simp only [takeApart, StateT.run_modifyGet, takeBy_run]
      rfl
    rw [Frame.each_frame hf, StateT.run_bind, htake]
    rcases ht : n.take body with ⟨_ | out, k⟩
    · rw [serve_none hf ht]
      rfl
    · rw [serve_some hf ht]
      exact congrArg (fun served => ((out :: served.1.1, served.1.2), served.2)) (ih k)
  | case2 stream hf =>
    rw [Frame.each_oversized hf, serve_oversized hf]
    rfl
  | case3 stream hf =>
    rw [Frame.each_unfinished hf, serve_unfinished hf]
    rfl

/-- Where a state is loaded, a seed is a bootstrap. -/
theorem parted_recover {store : σ} {s : State} (hl : Store.load store = .ok s) (l : Layout) :
    parted (recover store (some l)) =
      let (o, a) := Acceptor.handle ⟨s, store⟩ (.bootstrap l)
      (o.map fun _ => ofAcceptor ⟨a.state, ()⟩, a.store) := by
  simp only [recover, Acceptor.recover, hl, Except.map]
  rcases Acceptor.handle ⟨s, store⟩ (.bootstrap l) with ⟨_ | _, a⟩ <;> rfl

/-- A node whose saves are made by an action is brought up as it is over the store. -/
theorem recoverBy_run (store : σ) (seed : Option Layout) :
    (recoverBy saveIn (Store.load store) seed).run store = parted (recover store seed) := by
  cases hl : Store.load store with
  | error e =>
    simp only [recoverBy, recover, Acceptor.recover, Store.load, hl]
    rfl
  | ok s =>
    cases seed with
    | none =>
      simp only [recoverBy, recover, Acceptor.recover, Store.load, hl]
      rfl
    | some l =>
      have hstand (outcome : Except StorageError Unit) :
          Store.load ({ content := .ok s, outcome } : StoreStandIn) = .ok s := rfl
      simp only [recoverBy, parted_recover (hstand _), parted_recover hl]
      exact Acceptor.errand_handle (fun o s => o.map fun _ => ofAcceptor ⟨s, ()⟩) ⟨s, store⟩ _ _

end Node

/-- A delivery as an action on the far end. -/
def deliverTo {π : Type} [Peer π] (bytes : Bytes) : StateM π (Bytes × Bool) :=
  modifyGet (Peer.deliver bytes)

theorem Client.sendBy_run {π : Type} [Peer π] (c : Client) (peer : π) (q : Request) :
    (c.sendBy deliverTo q).run peer =
      (((c.send peer q).1, (c.send peer q).2.1), (c.send peer q).2.2) := by
  unfold sendBy
  by_cases hq : Frame.limit < (Wire.encode q).length
  · simp only [send, if_pos hq]
    rfl
  · by_cases he : c.ended
    · simp only [send, if_neg hq, if_pos he]
      rfl
    · simp only [send, if_neg hq, if_neg he]
      rfl

end Synod
