import Synod.Acceptor
import Synod.Frame
import Synod.Record
import Synod.Store.File

/-!
A node: an acceptor, and a snapshot of its state for layout queries. The snapshot is published after
each request and before its answer is sent.
-/
namespace Synod

structure Node (σ : Type) where
  acceptor : Acceptor σ
  published : Snapshot

namespace Node

variable {σ : Type} [Store σ]

def ofAcceptor (a : Acceptor σ) : Node σ := ⟨a, .of a.state⟩

/-- The worker handles a request and publishes the state it leaves. -/
def work (n : Node σ) (request : Request) : Except StorageError Response × Node σ :=
  let (outcome, a) := n.acceptor.handle request
  (outcome, ofAcceptor a)

/-- What a connection does with a request: layout queries read the snapshot, all else goes to the
worker. -/
def answer (n : Node σ) : Request → Reply × Node σ
  | .getLayout => (.ok n.published.respond, n)
  | request =>
    let (outcome, n) := n.work request
    (outcome.mapError fun e => (Error.storage e).message, n)

/-- The frame of a reply, if it is not too long for one. -/
def frame? (reply : Reply) : Option Bytes :=
  let out := Wire.encode reply
  if Frame.limit < out.length then none else some (Frame.encode out)

/-- What is written for a frame: nothing, if it holds no request or the reply is too long. -/
def take (n : Node σ) (body : Bytes) : Option Bytes × Node σ :=
  match (Wire.decode body : Except WireError Request) with
  | .error _ => (none, n)
  | .ok request =>
    let (reply, n) := n.answer request
    (frame? reply, n)

/-- Answers the frames of a stream in order: the frames written, what is left of the stream, and
whether the connection was closed at a frame that cannot be taken or a reply that cannot be sent. -/
def serve (n : Node σ) (stream : Bytes) : List Bytes × Bytes × Bool × Node σ :=
  let answered : StateM (Node σ) _ := Frame.each (fun body => modifyGet (take · body)) stream
  let ((frames, left, closed), n) := answered.run n
  (frames, left, closed, n)

/-- Recovers the state that a store holds, and applies the seed as a bootstrap. -/
def recover (store : σ) (seed : Option Layout) : Except (StorageError × σ) (Node σ) :=
  match Acceptor.recover store with
  | .error e => .error (e, store)
  | .ok a =>
    match seed with
    | none => .ok (ofAcceptor a)
    | some layout =>
      match a.handle (.bootstrap layout) with
      | (.ok _, a) => .ok (ofAcceptor a)
      | (.error e, a) => .error (e, a.store)

/-- Brings a node up over a store that is acquired for it. What fails gives the medium back. -/
def start (m : Medium) (seed : Option Layout) : Except (StorageError × Medium) (Node Storage) :=
  match m.acquire with
  | .error e => .error e
  | .ok store => (recover store seed).mapError fun (e, store) => (e, store.release)

/-- Ends a node and lets go of its store. -/
def stop (n : Node Storage) : Medium := n.acceptor.store.release

end Node
end Synod
