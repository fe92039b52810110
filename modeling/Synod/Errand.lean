import Synod.Client
import Synod.Node

/-!
Nodes and clients whose store or far end is out of their reach. What they decide, they decide over a
stand-in, which takes note of the state to be saved or the bytes to be sent. An action then does
this, and they decide again, over a stand-in that knows what came of it.
-/
namespace Synod

/-- Decides with the help of an action: on a supposed outcome first, and on the true one if the action
is asked for. -/
def errand {m : Type → Type} [Monad m] {α β γ : Type} (act : α → m β) (supposed : β)
    (run : β → γ × Option α) : m γ :=
  match run supposed with
  | (result, none) => return result
  | (_, some request) => return (run (← act request)).1

section Errand

variable {m : Type → Type} [Monad m] {α β γ : Type} {act : α → m β} {supposed : β}
  {run : β → γ × Option α} {result : γ}

theorem errand_idle (h : run supposed = (result, none)) :
    errand act supposed run = return result := by
  rw [errand, h]

theorem errand_act {request : α} (h : run supposed = (result, some request)) :
    errand act supposed run = do return (run (← act request)).1 := by
  rw [errand, h]

end Errand

/-- Stands in for a store. -/
structure StoreStandIn where
  content : Except StorageError State := .ok .initial
  /-- What comes of a save. -/
  outcome : Except StorageError Unit
  /-- The state that was to be saved. -/
  asked : Option State := none

instance : Store StoreStandIn where
  load := StoreStandIn.content
  save s store := (store.outcome, { store with asked := some s })

/-- Stands in for the far end of a connection. -/
structure PeerStandIn where
  /-- What comes back for what is sent, and whether the far end then hangs up. -/
  outcome : Bytes × Bool
  /-- The bytes that were to be sent. -/
  asked : Option Bytes := none

instance : Peer PeerStandIn where
  deliver bytes peer := (peer.outcome, { peer with asked := some bytes })

namespace Node

/-- The same node over another store. -/
def withStore {σ τ : Type} (n : Node σ) (store : τ) : Node τ :=
  ⟨⟨n.acceptor.state, store⟩, n.published⟩

/-- A node that was to come up, and its store apart from it. -/
def parted {σ : Type} : Except (StorageError × σ) (Node σ) → Except StorageError (Node Unit) × σ
  | .ok n => (.ok (n.withStore ()), n.acceptor.store)
  | .error (e, store) => (.error e, store)

variable {m : Type → Type} [Monad m] (save : State → m (Except StorageError Unit))

/-- Answers the request in a frame, where an action saves. -/
def takeBy (n : Node Unit) (body : Bytes) : m (Option Bytes × Node Unit) :=
  errand save (.ok ()) fun outcome =>
    let (out, n) := (n.withStore ({ outcome } : StoreStandIn)).take body
    ((out, n.withStore ()), n.acceptor.store.asked)

/-- Recovers the state that was loaded and applies the seed, where an action saves. -/
def recoverBy (content : Except StorageError State) (seed : Option Layout) :
    m (Except StorageError (Node Unit)) :=
  errand save (.ok ()) fun outcome =>
    let (started, store) := parted (recover ({ content, outcome } : StoreStandIn) seed)
    (started, store.asked)

end Node

/-- Sends a request and takes its reply, where an action delivers. -/
def Client.sendBy {m : Type → Type} [Monad m] (deliver : Bytes → m (Bytes × Bool)) (c : Client)
    (request : Request) : m (Except Error Response × Client) :=
  errand deliver ([], false) fun outcome =>
    let (reply, c, peer) := c.send ({ outcome } : PeerStandIn) request
    ((reply, c), peer.asked)

end Synod
