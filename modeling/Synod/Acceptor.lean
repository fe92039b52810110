import Synod.Rules
import Synod.Store.Basic

/-!
An acceptor over a store. A request that moves the state is answered only after the next state is
saved; if saving fails, the acceptor is left as it was.
-/
namespace Synod

structure Acceptor (σ : Type) where
  /-- The state saved last. -/
  state : State
  store : σ

namespace Acceptor

variable {σ : Type} [Store σ]

/-- Takes up the state that the store holds. -/
def recover (store : σ) : Except StorageError (Acceptor σ) :=
  (Store.load store).map fun state => ⟨state, store⟩

def handle (a : Acceptor σ) (request : Request) : Except StorageError Response × Acceptor σ :=
  match a.state.judge request with
  | .keep answer => (.ok answer, a)
  | .move next answer =>
    match Store.save next a.store with
    | (.ok (), store) => (.ok answer, ⟨next, store⟩)
    | (.error e, store) => (.error e, { a with store })

section Handle

variable {a : Acceptor σ} {request : Request} {next : State} {answer : Response} {store : σ}

theorem handle_keep (h : a.state.judge request = .keep answer) :
    a.handle request = (.ok answer, a) := by
  simp [handle, h]

theorem handle_saved (h : a.state.judge request = .move next answer)
    (hs : Store.save next a.store = (.ok (), store)) :
    a.handle request = (.ok answer, ⟨next, store⟩) := by
  simp [handle, h, hs]

theorem handle_fault {e : StorageError} (h : a.state.judge request = .move next answer)
    (hs : Store.save next a.store = (.error e, store)) :
    a.handle request = (.error e, { a with store }) := by
  simp [handle, h, hs]

theorem handle_getLayout (a : Acceptor σ) :
    a.handle .getLayout = (.ok (Snapshot.of a.state).respond, a) := rfl

end Handle

end Acceptor
end Synod
