import Synod.Error
import Synod.State

/-! Stable storage for the state of one acceptor, and the store that keeps it in memory. -/
namespace Synod

/-- A place that a state is loaded from and saved to as a whole. -/
class Store (σ : Type) where
  /-- The state saved last, or the initial state. -/
  load : σ → Except StorageError State
  /-- Replaces the saved state, or fails. -/
  save : State → σ → Except StorageError Unit × σ

/-- A store in memory, which can be made to fail. -/
structure MemoryStore where
  state : State := .initial
  readFault : Bool := false
  writeFault : Bool := false
deriving DecidableEq, Inhabited

namespace MemoryStore

def load (m : MemoryStore) : Except StorageError State :=
  if m.readFault then .error (.io (.other "read fault")) else .ok m.state

def save (s : State) (m : MemoryStore) : Except StorageError Unit × MemoryStore :=
  if m.writeFault then (.error (.io (.other "disk full")), m) else (.ok (), { m with state := s })

instance : Store MemoryStore := ⟨load, save⟩

end MemoryStore
end Synod
