import Synod.Message

/-! What an acceptor remembers, and the part of it that layout queries may see. -/
namespace Synod

/-- A layout accepted in the current round and the rank it was accepted at. -/
structure Accepted where
  rank : Rank
  layout : Layout
deriving DecidableEq, Inhabited

/-- The state that one acceptor keeps in stable storage. -/
structure State where
  bootstrapped : Bool := false
  epoch : UInt64 := 0
  layout : Option Layout := none
  promised : Option Rank := none
  accepted : Option Accepted := none
deriving DecidableEq, Inhabited

namespace State

/-- The state of a node that has never been bootstrapped. -/
def initial : State := {}

def acceptedRank (s : State) : Option Rank := s.accepted.map Accepted.rank

def acceptedLayout (s : State) : Option Layout := s.accepted.map Accepted.layout

/-- Moves to an epoch, never backwards, and starts a fresh round. -/
def advance (s : State) (epoch : UInt64) : State :=
  { s with epoch := max s.epoch epoch, promised := none, accepted := none }

end State

instance : Shown Accepted where
  shown a := Shown.record "Accepted" [("rank", shown a.rank), ("layout", shown a.layout)]

instance : Shown State where
  shown s := Shown.record "AcceptorState"
    [("bootstrapped", shown s.bootstrapped), ("epoch", shown s.epoch), ("layout", shown s.layout),
      ("phase1", shown s.promised), ("accepted", shown s.accepted)]

/-- The part of a state that clients may query. -/
structure Snapshot where
  bootstrapped : Bool
  epoch : UInt64
  layout : Option Layout
deriving DecidableEq, Inhabited

namespace Snapshot

def of (s : State) : Snapshot := ⟨s.bootstrapped, s.epoch, s.layout⟩

/-- The answer to a layout query at this snapshot. -/
def respond (s : Snapshot) : Response :=
  match s.layout with
  | some l => if s.bootstrapped then .layout l s.epoch else .noBootstrap
  | none => .noBootstrap

end Snapshot
end Synod
