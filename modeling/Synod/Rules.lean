import Synod.State

/-!
The rules of one acceptor. A request stamped with an epoch passes only if the epoch is the node's
own. What the rules grant is a next state together with the answer that is due once that state is
saved.
-/
namespace Synod

/-- What the rules make of a request. -/
inductive Verdict where
  /-- Answer at once; nothing is to be saved. -/
  | keep (answer : Response)
  /-- Save the next state, then answer. -/
  | move (next : State) (answer : Response)
deriving DecidableEq

namespace State

variable (s : State)

/-- The rejection of a request whose stamped epoch is not the node's. -/
def fence (request : Request) : Option Response :=
  match request.epoch? with
  | some e => if e = s.epoch then none else some (.wrongEpoch s.epoch)
  | none => none

def onBootstrap (layout : Layout) : Verdict :=
  if s.bootstrapped then .keep .alreadyBootstrapped
  else .move { s with bootstrapped := true, epoch := 0, layout := some layout } .ack

def onSetEpoch (epoch : UInt64) : Verdict :=
  if !s.bootstrapped then .keep .noBootstrap
  else if epoch ≤ s.epoch then .keep (.wrongEpoch s.epoch)
  else .move (s.advance epoch) .ack

/-- A promise is granted only above the rank promised already. -/
def onPrepare (rank : Rank) : Verdict :=
  if !s.bootstrapped then .keep .noBootstrap
  else if some rank ≤ s.promised then .keep (.prepareReject s.promised)
  else .move { s with promised := some rank } (.prepareAck s.acceptedRank s.acceptedLayout)

/-- A layout is accepted only at the very rank promised, and once for that rank. -/
def onPropose (rank : Rank) (layout : Layout) : Verdict :=
  if !s.bootstrapped then .keep .noBootstrap
  else if s.promised ≠ some rank ∨ s.acceptedRank = some rank then
    .keep (.proposeReject s.promised s.acceptedRank)
  else .move { s with accepted := some ⟨rank, layout⟩ } .ack

/-- A layout chosen by a majority becomes current and ends the round. -/
def onCommitted (layout : Layout) : Verdict :=
  if !s.bootstrapped then .keep .noBootstrap
  else .move { s.advance layout.epoch with layout := some layout } .ack

/-- What becomes of a request that the fence lets pass. -/
def rule : Request → Verdict
  | .bootstrap l => s.onBootstrap l
  | .getLayout => .keep (Snapshot.of s).respond
  | .setEpoch e => s.onSetEpoch e
  | .prepare r _ => s.onPrepare r
  | .propose r l _ => s.onPropose r l
  | .committed _ l _ => s.onCommitted l

/-- What becomes of a request. -/
def judge (request : Request) : Verdict :=
  match s.fence request with
  | some rejection => .keep rejection
  | none => s.rule request

end State
end Synod
