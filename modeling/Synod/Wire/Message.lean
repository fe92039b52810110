import Synod.Wire.Basic
import Synod.State

/-!
The binary forms of layouts, requests, responses, replies and states. An alternative is told by its
number in the order of declaration.
-/
namespace Synod.Wire

instance : Wire Layout where
  encode l := encode l.epoch ++ encode l.layoutServers ++ encode l.sequencers ++ encode l.logServers
  read := do
    let epoch ← read
    let layoutServers ← read
    let sequencers ← read
    let logServers ← read
    return ⟨epoch, layoutServers, sequencers, logServers⟩

/-- The number of an alternative. -/
def tag (n : UInt32) : Bytes := encode n

instance : Wire Request where
  encode
    | .bootstrap l => tag 0 ++ encode l
    | .getLayout => tag 1
    | .setEpoch e => tag 2 ++ encode e
    | .prepare r e => tag 3 ++ encode r ++ encode e
    | .propose r l e => tag 4 ++ encode r ++ encode l ++ encode e
    | .committed r l e => tag 5 ++ encode r ++ encode l ++ encode e
  read := do
    let n : UInt32 ← read
    if n = 0 then return .bootstrap (← read)
    else if n = 1 then return .getLayout
    else if n = 2 then return .setEpoch (← read)
    else if n = 3 then return .prepare (← read) (← read)
    else if n = 4 then return .propose (← read) (← read) (← read)
    else if n = 5 then return .committed (← read) (← read) (← read)
    else Reader.fail (.unknownVariant n 6)

instance : Wire Response where
  encode
    | .ack => tag 0
    | .alreadyBootstrapped => tag 1
    | .noBootstrap => tag 2
    | .layout l e => tag 3 ++ encode l ++ encode e
    | .wrongEpoch e => tag 4 ++ encode e
    | .prepareAck r l => tag 5 ++ encode r ++ encode l
    | .prepareReject r => tag 6 ++ encode r
    | .proposeReject p a => tag 7 ++ encode p ++ encode a
  read := do
    let n : UInt32 ← read
    if n = 0 then return .ack
    else if n = 1 then return .alreadyBootstrapped
    else if n = 2 then return .noBootstrap
    else if n = 3 then return .layout (← read) (← read)
    else if n = 4 then return .wrongEpoch (← read)
    else if n = 5 then return .prepareAck (← read) (← read)
    else if n = 6 then return .prepareReject (← read)
    else if n = 7 then return .proposeReject (← read) (← read)
    else Reader.fail (.unknownVariant n 8)

instance : Wire Reply where
  encode
    | .ok response => tag 0 ++ encode response
    | .error fault => tag 1 ++ encode fault
  read := do
    let n : UInt32 ← read
    if n = 0 then return .ok (← read)
    else if n = 1 then return .error (← read)
    else Reader.fail (.unknownOutcome n)

instance : Wire Accepted where
  encode a := encode a.rank ++ encode a.layout
  read := do
    let rank ← read
    let layout ← read
    return ⟨rank, layout⟩

instance : Wire State where
  encode s :=
    encode s.bootstrapped ++ encode s.epoch ++ encode s.layout ++ encode s.promised
      ++ encode s.accepted
  read := do
    let bootstrapped ← read
    let epoch ← read
    let layout ← read
    let promised ← read
    let accepted ← read
    return ⟨bootstrapped, epoch, layout, promised, accepted⟩

end Synod.Wire
