import Synod.Layout

/-!
What is asked of a node and what it answers. A rejection is an ordinary response, a fault is not.
-/
namespace Synod

inductive Request where
  | bootstrap (layout : Layout)
  | getLayout
  | setEpoch (epoch : UInt64)
  | prepare (rank : Rank) (epoch : UInt64)
  | propose (rank : Rank) (layout : Layout) (epoch : UInt64)
  | committed (rank : Rank) (layout : Layout) (epoch : UInt64)
deriving DecidableEq, Inhabited

namespace Request

/-- The epoch stamped on a request; some requests carry none. -/
def epoch? : Request → Option UInt64
  | bootstrap _ | getLayout | setEpoch _ => none
  | prepare _ e | propose _ _ e | committed _ _ e => some e

def kind : Request → String
  | bootstrap _ => "bootstrap"
  | getLayout => "get-layout"
  | setEpoch _ => "set-epoch"
  | prepare _ _ => "prepare"
  | propose _ _ _ => "propose"
  | committed _ _ _ => "committed"

instance : Shown Request where
  shown
    | bootstrap l => Shown.record "Bootstrap" [("layout", shown l)]
    | getLayout => "GetLayout"
    | setEpoch e => Shown.record "SetEpoch" [("epoch", shown e)]
    | prepare r e => Shown.record "Prepare" [("rank", shown r), ("epoch", shown e)]
    | propose r l e =>
      Shown.record "Propose" [("rank", shown r), ("layout", shown l), ("epoch", shown e)]
    | committed r l e =>
      Shown.record "Committed" [("rank", shown r), ("layout", shown l), ("epoch", shown e)]

end Request

inductive Response where
  | ack
  | alreadyBootstrapped
  | noBootstrap
  | layout (layout : Layout) (epoch : UInt64)
  | wrongEpoch (epoch : UInt64)
  | prepareAck (rank : Option Rank) (layout : Option Layout)
  | prepareReject (promised : Option Rank)
  | proposeReject (promised accepted : Option Rank)
deriving DecidableEq, Inhabited

namespace Response

/-- Whether the request was refused by the rules of the round. -/
def isReject : Response → Bool
  | ack | layout _ _ | prepareAck _ _ => false
  | alreadyBootstrapped | noBootstrap | wrongEpoch _ | prepareReject _ | proposeReject _ _ => true

instance : Shown Response where
  shown
    | ack => "Ack"
    | alreadyBootstrapped => "AlreadyBootstrapped"
    | noBootstrap => "NoBootstrap"
    | layout l e => Shown.record "Layout" [("layout", shown l), ("epoch", shown e)]
    | wrongEpoch e => Shown.tuple "WrongEpoch" [shown e]
    | prepareAck r l => Shown.record "PrepareAck" [("rank", shown r), ("layout", shown l)]
    | prepareReject r => Shown.tuple "PrepareReject" [shown r]
    | proposeReject p a => Shown.record "ProposeReject" [("phase1", shown p), ("phase2", shown a)]

end Response

/-- What a node sends back: a response, or the text of the fault that kept it from answering. -/
abbrev Reply := Except String Response

instance : Shown Reply where
  shown
    | .ok response => Shown.tuple "Ok" [shown response]
    | .error fault => Shown.tuple "Err" [shown fault]

end Synod
