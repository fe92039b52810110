import Synod.Error
import Synod.Frame
import Synod.Wire.Message

/-!
A connection to a node as its caller sees it: one request is sent, then its reply awaited. Bytes
that arrive early are kept for the next reply.
-/
namespace Synod

/-- Whether connections within the host can be made. -/
inductive Link where
  | up
  | down
deriving DecidableEq

/-- Opening a connection to a port at which something listens or not. -/
def Link.dial (link : Link) (listening : Bool) : Except IoError Unit :=
  match link, listening with
  | .down, _ => .error (.os .networkUnreachable)
  | .up, true => .ok ()
  | .up, false => .error (.os .connectionRefused)

/-- The far end of a connection. Given the bytes of a frame it writes bytes back and may hang up. -/
class Peer (π : Type) where
  deliver : Bytes → π → (Bytes × Bool) × π

/-- The near end of a connection. -/
structure Client where
  inbound : Bytes := []
  /-- Whether the far end has hung up. -/
  ended : Bool := false
  /-- Whether the stream could not be taken apart; nothing more is read from it. -/
  broken : Bool := false
deriving DecidableEq, Inhabited

namespace Client

/-- The reply in the contents of a frame. -/
def replyOf (body : Bytes) : Except Error Response :=
  match (Wire.decode body : Except WireError Reply) with
  | .error e => .error (.codec e)
  | .ok (.error text) => .error (.remote text)
  | .ok (.ok response) => .ok response

/-- Takes the next reply from what has arrived. A stream without a complete frame counts as ended,
since nothing more is written until the next request. -/
def receive (c : Client) : Except Error Response × Client :=
  if c.broken then (.error .closed, c)
  else match Frame.front c.inbound with
    | .frame body rest => (replyOf body, { c with inbound := rest })
    | .oversized => (.error (.io .oversizedFrame), { c with broken := true })
    | .unfinished =>
      if Frame.isCut c.inbound then (.error (.io .cutFrame), { c with broken := true })
      else (.error .closed, c)

variable {π : Type} [Peer π]

/-- Sends a request and takes its reply. -/
def send (c : Client) (peer : π) (request : Request) : Except Error Response × Client × π :=
  let body := Wire.encode request
  if Frame.limit < body.length then (.error (.io .oversizedFrame), c, peer)
  else if c.ended then
    let (outcome, c) := c.receive
    (outcome, c, peer)
  else
    let ((written, hangsUp), peer) := Peer.deliver (Frame.encode body) peer
    let (outcome, c) := receive { c with inbound := c.inbound ++ written, ended := hangsUp }
    (outcome, c, peer)

end Client
end Synod
