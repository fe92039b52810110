import Synod.Client
import Synod.Node

/-! What a connection may lead to: a node, or a peer that answers from a script. -/
namespace Synod

/-- A peer that reads one frame for each element of its script and writes the bytes of the element,
or hangs up. It hangs up when the script is over. -/
structure Script where
  replies : List (Option Bytes)
  /-- The frames read so far, the last one first. -/
  received : List Bytes := []
deriving DecidableEq, Inhabited

namespace Script

def deliver (frame : Bytes) (s : Script) : (Bytes × Bool) × Script :=
  match s.replies with
  | [] => (([], true), s)
  | none :: _ => (([], true), ⟨[], frame :: s.received⟩)
  | some bytes :: rest => ((bytes, rest.isEmpty), ⟨rest, frame :: s.received⟩)

instance : Peer Script := ⟨deliver⟩

end Script

instance {σ : Type} [Store σ] : Peer (Node σ) where
  deliver stream n :=
    let (frames, _, closed, n) := n.serve stream
    ((frames.flatten, closed), n)

end Synod
