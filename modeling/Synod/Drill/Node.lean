import Synod.Drill.Outcome
import Synod.Peer

/-!
Exercises of a running node: requests and raw bytes over connections, stops and starts, and other
nodes that want the same directory or address.
-/
namespace Synod.Drill

inductive NodeAct where
  | send (client : Nat) (request : Request)
  /-- Sends bytes on a connection of their own and reads to its end. -/
  | raw (bytes : Bytes)
  | hangUp (client : Nat)
  | stop
  | start (seed : Option Layout)
  /-- Brings up another node with the same settings and drops it at once. -/
  | second (seed : Option Layout)
  /-- Binds another node to the address of the running one. -/
  | clash

inductive NodeStep where
  | act (act : NodeAct)
  | file (step : FileStep)

/-- A running node and the connections to it that were left open at a frame, or what a node would be
started from. -/
inductive Site where
  | down (medium : Medium)
  | up (node : Node Storage) (clients : List (Nat × Client))

/-- Why an exercise cannot go on: a node it needs, or its own client, fails, or its own bare stream
does. -/
inductive Cutoff where
  | client (cause : Error)
  | stream (cause : IoError)
deriving DecidableEq

def Cutoff.message : Cutoff → String
  | client cause => cause.message
  | stream cause => cause.message

/-- What comes of an exercise unless it is cut off. -/
abbrev Attempt := Except Cutoff

namespace Site

def leave : Site → Medium
  | down m => m
  | up n _ => n.stop.forget

def begin (m : Medium) (seed : Option Layout) : Outcome × Site :=
  match Node.start m seed with
  | .ok n => (.snapshot n.published, up n [])
  | .error (e, m) => (.fault (.storage e), down m)

/-- Another node on the same medium, beside the running one if there is one. -/
def second (seed : Option Layout) (site : Site) : Outcome × Site :=
  let tried (m : Medium) : Outcome × Medium :=
    match Node.start m seed with
    | .ok n => (.snapshot n.published, n.stop.forget)
    | .error (e, m) => (.fault (.storage e), m)
  match site with
  | down m => let (o, m) := tried m; (o, down m)
  | up n clients =>
    let store := n.acceptor.store
    let (o, m) := tried store.outside
    (o, up { n with acceptor := { n.acceptor with store := store.withOutside m } } clients)

def send (link : Link) (id : Nat) (request : Request) (n : Node Storage)
    (clients : List (Nat × Client)) : Attempt (Outcome × Site) :=
  let known := clients.find? fun (i, _) => i = id
  match if known.isSome then .ok () else link.dial true with
  | .error e => .error (.client (.io e))
  | .ok () =>
    let (outcome, c, n) := ((known.map Prod.snd).getD {}).send n request
    let clients := (id, c) :: clients.filter fun (i, _) => i ≠ id
    match outcome with
    | .ok response => .ok (.response response, up n clients)
    | .error e => .ok (.fault e, up n clients)

def step (link : Link) (site : Site) : NodeAct → Attempt (Outcome × Site)
  | .send id request =>
    match site with
    | down _ => .ok (.notRunning, site)
    | up n clients => send link id request n clients
  | .raw bytes =>
    match site with
    | down _ => .ok (.notRunning, site)
    | up n clients =>
      match link.dial true with
      | .error e => .error (.stream e)
      | .ok () =>
        let (frames, _, _, n) := n.serve bytes
        .ok (.frames frames, up n clients)
  | .hangUp id =>
    match site with
    | down _ => .ok (.done, site)
    | up n clients => .ok (.done, up n (clients.filter fun (i, _) => i ≠ id))
  | .stop => .ok (.done, down site.leave)
  | .start seed => .ok (begin site.leave seed)
  | .second seed => .ok (site.second seed)
  | .clash =>
    match site with
    | down _ => .ok (.notRunning, site)
    | up _ _ => .ok (.fault (.io (.os .addressInUse)), site)

/-- A step on the directory of the node, or on the one beside a node without. -/
def fileStep (site : Site) (beside : Place) (step : FileStep) : Outcome × Site × Place :=
  match site with
  | down m => let (o, m, beside) := step.onMedium m beside; (o, down m, beside)
  | up n clients =>
    let (o, store, beside) := step.onStorage n.acceptor.store beside
    (o, up { n with acceptor := { n.acceptor with store } } clients, beside)

/-- The outcomes of steps taken in order. -/
def run (link : Link) (site : Site) (beside : Place) : List NodeStep → Attempt (List Outcome)
  | [] => .ok []
  | .file s :: steps => do
    let (outcome, site, beside) := site.fileStep beside s
    return outcome :: (← run link site beside steps)
  | .act s :: steps => do
    let (outcome, site) ← site.step link s
    return outcome :: (← run link site beside steps)

/-- Starts a node, then takes steps. -/
def exercise (link : Link) (m : Medium) (seed : Option Layout) (steps : List NodeStep) :
    Attempt (List Outcome) := do
  let (outcome, site) := begin m seed
  return outcome :: (← run link site none steps)

end Site

/-- The frames that a scripted peer read, and the outcome of each request sent to it. -/
def exerciseClient (link : Link) (script : Script) (requests : List Request) :
    Attempt (List Bytes × List (Except Error Response)) :=
  match link.dial true with
  | .error e => .error (.client (.io e))
  | .ok () => .ok (go {} script requests)
where
  go (c : Client) (s : Script) : List Request → List Bytes × List (Except Error Response)
    | [] => (s.received.reverse, [])
    | r :: requests =>
      let (outcome, c, s) := c.send s r
      let (sent, outcomes) := go c s requests
      (sent, outcome :: outcomes)

end Synod.Drill
