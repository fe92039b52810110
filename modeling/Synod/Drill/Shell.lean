import Synod.Drill.Node
import Synod.Options
import Synod.Shell.Session

/-!
Whole runs of the shell: its options, its standard input, and the nodes and peers it can reach.
-/
namespace Synod.Drill

/-- What listens at a port. -/
inductive Listener where
  | node (node : Node Storage)
  | script (script : Script)

structure Endpoint where
  port : UInt16
  listener : Listener
  /-- Whether a new connection is taken; a scripted peer takes one only. -/
  accepting : Bool := true

namespace Endpoint

/-- A scripted peer does not take another connection. -/
def connected (e : Endpoint) : Endpoint :=
  match e.listener with
  | .node _ => e
  | .script _ => { e with accepting := false }

def send (e : Endpoint) (c : Client) (request : Request) :
    Except Error Response × Client × Endpoint :=
  match e.listener with
  | .node n =>
    let (outcome, c, n) := c.send n request
    (outcome, c, { e with listener := .node n })
  | .script s =>
    let (outcome, c, s) := c.send s request
    (outcome, c, { e with listener := .script s })

/-- A tree of files with the directory of the node in it, if it has one. -/
def mounted (w : Workspace) (e : Endpoint) : Workspace :=
  match e.listener with
  | .node ⟨⟨_, .file store⟩, _⟩ =>
    match w.resolve store.path with
    | .ok p => w.withDirectory p store.place
    | .error _ => w
  | _ => w

end Endpoint

/-- A shell at work: its session, the near end of its connection, and what it can reach. -/
structure Bench where
  link : Link
  workspace : Workspace
  session : Shell.Session
  client : Client := {}
  endpoints : List Endpoint

namespace Bench

def replace (b : Bench) (e : Endpoint) : Bench :=
  { b with endpoints := b.endpoints.map fun f => if f.port = e.port then e else f }

def endpoint? (b : Bench) (port : UInt16) : Option Endpoint :=
  b.endpoints.find? fun e => e.port = port

/-- The files that the shell can read, the directories of the nodes among them. -/
def files (b : Bench) : Workspace :=
  b.endpoints.foldl (fun w e => e.mounted w) b.workspace

def dial (b : Bench) (port : UInt16) : String × Bench :=
  let found := (b.endpoint? port).filter Endpoint.accepting
  let outcome := b.link.dial found.isSome
  let (line, session) := b.session.dialled port (outcome.mapError .io)
  let b := { b with session, client := {} }
  match outcome, found with
  | .ok (), some e => (line, b.replace e.connected)
  | _, _ => (line, b)

def ask (b : Bench) (request : Request) : String × Bench :=
  match b.session.connection.bind b.endpoint? with
  | none =>
    let (line, session) := b.session.heard (.error .closed)
    (line, { b with session })
  | some e =>
    let (outcome, client, e) := e.send b.client request
    let (line, session) := b.session.heard outcome
    (line, { b with session, client }.replace e)

/-- What a line of input makes the shell print. -/
def line (b : Bench) (text : String) : List String × Bench :=
  match b.session.enter (Layout.load b.files) text with
  | (.say lines, session) => (lines, { b with session })
  | (.dial port, session) =>
    let (line, b) := { b with session }.dial port
    ([line], b)
  | (.ask lines request, session) =>
    let (line, b) := { b with session }.ask request
    (lines ++ [line], b)

/-- Lines of input, each with its end if it has one. -/
def inputLines (input : Bytes) : List Bytes :=
  go input []
where
  go : Bytes → Bytes → List Bytes
    | [], [] => []
    | [], done => [done.reverse]
    | b :: bs, done => if b = 0x0A then (b :: done).reverse :: go bs [] else go bs (b :: done)

def print (lines : List String) : String := String.join (lines.map (· ++ "\n"))

/-- What is printed from the first prompt on, and the shell at the end. -/
def read (b : Bench) : List Bytes → String × Bench
  | [] => (Shell.Session.prompt, b)
  | bytes :: rest =>
    match Text.decode bytes with
    | .error e => (Shell.Session.prompt ++ print [Shell.Session.unreadable e], b)
    | .ok text =>
      let (lines, b) := b.line text
      let (later, b) := read b rest
      (Shell.Session.prompt ++ print lines ++ later, b)

/-- What a whole session prints, and the shell at the end. -/
def run (b : Bench) (port : Option UInt16) (input : Bytes) : String × Bench :=
  let (first, b) := match port with
    | some port => let (line, b) := b.dial port; ([line], b)
    | none => ([], b)
  let (rest, b) := b.read (inputLines input)
  (print (first ++ [b.session.greeting]) ++ rest, b)

end Bench

/-- What stands behind a port before the shell starts. -/
inductive Setup where
  | node (medium : Medium) (seed : Option Layout) (requests : List Request) (removed : Bool)
  | script (script : Script)

namespace Setup

/-- Sends requests over one connection. -/
def sendAll (link : Link) (requests : List Request) (n : Node Storage) :
    Attempt (List (Except Error Response) × Node Storage) :=
  match link.dial true with
  | .error e => .error (.client (.io e))
  | .ok () => .ok (go {} n requests)
where
  go (c : Client) (n : Node Storage) :
      List Request → List (Except Error Response) × Node Storage
    | [] => ([], n)
    | r :: requests =>
      let (outcome, c, n) := c.send n r
      let (outcomes, n) := go c n requests
      (outcome :: outcomes, n)

/-- Brings a listener up; a node is sent its requests, and may lose its directory. -/
def establish (link : Link) (port : UInt16) : Setup → Attempt Endpoint
  | script s => return ⟨port, .script s, true⟩
  | node m seed requests removed => do
    match Node.start m seed with
    | .error (e, _) => .error (.client (.storage e))
    | .ok n =>
      let (_, n) ← sendAll link requests n
      let store := n.acceptor.store
      let store := if removed then store.tamper .removeDirectory else store
      return ⟨port, .node { n with acceptor := { n.acceptor with store } }, true⟩

end Setup

structure ShellRun where
  exit : Nat
  output : String
  /-- What each node answers to a layout query afterwards. -/
  nodes : List (Except Error Response)

/-- Runs the shell against what is set up at the given ports. -/
def exerciseShell (link : Link) (w : Workspace) (proposer : ProposerId)
    (setups : List (UInt16 × Setup)) (args : List String) (input : Bytes) : Attempt ShellRun := do
  let endpoints ← setups.mapM fun (port, setup) => setup.establish link port
  let (exit, output, endpoints) :=
    match Options.shell? args with
    | none => (1, "", endpoints)
    | some options =>
      let bench : Bench := { link, workspace := w, session := { proposer }, endpoints }
      let (output, bench) := bench.run options.port input
      (0, output, bench.endpoints)
  let answers ← endpoints.mapM fun e =>
    match e.listener with
    | .script _ => return []
    | .node n => do return (← Setup.sendAll link [.getLayout] n).1
  return ⟨exit, output, answers.flatten⟩

end Synod.Drill
