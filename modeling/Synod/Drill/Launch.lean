import Synod.Drill.Shell

/-!
Launches of the node program in a workspace, one after another, with its data changed in between.
-/
namespace Synod.Drill

inductive LaunchStep where
  | file (step : FileStep)
  | launch (args : List String) (requests : List Request)

/-- What a launch comes to. -/
inductive Launched where
  | file (outcome : Outcome)
  | exited (code : Nat) (errors : List String)
  | served (results : List (Except Error Response))

/-- The lines of a text. A line ends in a line feed, which a carriage return may precede. -/
def textLines (text : String) : List String :=
  let pieces := text.splitOn "\n"
  (pieces.dropLast.map fun line => (line.dropSuffix "\r").copy) ++ pieces.getLast?.toList

/-- The lines in which the node program tells why it stops, as far as they begin with its mark. -/
def complaints (text : String) : List String :=
  let mark := "[ERROR]: "
  (textLines (mark ++ text)).filter (·.startsWith mark)

/-- Where the directory of a node stands, if it is given one. -/
def berth (w : Workspace) : Option String → Except IoError (Option Path) × Workspace
  | none => (.ok none, w)
  | some text =>
    let (outcome, w) := w.makePath text
    (outcome.map some, w)

def mediumAt (w : Workspace) (text : Option String) (p : Option Path) : Medium :=
  match text, p with
  | some text, some p => .directory text (w.directory? p)
  | _, _ => .memory {}

/-- Puts back what a node left of its medium. -/
def putBack (w : Workspace) (p : Option Path) : Medium → Workspace
  | .memory _ => w
  | .directory _ place => (p.map fun p => w.withDirectory p place).getD w

/-- Starts the node program, sends it requests over one connection, and ends it. -/
def launch (link : Link) (w : Workspace) (args : List String) (requests : List Request) :
    Attempt (Launched × Workspace) :=
  match Options.node? args with
  | none => .ok (.exited 1 [], w)
  | some options =>
    match options.layout.mapM (Layout.load w) with
    | .error e => .ok (.exited 1 (complaints e.message), w)
    | .ok seed =>
      match berth w options.directory with
      | (.error e, w) => .ok (.exited 1 (complaints (StorageError.io e).message), w)
      | (.ok p, w) =>
        match Node.start (mediumAt w options.directory p) seed with
        | .error (e, m) => .ok (.exited 1 (complaints e.message), putBack w p m)
        | .ok n => do
          let (results, n) ← Setup.sendAll link requests n
          return (.served results, putBack w p n.stop)

/-- A step on the directory at a path. -/
def fileStep (w : Workspace) (p : Path) : FileStep → Outcome × Workspace
  | .listFiles => (.files (w.names p), w)
  | step =>
    let (outcome, place) := step.onPlace (w.directory? p)
    (outcome, w.withDirectory p place)

/-- Launches one after another, and steps on the directory at a path in between. -/
def exerciseLaunches (link : Link) (data : Path) (w : Workspace) :
    List LaunchStep → Attempt (List Launched)
  | [] => .ok []
  | .file step :: steps => do
    let (outcome, w) := fileStep w data step
    let rest ← exerciseLaunches link data w steps
    return .file outcome :: rest
  | .launch args requests :: steps => do
    let (launched, w) ← launch link w args requests
    return launched :: (← exerciseLaunches link data w steps)

end Synod.Drill
