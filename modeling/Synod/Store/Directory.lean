import Synod.Error

/-!
The directory of one node: the record, the temporary file that the next record is written to, and
the lock file. Whoever holds the lock has the directory to itself.
-/
namespace Synod

/-- What stands under a name in a directory. -/
inductive Entry where
  | file (content : Bytes)
  | folder
deriving DecidableEq

structure Directory where
  record : Option Entry := none
  temp : Option Entry := none
  lock : Option Entry := none
  /-- Whether a store holds the lock file. -/
  held : Bool := false
deriving DecidableEq

/-- The place of a node's directory, which may be missing. -/
abbrev Place := Option Directory

namespace Directory

def recordName : String := "acceptor.state"

def tempName : String := "acceptor.state.tmp"

def lockName : String := "acceptor.lock"

/-- The names present, in order. -/
def names (d : Directory) : List String :=
  (if d.lock.isSome then [lockName] else [])
    ++ (if d.record.isSome then [recordName] else [])
    ++ (if d.temp.isSome then [tempName] else [])

/-- The content of the record; a directory in its place cannot be read. -/
def read? (d : Directory) : Except OsError (Option Bytes) :=
  match d.record with
  | none => .ok none
  | some (.file content) => .ok (some content)
  | some .folder => .error .isADirectory

end Directory

/-- One step of a save. -/
inductive SaveStep where
  | createTemp
  | writeTemp (content : Bytes)
  | syncTemp
  | renameTemp
  | syncDirectory
deriving DecidableEq

namespace SaveStep

/-- The effect of a step on the directory it is taken in. -/
def run : SaveStep → Place → Except OsError Place
  | _, none => .error .notFound
  | createTemp, some d =>
    match d.temp with
    | some .folder => .error .isADirectory
    | _ => .ok (some { d with temp := some (.file []) })
  | writeTemp content, some d => .ok (some { d with temp := some (.file content) })
  | syncTemp, some d => .ok (some d)
  | renameTemp, some d =>
    match d.temp, d.record with
    | none, _ => .error .notFound
    | some _, some .folder => .error .isADirectory
    | some e, _ => .ok (some { d with record := some e, temp := none })
  | syncDirectory, some d => .ok (some d)

/-- The steps that replace the record. -/
def all (content : Bytes) : List SaveStep :=
  [createTemp, writeTemp content, syncTemp, renameTemp, syncDirectory]

/-- Takes steps in order up to the first that fails. -/
def takeAll {m : Type → Type} [Monad m] (take : SaveStep → m (Except IoError Unit)) :
    List SaveStep → m (Except IoError Unit)
  | [] => return .ok ()
  | step :: steps => do
    match ← take step with
    | .ok () => takeAll take steps
    | .error e => return .error e

/-- Takes a step in a place, which stays as it is if the step fails. -/
def takeIn (step : SaveStep) : StateM Place (Except IoError Unit) :=
  modifyGet fun place =>
    match step.run place with
    | .ok next => (.ok (), next)
    | .error e => (.error (.os e), place)

def runAll (steps : List SaveStep) (place : Place) : Except IoError Unit × Place :=
  (takeAll takeIn steps).run place

theorem runAll_cons (step : SaveStep) (steps : List SaveStep) (place : Place) :
    runAll (step :: steps) place =
      match step.run place with
      | .ok next => runAll steps next
      | .error e => (.error (.os e), place) := by
  cases h : step.run place with
  | ok next => simp [runAll, takeAll, takeIn, h]
  | error e =>
    simp only [runAll, takeAll, takeIn, StateT.run_bind, StateT.run_modifyGet, h]
    rfl

end SaveStep
end Synod
