import Synod.Store.Tamper

/-! What the steps of an exercise show. -/
namespace Synod.Drill

inductive Outcome where
  | done
  | path (text : String)
  | state (state : State)
  | record (content : Option Bytes)
  | files (names : List String)
  | response (response : Response)
  | snapshot (snapshot : Snapshot)
  | frames (frames : List Bytes)
  | storageFault (cause : StorageError)
  | fault (cause : Error)
  | notOpen
  | notRunning
deriving Inhabited

/-- A look at a node's directory, or a change to it from outside. -/
inductive FileStep where
  | change (tamper : Tamper)
  | showRecord
  | listFiles

namespace FileStep

def record (place : Place) : Option Bytes :=
  match place with
  | some d => match d.record with
    | some (.file content) => some content
    | _ => none
  | none => none

def files (place : Place) : List String :=
  match place with
  | some d => d.names
  | none => []

/-- What a step shows of the directory it finds. -/
def outcome (step : FileStep) (place : Place) : Outcome :=
  match step with
  | change _ => .done
  | showRecord => .record (record place)
  | listFiles => .files (files place)

/-- A step on a directory that no store of the exercise works in. -/
def onPlace (step : FileStep) (place : Place) : Outcome × Place :=
  match step with
  | change t => (.done, t.apply place)
  | _ => (step.outcome place, place)

/-- A step on the directory of a medium, or on the one beside a medium without. -/
def onMedium (step : FileStep) (m : Medium) (beside : Place) : Outcome × Medium × Place :=
  match m with
  | .memory _ => let (o, beside) := step.onPlace beside; (o, m, beside)
  | .directory path place =>
    let (o, place) := step.onPlace place
    (o, .directory path place, beside)

/-- A step on the directory that a store works in, or on the one beside a store without. -/
def onStorage (step : FileStep) (s : Storage) (beside : Place) : Outcome × Storage × Place :=
  match s, step with
  | .memory _, _ => let (o, beside) := step.onPlace beside; (o, s, beside)
  | .file _, change t => (.done, s.tamper t, beside)
  | .file f, _ => (step.outcome f.place, s, beside)

end FileStep
end Synod.Drill
