import Synod.Acceptor
import Synod.Drill.Outcome

/-!
Exercises of an acceptor: requests, restarts, faults of the store and changes to its directory.
-/
namespace Synod.Drill

inductive AcceptorStep where
  | request (request : Request)
  | restart
  /-- Sets whether loads and saves of a memory store fail from now on. -/
  | breakStore (load save : Bool)
  | stored
  | file (step : FileStep)

/-- An acceptor at work, or what it would be opened from. -/
inductive Workplace where
  | vacant (medium : Medium)
  | working (acceptor : Acceptor Storage)

namespace Workplace

def state? : Workplace → Option State
  | vacant _ => none
  | working a => some a.state

def leave : Workplace → Medium
  | vacant m => m
  | working a => a.store.release

def start (m : Medium) : Outcome × Workplace :=
  match m.acquire with
  | .error (e, m) => (.storageFault e, vacant m)
  | .ok s => match Acceptor.recover s with
    | .ok a => (.done, working a)
    | .error e => (.storageFault e, vacant s.release)

def onMemory (change : MemoryStore → MemoryStore) : Workplace → Workplace
  | vacant (.memory m) => vacant (.memory (change m))
  | working a => match a.store with
    | .memory m => working { a with store := .memory (change m) }
    | .file _ => working a
  | other => other

def stored : Workplace → Outcome
  | vacant (.memory m) => told m.load
  | working a => told a.store.load
  | vacant (.directory _ _) => .notOpen
where
  told : Except StorageError State → Outcome
    | .ok s => .state s
    | .error e => .storageFault e

def step (w : Workplace) (beside : Place) : AcceptorStep → Outcome × Workplace × Place
  | .request r =>
    match w with
    | vacant _ => (.notOpen, w, beside)
    | working a => match a.handle r with
      | (.ok response, a) => (.response response, working a, beside)
      | (.error e, a) => (.storageFault e, working a, beside)
  | .restart => let (o, w) := start w.leave; (o, w, beside)
  | .breakStore load save =>
    (.done, w.onMemory fun m => { m with readFault := load, writeFault := save }, beside)
  | .stored => (w.stored, w, beside)
  | .file fileStep =>
    match w with
    | vacant m => let (o, m, beside) := fileStep.onMedium m beside; (o, vacant m, beside)
    | working a =>
      let (o, store, beside) := fileStep.onStorage a.store beside
      (o, working { a with store }, beside)

/-- The outcomes of steps taken in order, each with the state after it. -/
def run (w : Workplace) (beside : Place) : List AcceptorStep → List (Outcome × Option State)
  | [] => []
  | s :: steps =>
    let (outcome, w, beside) := w.step beside s
    (outcome, w.state?) :: run w beside steps

/-- Saves a state before anything is opened. -/
def prepare (m : Medium) : Option State → Medium
  | none => m
  | some state => match m.acquire with
    | .ok s => (s.save state).2.release
    | .error (_, m) => m

/-- Opens an acceptor, then takes steps. -/
def exercise (m : Medium) (saved : Option State) (steps : List AcceptorStep) :
    List (Outcome × Option State) :=
  let (outcome, w) := start (prepare m saved)
  (outcome, w.state?) :: run w none steps

end Workplace
end Synod.Drill
