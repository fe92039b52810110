import Synod.Drill.Outcome

/-!
Exercises of a store: opening, closing, loading and saving, with the directory changed in between.
-/
namespace Synod.Drill

inductive StoreStep where
  | acquire
  | acquireSecond
  | release
  | path
  | load
  | save (state : State)
  | file (step : FileStep)

/-- A store held open, or what it would be opened from. The directory at the path of the exercise
may be beside them. -/
inductive StoreHand where
  | empty (medium : Medium)
  | holding (store : Storage)

namespace StoreHand

def letGo : StoreHand → Medium
  | empty m => m
  | holding s => s.release.forget

def openMedium (m : Medium) : Outcome × StoreHand :=
  match m.acquire with
  | .ok s => (.done, holding s)
  | .error (e, m) => (.storageFault e, empty m)

/-- Opens a store beside the one held, looks at it, and lets go of it at once. -/
def second (look : Storage → Outcome) (hand : StoreHand) : Outcome × StoreHand :=
  let tried (m : Medium) : Outcome × Medium :=
    match m.acquire with
    | .ok s => (look s, s.release.forget)
    | .error (e, m) => (.storageFault e, m)
  match hand with
  | empty m => let (o, m) := tried m; (o, empty m)
  | holding s => let (o, m) := tried s.outside; (o, holding (s.withOutside m))

def pathOf : Storage → Outcome
  | .file f => .path f.recordPath
  | .memory _ => .done

/-- Opens a store in the directory beside a memory store, tells the path of its record, and lets go
of it. -/
def besidePath (path : String) (beside : Place) : Outcome × Place :=
  match FileStore.acquire path beside with
  | .ok f => (.path f.recordPath, f.release)
  | .error (e, place) => (.storageFault e, place)

def step (path : String) (hand : StoreHand) (beside : Place) :
    StoreStep → Outcome × StoreHand × Place
  | .acquire => let (o, hand) := openMedium hand.letGo; (o, hand, beside)
  | .acquireSecond => let (o, hand) := hand.second fun _ => .done; (o, hand, beside)
  | .release => (.done, empty hand.letGo, beside)
  | .path =>
    match hand with
    | empty (.memory _) | holding (.memory _) =>
      let (o, beside) := besidePath path beside
      (o, hand, beside)
    | _ => let (o, hand) := hand.second pathOf; (o, hand, beside)
  | .load =>
    match hand with
    | empty _ => (.notOpen, hand, beside)
    | holding s => match s.load with
      | .ok state => (.state state, hand, beside)
      | .error e => (.storageFault e, hand, beside)
  | .save state =>
    match hand with
    | empty _ => (.notOpen, hand, beside)
    | holding s => match s.save state with
      | (.ok (), s) => (.done, holding s, beside)
      | (.error e, s) => (.storageFault e, holding s, beside)
  | .file fileStep =>
    match hand with
    | empty m => let (o, m, beside) := fileStep.onMedium m beside; (o, empty m, beside)
    | holding s => let (o, s, beside) := fileStep.onStorage s beside; (o, holding s, beside)

/-- The outcomes of steps taken in order. -/
def run (path : String) (hand : StoreHand) (beside : Place) : List StoreStep → List Outcome
  | [] => []
  | s :: steps =>
    let (outcome, hand, beside) := hand.step path beside s
    outcome :: run path hand beside steps

end StoreHand
end Synod.Drill
