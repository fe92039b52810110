import Synod.Path
import Synod.Record
import Synod.Store.Basic
import Synod.Store.Directory

/-!
A store in a directory. It holds the directory's lock from the moment it is acquired until it is
released, and replaces the record in one step by renaming.
-/
namespace Synod

structure FileStore where
  path : String
  place : Place
  /-- Whether the lock taken is the one that stands in the directory now. -/
  owner : Bool
deriving DecidableEq

namespace FileStore

/-- Whether a name in the directory at a path can be told to the operating system. -/
def reach (path name : String) : Except OsError Unit :=
  if Path.fits (Path.join path name) then .ok () else .error .nameTooLong

/-- Whether the directory at a path can itself be opened to be synced. Nothing is found at the empty
path, though the files named relative to it are. -/
def reachSelf (path : String) : Except OsError Unit :=
  if path = "" then .error .notFound else .ok ()

/-- Removes what an interrupted save left behind, if it can be reached. -/
def clear (path : String) (d : Directory) : Except OsError Directory :=
  match reach path Directory.tempName, d.temp with
  | .ok (), some .folder => .error .isADirectory
  | .ok (), _ => .ok { d with temp := none }
  | .error _, _ => .ok d

/-- The lock file of a directory, made if it is missing. -/
def lockFile (path : String) (d : Directory) : Except OsError Entry :=
  match reach path Directory.lockName, d.lock with
  | .error e, _ => .error e
  | .ok (), some .folder => .error .isADirectory
  | .ok (), some (.file content) => .ok (.file content)
  | .ok (), none => .ok (.file [])

/-- Creates the directory and its lock file if they are missing, takes the lock and removes a
temporary file. What fails leaves the directory as it is then, with the lock free unless another
store holds it. -/
def acquire (path : String) (place : Place) : Except (StorageError × Place) FileStore :=
  let d := place.getD {}
  match lockFile path d with
  | .error e => .error (.io (.os e), some d)
  | .ok lock =>
    if d.held then .error (.locked path, place)
    else match clear path { d with lock := some lock } with
      | .ok d => .ok ⟨path, some { d with held := true }, true⟩
      | .error e => .error (.io (.os e), some { d with lock := some lock })

/-- Lets go of the lock and leaves the directory. -/
def release (f : FileStore) : Place :=
  if f.owner then f.place.map fun d => { d with held := false } else f.place

def recordPath (f : FileStore) : String := Path.join f.path Directory.recordName

def load (f : FileStore) : Except StorageError State :=
  match reach f.path Directory.recordName, f.place with
  | .error e, _ => .error (.io (.os e))
  | .ok (), none => .ok .initial
  | .ok (), some d =>
    match d.read? with
    | .error e => .error (.io (.os e))
    | .ok none => .ok .initial
    | .ok (some content) => Record.decode content

/-- Replaces the record of a directory by steps that are taken in it. The temporary file has the
longest name, so that with it the others are reached too. The last step opens the directory. -/
def saveBy {m : Type → Type} [Monad m] (take : SaveStep → m (Except IoError Unit)) (path : String)
    (s : State) : m (Except StorageError Unit) :=
  match reach path Directory.tempName with
  | .error e => return .error (.io (.os e))
  | .ok () => do
    let outcome ← SaveStep.takeAll take (SaveStep.all (Record.encode s))
    return (outcome.bind fun _ => (reachSelf path).mapError .os).mapError .io

def save (s : State) (f : FileStore) : Except StorageError Unit × FileStore :=
  let (outcome, place) := (saveBy SaveStep.takeIn f.path s).run f.place
  (outcome, { f with place })

theorem save_eq (s : State) (f : FileStore) : f.save s =
    match reach f.path Directory.tempName with
    | .error e => (.error (.io (.os e)), f)
    | .ok () =>
      let (outcome, place) := SaveStep.runAll (SaveStep.all (Record.encode s)) f.place
      ((outcome.bind fun _ => (reachSelf f.path).mapError .os).mapError .io, { f with place }) := by
  unfold save saveBy
  cases reach f.path Directory.tempName <;> rfl

instance : Store FileStore := ⟨load, save⟩

end FileStore

/-- What a store is acquired from, and what it leaves when it is released. -/
inductive Medium where
  | memory (store : MemoryStore)
  | directory (path : String) (place : Place)
deriving DecidableEq

/-- A store of either kind. -/
inductive Storage where
  | memory (store : MemoryStore)
  | file (store : FileStore)
deriving DecidableEq

namespace Storage

def load : Storage → Except StorageError State
  | memory m => m.load
  | file f => f.load

def save (s : State) : Storage → Except StorageError Unit × Storage
  | memory m => let (outcome, m) := m.save s; (outcome, memory m)
  | file f => let (outcome, f) := f.save s; (outcome, file f)

instance : Store Storage := ⟨load, save⟩

def release : Storage → Medium
  | memory m => .memory m
  | file f => .directory f.path f.release

end Storage

def Medium.acquire : Medium → Except (StorageError × Medium) Storage
  | memory m => .ok (.memory m)
  | directory path place =>
    match FileStore.acquire path place with
    | .ok f => .ok (.file f)
    | .error (e, place) => .error (e, .directory path place)

/-- What remains of a medium once its store is let go of. A memory store is gone. -/
def Medium.forget : Medium → Medium
  | memory _ => memory {}
  | m => m

end Synod
