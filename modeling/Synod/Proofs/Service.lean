import Mathlib.Logic.Relation
import Synod.Proofs.Disk
import Synod.Proofs.History
import Synod.Proofs.Record

/-! An acceptor over a directory, with crashes at any point of a request and of an opening. -/
namespace Synod

namespace FileStore

variable {path : String} {d e : Directory} {f : FileStore} {s : State}

/-- The steps that saving a state takes. -/
def saveSteps (s : State) (f : FileStore) : List SaveStep :=
  match reach f.path Directory.tempName with
  | .ok () => SaveStep.all (Record.encode s)
  | .error _ => []

/-- What the opening of a store has made of its directory when a crash stops it. -/
inductive Opening (path : String) (d : Directory) : Directory → Prop where
  | untouched : Opening path d d
  | locked {lock : Entry} (h : lockFile path d = .ok lock) :
      Opening path d { d with lock := some lock }
  | cleared {lock : Entry} {e : Directory} (h : lockFile path d = .ok lock)
      (hc : clear path { d with lock := some lock } = .ok e) : Opening path d e

theorem lockFile_of_lock (hl : reach path Directory.lockName = .ok ())
    (h : d.lock ≠ some .folder) : ∃ content, lockFile path d = .ok (.file content) := by
  unfold lockFile
  rw [hl]
  split
  · contradiction
  · exact absurd (by assumption) h
  · exact ⟨_, rfl⟩
  · exact ⟨_, rfl⟩

theorem clear_of_temp (path : String) (h : d.temp ≠ some .folder) :
    ∃ t, clear path d = .ok { d with temp := t } ∧ t ≠ some .folder := by
  unfold clear
  split
  · exact absurd (by assumption) h
  · exact ⟨none, rfl, by simp⟩
  · exact ⟨d.temp, rfl, h⟩

theorem acquire_of_free (hl : reach path Directory.lockName = .ok ()) (h : d.Free) :
    ∃ t content, t ≠ some .folder ∧ acquire path (some d) =
      .ok ⟨path, some ⟨d.record, t, some (.file content), true⟩, true⟩ := by
  obtain ⟨content, hc⟩ := lockFile_of_lock hl h.lock
  obtain ⟨r, t, l, b⟩ := d
  obtain ⟨ht, _, rfl⟩ := h
  obtain ⟨u, hu, hf⟩ := clear_of_temp (d := ⟨r, t, some (.file content), false⟩) path ht
  refine ⟨u, content, hf, ?_⟩
  simp [acquire, hc, hu]

theorem record_of_opening (ht : d.temp ≠ some .folder) (h : Opening path d e) :
    e.record = d.record := by
  cases h with
  | untouched => rfl
  | locked => rfl
  | @cleared lock _ _ hc =>
    obtain ⟨t, hu, _⟩ := clear_of_temp (d := { d with lock := some lock }) path ht
    rw [hu] at hc
    obtain rfl := Except.ok.inj hc
    rfl

theorem reach_of_lockFile {lock : Entry} (h : lockFile path d = .ok lock) :
    reach path Directory.lockName = .ok () := by
  cases hr : reach path Directory.lockName with
  | error e => simp [lockFile, hr] at h
  | ok => rfl

/-- How opening a store succeeds. -/
theorem acquire_cases {place : Place} (h : acquire path place = .ok f) : ∃ lock e,
    lockFile path (place.getD {}) = .ok lock ∧
      clear path { place.getD {} with lock := some lock } = .ok e ∧
      f = ⟨path, some { e with held := true }, true⟩ := by
  simp only [acquire] at h
  cases hl : lockFile path (place.getD {}) with
  | error e => simp [hl] at h
  | ok lock =>
    simp only [hl] at h
    split at h
    · simp at h
    · cases hc : clear path { place.getD {} with lock := some lock } with
      | error e => simp [hc] at h
      | ok e =>
        simp only [hc] at h
        exact ⟨lock, e, rfl, hc, (Except.ok.inj h).symm⟩

theorem reach_of_acquire {place : Place} (h : acquire path place = .ok f) :
    reach path Directory.lockName = .ok () ∧ f.path = path := by
  obtain ⟨lock, e, hl, _, rfl⟩ := acquire_cases h
  exact ⟨reach_of_lockFile hl, rfl⟩

theorem reach_of_load (h : f.load = .ok s) : reach f.path Directory.recordName = .ok () := by
  cases hr : reach f.path Directory.recordName with
  | error e => simp [load, hr] at h
  | ok => rfl

end FileStore

namespace Acceptor

/-- The steps on the directory that handling a request takes. -/
def steps (a : Acceptor FileStore) (q : Request) : List SaveStep :=
  match a.state.judge q with
  | .keep _ => []
  | .move next _ => a.store.saveSteps next

/-- An acceptor in memory whose store is in order. -/
def memory (s : State) : Acceptor MemoryStore := ⟨s, { state := s }⟩

variable {s t : State} {q : Request} {r : Response} {path : String} {k : Disk}

/-- The directory that a store is left with is the one on the disk once the steps are taken. -/
theorem place_handle {a : Acceptor FileStore} (h : a.store.place = some k.live) (q : Request) :
    (a.handle q).2.store.place = some (k.run (a.steps q)).live := by
  unfold handle steps
  cases a.state.judge q with
  | keep r => exact h
  | move t r =>
    have hlive := Disk.live_run (SaveStep.all (Record.encode t)) k
    simp only [Store.save, FileStore.save_eq, FileStore.saveSteps]
    cases FileStore.reach a.store.path Directory.tempName with
    | error e => exact h
    | ok =>
      simp only [h, ← hlive]
      cases (SaveStep.runAll (SaveStep.all (Record.encode t)) (some k.live)).1 with
      | error e => rfl
      | ok =>
        cases FileStore.reachSelf a.store.path with
        | error e => rfl
        | ok => rfl

theorem handle_memory_keep (h : s.judge q = .keep r) :
    (memory s).handle q = (.ok r, memory s) := by
  simp [handle, memory, h]

theorem handle_memory_move (h : s.judge q = .move t r) :
    (memory s).handle q = (.ok r, memory t) := by
  simp [handle, memory, h, Store.save, MemoryStore.save]

/-- An acceptor over a directory that it has locked. -/
def onDisk (path : String) (k : Disk) (s : State) : Acceptor FileStore :=
  ⟨s, ⟨path, some k.live, true⟩⟩

/-- What handling a request comes to: a request that moves the state saves the next one as a whole,
or it fails because the temporary file cannot be reached. -/
theorem handle_cases (hk : k.Steady) (hself : FileStore.reachSelf path = .ok ()) (s : State)
    (q : Request) :
    (∃ r, s.judge q = .keep r ∧ (onDisk path k s).steps q = [] ∧
        (onDisk path k s).handle q = (.ok r, onDisk path k s)) ∨
      (∃ t r, s.judge q = .move t r ∧
        (onDisk path k s).steps q = SaveStep.all (Record.encode t) ∧
        (onDisk path k s).handle q
          = (.ok r, onDisk path (k.run (SaveStep.all (Record.encode t))) t)) ∨
      ∃ e, (onDisk path k s).steps q = [] ∧
        (onDisk path k s).handle q = (.error e, onDisk path k s) ∧
        FileStore.reach path Directory.tempName ≠ .ok () := by
  cases hj : s.judge q with
  | keep r => exact Or.inl ⟨r, rfl, by simp [steps, onDisk, hj], by simp [handle, onDisk, hj]⟩
  | move t r =>
    right
    cases hp : FileStore.reach path Directory.tempName with
    | ok =>
      refine Or.inl ⟨t, r, rfl, by simp [steps, onDisk, hj, FileStore.saveSteps, hp], ?_⟩
      simp only [onDisk, handle, hj, Store.save, FileStore.save_eq, hp, Disk.runAll_all hk, hself,
        Except.bind]
      rfl
    | error e =>
      refine Or.inr ⟨.io (.os e), by simp [steps, onDisk, hj, FileStore.saveSteps, hp], ?_, by simp⟩
      simp [onDisk, handle, hj, Store.save, FileStore.save_eq, hp]

end Acceptor

inductive Happening where
  | handled (request : Request) (outcome : Except StorageError Response)
  | interrupted (request : Request)
  | stopped
  | crashed
  | opened

/-- An acceptor that is up, with its disk, or the directory that it has left. -/
inductive Service where
  | up (a : Acceptor FileStore) (k : Disk)
  | down (d : Directory)

namespace Service

/-- States that are saved are taken to be short enough for a record. -/
inductive Step (path : String) : Service → Happening → Service → Prop where
  | handled {a : Acceptor FileStore} {k : Disk} {q : Request}
      (hs : ∀ t r, a.state.judge q = .move t r → t.Storable) :
      Step path (up a k) (.handled q (a.handle q).1) (up (a.handle q).2 (k.run (a.steps q)))
  | interrupted {a : Acceptor FileStore} {k : Disk} {q : Request} {taken : List SaveStep}
      {d : Directory} (hs : ∀ t r, a.state.judge q = .move t r → t.Storable)
      (hc : Cut taken (a.steps q)) (hd : (k.run taken).Leaves d) :
      Step path (up a k) (.interrupted q) (down d)
  | stopped {a : Acceptor FileStore} {k : Disk} {d : Directory} (hd : a.store.release = some d) :
      Step path (up a k) .stopped (down d)
  | crashed {a : Acceptor FileStore} {k : Disk} {d : Directory} (hd : k.Leaves d) :
      Step path (up a k) .crashed (down d)
  | crashedOpening {d e f : Directory} (he : FileStore.Opening path d e)
      (hf : (Disk.found e).Leaves f) : Step path (down d) .crashed (down f)
  | opened {d e : Directory} {a : Acceptor FileStore}
      (hf : FileStore.acquire path (some d) = .ok a.store) (ha : Acceptor.recover a.store = .ok a)
      (he : a.store.place = some e) : Step path (down d) .opened (up a (.found e))

/-- Runs that begin in an empty directory. -/
inductive Run (path : String) : List Happening → Service → Prop where
  | nil : Run path [] (down {})
  | snoc {es : List Happening} {e : Happening} {c c' : Service} (h : Run path es c)
      (he : Step path c e c') : Run path (es ++ [e]) c'

/-- While a service is up, its store and its disk are of one directory. -/
theorem place_of_run {path : String} {es : List Happening} {a : Acceptor FileStore} {k : Disk}
    (h : Run path es (up a k)) : a.store.place = some k.live := by
  generalize hc : up a k = c at h
  induction h generalizing a k with
  | nil => cases hc
  | snoc _ he ih =>
    subst hc
    cases he with
    | handled => exact Acceptor.place_handle (ih rfl) _
    | opened _ _ he => exact he

/-- How often an opening may be cut short by a crash is not limited. -/
def Crashes (path : String) : Directory → Directory → Prop :=
  Relation.ReflTransGen fun d e => Step path (down d) .crashed (down e)

end Service

end Synod
