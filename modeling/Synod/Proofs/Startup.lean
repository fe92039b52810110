import Synod.Node
import Synod.Proofs.Fault
import Synod.Proofs.Reliable

/-!
Starting a node over a directory, whatever is found there. A start removes a temporary file and, if a
seed makes the first layout, replaces the record; nothing else is written.
-/
namespace Synod

/-- The state that a seed makes of another: a seed is a bootstrap, and of no effect after the first. -/
def State.seeded (s : State) : Option Layout → State
  | none => s
  | some l =>
    if s.bootstrapped then s else { s with bootstrapped := true, epoch := 0, layout := some l }

/-- What the bytes of a record tell, or its absence. -/
def Record.found : Option Bytes → Except StorageError State
  | none => .ok .initial
  | some bytes => decode bytes

/-- A directory in which the names stand for files. -/
def Directory.ofFiles (record temp lock : Option Bytes) (held : Bool) : Directory :=
  ⟨record.map .file, temp.map .file, lock.map .file, held⟩

/-- What is loaded from a medium that is opened again. -/
def Medium.reopened (m : Medium) : Except StorageError State :=
  match m.acquire with
  | .ok store => Store.load store
  | .error (e, _) => .error e

variable {path : String} {place : Place} {record temp lock : Option Bytes} {mark : Bytes} {s : State}
  {seed : Option Layout} {e : StorageError}

namespace FileStore

/-- Whether the operating system can be told each name in a directory, and the directory opened. -/
structure Accessible (path : String) : Prop where
  lock : reach path Directory.lockName = .ok ()
  record : reach path Directory.recordName = .ok ()
  temp : reach path Directory.tempName = .ok ()
  self : reachSelf path = .ok ()

/-- A store between two saves. -/
def idle (path : String) (record : Option Bytes) (lock : Bytes) : FileStore :=
  ⟨path, some (.ofFiles record none (some lock) true), true⟩

theorem lockFile_ofFiles (ha : Accessible path) (held : Bool) :
    lockFile path (.ofFiles record temp lock held) = .ok (.file (lock.getD [])) := by
  cases lock <;> simp [lockFile, ha.lock, Directory.ofFiles]

theorem clear_ofFiles (ha : Accessible path) (held : Bool) :
    clear path (.ofFiles record temp lock held) = .ok (.ofFiles record none lock held) := by
  cases temp <;> simp [clear, ha.temp, Directory.ofFiles]

theorem acquire_held (ha : Accessible path) (hp : place.getD {} = .ofFiles record temp lock true) :
    acquire path place = .error (.locked path, place) := by
  simp only [acquire, hp, lockFile_ofFiles ha]
  rfl

/-- A free directory is taken, and the temporary file removed. -/
theorem acquire_free (ha : Accessible path) (hp : place.getD {} = .ofFiles record temp lock false) :
    acquire path place = .ok (idle path record (lock.getD [])) := by
  -- The lock file is there by the time that the temporary file is removed.
  have hc : clear path (.ofFiles record temp (some (lock.getD [])) false)
      = .ok (.ofFiles record none (some (lock.getD [])) false) := clear_ofFiles ha false
  have hlocked : { Directory.ofFiles record temp lock false with
      lock := some (.file (lock.getD [])) } = .ofFiles record temp (some (lock.getD [])) false := rfl
  simp only [acquire, hp, lockFile_ofFiles ha, hlocked, hc]
  rfl

theorem load_idle (ha : Accessible path) : (idle path record mark).load = Record.found record := by
  cases record <;> simp [load, idle, ha.record, Directory.ofFiles, Directory.read?, Record.found]

theorem save_idle (ha : Accessible path) (s : State) :
    (idle path record mark).save s = (.ok (), idle path (some (Record.encode s)) mark) := by
  have hsteps : SaveStep.runAll (SaveStep.all (Record.encode s)) (idle path record mark).place
      = (.ok (), (idle path (some (Record.encode s)) mark).place) := by
    cases record <;> rfl
  have htemp : reach (idle path record mark).path Directory.tempName = .ok () := ha.temp
  have hself : reachSelf (idle path record mark).path = .ok () := ha.self
  simp only [save_eq, htemp, hsteps, hself]
  rfl

/-- As long as its files can be reached, a store in a directory works. -/
theorem reliable_idle (ha : Accessible path) : Reliable (idle path record mark) := by
  refine ⟨fun f => ∃ r, f = idle path r mark, ⟨record, rfl⟩, ?_⟩
  rintro f s ⟨r, rfl⟩
  exact ⟨_, save_idle ha s, _, rfl⟩

end FileStore

theorem Medium.acquire_free (ha : FileStore.Accessible path)
    (hp : place.getD {} = .ofFiles record temp lock false) :
    (Medium.directory path place).acquire = .ok (.file (.idle path record (lock.getD []))) := by
  simp only [Medium.acquire, FileStore.acquire_free ha hp]

theorem Storage.save_idle (ha : FileStore.Accessible path) (s : State) :
    Store.save s (Storage.file (.idle path record mark)) =
      (.ok (), Storage.file (.idle path (some (Record.encode s)) mark)) := by
  simp only [Store.save, Storage.save, FileStore.save_idle ha]

theorem Acceptor.recover_idle (ha : FileStore.Accessible path) :
    recover (Storage.file (.idle path record mark)) =
      (Record.found record).map fun s => ⟨s, .file (.idle path record mark)⟩ := by
  have hload : (FileStore.idle path record mark).load = Record.found record := FileStore.load_idle ha
  rw [← hload]
  rfl

namespace Node

/-- A node over a directory, between two requests. -/
def overFiles (path : String) (s : State) (record : Option Bytes) (lock : Bytes) : Node Storage :=
  .ofAcceptor ⟨s, .file (.idle path record lock)⟩

theorem start_held (ha : FileStore.Accessible path)
    (hp : place.getD {} = .ofFiles record temp lock true) :
    start (.directory path place) seed = .error (.locked path, .directory path place) := by
  simp only [start, Medium.acquire, FileStore.acquire_held ha hp]

theorem start_unreadable (ha : FileStore.Accessible path)
    (hp : place.getD {} = .ofFiles record temp lock false) (he : Record.found record = .error e) :
    start (.directory path place) seed = .error (e, .directory path
      (some (.ofFiles record none (some (lock.getD [])) false))) := by
  simp only [start, recover, Medium.acquire_free ha hp, Acceptor.recover_idle ha, he]
  rfl

/-- What a seed makes of the record of a state. -/
inductive Seeded (s : State) (record : Option Bytes) (seed : Option Layout) : Option Bytes → Prop where
  | kept (h : s.seeded seed = s) : Seeded s record seed record
  | saved (hs : seed.isSome = true) (hb : s.bootstrapped = false) :
      Seeded s record seed (some (Record.encode (s.seeded seed)))

theorem handle_seed (ha : FileStore.Accessible path) (s : State) (record : Option Bytes) (mark : Bytes)
    (l : Layout) : ∃ a r, Seeded s record (some l) r ∧
      (overFiles path s record mark).acceptor.handle (.bootstrap l) =
        (.ok a, (overFiles path (s.seeded (some l)) r mark).acceptor) := by
  cases hb : s.bootstrapped with
  | true =>
    have hseeded : s.seeded (some l) = s := if_pos hb
    rw [hseeded]
    exact ⟨_, record, .kept hseeded, Acceptor.handle_refused (.bootstrapped hb)⟩
  | false =>
    have hseeded : s.seeded (some l)
        = { s with bootstrapped := true, epoch := 0, layout := some l } := if_neg (by simp [hb])
    refine ⟨.ack, _, .saved rfl hb, ?_⟩
    rw [hseeded]
    exact Acceptor.handle_saved (State.judge_of_grant (.bootstrap hb)) (Storage.save_idle ha _)

/-- A node comes up over a directory that is free and whose record can be read. -/
theorem start_free (ha : FileStore.Accessible path)
    (hp : place.getD {} = .ofFiles record temp lock false) (hs : Record.found record = .ok s)
    (seed : Option Layout) : ∃ r, Seeded s record seed r ∧
      start (.directory path place) seed = .ok (overFiles path (s.seeded seed) r (lock.getD [])) := by
  simp only [start, recover, Medium.acquire_free ha hp, Acceptor.recover_idle ha, hs, Except.map]
  cases seed with
  | none => exact ⟨record, .kept rfl, rfl⟩
  | some l =>
    obtain ⟨a, r, hr, hh⟩ := handle_seed ha s record (lock.getD []) l
    rw [overFiles, ofAcceptor] at hh
    exact ⟨r, hr, by simp only [hh]; rfl⟩

theorem found_of_seeded {r : Option Bytes} (hs : Record.found record = .ok s)
    (h : Seeded s record seed r)
    (hl : seed.isSome = true → s.bootstrapped = false → (s.seeded seed).Storable) :
    Record.found r = .ok (s.seeded seed) := by
  cases h with
  | kept he => rw [he, hs]
  | saved hseed hb => exact Record.decode_encode (hl hseed hb)

theorem stop_overFiles : (overFiles path s record mark).stop =
    .directory path (some (.ofFiles record none (some mark) false)) := rfl

theorem reopened_stop (ha : FileStore.Accessible path) (hs : Record.found record = .ok s) :
    (overFiles path s record mark).stop.reopened = .ok s := by
  rw [stop_overFiles, Medium.reopened, Medium.acquire_free ha rfl, ← hs]
  exact FileStore.load_idle ha

/-- A node with a layout that is stopped comes up as it was, with any seed. -/
theorem start_stop (ha : FileStore.Accessible path) (hs : Record.found record = .ok s)
    (hb : s.bootstrapped = true) (seed : Option Layout) :
    start (overFiles path s record mark).stop seed = .ok (overFiles path s record mark) := by
  have hp : Option.getD (some (.ofFiles record none (some mark) false)) {}
      = Directory.ofFiles record none (some mark) false := rfl
  obtain ⟨r, hr, hstart⟩ := start_free ha hp hs seed
  cases hr with
  | kept he => rw [stop_overFiles, hstart, he]; rfl
  | saved _ hf => simp [hb] at hf

/-- Starts and stops in turn. -/
def restarts (seeds : List (Option Layout)) (n : Node Storage) :
    Except (StorageError × Medium) (Node Storage) :=
  seeds.foldlM (fun n seed => start n.stop seed) n

theorem restarts_eq {n : Node Storage} (h : ∀ seed, start n.stop seed = .ok n)
    (seeds : List (Option Layout)) : restarts seeds n = .ok n := by
  induction seeds with
  | nil => rfl
  | cons seed seeds ih =>
    rw [restarts, List.foldlM_cons, h seed]
    exact ih

theorem bootstrapped_seeded (s : State) (h : seed.isSome = true) :
    (s.seeded seed).bootstrapped = true := by
  obtain ⟨l, rfl⟩ := Option.isSome_iff_exists.mp h
  simp only [State.seeded]
  split
  · assumption
  · rfl

/-- What comes of a start, whatever files there are. A directory that another store holds is left as it
is. A record that cannot be read is kept, and its fault told. Otherwise the node serves the state that
was found, with the seed as a bootstrap if there was none before; this state is published, and it is
loaded again later, and no temporary file is left. Once there was a seed, stops and starts with any
others change nothing. -/
theorem start_law {held : Bool} (ha : FileStore.Accessible path)
    (hp : place.getD {} = .ofFiles record temp lock held) (seed : Option Layout)
    (hl : ∀ s, Record.found record = .ok s → seed.isSome = true → s.bootstrapped = false →
      (s.seeded seed).Storable) :
    (held = true → start (.directory path place) seed
        = .error (.locked path, .directory path place)) ∧
      (held = false → (∀ e, Record.found record = .error e → ∃ d,
          start (.directory path place) seed = .error (e, .directory path (some d)) ∧
            d.record = record.map .file) ∧
        ∀ s, Record.found record = .ok s → ∃ n d, start (.directory path place) seed = .ok n ∧
          n.acceptor.state = s.seeded seed ∧ n.published = .of n.acceptor.state ∧
          n.acceptor.store = .file ⟨path, some d, true⟩ ∧ d.temp = none ∧
          (s.seeded seed = s → d.record = record.map .file) ∧
          n.stop.reopened = .ok n.acceptor.state ∧
          (seed.isSome = true → ∀ seeds, restarts seeds n = .ok n)) := by
  constructor
  · rintro rfl
    exact start_held ha hp
  · rintro rfl
    refine ⟨fun e he => ⟨_, start_unreadable ha hp he, rfl⟩, fun s hs => ?_⟩
    obtain ⟨r, hr, hstart⟩ := start_free ha hp hs seed
    have hfound := found_of_seeded hs hr (hl s hs)
    refine ⟨_, _, hstart, rfl, rfl, rfl, rfl, ?_, reopened_stop ha hfound, fun hseed seeds => ?_⟩
    · intro he
      cases hr with
      | kept => rfl
      | saved hseed hb =>
        rw [← he, bootstrapped_seeded s hseed] at hb
        cases hb
    · exact restarts_eq (start_stop ha hfound (bootstrapped_seeded s hseed)) seeds

/-- A first start over what an interrupted save left, a start over a record of three bytes, and one
beside the store that holds the directory. -/
theorem start_law_over_leftovers :
    let seed : Option Layout := some default
    let left : Directory := .ofFiles none (some [1, 2]) none false
    let torn : Directory := .ofFiles (some [1, 2, 3]) none (some []) false
    let held : Directory := .ofFiles none (some [1, 2]) (some []) true
    (∃ n d, start (.directory "/n" (some left)) seed = .ok n ∧ n.published = ⟨true, 0, seed⟩ ∧
      n.acceptor.store = .file ⟨"/n", some d, true⟩ ∧ d.temp = none ∧
      restarts [none, some (.single "a")] n = .ok n) ∧
    (∃ d, start (.directory "/n" (some torn)) seed
      = .error (.truncated 13 3, .directory "/n" (some d)) ∧ d.record = torn.record) ∧
    start (.directory "/n" (some held)) seed = .error (.locked "/n", .directory "/n" (some held)) := by
  intro seed left torn held
  have ha : FileStore.Accessible "/n" := ⟨rfl, rfl, rfl, rfl⟩
  have hl : ∀ s, Record.found none = .ok s → seed.isSome = true → s.bootstrapped = false →
      (s.seeded seed).Storable := by
    rintro s ⟨⟩ _ _
    exact Acceptor.storable_bootstrapped
  have hleft : Option.getD (some left) {} = .ofFiles none (some [1, 2]) none false := rfl
  have htorn : Option.getD (some torn) {} = .ofFiles (some [1, 2, 3]) none (some []) false := rfl
  have hheld : Option.getD (some held) {} = .ofFiles none (some [1, 2]) (some []) true := rfl
  refine ⟨?_, ?_, ?_⟩
  · obtain ⟨n, d, hn, hs, hp, hd, ht, _, _, hrestarts⟩ :=
      ((start_law ha hleft seed hl).2 rfl).2 _ rfl
    exact ⟨n, d, hn, hp.trans (congrArg Snapshot.of hs), hd, ht, hrestarts rfl _⟩
  · exact ((start_law ha htorn seed (by rintro s ⟨⟩)).2 rfl).1 _ rfl
  · exact (start_law ha hheld seed hl).1 rfl

end Node
end Synod
