import Synod.Proofs.Restart

/-!
Saves of which any file operation may fail. A request that fails leaves the acceptor as it was, and
what its directory tells too, unless the operation is the last: by then the next state has replaced
the one before.
-/
namespace Synod

/-- What goes wrong in a save for reasons that the directory does not show. -/
structure Mishap where
  /-- How many operations come before the one that fails. -/
  after : Nat
  cause : IoError
  /-- How many bytes are written before a write fails. -/
  written : Nat

namespace SaveStep

/-- What a step that fails leaves: a write may be torn. -/
def torn (written : Nat) (d : Directory) : SaveStep → Directory
  | writeTemp content => { d with temp := some (.file (content.take written)) }
  | _ => d

/-- Takes steps in order up to the first that fails, and tells it with the cause. -/
def attempt : Option Mishap → List SaveStep → Place → Except (SaveStep × IoError) Unit × Place
  | _, [], place => (.ok (), place)
  | some ⟨0, cause, written⟩, step :: _, place =>
    (.error (step, cause), place.map fun d => step.torn written d)
  | m, step :: steps, place =>
    match step.run place with
    | .error e => (.error (step, .os e), place)
    | .ok next => attempt (m.map fun m => { m with after := m.after - 1 }) steps next

/-- Without a mishap, the steps are taken as in any save. -/
theorem attempt_none (steps : List SaveStep) (place : Place) :
    (attempt none steps place).1.mapError Prod.snd = (runAll steps place).1 ∧
      (attempt none steps place).2 = (runAll steps place).2 := by
  induction steps generalizing place with
  | nil => exact ⟨rfl, rfl⟩
  | cons step steps ih =>
    simp only [attempt, runAll_cons]
    cases step.run place with
    | error e => exact ⟨rfl, rfl⟩
    | ok next => exact ih next

section Attempt

variable {step : SaveStep} {steps : List SaveStep} {d e : Directory} {content : Bytes}

/-- A step that the directory allows is taken, unless a mishap befalls it. -/
theorem attempt_allowed (h : step.run (some d) = .ok (some e)) (m : Option Mishap)
    (steps : List SaveStep) :
    (∃ cause written,
        attempt m (step :: steps) (some d) = (.error (step, cause), some (step.torn written d))) ∨
      ∃ n, attempt m (step :: steps) (some d) = attempt n steps (some e) := by
  rcases m with _ | ⟨_ | n, cause, written⟩
  · right
    exact ⟨none, by simp only [attempt, h, Option.map_none]⟩
  · left
    exact ⟨cause, written, rfl⟩
  · right
    exact ⟨some ⟨n, cause, written⟩, by simp only [attempt, h]; rfl⟩

/-- A step that the directory does not allow fails, be it by mishap. -/
theorem attempt_refused {o : OsError} (h : step.run (some d) = .error o) (m : Option Mishap)
    (steps : List SaveStep) : ∃ cause e,
      attempt m (step :: steps) (some d) = (.error (step, cause), some e) ∧
        (e = d ∨ ∃ written, e = step.torn written d) := by
  rcases m with _ | ⟨_ | n, cause, written⟩
  · exact ⟨.os o, d, by simp only [attempt, h], Or.inl rfl⟩
  · exact ⟨cause, _, rfl, Or.inr ⟨written, rfl⟩⟩
  · exact ⟨.os o, d, by simp only [attempt, h], Or.inl rfl⟩

/-- How a save may end. Until the renaming has succeeded, the record is the one before. -/
inductive Attempted (content : Bytes) (d : Directory) :
    Except (SaveStep × IoError) Unit → Directory → Prop where
  | early {step : SaveStep} {cause : IoError} {t : Option Entry} (hs : step ≠ .syncDirectory)
      (ht : d.temp ≠ some .folder → t ≠ some .folder) :
      Attempted content d (.error (step, cause)) { d with temp := t }
  | late {cause : IoError} : Attempted content d (.error (.syncDirectory, cause))
      { d with record := some (.file content), temp := none }
  | done : Attempted content d (.ok ()) { d with record := some (.file content), temp := none }

theorem attempted (m : Option Mishap) (content : Bytes) (ht : d.temp ≠ some .folder) :
    ∃ o e, attempt m (all content) (some d) = (o, some e) ∧ Attempted content d o e := by
  obtain ⟨r, t, l, b⟩ := d
  have hcreate : createTemp.run (some ⟨r, t, l, b⟩) = .ok (some ⟨r, some (.file []), l, b⟩) := by
    rcases t with _ | c | _
    · rfl
    · rfl
    · exact absurd rfl ht
  rw [all]
  rcases attempt_allowed hcreate m _ with ⟨cause, n, h⟩ | ⟨m, h⟩ <;> rw [h]
  · exact ⟨_, _, rfl, .early (by simp) id⟩
  have hwrite : (writeTemp content).run (some ⟨r, some (.file []), l, b⟩)
      = .ok (some ⟨r, some (.file content), l, b⟩) := rfl
  rcases attempt_allowed hwrite m _ with ⟨cause, n, h⟩ | ⟨m, h⟩ <;> rw [h]
  · exact ⟨_, _, rfl, .early (by simp) (by simp)⟩
  have hsync : syncTemp.run (some ⟨r, some (.file content), l, b⟩)
      = .ok (some ⟨r, some (.file content), l, b⟩) := rfl
  rcases attempt_allowed hsync m _ with ⟨cause, n, h⟩ | ⟨m, h⟩ <;> rw [h]
  · exact ⟨_, _, rfl, .early (by simp) (by simp)⟩
  by_cases hr : r = some .folder
  · obtain rfl := hr
    have hrefused : renameTemp.run (some ⟨some .folder, some (.file content), l, b⟩)
        = .error .isADirectory := rfl
    obtain ⟨cause, e, h, rfl | ⟨_, rfl⟩⟩ := attempt_refused hrefused m [syncDirectory]
    · exact ⟨_, _, h, .early (by simp) (by simp)⟩
    · exact ⟨_, _, h, .early (by simp) (by simp)⟩
  have hrename : renameTemp.run (some ⟨r, some (.file content), l, b⟩)
      = .ok (some ⟨some (.file content), none, l, b⟩) := by
    rcases r with _ | c | _
    · rfl
    · rfl
    · exact absurd rfl hr
  rcases attempt_allowed hrename m _ with ⟨cause, n, h⟩ | ⟨m, h⟩ <;> rw [h]
  · exact ⟨_, _, rfl, .early (by simp) (by simp)⟩
  -- The new record is in place from here on, and one more operation may fail.
  have hsynced : syncDirectory.run (some ⟨some (.file content), none, l, b⟩)
      = .ok (some ⟨some (.file content), none, l, b⟩) := rfl
  rcases attempt_allowed hsynced m _ with ⟨cause, n, h⟩ | ⟨m, h⟩ <;> rw [h]
  · exact ⟨_, _, rfl, .late⟩
  · exact ⟨_, _, rfl, .done⟩

end Attempt

end SaveStep

namespace FileStore

/-- A save that a mishap may befall. If it fails, the operation that fails is told. -/
def attempt (m : Option Mishap) (s : State) (f : FileStore) :
    Except (SaveStep × IoError) Unit × FileStore :=
  match reach f.path Directory.tempName with
  | .error e => (.error (.createTemp, .os e), f)
  | .ok () =>
    let (outcome, place) := SaveStep.attempt m (SaveStep.all (Record.encode s)) f.place
    let outcome := outcome.bind fun _ =>
      (reachSelf f.path).mapError fun e => (.syncDirectory, .os e)
    (outcome, { f with place })

/-- Without a mishap, this is what saving comes to. -/
theorem attempt_none (s : State) (f : FileStore) :
    ((attempt none s f).1.mapError fun e => .io e.2, (attempt none s f).2) = f.save s := by
  rw [save_eq]
  unfold attempt
  cases reach f.path Directory.tempName with
  | error e => rfl
  | ok =>
    obtain ⟨ho, hp⟩ := SaveStep.attempt_none (SaveStep.all (Record.encode s)) f.place
    dsimp only
    rw [← ho, ← hp]
    cases (SaveStep.attempt none (SaveStep.all (Record.encode s)) f.place).1 with
    | error e => rfl
    | ok => cases reachSelf f.path <;> rfl

/-- What a record tells. -/
def tells (path : String) (record : Option Entry) : Except StorageError State :=
  load ⟨path, some { record }, true⟩

theorem tells_file {path : String} (h : reach path Directory.recordName = .ok ())
    (content : Bytes) : tells path (some (.file content)) = Record.decode content := by
  simp only [tells, load, h]
  rfl

/-- What is loaded once the store is dropped and opened again. -/
def reopened (f : FileStore) : Except StorageError State :=
  match acquire f.path f.release with
  | .ok g => g.load
  | .error (e, _) => .error e

/-- A store in use: it owns the lock of its directory, which can be opened again. -/
structure InUse (d : Directory) (f : FileStore) : Prop where
  reachLock : reach f.path Directory.lockName = .ok ()
  place : f.place = some d
  owner : f.owner = true
  lock : d.lock ≠ some .folder
  temp : reach f.path Directory.tempName = .ok () → d.temp ≠ some .folder

section InUse

variable {f : FileStore} {path : String} {place : Place} {d e : Directory} {m : Option Mishap}
  {s : State}

theorem clear_eq_ok (h : clear path d = .ok e) : ∃ t, e = { d with temp := t } ∧
    (reach path Directory.tempName = .ok () → t ≠ some .folder) := by
  unfold clear at h
  split at h
  · simp at h
  · exact ⟨none, (Except.ok.inj h).symm, by simp⟩
  · rename_i hr
    exact ⟨d.temp, (Except.ok.inj h).symm, by simp [hr]⟩

theorem clear_of_reach (h : reach path Directory.tempName = .ok () → d.temp ≠ some .folder) :
    ∃ e, clear path d = .ok e := by
  unfold clear
  split
  · rename_i hr ht
    exact absurd ht (h hr)
  · exact ⟨_, rfl⟩
  · exact ⟨_, rfl⟩

theorem lock_of_lockFile {lock : Entry} (h : lockFile path d = .ok lock) : lock ≠ .folder := by
  unfold lockFile at h
  split at h <;> simp_all <;> simp [← h]

theorem inUse_of_acquire (h : acquire path place = .ok f) :
    ∃ d, f.InUse d ∧ f.path = path ∧ d.record = (place.getD {}).record := by
  obtain ⟨lock, e, hl, hc, rfl⟩ := acquire_cases h
  obtain ⟨t, rfl, ht⟩ := clear_eq_ok hc
  refine ⟨_, ⟨reach_of_lockFile hl, rfl, rfl, ?_, ht⟩, rfl, rfl⟩
  exact fun h => lock_of_lockFile hl (Option.some.inj h)

theorem release_of_inUse (h : f.InUse d) : f.release = some { d with held := false } := by
  simp [release, h.place, h.owner]

/-- A store in use can be dropped and opened again, and its record is as it was. -/
theorem acquire_of_inUse (h : f.InUse d) : ∃ g e, acquire f.path f.release = .ok g ∧ g.InUse e ∧
    g.path = f.path ∧ e.record = d.record := by
  have hr := release_of_inUse h
  obtain ⟨content, hl⟩ := lockFile_of_lock (d := { d with held := false }) h.reachLock h.lock
  obtain ⟨e, hc⟩ := clear_of_reach
    (d := { d with held := false, lock := some (.file content) }) h.temp
  have ha : acquire f.path f.release = .ok ⟨f.path, some { e with held := true }, true⟩ := by
    simp [acquire, hr, hl, hc]
  obtain ⟨u, hu, hp, hrecord⟩ := inUse_of_acquire ha
  exact ⟨_, u, ha, hu, hp, by rw [hrecord, hr]; rfl⟩

theorem load_of_inUse (h : f.InUse d) : f.load = tells f.path d.record := by
  simp only [load, tells, h.place]
  cases reach f.path Directory.recordName <;> rfl

theorem reopened_of_inUse (h : f.InUse d) : f.reopened = tells f.path d.record := by
  obtain ⟨g, e, hg, he, hp, hr⟩ := acquire_of_inUse h
  rw [reopened, hg, ← hp, ← hr]
  exact load_of_inUse he

/-- A save leaves a store in use, with a record that is told by the outcome. -/
theorem attempted (m : Option Mishap) (s : State) (h : f.InUse d) : ∃ o e,
    f.attempt m s = (o, { f with place := some e }) ∧
      SaveStep.Attempted (Record.encode s) d o e := by
  unfold attempt
  cases hr : reach f.path Directory.tempName with
  | error c =>
    refine ⟨_, d, Prod.ext rfl ?_, .early (by simp) id⟩
    rw [← h.place]
  | ok =>
    obtain ⟨o, e, ha, he⟩ := SaveStep.attempted m (Record.encode s) (h.temp hr)
    simp only [h.place, ha]
    cases hs : reachSelf f.path with
    | ok => exact ⟨_, e, rfl, by cases he <;> constructor <;> assumption⟩
    | error c =>
      cases he with
      | early hs ht => exact ⟨_, _, rfl, .early hs ht⟩
      | late => exact ⟨_, _, rfl, .late⟩
      | done => exact ⟨_, _, rfl, .late⟩

theorem inUse_attempted {content : Bytes} {o : Except (SaveStep × IoError) Unit} (h : f.InUse d)
    (ha : SaveStep.Attempted content d o e) : { f with place := some e }.InUse e := by
  cases ha with
  | early _ ht => exact ⟨h.reachLock, rfl, h.owner, h.lock, fun hr => ht (h.temp hr)⟩
  | late => exact ⟨h.reachLock, rfl, h.owner, h.lock, by simp⟩
  | done => exact ⟨h.reachLock, rfl, h.owner, h.lock, by simp⟩

end InUse

end FileStore

/-- A store in a directory, and the mishap that befalls its saves. -/
structure FaultyStore where
  store : FileStore
  mishap : Option Mishap

namespace FaultyStore

def load (f : FaultyStore) : Except StorageError State := f.store.load

def save (s : State) (f : FaultyStore) : Except StorageError Unit × FaultyStore :=
  let (outcome, store) := f.store.attempt f.mishap s
  (outcome.mapError fun e => .io e.2, { f with store })

instance : Store FaultyStore := ⟨load, save⟩

theorem save_none (s : State) (f : FileStore) :
    save s ⟨f, none⟩ = ((f.save s).1, ⟨(f.save s).2, none⟩) := by
  rw [← FileStore.attempt_none]
  rfl

/-- What a save that a mishap may befall comes to. -/
theorem save_cases {f g : FaultyStore} {d : Directory} {s : State}
    {outcome : Except StorageError Unit} (hd : f.store.InUse d)
    (h : Store.save s f = (outcome, g)) : ∃ o e, (f.store.attempt f.mishap s).1 = o ∧
      outcome = o.mapError (fun e => .io e.2) ∧ g.store = { f.store with place := some e } ∧
      SaveStep.Attempted (Record.encode s) d o e := by
  obtain ⟨o, e, ha, he⟩ := FileStore.attempted f.mishap s hd
  simp only [Store.save, save, ha] at h
  obtain ⟨rfl, rfl⟩ := Prod.mk.inj h
  exact ⟨o, e, by rw [ha], rfl, rfl, he⟩

end FaultyStore

namespace Acceptor

/-- Without a mishap, a request is handled as over the store alone. -/
theorem handle_spared (a : Acceptor FileStore) (q : Request) :
    handle ⟨a.state, FaultyStore.mk a.store none⟩ q
      = ((a.handle q).1, ⟨(a.handle q).2.state, (a.handle q).2.store, none⟩) := by
  cases hj : a.state.judge q with
  | keep r =>
    rw [handle_keep hj]
    exact handle_keep hj
  | move t r =>
    have hs := FaultyStore.save_none t a.store
    rcases hf : FileStore.save t a.store with ⟨_ | _, store⟩
    · rw [hf] at hs
      rw [handle_fault hj hf]
      exact handle_fault hj hs
    · rw [hf] at hs
      rw [handle_saved hj hf]
      exact handle_saved hj hs

/-- The same acceptor, with what is to befall its next save. -/
def befall (m : Option Mishap) (a : Acceptor FaultyStore) : Acceptor FaultyStore :=
  { a with store := { a.store with mishap := m } }

/-- The life of an acceptor over a directory, of which any save may fail at any operation. -/
inductive Life (path : String) (start : Place) : List Request → Acceptor FaultyStore → Prop where
  | opened {f : FileStore} {a : Acceptor FaultyStore} (hf : FileStore.acquire path start = .ok f)
      (ha : recover ⟨f, none⟩ = .ok a) : Life path start [] a
  | handled {qs : List Request} {a : Acceptor FaultyStore} (h : Life path start qs a)
      (m : Option Mishap) (q : Request) : Life path start (qs ++ [q]) ((a.befall m).handle q).2
  | restarted {qs : List Request} {a b : Acceptor FaultyStore} {f : FileStore}
      (h : Life path start qs a) (hf : FileStore.acquire path a.store.store.release = .ok f)
      (hb : recover ⟨f, none⟩ = .ok b) : Life path start qs b

variable {path : String} {start : Place} {qs : List Request} {a b : Acceptor FaultyStore}
  {m : Option Mishap} {q : Request} {f : FileStore} {e : StorageError}

/-- An acceptor whose store is in use, and whose record can be reached. -/
def Serving (a : Acceptor FaultyStore) : Prop :=
  (∃ d, a.store.store.InUse d) ∧
    FileStore.reach a.store.store.path Directory.recordName = .ok ()

theorem serving_of_recover {place : Place} (hf : FileStore.acquire path place = .ok f)
    (ha : recover ⟨f, none⟩ = .ok a) : a.Serving := by
  obtain ⟨d, hd, _⟩ := FileStore.inUse_of_acquire hf
  obtain ⟨hl, hs⟩ := recover_eq_ok_iff.mp ha
  rw [Serving, hs]
  exact ⟨⟨d, hd⟩, FileStore.reach_of_load hl⟩

theorem serving_handle (ha : a.Serving) (m : Option Mishap) (q : Request) :
    ((a.befall m).handle q).2.Serving := by
  obtain ⟨⟨d, hd⟩, hr⟩ := ha
  have hsaved : ∀ {t outcome store}, Store.save t (a.befall m).store = (outcome, store) →
      ∀ s, Serving ⟨s, store⟩ := by
    intro t outcome store hs s
    obtain ⟨o, e, _, _, hg, he⟩ := FaultyStore.save_cases (f := (a.befall m).store) hd hs
    rw [Serving, hg]
    exact ⟨⟨e, FileStore.inUse_attempted hd he⟩, hr⟩
  rcases hb : (a.befall m).handle q with ⟨outcome, b⟩
  cases handled_of_eq hb with
  | kept => exact ⟨⟨d, hd⟩, hr⟩
  | saved _ hs => exact hsaved hs _
  | fault _ hs => exact hsaved hs _

theorem serving_life (h : Life path start qs a) : a.Serving := by
  induction h with
  | opened hf ha => exact serving_of_recover hf ha
  | handled _ m q ih => exact serving_handle ih m q
  | restarted _ hf hb => exact serving_of_recover hf hb

/-- A request that fails leaves the state in memory as it was, and the state that would be loaded
again too, unless the operation that fails is the last: then the next state would be loaded. -/
theorem failed_request_effect (ha : Life path start qs a)
    (h : (a.befall m).handle q = (.error e, b)) : b.state = a.state ∧
      ∃ t r step cause, a.state.judge q = .move t r ∧
        (a.store.store.attempt m t).1 = .error (step, cause) ∧ e = .io cause ∧
        b.store.store.reopened = if step = .syncDirectory then Record.decode (Record.encode t)
          else a.store.store.reopened := by
  obtain ⟨⟨d, hd⟩, hr⟩ := serving_life ha
  generalize ho : (Except.error e : Except StorageError Response) = outcome at h
  cases handled_of_eq h with
  | kept => cases ho
  | saved => cases ho
  | @fault t r _ store hg hs =>
    obtain rfl := Except.error.inj ho
    obtain ⟨o, u, ha, ho, hu, hsaved⟩ := FaultyStore.save_cases (f := (a.befall m).store) hd hs
    have hreopened := FileStore.reopened_of_inUse (FileStore.inUse_attempted hd hsaved)
    cases hsaved with
    | done => cases ho
    | @early step cause _ hstep _ =>
      refine ⟨rfl, t, r, step, cause, State.judge_eq_move_iff.mpr hg, ha, Except.error.inj ho, ?_⟩
      rw [if_neg hstep, FileStore.reopened_of_inUse hd, hu]
      exact hreopened
    | @late cause =>
      refine ⟨rfl, t, r, _, cause, State.judge_eq_move_iff.mpr hg, ha, Except.error.inj ho, ?_⟩
      rw [if_pos rfl, hu]
      exact hreopened.trans (FileStore.tells_file hr _)

/-- An acceptor over a directory with a record and the lock file only. -/
def holding (path : String) (record : Option Entry) (s : State) : Acceptor FaultyStore :=
  ⟨s, ⟨⟨path, some ⟨record, none, some (.file []), true⟩, true⟩, none⟩⟩

theorem recover_holding {record : Option Entry} {s : State}
    (hr : FileStore.reach path Directory.recordName = .ok ()) (ht : Service.Tells record s) :
    recover (holding path record s).store = .ok (holding path record s) :=
  recover_eq_ok_iff.mpr ⟨Service.load_of_tells hr ht, rfl⟩

theorem life_holding_nothing : Life "/n" (some {}) [] (holding "/n" none .initial) :=
  .opened (f := (holding "/n" none .initial).store.store) (by rfl) (recover_holding rfl .missing)

theorem storable_bootstrapped : State.Storable ⟨true, 0, some default, none, none⟩ := by
  unfold State.Storable
  decide

/-- The directory of a first record cannot be synced. -/
theorem failed_request_effect_at_sync : ∃ a b, Life "/n" (some {}) [] a ∧
    (a.befall (some ⟨4, .other "input/output error", 0⟩)).handle (.bootstrap default)
      = (.error (.io (.other "input/output error")), b) ∧
    b.state = .initial ∧
    b.store.store.reopened = .ok ⟨true, 0, some default, none, none⟩ := by
  obtain ⟨b, hb⟩ : ∃ b, ((holding "/n" none .initial).befall
      (some ⟨4, .other "input/output error", 0⟩)).handle (.bootstrap default)
        = (.error (.io (.other "input/output error")), b) := ⟨_, rfl⟩
  obtain ⟨hs, t, r, step, cause, hj, ha, _, hr⟩ := failed_request_effect life_holding_nothing hb
  obtain rfl : ⟨true, 0, some default, none, none⟩ = t := (Verdict.move.inj hj).1
  obtain rfl : .syncDirectory = step := (Prod.mk.inj (Except.error.inj ha)).1
  rw [if_pos rfl, Record.decode_encode storable_bootstrapped] at hr
  exact ⟨_, b, life_holding_nothing, hb, hs, hr⟩

/-- At the empty path every bootstrap fails like this: files are found relative to it, but there is
no directory to be synced. -/
theorem failed_bootstrap_lasts : ∃ a b : Acceptor FileStore,
    FileStore.acquire "" (some {}) = .ok a.store ∧ recover a.store = .ok a ∧
    a.handle (.bootstrap default) = (.error (.io (.os .notFound)), b) ∧
    b.state = a.state ∧ a.store.reopened = .ok .initial ∧
    b.store.reopened = .ok ⟨true, 0, some default, none, none⟩ := by
  refine ⟨⟨.initial, ⟨"", some ⟨none, none, some (.file []), true⟩, true⟩⟩, _, by rfl,
    recover_eq_ok_iff.mpr ⟨rfl, rfl⟩, rfl, rfl, rfl, ?_⟩
  have hr : FileStore.reopened ⟨"", some ⟨some (.file (Record.encode
      ⟨true, 0, some default, none, none⟩)), none, some (.file []), true⟩, true⟩
        = Record.decode (Record.encode ⟨true, 0, some default, none, none⟩) := rfl
  rw [Record.decode_encode storable_bootstrapped] at hr
  exact hr

end Acceptor
end Synod
