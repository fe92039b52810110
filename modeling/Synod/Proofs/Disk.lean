import Synod.Store.File

/-!
What a crash leaves of a directory. Data that was not synced may be lost or torn, and until the
directory is synced, its record may be the one before the renaming.
-/
namespace Synod

/-- A directory in use, with what is known to be on the disk. -/
structure Disk where
  /-- The directory as processes see it. -/
  live : Directory
  /-- The record when the directory was synced last. -/
  record : Option Entry
  /-- Whether the data of the temporary file is on the disk. -/
  tempSynced : Bool
  /-- Whether the data of the record is on the disk. -/
  recordSynced : Bool

/-- A directory that can be opened. -/
structure Directory.Free (d : Directory) : Prop where
  temp : d.temp ≠ some .folder
  lock : d.lock ≠ some .folder
  held : d.held = false

namespace Disk

/-- A directory that is found after a crash is on the disk as it is. -/
def found (d : Directory) : Disk := ⟨d, d.record, true, true⟩

/-- The disk once a step has changed the directory. -/
def after (k : Disk) (d : Directory) : SaveStep → Disk
  | .createTemp | .writeTemp _ => { k with live := d, tempSynced := false }
  | .syncTemp => { k with live := d, tempSynced := true }
  | .renameTemp => { k with live := d, recordSynced := k.tempSynced }
  | .syncDirectory => { k with live := d, record := d.record }

/-- Takes steps in order up to the first that fails. -/
def run : List SaveStep → Disk → Disk
  | [], k => k
  | step :: steps, k =>
    match step.run (some k.live) with
    | .ok (some d) => run steps (k.after d step)
    | _ => k

/-- What a crash may leave. The temporary file may hold anything, or be gone, or be back. -/
structure Leaves (k : Disk) (d : Directory) : Prop where
  record : d.record = k.record ∨ d.record = k.live.record ∧ k.recordSynced = true ∨
    k.recordSynced = false ∧ ∃ content, d.record = some (.file content)
  free : d.Free

end Disk

/-- The steps taken of those due when a crash stops them: a write is stopped after any part. -/
inductive Cut : List SaveStep → List SaveStep → Prop where
  | stop {due : List SaveStep} : Cut [] due
  | torn {part content : Bytes} {due : List SaveStep} (h : part <+: content) :
      Cut [.writeTemp part] (.writeTemp content :: due)
  | taken {step : SaveStep} {taken due : List SaveStep} (h : Cut taken due) :
      Cut (step :: taken) (step :: due)

namespace Disk

variable {k : Disk} {d : Directory} {steps taken due : List SaveStep} {content : Bytes}
  {old new : Option Entry}

theorem cut_nil (h : Cut taken []) : taken = [] := by
  cases h
  rfl

theorem live_after (k : Disk) (d : Directory) (step : SaveStep) : (k.after d step).live = d := by
  cases step <;> rfl

theorem run_some {step : SaveStep} {place : Place} (h : step.run (some d) = .ok place) :
    ∃ e, place = some e := by
  unfold SaveStep.run at h
  split at h
  all_goals try split at h
  all_goals first | exact ⟨_, (Except.ok.inj h).symm⟩ | simp_all

/-- Processes see the steps of a save take effect. -/
theorem live_run (steps : List SaveStep) (k : Disk) :
    (SaveStep.runAll steps (some k.live)).2 = some (k.run steps).live := by
  induction steps generalizing k with
  | nil => rfl
  | cons step steps ih =>
    rw [SaveStep.runAll_cons, run]
    cases h : step.run (some k.live) with
    | error e => rfl
    | ok place =>
      obtain ⟨d, rfl⟩ := run_some h
      dsimp only
      rw [← ih, live_after]

/-- A directory at rest: the record is on the disk, and all three files can be replaced. -/
structure Steady (k : Disk) : Prop where
  record : k.record = k.live.record
  synced : k.recordSynced = true
  recordFile : k.live.record ≠ some .folder
  tempFile : k.live.temp ≠ some .folder
  lockFile : k.live.lock ≠ some .folder

/-- A directory in which one of two records is on the disk as a whole. -/
structure Between (old new : Option Entry) (k : Disk) : Prop where
  record : k.record = old ∨ k.record = new
  live : k.live.record = old ∨ k.live.record = new
  synced : k.recordSynced = true

section Steps

variable {r t l e : Option Entry} {b ts rs : Bool}

theorem run_createTemp (h : t ≠ some .folder) :
    run (.createTemp :: steps) ⟨⟨r, t, l, b⟩, e, ts, rs⟩
      = run steps ⟨⟨r, some (.file []), l, b⟩, e, false, rs⟩ := by
  rcases t with _ | c | _
  · rfl
  · rfl
  · exact absurd rfl h

theorem run_writeTemp (part : Bytes) :
    run (.writeTemp part :: steps) ⟨⟨r, t, l, b⟩, e, ts, rs⟩
      = run steps ⟨⟨r, some (.file part), l, b⟩, e, false, rs⟩ := rfl

theorem run_syncTemp :
    run (.syncTemp :: steps) ⟨⟨r, t, l, b⟩, e, ts, rs⟩
      = run steps ⟨⟨r, t, l, b⟩, e, true, rs⟩ := rfl

theorem run_renameTemp (h : r ≠ some .folder) :
    run (.renameTemp :: steps) ⟨⟨r, some (.file content), l, b⟩, e, ts, rs⟩
      = run steps ⟨⟨some (.file content), none, l, b⟩, e, ts, ts⟩ := by
  rcases r with _ | c | _
  · rfl
  · rfl
  · exact absurd rfl h

theorem run_syncDirectory :
    run (.syncDirectory :: steps) ⟨⟨r, t, l, b⟩, e, ts, rs⟩
      = run steps ⟨⟨r, t, l, b⟩, r, ts, rs⟩ := rfl

end Steps

/-- Wherever a save is cut, one of the two records is on the disk. -/
theorem between_cut (hk : k.Steady) (h : Cut taken (SaveStep.all content)) :
    Between k.live.record (some (.file content)) (k.run taken) := by
  obtain ⟨⟨r, t, l, b⟩, e, ts, rs⟩ := k
  obtain ⟨he, hs, hr, ht, _⟩ := hk
  dsimp only at *
  obtain rfl := he
  obtain rfl := hs
  cases h with
  | stop => exact ⟨Or.inl rfl, Or.inl rfl, rfl⟩
  | taken h =>
  rw [run_createTemp ht]
  cases h with
  | stop => exact ⟨Or.inl rfl, Or.inl rfl, rfl⟩
  | torn _ => exact ⟨Or.inl rfl, Or.inl rfl, rfl⟩
  | taken h =>
  rw [run_writeTemp]
  cases h with
  | stop => exact ⟨Or.inl rfl, Or.inl rfl, rfl⟩
  | taken h =>
  rw [run_syncTemp]
  cases h with
  | stop => exact ⟨Or.inl rfl, Or.inl rfl, rfl⟩
  | taken h =>
  rw [run_renameTemp hr]
  cases h with
  | stop => exact ⟨Or.inl rfl, Or.inr rfl, rfl⟩
  | taken h =>
  rw [run_syncDirectory]
  cases h with
  | stop => exact ⟨Or.inr rfl, Or.inr rfl, rfl⟩

theorem run_all (hk : k.Steady) (content : Bytes) :
    k.run (SaveStep.all content) =
      ⟨{ k.live with record := some (.file content), temp := none }, some (.file content),
        true, true⟩ := by
  obtain ⟨⟨r, t, l, b⟩, e, ts, rs⟩ := k
  rw [SaveStep.all, run_createTemp hk.tempFile, run_writeTemp, run_syncTemp,
    run_renameTemp hk.recordFile, run_syncDirectory]
  rfl

theorem steady_run_all (hk : k.Steady) (content : Bytes) :
    (k.run (SaveStep.all content)).Steady := by
  rw [run_all hk]
  exact ⟨rfl, rfl, by simp, by simp, hk.lockFile⟩

/-- A save in a steady directory succeeds. -/
theorem runAll_all (hk : k.Steady) (content : Bytes) :
    SaveStep.runAll (SaveStep.all content) (some k.live)
      = (.ok (), some (k.run (SaveStep.all content)).live) := by
  refine Prod.ext ?_ (live_run _ k)
  obtain ⟨⟨r, t, l, b⟩, e, ts, rs⟩ := k
  obtain ⟨_, _, hr, ht, _⟩ := hk
  rcases r with _ | c | _
  · rcases t with _ | c | _
    · rfl
    · rfl
    · exact absurd rfl ht
  · rcases t with _ | c | _
    · rfl
    · rfl
    · exact absurd rfl ht
  · exact absurd rfl hr

theorem between_steady (hk : k.Steady) : Between k.live.record k.live.record k :=
  ⟨Or.inl hk.record, Or.inl rfl, hk.synced⟩

theorem between_found (d : Directory) : Between d.record d.record (found d) :=
  ⟨Or.inl rfl, Or.inl rfl, rfl⟩

theorem record_leaves (hk : Between old new k) (h : k.Leaves d) :
    d.record = old ∨ d.record = new := by
  rcases h.record with hr | ⟨hr, _⟩ | ⟨hs, _⟩
  · rw [hr]
    exact hk.record
  · rw [hr]
    exact hk.live
  · simp [hk.synced] at hs

end Disk
end Synod
