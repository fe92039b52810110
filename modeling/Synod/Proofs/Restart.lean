import Synod.Proofs.Service

/-!
Whatever crashes it meets, an acceptor over a directory gives the answers of an acceptor in memory
that never crashes.
-/
namespace Synod

/-- What a happening is to an acceptor that never crashes: an interrupted request is delivered to it
or dropped. -/
inductive Follows (m : Acceptor MemoryStore) : Happening → Acceptor MemoryStore → Prop where
  | answered {q : Request} {r : Response} {n : Acceptor MemoryStore} (h : m.handle q = (.ok r, n)) :
      Follows m (.handled q (.ok r)) n
  | failed {q : Request} {e : StorageError} : Follows m (.handled q (.error e)) m
  | delivered {q : Request} {r : Response} {n : Acceptor MemoryStore}
      (h : m.handle q = (.ok r, n)) : Follows m (.interrupted q) n
  | dropped {q : Request} : Follows m (.interrupted q) m
  | stopped : Follows m .stopped m
  | crashed : Follows m .crashed m
  | opened : Follows m .opened m

namespace Service

/-- Whether a directory can be opened, and a state is then recovered. -/
def Recovers (path : String) (d : Directory) (s : State) : Prop :=
  ∃ a, FileStore.acquire path (some d) = .ok a.store ∧ Acceptor.recover a.store = .ok a ∧
    a.state = s

/-- Whether a service is where an acceptor in memory is. While it is up, it answers every request,
unless the temporary file cannot be reached. -/
def Shows (path : String) (m : Acceptor MemoryStore) : Service → Prop
  | up a _ => a.state = m.state ∧ a.store.load = .ok m.state ∧
      (FileStore.reach path Directory.tempName = .ok () → ∀ q, ∃ r, (a.handle q).1 = .ok r)
  | down d => Recovers path d m.state

/-- A run beside an acceptor in memory that follows it, and that it shows at every point. -/
inductive Mirrored (path : String) : List Happening → Service → Acceptor MemoryStore → Prop where
  | nil (h : Shows path (.memory .initial) (down {})) :
      Mirrored path [] (down {}) (.memory .initial)
  | snoc {es : List Happening} {e : Happening} {c c' : Service} {m m' : Acceptor MemoryStore}
      (h : Mirrored path es c m) (he : Step path c e c') (hm : Follows m e m')
      (hs : Shows path m' c') : Mirrored path (es ++ [e]) c' m'

/-- What a record tells: if it is missing, the initial state. -/
inductive Tells : Option Entry → State → Prop where
  | missing : Tells none .initial
  | kept {s : State} (h : s.Storable) : Tells (some (.file (Record.encode s))) s

/-- The state that a service keeps on its disk, and in memory while it is up. -/
inductive Keeps (path : String) : Service → State → Prop where
  | up {k : Disk} {s : State} (hk : k.Steady) (hr : Tells k.live.record s) :
      Keeps path (up (.onDisk path k s) k) s
  | down {d : Directory} {s : State} (hr : Tells d.record s) (hd : d.Free) : Keeps path (down d) s

variable {path : String} {c c' : Service} {e : Happening} {s t : State} {d : Directory} {k : Disk}
  {q : Request} {r : Option Entry} {a : Acceptor FileStore}

theorem not_folder_of_tells (h : Tells r s) : r ≠ some .folder := by
  cases h <;> simp

theorem load_of_tells (hr : FileStore.reach path Directory.recordName = .ok ())
    (h : Tells d.record s) : FileStore.load ⟨path, some d, true⟩ = .ok s := by
  simp only [FileStore.load, hr, Directory.read?]
  generalize d.record = record at h
  cases h with
  | missing => rfl
  | kept hs => exact Record.decode_encode hs

/-- Opening a directory recovers the state that its record tells. -/
theorem open_of_keeps (hl : FileStore.reach path Directory.lockName = .ok ())
    (hr : FileStore.reach path Directory.recordName = .ok ()) (h : Keeps path (down d) s) :
    ∃ e : Directory, FileStore.acquire path (some d) = .ok ⟨path, some e, true⟩ ∧
      Acceptor.recover (⟨path, some e, true⟩ : FileStore) = .ok (.onDisk path (.found e) s) ∧
      Keeps path (up (.onDisk path (.found e) s) (.found e)) s := by
  cases h with
  | down ht hd =>
    obtain ⟨u, content, hu, ha⟩ := FileStore.acquire_of_free hl hd
    have hload := load_of_tells (d := ⟨d.record, u, some (.file content), true⟩) hr ht
    refine ⟨_, ha, Acceptor.recover_eq_ok_iff.mpr ⟨hload, rfl⟩, .up ?_ ht⟩
    exact ⟨rfl, rfl, not_folder_of_tells ht, hu, by simp [Disk.found]⟩

/-- A service shows an acceptor in memory with the state that it keeps. -/
theorem shows_of_keeps (hl : FileStore.reach path Directory.lockName = .ok ())
    (hr : FileStore.reach path Directory.recordName = .ok ())
    (hself : FileStore.reachSelf path = .ok ()) (h : Keeps path c s) :
    Shows path (.memory s) c := by
  cases h with
  | @up k s hk ht =>
    refine ⟨rfl, load_of_tells hr ht, fun htemp q => ?_⟩
    rcases Acceptor.handle_cases hk hself s q with ⟨r, _, _, hh⟩ | ⟨t, r, _, _, hh⟩ | ⟨e, _, _, hn⟩
    · exact ⟨r, by rw [hh]⟩
    · exact ⟨r, by rw [hh]⟩
    · exact absurd htemp hn
  | down ht hd =>
    obtain ⟨e, ha, hrec, _⟩ := open_of_keeps hl hr (.down ht hd)
    exact ⟨.onDisk path (.found e) s, ha, hrec, rfl⟩

/-- A crash keeps a record that is on the disk. -/
theorem keeps_leaves (hb : k.Between r r) (ht : Tells r s) (h : k.Leaves d) :
    Keeps path (down d) s := by
  have hr := or_self_iff.mp (Disk.record_leaves hb h)
  exact .down (hr ▸ ht) h.free

/-- So does one that comes before any step of a request. -/
theorem keeps_cut_nil {taken : List SaveStep} (hk : k.Steady) (ht : Tells k.live.record s)
    (hc : Cut taken []) (hd : (k.run taken).Leaves d) : Keeps path (down d) s := by
  obtain rfl := Disk.cut_nil hc
  exact keeps_leaves (Disk.between_steady hk) ht hd

theorem keeps_handled (hself : FileStore.reachSelf path = .ok ()) (hk : k.Steady)
    (ht : Tells k.live.record s) (hs : ∀ t r, s.judge q = .move t r → t.Storable) :
    ∃ t, Follows (.memory s) (.handled q ((Acceptor.onDisk path k s).handle q).1) (.memory t) ∧
      Keeps path (up ((Acceptor.onDisk path k s).handle q).2
        (k.run ((Acceptor.onDisk path k s).steps q))) t := by
  rcases Acceptor.handle_cases hk hself s q with
      ⟨r, hj, hn, hh⟩ | ⟨t, r, hj, hn, hh⟩ | ⟨e, hn, hh, _⟩
  · rw [hn, hh]
    exact ⟨s, .answered (Acceptor.handle_memory_keep hj), .up hk ht⟩
  · rw [hn, hh]
    refine ⟨t, .answered (Acceptor.handle_memory_move hj), .up (Disk.steady_run_all hk _) ?_⟩
    rw [Disk.run_all hk]
    exact .kept (hs t r hj)
  · rw [hn, hh]
    exact ⟨s, .failed, .up hk ht⟩

/-- After a crash in the middle of a request, the state is the one before or the one after. -/
theorem keeps_interrupted {taken : List SaveStep} (hself : FileStore.reachSelf path = .ok ())
    (hk : k.Steady) (ht : Tells k.live.record s)
    (hs : ∀ t r, s.judge q = .move t r → t.Storable)
    (hc : Cut taken ((Acceptor.onDisk path k s).steps q)) (hd : (k.run taken).Leaves d) :
    ∃ t, Follows (.memory s) (.interrupted q) (.memory t) ∧ Keeps path (down d) t ∧
      (t = s ∨ t = ((Acceptor.onDisk path k s).handle q).2.state) := by
  rcases Acceptor.handle_cases hk hself s q with
      ⟨r, hj, hn, hh⟩ | ⟨t, r, hj, hn, hh⟩ | ⟨e, hn, hh, _⟩
  · rw [hn] at hc
    exact ⟨s, .dropped, keeps_cut_nil hk ht hc hd, Or.inl rfl⟩
  · rw [hn] at hc
    rcases Disk.record_leaves (Disk.between_cut hk hc) hd with hold | hnew
    · exact ⟨s, .dropped, .down (hold ▸ ht) hd.free, Or.inl rfl⟩
    · refine ⟨t, .delivered (Acceptor.handle_memory_move hj), ?_, Or.inr (by rw [hh]; rfl)⟩
      exact .down (hnew ▸ .kept (hs t r hj)) hd.free
  · rw [hn] at hc
    exact ⟨s, .dropped, keeps_cut_nil hk ht hc hd, Or.inl rfl⟩

theorem keeps_crashedOpening {d e f : Directory} (h : Keeps path (down d) s)
    (he : FileStore.Opening path d e) (hf : (Disk.found e).Leaves f) : Keeps path (down f) s := by
  cases h with
  | down ht hd =>
    have hb := Disk.between_found e
    rw [FileStore.record_of_opening hd.temp he] at hb
    exact keeps_leaves hb ht hf

theorem keeps_crashes {f : Directory} (h : Keeps path (down d) s) (hc : Crashes path d f) :
    Keeps path (down f) s := by
  induction hc with
  | refl => exact h
  | tail _ hs ih =>
    cases hs with
    | crashedOpening he hf => exact keeps_crashedOpening ih he hf

/-- Whatever happens to a service, an acceptor in memory can follow to the state that is kept. -/
theorem keeps_step (hl : FileStore.reach path Directory.lockName = .ok ())
    (hr : FileStore.reach path Directory.recordName = .ok ())
    (hself : FileStore.reachSelf path = .ok ()) (hc : Keeps path c s) (h : Step path c e c') :
    ∃ t, Follows (.memory s) e (.memory t) ∧ Keeps path c' t := by
  cases h with
  | handled hs =>
    cases hc with
    | up hk ht => exact keeps_handled hself hk ht hs
  | interrupted hs hcut hd =>
    cases hc with
    | up hk ht =>
      obtain ⟨t, hf, hkeep, _⟩ := keeps_interrupted hself hk ht hs hcut hd
      exact ⟨t, hf, hkeep⟩
  | stopped hd =>
    cases hc with
    | up hk ht =>
      obtain rfl := Option.some.inj hd
      exact ⟨s, .stopped, .down ht ⟨hk.tempFile, hk.lockFile, rfl⟩⟩
  | crashed hd =>
    cases hc with
    | up hk ht => exact ⟨s, .crashed, keeps_leaves (Disk.between_steady hk) ht hd⟩
  | crashedOpening he hf => exact ⟨s, .crashed, keeps_crashedOpening hc he hf⟩
  | @opened d e a hf ha he =>
    obtain ⟨e', ha', hrec, hkeep⟩ := open_of_keeps hl hr hc
    rw [ha'] at hf
    have hst := Except.ok.inj hf
    rw [← hst, hrec] at ha
    obtain rfl := Except.ok.inj ha
    obtain rfl := Option.some.inj he
    exact ⟨s, .opened, hkeep⟩

theorem keeps_initial : Keeps path (down {}) .initial :=
  .down .missing ⟨by simp, by simp, rfl⟩

/-- If an empty directory can be opened at all, and again to be synced, then every run that begins
there, with crashes at any points, is that of an acceptor in memory which never crashes. Whenever
the service is down, opening it succeeds and recovers the state of that acceptor. If a crash
interrupts a request, this is the state before the request or the state after it. -/
theorem crash_restart_refinement {es : List Happening}
    (ha : FileStore.acquire path (some {}) = .ok a.store) (hr : Acceptor.recover a.store = .ok a)
    (hself : FileStore.reachSelf path = .ok ()) (h : Run path es c) :
    (∃ m, Mirrored path es c m) ∧
      ∀ b k q d f, c = up b k → Step path c (.interrupted q) (down d) → Crashes path d f →
        Recovers path f b.state ∨ Recovers path f (b.handle q).2.state := by
  obtain ⟨hlock, hpath⟩ := FileStore.reach_of_acquire ha
  have hrecord := FileStore.reach_of_load (Acceptor.recover_eq_ok_iff.mp hr).1
  rw [hpath] at hrecord
  have hs : ∃ s, Mirrored path es c (.memory s) ∧ Keeps path c s := by
    induction h with
    | nil =>
      exact ⟨.initial, .nil (shows_of_keeps hlock hrecord hself keeps_initial), keeps_initial⟩
    | snoc _ he ih =>
      obtain ⟨s, hm, hk⟩ := ih
      obtain ⟨t, hfol, hkt⟩ := keeps_step hlock hrecord hself hk he
      exact ⟨t, .snoc hm he hfol (shows_of_keeps hlock hrecord hself hkt), hkt⟩
  obtain ⟨s, hm, hkeep⟩ := hs
  refine ⟨⟨_, hm⟩, ?_⟩
  rintro b k q d f rfl hstep hcrash
  cases hkeep with
  | up hk ht =>
  cases hstep with
  | interrupted hs hcut hd =>
  obtain ⟨t, _, hkd, ht⟩ := keeps_interrupted hself hk ht hs hcut hd
  have hshow : Recovers path f t := shows_of_keeps hlock hrecord hself (keeps_crashes hkd hcrash)
  rcases ht with rfl | rfl
  · exact Or.inl hshow
  · exact Or.inr hshow

/-- A crash after the renaming of a first record, with the directory not synced. -/
theorem crash_restart_refinement_after_rename :
    ∃ k d, Run "/n" [.opened] (up (.onDisk "/n" k .initial) k) ∧
      Step "/n" (up (.onDisk "/n" k .initial) k) (.interrupted (.bootstrap default)) (down d) ∧
      d.record = some (.file (Record.encode ⟨true, 0, some default, none, none⟩)) ∧
      (∃ m, Mirrored "/n" [.opened] (up (.onDisk "/n" k .initial) k) m) ∧
      (Recovers "/n" d .initial ∨ Recovers "/n" d
        ((Acceptor.onDisk "/n" k .initial).handle (.bootstrap default)).2.state) := by
  let k : Disk := .found ⟨none, none, some (.file []), true⟩
  let record := Record.encode ⟨true, 0, some default, none, none⟩
  let d : Directory := ⟨some (.file record), none, none, false⟩
  have hr : FileStore.reach "/n" Directory.recordName = .ok () := by rfl
  have ht : FileStore.reach "/n" Directory.tempName = .ok () := by rfl
  have hf : FileStore.acquire "/n" (some {}) = .ok (Acceptor.onDisk "/n" k .initial).store := by rfl
  have ha : Acceptor.recover (Acceptor.onDisk "/n" k .initial).store
      = .ok (.onDisk "/n" k .initial) :=
    Acceptor.recover_eq_ok_iff.mpr ⟨load_of_tells hr .missing, rfl⟩
  have hrun : Run "/n" [.opened] (up (.onDisk "/n" k .initial) k) := .snoc .nil (.opened hf ha rfl)
  have hsteps : (Acceptor.onDisk "/n" k .initial).steps (.bootstrap default)
      = SaveStep.all record := by
    simp only [Acceptor.steps, Acceptor.onDisk, FileStore.saveSteps, ht]
    rfl
  have hstep : Step "/n" (up (.onDisk "/n" k .initial) k) (.interrupted (.bootstrap default))
      (down d) := by
    refine @Step.interrupted _ _ _ _ [.createTemp, .writeTemp record, .syncTemp, .renameTemp] _
      ?_ ?_ ?_
    · intro t r h
      obtain ⟨rfl, rfl⟩ := Verdict.move.inj h
      unfold State.Storable
      decide
    · rw [hsteps]
      exact .taken (.taken (.taken (.taken .stop)))
    · exact ⟨Or.inr (Or.inl ⟨rfl, rfl⟩), ⟨by simp [d], by simp [d], rfl⟩⟩
  obtain ⟨hm, hboth⟩ := crash_restart_refinement hf ha rfl hrun
  exact ⟨k, d, hrun, hstep, rfl, hm, hboth _ _ _ _ _ rfl hstep .refl⟩

end Service
end Synod
