import Synod.Proofs.Fault
import Synod.Proofs.Size

/-!
Requests that fit a frame never lead to a state that is too long for a record: whatever is saved can
be loaded again.
-/
namespace Synod

namespace State

/-- Whether the layouts of a state came with requests that fit a frame. -/
structure Roomy (s : State) : Prop where
  layout : ∀ l ∈ s.layout, (Wire.encode l).length + 4 ≤ Frame.limit
  accepted : ∀ v ∈ s.accepted, (Wire.encode v.layout).length + 44 ≤ Frame.limit

variable {s t : State} {q : Request} {r : Response}

theorem roomy_initial : Roomy .initial := ⟨by simp [initial], by simp [initial]⟩

theorem roomy_grant (hs : s.Roomy) (hg : s.Grant q t r)
    (hq : (Wire.encode q).length ≤ Frame.limit) : t.Roomy := by
  rw [Wire.length_request] at hq
  cases hg with
  | bootstrap => exact ⟨by simpa using hq, hs.accepted⟩
  | setEpoch => exact ⟨hs.layout, by simp [advance]⟩
  | prepare => exact ⟨hs.layout, hs.accepted⟩
  | propose => exact ⟨hs.layout, by simpa using hq⟩
  | committed => exact ⟨by simp at hq ⊢; omega, by simp [advance]⟩

theorem length_le_of_roomy (hs : s.Roomy) :
    (Wire.encode s).length ≤ 2 * Frame.limit + 28 := by
  have hlayout : (Wire.encode s.layout).length ≤ Frame.limit - 3 := by
    cases hl : s.layout with
    | none => decide
    | some l =>
      have := hs.layout l hl
      rw [Wire.length_some]
      omega
  have haccepted : (Wire.encode s.accepted).length ≤ Frame.limit - 11 := by
    cases hv : s.accepted with
    | none => decide
    | some v =>
      have := hs.accepted v hv
      rw [Wire.length_some, Wire.encode_accepted, List.length_append, Wire.length_rank]
      omega
  have hpromised := Wire.length_rank?_le s.promised
  have hb : (Wire.encode s.bootstrapped).length = 1 := rfl
  rw [Wire.encode_state]
  simp only [List.length_append, hb, Wire.length_word64]
  have : 11 ≤ Frame.limit := by decide
  omega

theorem storable_of_roomy (hs : s.Roomy) : s.Storable := by
  refine Nat.lt_of_le_of_lt (length_le_of_roomy hs) ?_
  decide

end State

namespace Acceptor

variable {path : String} {start : Place} {qs : List Request} {a b : Acceptor FaultyStore}
  {m : Option Mishap} {q : Request} {f g : FaultyStore} {d : Directory} {s t : State}
  {outcome : Except StorageError Unit}

/-- A store in use whose record tells a state that leaves room in a frame. -/
def Loadable (f : FileStore) : Prop := ∃ d s, f.InUse d ∧ s.Roomy ∧ Service.Tells d.record s

/-- However a save ends, the record tells the state before or the one to be saved. -/
theorem loadable_save (hf : Loadable f.store) (ht : t.Roomy)
    (h : Store.save t f = (outcome, g)) : Loadable g.store := by
  obtain ⟨d, s, hd, hs, hrecord⟩ := hf
  obtain ⟨o, e, _, _, hg, he⟩ := FaultyStore.save_cases hd h
  have hin := FileStore.inUse_attempted hd he
  rw [← hg] at hin
  cases he with
  | early => exact ⟨_, s, hin, hs, hrecord⟩
  | late => exact ⟨_, t, hin, ht, .kept (State.storable_of_roomy ht)⟩
  | done => exact ⟨_, t, hin, ht, .kept (State.storable_of_roomy ht)⟩

theorem tells_of_record {r : Option Entry}
    (hr : FileStore.reach path Directory.recordName = .ok ()) (h : Service.Tells r s) :
    FileStore.tells path r = .ok s :=
  Service.load_of_tells (d := { record := r }) hr h

/-- A state that is saved is the one that is loaded again. -/
theorem reopened_of_save (hd : f.store.InUse d)
    (hr : FileStore.reach f.store.path Directory.recordName = .ok ()) (ht : t.Storable)
    (h : Store.save t f = (.ok (), g)) : g.store.reopened = .ok t := by
  obtain ⟨o, e, _, ho, hg, he⟩ := FaultyStore.save_cases hd h
  have hin := FileStore.inUse_attempted hd he
  cases he with
  | early => cases ho
  | late => cases ho
  | done =>
    rw [hg, FileStore.reopened_of_inUse hin]
    exact (FileStore.tells_file hr _).trans (Record.decode_encode ht)

theorem reopened_of_moved {r : Response} (hd : a.store.store.InUse d)
    (hr : FileStore.reach a.store.store.path Directory.recordName = .ok ()) (ht : t.Storable)
    (hj : a.state.judge q = .move t r) (hb : (a.befall m).handle q = (.ok r, b)) :
    b.state = t ∧ b.store.store.reopened = .ok t := by
  generalize ho : (Except.ok r : Except StorageError Response) = outcome at hb
  cases handled_of_eq hb with
  | kept hk => cases hk.symm.trans hj
  | fault => cases ho
  | saved hg hsave =>
    obtain ⟨rfl, _⟩ := Verdict.move.inj ((State.judge_eq_move_iff.mpr hg).symm.trans hj)
    exact ⟨rfl, reopened_of_save (f := (a.befall m).store) hd hr ht hsave⟩

theorem loadable_handle (ha : a.state.Roomy) (hf : Loadable a.store.store)
    (hq : (Wire.encode q).length ≤ Frame.limit) (m : Option Mishap) :
    ((a.befall m).handle q).2.state.Roomy ∧ Loadable ((a.befall m).handle q).2.store.store := by
  rcases hb : (a.befall m).handle q with ⟨outcome, b⟩
  cases handled_of_eq hb with
  | kept => exact ⟨ha, hf⟩
  | saved hg hs =>
    have ht := State.roomy_grant ha hg hq
    exact ⟨ht, loadable_save (f := (a.befall m).store) hf ht hs⟩
  | fault hg hs =>
    exact ⟨ha, loadable_save (f := (a.befall m).store) hf (State.roomy_grant ha hg hq) hs⟩

/-- Opening recovers the state that the record tells. -/
theorem loadable_recover {place : Place} {f : FileStore} {r : Option Entry}
    (hf : FileStore.acquire path place = .ok f) (hb : recover ⟨f, none⟩ = .ok b)
    (hp : (place.getD {}).record = r) (hs : s.Roomy) (ht : Service.Tells r s) :
    b.state.Roomy ∧ Loadable b.store.store := by
  obtain ⟨d, hd, _, hr⟩ := FileStore.inUse_of_acquire hf
  obtain ⟨hl, hstore⟩ := recover_eq_ok_iff.mp hb
  rw [hstore]
  rw [hp] at hr
  have htold := tells_of_record (FileStore.reach_of_load hl) ht
  rw [← hr, ← FileStore.load_of_inUse hd] at htold
  obtain rfl := Except.ok.inj (htold.symm.trans hl)
  exact ⟨hs, d, _, hd, hs, hr ▸ ht⟩

theorem loadable_life (hstart : (start.getD {}).record = none) (h : Life path start qs a)
    (hq : ∀ q ∈ qs, (Wire.encode q).length ≤ Frame.limit) :
    a.state.Roomy ∧ Loadable a.store.store := by
  induction h with
  | opened hf ha => exact loadable_recover hf ha hstart State.roomy_initial .missing
  | handled _ m q ih =>
    obtain ⟨ha, hf⟩ := ih fun p hp => hq p (List.mem_append_left _ hp)
    exact loadable_handle ha hf (hq q (List.mem_append_right _ (List.mem_singleton_self q))) m
  | restarted _ hf hb ih =>
    obtain ⟨_, d, s, hd, hs, ht⟩ := ih hq
    rw [FileStore.release_of_inUse hd] at hf
    exact loadable_recover hf hb rfl hs ht

/-- Requests that fit a frame lead to states whose records are whole: the length field does not
wrap, the record on the disk can be loaded, and after a request that has moved the state, it is the
state moved to that is loaded. -/
theorem saved_states_load (hstart : (start.getD {}).record = none) (h : Life path start qs a)
    (hq : ∀ q ∈ qs, (Wire.encode q).length ≤ Frame.limit) :
    (UInt32.ofNat (Wire.encode a.state).length).toNat = (Wire.encode a.state).length ∧
    Record.decode (Record.encode a.state) = .ok a.state ∧
    (∃ s, a.store.store.reopened = .ok s) ∧
    ∀ m q t r b, (Wire.encode q).length ≤ Frame.limit → a.state.judge q = .move t r →
      (a.befall m).handle q = (.ok r, b) → b.state = t ∧ b.store.store.reopened = .ok t := by
  obtain ⟨ha, d, s, hd, hs, ht⟩ := loadable_life hstart h hq
  obtain ⟨_, hr⟩ := serving_life h
  have hstorable := State.storable_of_roomy ha
  refine ⟨UInt32.toNat_ofNat_of_lt' hstorable, Record.decode_encode hstorable, ⟨s, ?_⟩, ?_⟩
  · rw [FileStore.reopened_of_inUse hd]
    exact tells_of_record hr ht
  · intro m q t r b hlen hj hb
    have ht := State.roomy_grant ha (State.judge_eq_move_iff.mp hj) hlen
    exact reopened_of_moved hd hr (State.storable_of_roomy ht) hj hb

theorem life_holding_restarted {record : Option Entry} (h : Life "/n" start qs a)
    (hp : a.store.store.release = some ⟨record, none, some (.file []), false⟩)
    (ht : Service.Tells record s) : Life "/n" start qs (holding "/n" record s) := by
  refine .restarted (f := (holding "/n" record s).store.store) h ?_ (recover_holding rfl ht)
  rw [hp]
  rfl

/-- A first record whose directory could not be synced, found when the store is opened again. -/
theorem saved_states_load_after_failed_sync : ∃ a, Life "/n" (some {}) [.bootstrap default] a ∧
    a.state = ⟨true, 0, some default, none, none⟩ ∧
    Record.decode (Record.encode a.state) = .ok a.state := by
  have hb := life_holding_nothing.handled (some ⟨4, .other "input/output error", 0⟩)
    (.bootstrap default)
  have h := life_holding_restarted hb rfl (.kept storable_bootstrapped)
  refine ⟨_, h, rfl, (saved_states_load rfl h ?_).2.1⟩
  decide

end Acceptor
end Synod
