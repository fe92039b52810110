import Mathlib.Data.List.DropRight
import Synod.Acceptor
import Synod.Proofs.Refusal

/-!
The life of one acceptor: requests with their outcomes, and restarts. Saves may fail at any request,
in any pattern, as long as a failed one leaves the state that the store holds.
-/
namespace Synod

/-- A store of one state, which a save replaces if it succeeds and leaves if it fails. -/
class StableStore (σ : Type) extends Store σ where
  /-- The state held, whether or not it can be loaded at the moment. -/
  held : σ → State
  held_of_load {store : σ} {s : State} : load store = .ok s → held store = s
  held_of_save {store next : σ} {s : State} : save s store = (.ok (), next) → held next = s
  held_of_fault {store next : σ} {s : State} {e : StorageError} :
    save s store = (.error e, next) → held next = held store

instance : StableStore MemoryStore where
  held := MemoryStore.state
  held_of_load {store s} h := by
    simp only [Store.load, MemoryStore.load] at h
    split at h <;> simp_all
  held_of_save {store next s} h := by
    simp only [Store.save, MemoryStore.save] at h
    split at h <;> simp_all
    simp [← h]
  held_of_fault {store next s e} h := by
    simp only [Store.save, MemoryStore.save] at h
    split at h <;> simp_all

inductive Event where
  | handled (request : Request) (outcome : Except StorageError Response)
  | restarted

namespace Request

/-- The rank that is promised by granting a request. -/
@[simp]
def promise? : Request → Option Rank
  | prepare r _ => some r
  | _ => none

/-- The layout that is accepted by granting a request, with its rank. -/
@[simp]
def vote? : Request → Option Accepted
  | propose r l _ => some ⟨r, l⟩
  | _ => none

/-- Whether granting a request ends the round. -/
@[simp]
def resets : Request → Bool
  | setEpoch _ | committed _ _ _ => true
  | _ => false

end Request

namespace Event

/-- The request that is answered positively. -/
def acked? : Event → Option Request
  | handled q (.ok a) => if a.isReject then none else some q
  | _ => none

def promise? (e : Event) : Option Rank := e.acked?.bind Request.promise?

def vote? (e : Event) : Option Accepted := e.acked?.bind Request.vote?

def resets (e : Event) : Bool := e.acked?.any Request.resets

variable {e : Event} {r : Rank} {v : Accepted}

theorem promise?_eq_some : e.promise? = some r ↔ ∃ n, e.acked? = some (.prepare r n) := by
  cases h : e.acked? with
  | none => simp [promise?, h]
  | some q => cases q <;> simp [promise?, h]

theorem vote?_eq_some :
    e.vote? = some v ↔ ∃ n, e.acked? = some (.propose v.rank v.layout n) := by
  obtain ⟨r, l⟩ := v
  cases h : e.acked? with
  | none => simp [vote?, h]
  | some q => cases q <;> simp [vote?, h]

end Event

/-- What an event does to the state of an acceptor. -/
inductive Turn (s : State) : Event → State → Prop where
  | kept {q : Request} {a : Response} (h : s.Kept q a) : Turn s (.handled q (.ok a)) s
  | granted {q : Request} {t : State} {a : Response} (h : s.Grant q t a) :
      Turn s (.handled q (.ok a)) t
  | failed {q : Request} {t : State} {a : Response} {e : StorageError} (h : s.Grant q t a) :
      Turn s (.handled q (.error e)) s
  | restarted : Turn s .restarted s

variable {s t : State} {e : Event} {es fs : List Event}

/-- A turn keeps the state, or it grants the request that it acks. -/
theorem turn_cases (h : Turn s e t) :
    ((e.acked? = none ∨ e.acked? = some .getLayout) ∧ t = s) ∨
      ∃ q a, e = .handled q (.ok a) ∧ e.acked? = some q ∧ s.Grant q t a := by
  cases h with
  | kept h =>
    cases h with
    | query =>
      left
      simp only [Event.acked?]
      split <;> simp
    | reject ha => simp [Event.acked?, ha]
  | granted h => exact Or.inr ⟨_, _, rfl, by simp [Event.acked?, State.isReject_of_grant h], h⟩
  | failed => exact Or.inl ⟨Or.inl rfl, rfl⟩
  | restarted => exact Or.inl ⟨Or.inl rfl, rfl⟩

theorem turn_grant {q : Request} (h : Turn s e t) (ha : e.acked? = some q)
    (hq : q ≠ .getLayout) : ∃ a, e = .handled q (.ok a) ∧ s.Grant q t a := by
  rcases turn_cases h with ⟨hn | hn, _⟩ | ⟨p, a, he, hp, hg⟩
  · simp [hn] at ha
  · rw [hn] at ha
    exact absurd (Option.some.inj ha).symm hq
  · rw [hp] at ha
    obtain rfl := Option.some.inj ha
    exact ⟨a, he, hg⟩

/-- The events of a life that began in the initial state, and the state they lead to. -/
inductive History : List Event → State → Prop where
  | nil : History [] .initial
  | snoc {es : List Event} {e : Event} {s t : State} (h : History es s) (he : Turn s e t) :
      History (es ++ [e]) t

/-- What every grant keeps, a turn keeps. -/
theorem holds_turn {P : State → Prop} (h : Turn s e t) (hs : P s)
    (hg : ∀ {q a}, s.Grant q t a → P t) : P t := by
  rcases turn_cases h with ⟨_, rfl⟩ | ⟨q, a, _, _, hgrant⟩
  · exact hs
  · exact hg hgrant

/-- What holds at first, and every grant keeps, holds throughout a life. -/
theorem holds_history {P : State → Prop} (h : History es s) (hi : P .initial)
    (hg : ∀ {s q t a}, P s → s.Grant q t a → P t) : P s := by
  induction h with
  | nil => exact hi
  | snoc _ he ih => exact holds_turn he ih (hg ih)

theorem clean_history (h : History es s) : s.Clean :=
  holds_history h State.clean_initial fun _ hg => State.clean_grant hg

theorem epoch_le_turn (hs : s.Clean) (h : Turn s e t) : s.epoch ≤ t.epoch :=
  holds_turn (P := fun t => s.epoch ≤ t.epoch) h (Std.le_refl _) (State.epoch_le_grant hs)

/-- What an event brings about, and every turn keeps, holds ever after. -/
theorem history_since {P : State → Prop} {x : Event} (h : History es s) (hx : x ∈ es)
    (hstart : ∀ {s t}, s.Clean → Turn s x t → P t)
    (hkeep : ∀ {s e t}, s.Clean → P s → Turn s e t → P t) : P s := by
  induction h with
  | nil => simp at hx
  | snoc h he ih =>
    rcases List.mem_append.mp hx with hx | hx
    · exact hkeep (clean_history h) (ih hx) he
    · obtain rfl := List.mem_singleton.mp hx
      exact hstart (clean_history h) he

theorem history_snoc (h : History (es ++ [e]) t) : ∃ s, History es s ∧ Turn s e t := by
  generalize hx : es ++ [e] = xs at h
  cases h with
  | nil => simp at hx
  | snoc h he =>
    obtain ⟨rfl, hl⟩ := List.append_inj' hx rfl
    obtain rfl := (List.cons.inj hl).1
    exact ⟨_, h, he⟩

/-- The turn that an event of a history is, and the history before it. -/
theorem history_before (h : History (es ++ e :: fs) t) :
    ∃ s u, History es s ∧ Turn s e u := by
  induction fs using List.reverseRecOn generalizing t with
  | nil =>
    obtain ⟨s, hs, he⟩ := history_snoc h
    exact ⟨s, t, hs, he⟩
  | append_singleton fs f ih =>
    rw [← List.cons_append, ← List.append_assoc] at h
    obtain ⟨u, hu, _⟩ := history_snoc h
    exact ih hu

namespace Acceptor

theorem recover_eq_ok_iff {σ : Type} [Store σ] {store : σ} {a : Acceptor σ} :
    recover store = .ok a ↔ Store.load store = .ok a.state ∧ a.store = store := by
  unfold recover
  cases Store.load store with
  | error e => simp [Except.map]
  | ok s =>
    obtain ⟨t, store'⟩ := a
    simp [Except.map, eq_comm]

section Handled

variable {σ : Type} [Store σ] {a b : Acceptor σ} {q : Request}

/-- What handling a request comes to: an answer with nothing to be saved, or a save. -/
inductive Handled (a : Acceptor σ) (q : Request) :
    Except StorageError Response → Acceptor σ → Prop where
  | kept {r : Response} (hj : a.state.judge q = .keep r) (hk : a.state.Kept q r) :
      Handled a q (.ok r) a
  | saved {t : State} {r : Response} {store : σ} (hg : a.state.Grant q t r)
      (hs : Store.save t a.store = (.ok (), store)) : Handled a q (.ok r) ⟨t, store⟩
  | fault {t : State} {r : Response} {e : StorageError} {store : σ} (hg : a.state.Grant q t r)
      (hs : Store.save t a.store = (.error e, store)) : Handled a q (.error e) ⟨a.state, store⟩

theorem handled_of_eq {o : Except StorageError Response} (h : a.handle q = (o, b)) :
    Handled a q o b := by
  rcases a.state.judge_cases q with ⟨r, hj, hk⟩ | ⟨t, r, hg⟩
  · rw [handle_keep hj] at h
    obtain ⟨rfl, rfl⟩ := Prod.mk.inj h
    exact .kept hj hk
  · have hj := State.judge_of_grant hg
    cases hs : Store.save t a.store with
    | mk outcome store =>
    cases outcome with
    | ok =>
      rw [handle_saved hj hs] at h
      obtain ⟨rfl, rfl⟩ := Prod.mk.inj h
      exact .saved hg hs
    | error e =>
      rw [handle_fault hj hs] at h
      obtain ⟨rfl, rfl⟩ := Prod.mk.inj h
      exact .fault hg hs

end Handled

variable {σ : Type} [StableStore σ] {a b : Acceptor σ} {q : Request}

/-- What an acceptor remembers is what its store holds. -/
def Settled (a : Acceptor σ) : Prop := StableStore.held a.store = a.state

/-- An acceptor that nothing has happened to. -/
def Fresh (a : Acceptor σ) : Prop :=
  a.state = .initial ∧ StableStore.held a.store = .initial

/-- One event. The store meets it in any working order, holding what it held before. -/
inductive Step (a : Acceptor σ) : Event → Acceptor σ → Prop where
  | handled {m : σ} {q : Request} {o : Except StorageError Response} {b : Acceptor σ}
      (hs : StableStore.held m = StableStore.held a.store)
      (h : handle ⟨a.state, m⟩ q = (o, b)) : Step a (.handled q o) b
  | restarted {m : σ} {b : Acceptor σ} (hs : StableStore.held m = StableStore.held a.store)
      (h : recover m = .ok b) : Step a .restarted b

inductive Run (a : Acceptor σ) : List Event → Acceptor σ → Prop where
  | nil : Run a [] a
  | snoc {es : List Event} {e : Event} {b c : Acceptor σ} (h : Run a es b) (he : Step b e c) :
      Run a (es ++ [e]) c

theorem run_append {c : Acceptor σ} (h : Run a es b) (hf : Run b fs c) : Run a (es ++ fs) c := by
  induction hf with
  | nil => simpa using h
  | snoc _ he ih =>
    rw [← List.append_assoc]
    exact .snoc ih he

theorem run_cons {c : Acceptor σ} (he : Step a e b) (h : Run b es c) : Run a (e :: es) c :=
  run_append (.snoc .nil he) h

theorem run_nil_iff : Run a [] b ↔ b = a := by
  constructor
  · intro h
    generalize hx : ([] : List Event) = es at h
    cases h with
    | nil => rfl
    | snoc => simp at hx
  · rintro rfl
    exact .nil

theorem settled_of_fresh (h : a.Fresh) : a.Settled := h.2.trans h.1.symm

theorem turn_handle {o : Except StorageError Response} (ha : a.Settled)
    (h : a.handle q = (o, b)) : Turn a.state (.handled q o) b.state ∧ b.Settled := by
  cases handled_of_eq h with
  | kept hj hk => exact ⟨.kept hk, ha⟩
  | saved hg hs => exact ⟨.granted hg, StableStore.held_of_save hs⟩
  | fault hg hs => exact ⟨.failed hg, (StableStore.held_of_fault hs).trans ha⟩

theorem recover_state {store : σ} (h : recover store = .ok b) :
    b.state = StableStore.held store ∧ b.store = store := by
  obtain ⟨hl, hs⟩ := recover_eq_ok_iff.mp h
  exact ⟨(StableStore.held_of_load hl).symm, hs⟩

theorem step_turn (ha : a.Settled) (h : Step a e b) :
    Turn a.state e b.state ∧ b.Settled := by
  cases h with
  | @handled m _ _ _ hs h => exact turn_handle (a := ⟨a.state, m⟩) (hs.trans ha) h
  | restarted hs h =>
    obtain ⟨hb, hst⟩ := recover_state h
    rw [hb, hs, ha]
    refine ⟨.restarted, ?_⟩
    rw [Settled, hb, hst]

theorem settled_run (ha : a.Settled) (h : Run a es b) : b.Settled := by
  induction h with
  | nil => exact ha
  | snoc _ he ih => exact (step_turn ih he).2

/-- The state that a run leads to is a matter of its events alone, and it is the state held. -/
theorem run_history (ha : a.Fresh) (h : Run a es b) : History es b.state ∧ b.Settled := by
  induction h with
  | nil => exact ⟨ha.1 ▸ .nil, settled_of_fresh ha⟩
  | snoc _ he ih =>
    obtain ⟨ht, hs⟩ := step_turn ih.2 he
    exact ⟨.snoc ih.1 ht, hs⟩

end Acceptor
end Synod
