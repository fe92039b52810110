import Synod.Proofs.Highest
import Synod.Proofs.Outbid
import Synod.Proofs.Replay
import Synod.Shell.Session

/-!
Sessions of the shell, command after command, whatever comes of their connections and requests. A
session remembers the highest rank that it has sent in a first phase or been told of.
-/
namespace Synod

/-- The ranks that a response tells. -/
def Response.ranks : Response → List Rank
  | prepareReject promised => promised.toList
  | prepareAck accepted _ => accepted.toList
  | proposeReject promised accepted => promised.toList ++ accepted.toList
  | _ => []

namespace Shell

variable {s t : Session} {load : String → Except LoadError Layout}

/-- What a session does at a command, with what comes of it. -/
inductive Deed where
  | said
  | dialled (port : UInt16) (outcome : Except Error Unit)
  | asked (request : Request) (outcome : Except Error Response)

/-- The ranks that a session sends in a first phase, then those that it is told. -/
def Deed.ranks : Deed → List Rank
  | asked q (.ok r) => q.promise?.toList ++ r.ranks
  | asked q (.error _) => q.promise?.toList
  | _ => []

/-- The ranks that were sent or told up to now. -/
def ranks (ds : List Deed) : List Rank := ds.flatMap Deed.ranks

theorem ranks_snoc (ds : List Deed) (d : Deed) : ranks (ds ++ [d]) = ranks ds ++ d.ranks := by
  simp [ranks]

theorem isTop_reported (r : Response) : IsTop id r.ranks (reported r) := by
  cases r with
  | prepareAck accepted l => exact IsTop.toList accepted
  | prepareReject promised => exact IsTop.toList promised
  | proposeReject promised accepted =>
    exact (IsTop.toList promised).append (IsTop.toList accepted)
  | _ => exact isTop_nil

namespace Session

/-- What is said of a retry for which there is no rank. -/
def exhaustion (s : Session) : String := s!"[ERROR]: no rank above {shown s.seen} is available"

/-- What becomes of a retry after some ranks were sent or told: a rank of the session above all of
them is prepared, and the least one if there are any, or no rank of the session is above the one that
it remembers. -/
inductive Retries (xs : List Rank) (s : Session) (n : UInt64) : Turn × Session → Prop where
  | preparing {r : Rank} (hp : r.proposer = s.proposer) (hlt : ∀ x ∈ xs, x < r)
      (hle : s.seen.isSome = true → ∀ a : Rank, a.proposer = s.proposer → (∀ x ∈ xs, x < a) → r ≤ a) :
      Retries xs s n
        (.ask [s!"[INFO]: preparing at {r.text}"] (.prepare r n), { s with seen := some r })
  | exhausted {x : Rank} (hx : s.seen = some x) (hle : ∀ a : Rank, a.proposer = s.proposer → a ≤ x) :
      Retries xs s n (.say [s.exhaustion], s)

theorem retries_request {xs : List Rank} (hxs : IsTop id xs s.seen) (n : UInt64) :
    Retries xs s n (s.request load (.retry n)) := by
  cases h : Rank.above s.seen s.proposer with
  | some r =>
    simp only [request, h]
    refine .preparing (Rank.proposer_of_above h) (hxs.lt_iff.mp (Rank.lt_of_above h)) ?_
    intro hs a ha hlt
    obtain ⟨x, hx⟩ := Option.isSome_iff_exists.mp hs
    rw [hx] at h
    exact Rank.above_le h ha (hxs.lt_iff.mpr hlt x hx)
  | none =>
    simp only [request, h]
    obtain ⟨x, hx, _, hle⟩ := Rank.above_eq_none h
    exact .exhausted hx hle

theorem connection_heard (o : Except Error Response) :
    ∀ port ∈ (s.heard o).2.connection, port ∈ s.connection := by
  intro port hp
  cases o with
  | ok r => exact hp
  | error e => cases hp

theorem turn_retry (hc : s.connection.isSome = true) (n : UInt64) :
    s.turn load (.retry n) = s.request load (.retry n) := by
  obtain ⟨port, hport⟩ := Option.isSome_iff_exists.mp hc
  unfold turn
  rw [hport]

/-- A line of input makes a session say something and stay as it is, unless it is a command. -/
theorem enter_cases (s : Session) (load : String → Except LoadError Layout) (text : String) :
    (∃ lines, s.enter load text = (.say lines, s)) ∨ ∃ c, s.enter load text = s.turn load c := by
  unfold enter
  split
  · exact Or.inl ⟨_, rfl⟩
  · split
    · exact Or.inl ⟨_, rfl⟩
    · exact Or.inr ⟨_, rfl⟩

theorem top_seen (s : Session) : IsTop id (s.seen.toList ++ []) s.seen := by
  rw [List.append_nil]
  exact IsTop.toList s.seen

/-- What a command does by itself: a connection may be given up, and a request for a promise adds to
what is remembered. -/
inductive Turned (s : Session) : Turn × Session → Prop where
  | say {lines : List String} {t : Session} (hp : t.proposer = s.proposer) (hs : t.seen = s.seen)
      (hc : t.connection = s.connection ∨ t.connection = none) : Turned s (.say lines, t)
  | dial {port : UInt16} : Turned s (.dial port, s)
  | ask {lines : List String} {q : Request} {t : Session} (hp : t.proposer = s.proposer)
      (hs : IsTop id (s.seen.toList ++ q.promise?.toList) t.seen)
      (hc : t.connection = s.connection) : Turned s (.ask lines q, t)

theorem turned_said {lines : List String} : Turned s (.say lines, s) := .say rfl rfl (Or.inl rfl)

theorem turned_plain {lines : List String} {q : Request} (hq : q.promise? = none) :
    Turned s (.ask lines q, s) := by
  refine .ask rfl ?_ rfl
  rw [hq]
  exact top_seen s

theorem turned_withLayout {loaded : Except LoadError Layout} {f : Layout → Request}
    (hf : ∀ l, (f l).promise? = none) : Turned s (s.withLayout loaded f) := by
  cases loaded with
  | ok l => exact turned_plain (hf l)
  | error e => exact turned_said

theorem turned_request (s : Session) (c : Command) : Turned s (s.request load c) := by
  cases c with
  | layout => exact turned_plain rfl
  | epoch n => exact turned_plain rfl
  | prepare sequence n =>
    exact .ask rfl ((IsTop.toList s.seen).append (IsTop.toList (some ⟨sequence, s.proposer⟩)))
      rfl
  | retry n =>
    generalize hr : s.request load (.retry n) = r
    cases hr ▸ retries_request (IsTop.toList s.seen) n with
    | preparing hp hlt =>
      refine .ask rfl (isTop_snoc (IsTop.toList s.seen) fun x hx => ?_) rfl
      exact Std.le_of_lt (hlt x (Option.mem_toList.mpr hx))
    | exhausted => exact turned_said
  | bootstrap path => exact turned_withLayout fun _ => rfl
  | propose sequence n path => exact turned_withLayout fun _ => rfl
  | commit sequence n path => exact turned_withLayout fun _ => rfl
  | help => exact turned_said
  | connect port => exact turned_said
  | disconnect => exact turned_said

theorem turned_turn (s : Session) (load : String → Except LoadError Layout) (c : Command) :
    Turned s (s.turn load c) := by
  cases hc : s.connection with
  | none =>
    cases c with
    | help => exact turned_said
    | connect port => exact .dial
    | _ =>
      unfold turn
      rw [hc]
      exact turned_said
  | some port =>
    cases c with
    | help => exact turned_said
    | connect port => exact .dial
    | disconnect =>
      unfold turn
      rw [hc]
      exact .say rfl rfl (Or.inr rfl)
    | _ =>
      unfold turn
      rw [hc]
      exact turned_request s _

/-- One command, with the files as they are by then. -/
inductive Step (s : Session) : Deed → Session → Prop where
  | said {load : String → Except LoadError Layout} {c : Command} {lines : List String} {t : Session}
      (h : s.turn load c = (.say lines, t)) : Step s .said t
  | dialled {load : String → Except LoadError Layout} {c : Command} {port : UInt16} {t : Session}
      (h : s.turn load c = (.dial port, t)) (o : Except Error Unit) :
      Step s (.dialled port o) (t.dialled port o).2
  | asked {load : String → Except LoadError Layout} {c : Command} {lines : List String}
      {q : Request} {t : Session} (h : s.turn load c = (.ask lines q, t))
      (o : Except Error Response) : Step s (.asked q o) (t.heard o).2

/-- Any number of commands. -/
inductive Run (s : Session) : List Deed → Session → Prop where
  | nil : Run s [] s
  | snoc {ds : List Deed} {d : Deed} {t u : Session} (h : Run s ds t) (hd : Step t d u) :
      Run s (ds ++ [d]) u

variable {d : Deed} {ds es : List Deed} {u : Session}

/-- After a command, the highest of what was remembered and of the ranks sent and told is
remembered. -/
theorem top_step (h : Step s d t) :
    t.proposer = s.proposer ∧ IsTop id (s.seen.toList ++ d.ranks) t.seen := by
  cases h with
  | @said load c lines t h =>
    cases h ▸ turned_turn s load c with
    | say hp hs => exact ⟨hp, hs ▸ top_seen s⟩
  | @dialled load c port t h o =>
    cases h ▸ turned_turn s load c with
    | dial => cases o <;> exact ⟨rfl, top_seen s⟩
  | @asked load c lines q t h o =>
    cases h ▸ turned_turn s load c with
    | ask hp hs =>
      cases o with
      | ok r =>
        refine ⟨hp, ?_⟩
        rw [Deed.ranks, ← List.append_assoc]
        exact hs.append (isTop_reported r)
      | error e => exact ⟨hp, hs⟩

theorem top_run (h : Run s ds t) :
    t.proposer = s.proposer ∧ IsTop id (s.seen.toList ++ ranks ds) t.seen := by
  induction h with
  | nil => exact ⟨rfl, top_seen s⟩
  | snoc _ hd ih =>
    obtain ⟨hp, hs⟩ := top_step hd
    rw [ranks_snoc, ← List.append_assoc]
    exact ⟨hp.trans ih.1, ih.2.of_toList_append hs⟩

/-- What is remembered never decreases. -/
theorem seen_le_run (h : Run s ds t) : s.seen ≤ t.seen := by
  cases hs : s.seen with
  | none => simp
  | some x =>
    have hx : x ∈ s.seen.toList ++ ranks ds := by simp [hs]
    obtain ⟨y, hy, hxy⟩ := (top_run h).2.2 x hx
    rw [Option.mem_def.mp hy]
    exact hxy

end Session
end Shell
end Synod
