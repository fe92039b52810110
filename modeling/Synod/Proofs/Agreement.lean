import Mathlib.Data.Fintype.Card
import Synod.Proofs.Round

/-!
Agreement. Acceptors share a network in which what a proposer has sent may reach any of them, in any
order, any number of times or never. Proposers send only what the round permits; then in one epoch
no two layouts are accepted by a majority.
-/
namespace Synod

/-- A proposer puts a request on the network, or something happens to an acceptor. -/
inductive Occurrence (ι : Type) where
  | sent (request : Request)
  | met (node : ι) (event : Event)

variable {ι : Type} {os ps : List (Occurrence ι)} {i : ι} {n : UInt64} {r r' : Rank}
  {l l' : Layout}

section Seen

variable [DecidableEq ι]

/-- What one acceptor sees of the network. -/
def seenAt (i : ι) (os : List (Occurrence ι)) : List Event :=
  os.filterMap fun
    | .sent _ => none
    | .met j e => if j = i then some e else none

theorem mem_seenAt {e : Event} : e ∈ seenAt i os ↔ .met i e ∈ os := by
  simp only [seenAt, List.mem_filterMap]
  constructor
  · rintro ⟨o, ho, he⟩
    cases o with
    | sent q => simp at he
    | met j f =>
      simp only [Option.ite_none_right_eq_some, Option.some.injEq] at he
      obtain ⟨rfl, rfl⟩ := he
      exact ho
  · intro h
    exact ⟨_, h, by simp⟩

end Seen

section Report

variable {s : State} {es : List Event} {o : Option Layout}

theorem eq_handled_of_vote {x : Event} (h : History es s) (hx : x ∈ es)
    (ha : x.acked? = some (.propose r l n)) : x = .handled (.propose r l n) (.ok .ack) := by
  obtain ⟨pre, post, rfl⟩ := List.append_of_mem hx
  obtain ⟨u, v, _, ht⟩ := history_before h
  obtain ⟨a, he, hg⟩ := turn_grant ht ha (by simp)
  cases hg
  exact he

/-- A promise tells of every lower vote of its epoch, by that vote or a higher one. -/
theorem le_report {p : Option Rank} (h : History es s) (hc : Raising es)
    (hp : .handled (.prepare r n) (.ok (.prepareAck p o)) ∈ es)
    (hv : .handled (.propose r' l n) (.ok .ack) ∈ es) (hlt : r' < r) : ∃ r'' ∈ p, r' ≤ r'' := by
  obtain ⟨pre, post, rfl⟩ := List.append_of_mem hp
  obtain ⟨u, v, hu, ht⟩ := history_before h
  have hn := epoch_of_acked ht (q := .prepare r n) rfl n rfl
  rcases List.mem_append.mp hv with hv | hv
  · have hx := mem_round_of_epoch hu (raising_left hc) hv (q := .propose r' l n) rfl (hn ▸ rfl)
    obtain ⟨w, hw, hle⟩ := le_accepted (recalls_history hu) hx (v := ⟨r', l⟩) rfl
    refine ⟨w.rank, ?_, hle⟩
    rw [(prepareAck_turn ht).1, State.acceptedRank, hw]
    rfl
  · -- A vote after the promise cannot be below it, for it belongs to the same round.
    rcases List.mem_cons.mp hv with hv | hv
    · simp at hv
    · obtain ⟨mid, rest, rfl⟩ := List.append_of_mem hv
      rw [← List.cons_append, ← List.append_assoc] at h hc
      obtain ⟨u', v', hu', ht'⟩ := history_before h
      have hn' := epoch_of_acked ht' (q := .propose r' l n) rfl n rfl
      have hmem : Event.handled (.prepare r n) (.ok (.prepareAck p o)) ∈ pre ++ _ :: mid :=
        List.mem_append_right _ List.mem_cons_self
      have hx := mem_round_of_epoch hu' (raising_left hc) hmem (q := .prepare r n) rfl (hn' ▸ rfl)
      have hle := (ordered_of_mem_round (recalls_history hu') ht' hx).promise_vote r rfl ⟨r', l⟩ rfl
      exact absurd hlt (Std.not_lt_of_ge hle)

/-- What a promise tells was accepted in its epoch, below it. -/
theorem vote_of_report (h : History es s)
    (hp : .handled (.prepare r n) (.ok (.prepareAck (some r') o)) ∈ es) :
    r' < r ∧ ∃ l, o = some l ∧ .handled (.propose r' l n) (.ok .ack) ∈ es := by
  obtain ⟨pre, post, rfl⟩ := List.append_of_mem hp
  obtain ⟨u, v, hu, ht⟩ := history_before h
  have hr := recalls_history hu
  have hn := epoch_of_acked ht (q := .prepare r n) rfl n rfl
  obtain ⟨hrank, hlayout⟩ := prepareAck_turn ht
  obtain ⟨w, hw, hw'⟩ := Option.map_eq_some_iff.mp hrank.symm
  obtain ⟨x, hx, hxw⟩ := List.mem_filterMap.mp (hr.accepted.1 w hw)
  obtain ⟨m, ha⟩ := Event.vote?_eq_some.mp hxw
  obtain rfl := hr.stamped x hx _ ha m rfl
  have hlt := (ordered_of_mem_round hr ht hx).vote_promise w hxw r rfl
  have hmem := mem_of_mem_round hx
  rw [eq_handled_of_vote hu hmem ha, hw', ← hn] at hmem
  rw [hw'] at hlt
  refine ⟨hlt, w.layout, ?_, List.mem_append_left _ hmem⟩
  rw [hlayout, State.acceptedLayout, hw]
  rfl

end Report

section Majority

variable [Fintype ι] {Q R : Finset ι}

def Majority (Q : Finset ι) : Prop := Fintype.card ι < 2 * Q.card

instance : Decidable (Majority Q) := inferInstanceAs (Decidable (_ < _))

theorem majority_inter (hq : Majority Q) (hr : Majority R) : ∃ i, i ∈ Q ∧ i ∈ R := by
  classical
  by_contra hno
  have hd : Disjoint Q R := by
    rw [Finset.disjoint_left]
    intro i hi hj
    exact hno ⟨i, hi, hj⟩
  have hcard := Finset.card_union_of_disjoint hd
  have hle := Finset.card_le_univ (Q ∪ R)
  unfold Majority at hq hr
  omega

theorem majority_nonempty (hq : Majority Q) : ∃ i, i ∈ Q := by
  obtain ⟨i, hi, _⟩ := majority_inter hq hq
  exact ⟨i, hi⟩

end Majority

variable [Fintype ι]

/-- A majority has promised a rank. If any of them told of a layout accepted before, it is the one
told with the highest rank. -/
def Prepared (os : List (Occurrence ι)) (r : Rank) (l : Layout) (n : UInt64) : Prop :=
  ∃ Q : Finset ι, Majority Q ∧ ∃ (rank : ι → Option Rank) (layout : ι → Option Layout),
    (∀ i ∈ Q, .met i (.handled (.prepare r n) (.ok (.prepareAck (rank i) (layout i)))) ∈ os) ∧
      ((∃ i ∈ Q, (layout i).isSome) →
        ∃ i ∈ Q, layout i = some l ∧ ∀ j ∈ Q, rank j ≤ rank i)

/-- What a proposer may send after what has happened: a layout only once a majority is prepared for
it, one layout for a rank and epoch, and a decision only if it raises the epoch. -/
def Permitted (os : List (Occurrence ι)) : Request → Prop
  | .propose r l n => Prepared os r l n ∧ ∀ l', .sent (.propose r l' n) ∈ os → l' = l
  | .committed _ l n => n < l.epoch
  | _ => True

/-- A majority has accepted a layout at a rank. -/
def ChosenAt (os : List (Occurrence ι)) (n : UInt64) (r : Rank) (l : Layout) : Prop :=
  ∃ Q : Finset ι, Majority Q ∧ ∀ i ∈ Q, .met i (.handled (.propose r l n) (.ok .ack)) ∈ os

def Chosen (os : List (Occurrence ι)) (n : UInt64) (l : Layout) : Prop :=
  ∃ r, ChosenAt os n r l

theorem prepared_mono (h : Prepared os r l n) : Prepared (os ++ ps) r l n := by
  obtain ⟨Q, hq, rank, layout, hacks, htop⟩ := h
  exact ⟨Q, hq, rank, layout, fun i hi => List.mem_append_left _ (hacks i hi), htop⟩

namespace Network

variable [DecidableEq ι] {σ : Type} [StableStore σ] {start net : ι → Acceptor σ}

inductive Run (start : ι → Acceptor σ) : List (Occurrence ι) → (ι → Acceptor σ) → Prop where
  | nil : Run start [] start
  | sent {os : List (Occurrence ι)} {net : ι → Acceptor σ} {q : Request} (h : Run start os net)
      (hq : Permitted os q) : Run start (os ++ [.sent q]) net
  | met {os : List (Occurrence ι)} {net : ι → Acceptor σ} {i : ι} {e : Event} {b : Acceptor σ}
      (h : Run start os net) (hq : ∀ q o, e = .handled q o → .sent q ∈ os)
      (he : (net i).Step e b) : Run start (os ++ [.met i e]) (Function.update net i b)

theorem run_seenAt (h : Run start os net) (i : ι) : (start i).Run (seenAt i os) (net i) := by
  induction h with
  | nil => exact .nil
  | sent _ _ ih => simpa [seenAt] using ih
  | @met os net j e b _ _ he ih =>
    by_cases hj : j = i
    · subst hj
      have hs : seenAt j (os ++ [.met j e]) = seenAt j os ++ [e] := by simp [seenAt]
      rw [hs, Function.update_self]
      exact .snoc ih he
    · have hs : seenAt i (os ++ [.met j e]) = seenAt i os := by simp [seenAt, hj]
      rw [hs, Function.update_of_ne (Ne.symm hj)]
      exact ih

theorem sent_of_met {q : Request} {o : Except StorageError Response} (h : Run start os net)
    (hm : .met i (.handled q o) ∈ os) : .sent q ∈ os := by
  induction h with
  | nil => simp at hm
  | sent _ _ ih =>
    rcases List.mem_append.mp hm with hm | hm
    · exact List.mem_append_left _ (ih hm)
    · simp at hm
  | met _ hq _ ih =>
    rcases List.mem_append.mp hm with hm | hm
    · exact List.mem_append_left _ (ih hm)
    · simp only [List.mem_singleton, Occurrence.met.injEq] at hm
      obtain ⟨rfl, rfl⟩ := hm
      exact List.mem_append_left _ (hq _ _ rfl)

/-- Whatever was sent was permitted by what had happened then. -/
theorem permitted_of_sent {q : Request} (h : Run start os net) (hs : .sent q ∈ os) :
    ∃ ps qs, os = ps ++ qs ∧ Permitted ps q := by
  induction h with
  | nil => simp at hs
  | @sent os _ _ _ hq ih =>
    rcases List.mem_append.mp hs with hm | hm
    · obtain ⟨ps, qs, rfl, hp⟩ := ih hm
      exact ⟨ps, _, List.append_assoc .., hp⟩
    · simp only [List.mem_singleton, Occurrence.sent.injEq] at hm
      subst hm
      exact ⟨os, _, rfl, hq⟩
  | met _ _ _ ih =>
    rcases List.mem_append.mp hs with hm | hm
    · obtain ⟨ps, qs, rfl, hp⟩ := ih hm
      exact ⟨ps, _, List.append_assoc .., hp⟩
    · simp at hm

theorem prepared_of_sent (h : Run start os net) (hs : .sent (.propose r l n) ∈ os) :
    Prepared os r l n := by
  obtain ⟨ps, qs, rfl, hp⟩ := permitted_of_sent h hs
  exact prepared_mono hp.1

theorem lt_epoch_of_sent (h : Run start os net) (hs : .sent (.committed r l n) ∈ os) :
    n < l.epoch := by
  obtain ⟨ps, qs, rfl, hp⟩ := permitted_of_sent h hs
  exact hp

/-- No two layouts are proposed at one rank in one epoch. -/
theorem eq_of_sent (h : Run start os net) (hs : .sent (.propose r l n) ∈ os)
    (hs' : .sent (.propose r l' n) ∈ os) : l = l' := by
  induction h with
  | nil => simp at hs
  | sent _ hq ih =>
    rcases List.mem_append.mp hs with hm | hm <;> rcases List.mem_append.mp hs' with hm' | hm'
    · exact ih hm hm'
    · simp only [List.mem_singleton, Occurrence.sent.injEq] at hm'
      subst hm'
      exact hq.2 l hm
    · simp only [List.mem_singleton, Occurrence.sent.injEq] at hm
      subst hm
      exact (hq.2 l' hm').symm
    · simp only [List.mem_singleton, Occurrence.sent.injEq] at hm hm'
      obtain ⟨_, he, _⟩ := Request.propose.inj (hm.trans hm'.symm)
      exact he
  | met _ _ _ ih =>
    rcases List.mem_append.mp hs with hm | hm
    · rcases List.mem_append.mp hs' with hm' | hm'
      · exact ih hm hm'
      · simp at hm'
    · simp at hm

theorem history_seenAt (hs : ∀ i, (start i).Fresh) (h : Run start os net) (i : ι) :
    History (seenAt i os) (net i).state :=
  (Acceptor.run_history (hs i) (run_seenAt h i)).1

theorem raising_seenAt (hs : ∀ i, (start i).Fresh) (h : Run start os net) (i : ι) :
    Raising (seenAt i os) := by
  intro x hx r l n ha
  obtain ⟨pre, post, he⟩ := List.append_of_mem hx
  have hh := history_seenAt hs h i
  rw [he] at hh
  obtain ⟨u, v, _, ht⟩ := history_before hh
  obtain ⟨a, rfl, _⟩ := turn_grant ht ha (by simp)
  exact lt_epoch_of_sent h (sent_of_met h (mem_seenAt.mp hx))

/-- A layout proposed above a chosen one is that one. By induction on the rank: the majority that
was prepared for it has a member that voted for the chosen one, so a vote between the two was told
of. -/
theorem eq_of_chosenAt (hs : ∀ i, (start i).Fresh) (h : Run start os net)
    (hl : .sent (.propose r l n) ∈ os) (hc : ChosenAt os n r' l') (hlt : r' < r) : l = l' := by
  obtain ⟨Q', hq', hvotes⟩ := hc
  induction hk : r.key using Nat.strongRecOn generalizing r l with
  | _ k ih =>
    obtain ⟨Q, hq, rank, layout, hacks, htop⟩ := prepared_of_sent h hl
    obtain ⟨i, hi, hi'⟩ := majority_inter hq hq'
    have hack := mem_seenAt.mpr (hacks i hi)
    obtain ⟨p, hp, hle⟩ := le_report (history_seenAt hs h i) (raising_seenAt hs h i) hack
      (mem_seenAt.mpr (hvotes i hi')) hlt
    rw [Option.mem_def.mp hp] at hack
    obtain ⟨_, m, hm, _⟩ := vote_of_report (history_seenAt hs h i) hack
    obtain ⟨j, hj, hjl, hjtop⟩ := htop ⟨i, hi, by simp [hm]⟩
    -- The highest vote told of is for the layout proposed.
    have hij := hjtop i hi
    rw [Option.mem_def.mp hp] at hij
    cases hrj : rank j with
    | none => simp [hrj] at hij
    | some r'' =>
      rw [hrj, Option.some_le_some] at hij
      have hackj := mem_seenAt.mpr (hacks j hj)
      rw [hrj] at hackj
      obtain ⟨hlt', m', hm', hvote⟩ := vote_of_report (history_seenAt hs h j) hackj
      obtain rfl : l = m' := Option.some.inj (hjl.symm.trans hm')
      have hsent := sent_of_met h (mem_seenAt.mp hvote)
      by_cases he : r' = r''
      · subst he
        obtain ⟨k, hk⟩ := majority_nonempty hq'
        exact eq_of_sent h hsent (sent_of_met h (hvotes k hk))
      · have hlt'' := Std.lt_of_le_of_ne (Std.le_trans hle hij) he
        exact ih r''.key (hk ▸ Rank.lt_iff_key.mp hlt') hsent hlt'' rfl

/-- In one epoch no two layouts are accepted by a majority, whatever is lost, repeated, reordered,
restarted or not saved. -/
theorem agreement (hs : ∀ i, (start i).Fresh) (h : Run start os net) (hl : Chosen os n l)
    (hl' : Chosen os n l') : l = l' := by
  obtain ⟨r, hc⟩ := hl
  obtain ⟨r', hc'⟩ := hl'
  obtain ⟨Q, hq, hvotes⟩ := id hc
  obtain ⟨Q', hq', hvotes'⟩ := id hc'
  obtain ⟨i, hi⟩ := majority_nonempty hq
  obtain ⟨i', hi'⟩ := majority_nonempty hq'
  have hsent := sent_of_met h (hvotes i hi)
  have hsent' := sent_of_met h (hvotes' i' hi')
  rcases Std.lt_trichotomy r r' with hlt | rfl | hlt
  · exact (eq_of_chosenAt hs h hsent' hc hlt).symm
  · exact eq_of_sent h hsent hsent'
  · exact eq_of_chosenAt hs h hsent hc' hlt

/-- Two proposers in turn reach two acceptors of three, and the second finds the layout of the
first. -/
theorem agreement_across_proposers :
    let l : Layout := ⟨1, ["a"], [], []⟩
    let r : Rank := ⟨1, ⟨7⟩⟩
    let r' : Rank := ⟨1, ⟨9⟩⟩
    let start : Fin 3 → Acceptor MemoryStore := fun _ => ⟨.initial, {}⟩
    ∃ os net, Run start os net ∧ ChosenAt os 0 r l ∧ ChosenAt os 0 r' l ∧
      ∀ l', Chosen os 0 l' → l' = l := by
  intro l r r' start
  let holding (p : Option Rank) (v : Option Accepted) : Acceptor MemoryStore :=
    ⟨⟨true, 0, some l, p, v⟩, ⟨⟨true, 0, some l, p, v⟩, false, false⟩⟩
  have h := (Run.nil (σ := MemoryStore) : Run start [] start)
  have h := h.sent (q := .bootstrap l) trivial
  have h := h.met (i := 0) (e := .handled (.bootstrap l) (.ok .ack)) (b := holding none none)
    (by simp) (.handled rfl rfl)
  have h := h.met (i := 1) (e := .handled (.bootstrap l) (.ok .ack)) (b := holding none none)
    (by simp) (.handled rfl rfl)
  have h := h.met (i := 2) (e := .handled (.bootstrap l) (.ok .ack)) (b := holding none none)
    (by simp) (.handled rfl rfl)
  have h := h.sent (q := .prepare r 0) trivial
  have h := h.met (i := 0) (e := .handled (.prepare r 0) (.ok (.prepareAck none none)))
    (b := holding (some r) none) (by simp) (.handled rfl rfl)
  have h := h.met (i := 1) (e := .handled (.prepare r 0) (.ok (.prepareAck none none)))
    (b := holding (some r) none) (by simp) (.handled rfl rfl)
  have h := h.sent (q := .propose r l 0)
    ⟨⟨{0, 1}, by decide, fun _ => none, fun _ => none, by simp, by simp⟩, by simp⟩
  have h := h.met (i := 0) (e := .handled (.propose r l 0) (.ok .ack))
    (b := holding (some r) (some ⟨r, l⟩)) (by simp) (.handled rfl rfl)
  have h := h.met (i := 1) (e := .handled (.propose r l 0) (.ok .ack))
    (b := holding (some r) (some ⟨r, l⟩)) (by simp) (.handled rfl rfl)
  have h := h.met (i := 1) (e := .restarted) (b := holding (some r) (some ⟨r, l⟩)) (by simp)
    (.restarted rfl rfl)
  have h := h.sent (q := .prepare r' 0) trivial
  have h := h.met (i := 1) (e := .handled (.prepare r' 0) (.ok (.prepareAck (some r) (some l))))
    (b := holding (some r') (some ⟨r, l⟩)) (by simp) (.handled rfl rfl)
  have h := h.met (i := 2) (e := .handled (.prepare r' 0) (.ok (.prepareAck none none)))
    (b := holding (some r') none) (by simp) (.handled rfl rfl)
  have h := h.sent (q := .propose r' l 0)
    ⟨⟨{1, 2}, by decide, fun i => if i = 1 then some r else none,
      fun i => if i = 1 then some l else none, by simp, by simp⟩, by simp [r, r']⟩
  have h := h.met (i := 1) (e := .handled (.propose r' l 0) (.ok .ack))
    (b := holding (some r') (some ⟨r', l⟩)) (by simp) (.handled rfl rfl)
  have h := h.met (i := 2) (e := .handled (.propose r' l 0) (.ok .ack))
    (b := holding (some r') (some ⟨r', l⟩)) (by simp) (.handled rfl rfl)
  refine ⟨_, _, h, ⟨{0, 1}, by decide, by simp⟩, ⟨{1, 2}, by decide, by simp⟩, ?_⟩
  intro l' hl'
  exact agreement (fun _ => ⟨rfl, rfl⟩) h hl' ⟨r, {0, 1}, by decide, by simp⟩

end Network
end Synod
