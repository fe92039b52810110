import Synod.Proofs.History

/-!
Rounds of one acceptor. A round lasts until an epoch is set or a layout committed; in it the
promised rank is the highest one promised and the accepted layout the one accepted last.
-/
namespace Synod

variable {s t : State} {e x y : Event} {es fs : List Event} {q : Request}

/-- What stands behind the last entry that ends a round. -/
def lastRound {α : Type} (resets : α → Bool) (xs : List α) : List α :=
  xs.rtakeWhile fun x => !resets x

theorem lastRound_snoc {α : Type} (resets : α → Bool) (xs : List α) (x : α) :
    lastRound resets (xs ++ [x]) = if resets x then [] else lastRound resets xs ++ [x] := by
  rw [lastRound, List.rtakeWhile_concat]
  cases resets x <;> rfl

/-- The events of the round that is under way. -/
def round (es : List Event) : List Event := lastRound Event.resets es

def promises (es : List Event) : List Rank := (round es).filterMap Event.promise?

def votes (es : List Event) : List Accepted := (round es).filterMap Event.vote?

theorem round_snoc_of_resets (he : e.resets = true) : round (es ++ [e]) = [] :=
  (lastRound_snoc _ es e).trans (if_pos he)

theorem round_snoc (he : e.resets = false) : round (es ++ [e]) = round es ++ [e] :=
  (lastRound_snoc _ es e).trans (if_neg (by simp [he]))

theorem mem_of_mem_round (h : x ∈ round es) : x ∈ es :=
  (List.rtakeWhile_suffix _ _).subset h

/-- The element of highest rank, if there are elements. -/
def IsTop {α : Type} (rank : α → Rank) (xs : List α) (top : Option α) : Prop :=
  (∀ a ∈ top, a ∈ xs) ∧ ∀ x ∈ xs, ∃ a ∈ top, rank x ≤ rank a

section IsTop

variable {α : Type} {rank : α → Rank} {xs : List α} {top : Option α} {a : α}

theorem isTop_nil : IsTop rank [] none := by simp [IsTop]

theorem isTop_snoc (h : IsTop rank xs top) (ha : ∀ b ∈ top, rank b ≤ rank a) :
    IsTop rank (xs ++ [a]) (some a) := by
  refine ⟨by simp, fun x hx => ⟨a, rfl, ?_⟩⟩
  rcases List.mem_append.mp hx with hx | hx
  · obtain ⟨b, hb, hxb⟩ := h.2 x hx
    exact Std.le_trans hxb (ha b hb)
  · obtain rfl := List.mem_singleton.mp hx
    exact Std.le_refl _

end IsTop

/-- What a state recalls of the events that led to it. -/
structure Recalls (es : List Event) (s : State) : Prop where
  promised : IsTop id (promises es) s.promised
  accepted : IsTop Accepted.rank (votes es) s.accepted
  /-- Nothing is accepted above the promise. -/
  accepted_le : ∀ v ∈ s.accepted, ∃ p ∈ s.promised, v.rank ≤ p
  /-- The stamps of a round are those of its state. -/
  stamped : ∀ x ∈ round es, ∀ q ∈ x.acked?, ∀ n ∈ q.epoch?, n = s.epoch

theorem recalls_nil : Recalls [] .initial where
  promised := isTop_nil
  accepted := isTop_nil
  accepted_le := by simp [State.initial]
  stamped := by simp [round, lastRound]

/-- An event that resets nothing adds at most itself to the round. -/
theorem stamped_snoc {n : UInt64}
    (h : ∀ x ∈ round es, ∀ q ∈ x.acked?, ∀ m ∈ q.epoch?, m = n) (hr : e.resets = false)
    (he : ∀ q ∈ e.acked?, ∀ m ∈ q.epoch?, m = n) :
    ∀ x ∈ round (es ++ [e]), ∀ q ∈ x.acked?, ∀ m ∈ q.epoch?, m = n := by
  intro x hx
  rw [round_snoc hr] at hx
  rcases List.mem_append.mp hx with hx | hx
  · exact h x hx
  · obtain rfl := List.mem_singleton.mp hx
    exact he

theorem recalls_of_resets (he : e.resets = true) (hp : t.promised = none)
    (ha : t.accepted = none) : Recalls (es ++ [e]) t where
  promised := by simpa [promises, round_snoc_of_resets he, hp] using isTop_nil
  accepted := by simpa [votes, round_snoc_of_resets he, ha] using isTop_nil
  accepted_le := by simp [ha]
  stamped := by simp [round_snoc_of_resets he]

theorem filterMap_snoc {α β : Type} (f : α → Option β) (xs : List α) (x : α) :
    (xs ++ [x]).filterMap f = xs.filterMap f ++ (f x).toList := by
  cases h : f x <;> simp [h]

theorem promises_snoc (hr : e.resets = false) :
    promises (es ++ [e]) = promises es ++ e.promise?.toList := by
  rw [promises, round_snoc hr, filterMap_snoc]
  rfl

theorem votes_snoc (hr : e.resets = false) : votes (es ++ [e]) = votes es ++ e.vote?.toList := by
  rw [votes, round_snoc hr, filterMap_snoc]
  rfl

theorem recalls_turn (hs : s.Clean) (hr : Recalls es s) (h : Turn s e t) :
    Recalls (es ++ [e]) t := by
  rcases turn_cases h with ⟨ha, rfl⟩ | ⟨q, a, -, ha, hg⟩
  · have hreset : e.resets = false := by rcases ha with ha | ha <;> simp [Event.resets, ha]
    have hpromise : e.promise? = none := by rcases ha with ha | ha <;> simp [Event.promise?, ha]
    have hvote : e.vote? = none := by rcases ha with ha | ha <;> simp [Event.vote?, ha]
    exact {
      promised := by simpa [promises_snoc hreset, hpromise] using hr.promised
      accepted := by simpa [votes_snoc hreset, hvote] using hr.accepted
      accepted_le := hr.accepted_le
      stamped := stamped_snoc hr.stamped hreset (by
        rcases ha with ha | ha <;> simp [ha, Request.epoch?]) }
  · have hstamp := State.epoch_of_grant hg
    cases hg with
    | bootstrap hb =>
      obtain rfl := hs hb
      have hreset : e.resets = false := by simp [Event.resets, ha]
      exact {
        promised := by simpa [promises_snoc hreset, Event.promise?, ha] using hr.promised
        accepted := by simpa [votes_snoc hreset, Event.vote?, ha] using hr.accepted
        accepted_le := hr.accepted_le
        stamped := stamped_snoc hr.stamped hreset (by simp [ha, Request.epoch?]) }
    | setEpoch => exact recalls_of_resets (by simp [Event.resets, ha]) rfl rfl
    | @prepare r n he hb hlt =>
      have hreset : e.resets = false := by simp [Event.resets, ha]
      have hle : ∀ p ∈ s.promised, p ≤ r := fun p hp => Std.le_of_lt (hlt p hp)
      refine ⟨?_, ?_, ?_, ?_⟩
      · simpa [promises_snoc hreset, Event.promise?, ha] using isTop_snoc hr.promised hle
      · simpa [votes_snoc hreset, Event.vote?, ha] using hr.accepted
      · intro v hv
        obtain ⟨p, hp, hvp⟩ := hr.accepted_le v hv
        exact ⟨r, rfl, Std.le_trans hvp (hle p hp)⟩
      · exact stamped_snoc hr.stamped hreset (by simpa [ha] using hstamp)
    | @propose r l n he hb hp hne =>
      have hreset : e.resets = false := by simp [Event.resets, ha]
      have hle : ∀ v ∈ s.accepted, v.rank ≤ r := by
        intro v hv
        obtain ⟨p, hp', hvp⟩ := hr.accepted_le v hv
        rw [hp] at hp'
        obtain rfl := Option.some.inj hp'
        exact hvp
      refine ⟨?_, ?_, ?_, ?_⟩
      · simpa [promises_snoc hreset, Event.promise?, ha] using hr.promised
      · simpa [votes_snoc hreset, Event.vote?, ha] using
          isTop_snoc (a := (⟨r, l⟩ : Accepted)) hr.accepted hle
      · rintro v ⟨⟩
        exact ⟨r, hp, Std.le_refl _⟩
      · exact stamped_snoc hr.stamped hreset (by simpa [ha] using hstamp)
    | committed => exact recalls_of_resets (by simp [Event.resets, ha]) rfl rfl

theorem recalls_history (h : History es s) : Recalls es s := by
  induction h with
  | nil => exact recalls_nil
  | snoc h he ih => exact recalls_turn (clean_history h) ih he

/-- A rank is promised only above the promise before. -/
theorem promise_turn {r : Rank} (h : Turn s y t) (hy : r ∈ y.promise?) :
    ∀ p ∈ s.promised, p < r := by
  obtain ⟨n, ha⟩ := Event.promise?_eq_some.mp hy
  obtain ⟨a, _, hg⟩ := turn_grant h ha (by simp)
  cases hg with
  | prepare _ _ hr => exact hr

theorem vote_turn {v : Accepted} (h : Turn s y t) (hy : v ∈ y.vote?) :
    s.promised = some v.rank ∧ s.acceptedRank ≠ some v.rank := by
  obtain ⟨n, ha⟩ := Event.vote?_eq_some.mp hy
  obtain ⟨a, _, hg⟩ := turn_grant h ha (by simp)
  cases hg with
  | propose _ _ hp hne => exact ⟨hp, hne⟩

theorem prepareAck_turn {p : Option Rank} {l : Option Layout}
    (h : Turn s (.handled q (.ok (.prepareAck p l))) t) :
    p = s.acceptedRank ∧ l = s.acceptedLayout := by
  generalize ha : (Response.prepareAck p l) = a at h
  cases h with
  | kept h =>
    cases h with
    | query =>
      unfold Snapshot.respond at ha
      split at ha
      · split at ha <;> cases ha
      · cases ha
    | reject hr => simp [← ha, Response.isReject] at hr
  | granted h => cases h <;> simp_all

theorem epoch_of_acked (h : Turn s e t) (ha : e.acked? = some q) : ∀ n ∈ q.epoch?, n = s.epoch := by
  intro n hn
  obtain ⟨a, _, hg⟩ := turn_grant h ha (by rintro rfl; simp [Request.epoch?] at hn)
  exact State.epoch_of_grant hg n hn

/-- A round ends with its epoch unless a layout is committed that does not raise the epoch. -/
theorem epoch_lt_of_resets (h : Turn s e t) (hr : e.resets = true)
    (hc : ∀ r l n, e.acked? = some (.committed r l n) → n < l.epoch) : s.epoch < t.epoch := by
  rcases turn_cases h with ⟨ha | ha, _⟩ | ⟨q, a, _, ha, hg⟩
  · simp [Event.resets, ha] at hr
  · simp [Event.resets, ha] at hr
  · cases hg with
    | bootstrap => simp [Event.resets, ha] at hr
    | setEpoch _ he => exact State.lt_epoch_advance he
    | prepare => simp [Event.resets, ha] at hr
    | propose => simp [Event.resets, ha] at hr
    | committed he =>
      have hlt := hc _ _ _ ha
      rw [he] at hlt
      exact State.lt_epoch_advance hlt

theorem le_epoch_of_acked (h : History es s) (hx : x ∈ es) (ha : x.acked? = some q) :
    ∀ n ∈ q.epoch?, n ≤ s.epoch := by
  intro n hn
  refine history_since h hx (fun hs ht => ?_) fun hs hle ht => Std.le_trans hle (epoch_le_turn hs ht)
  rw [epoch_of_acked ht ha n hn]
  exact epoch_le_turn hs ht

/-- Every layout committed raises the epoch that it is stamped with. -/
def Raising (es : List Event) : Prop :=
  ∀ x ∈ es, ∀ r l n, x.acked? = some (.committed r l n) → n < l.epoch

theorem raising_left (h : Raising (es ++ fs)) : Raising es :=
  fun x hx => h x (List.mem_append_left _ hx)

/-- Every layout committed in an epoch is of a later one. -/
def RaisingAt (n : UInt64) (es : List Event) : Prop :=
  ∀ x ∈ es, ∀ r l, x.acked? = some (.committed r l n) → n < l.epoch

theorem raisingAt_right (h : Raising (es ++ fs)) (n : UInt64) : RaisingAt n fs :=
  fun x hx r l => h x (List.mem_append_right _ hx) r l n

theorem resets_eq_false (h : Turn s e t) (hle : t.epoch ≤ s.epoch)
    (hc : ∀ r l, e.acked? = some (.committed r l s.epoch) → s.epoch < l.epoch) :
    e.resets = false := by
  by_contra hr
  have hlt := epoch_lt_of_resets h (by simpa using hr) fun r l n ha => by
    obtain rfl := epoch_of_acked h ha n rfl
    exact hc r l ha
  exact Std.not_le_of_gt hlt hle

/-- If no layout has been committed since then in its own epoch, a request stamped with the present
epoch was acked in the present round. -/
theorem mem_round_since (h : History (es ++ x :: fs) s) (hc : RaisingAt s.epoch (x :: fs))
    (ha : x.acked? = some q) (hq : s.epoch ∈ q.epoch?) : x ∈ round (es ++ x :: fs) := by
  induction fs using List.reverseRecOn generalizing s with
  | nil =>
    obtain ⟨u, _, hx⟩ := history_snoc h
    have heq := epoch_of_acked hx ha _ hq
    rw [round_snoc (resets_eq_false hx (Std.le_of_eq heq) (heq ▸ hc x (by simp)))]
    simp
  | append_singleton fs e ih =>
    rw [← List.cons_append, ← List.append_assoc] at h ⊢
    obtain ⟨u, hu, he⟩ := history_snoc h
    have hge := le_epoch_of_acked hu (by simp) ha _ hq
    have heq : s.epoch = u.epoch := Std.le_antisymm hge (epoch_le_turn (clean_history hu) he)
    rw [heq] at hc hq
    rw [round_snoc (resets_eq_false he hge (hc e (by simp)))]
    exact List.mem_append_left _ (ih hu (fun y hy => hc y (List.mem_append_left [e] hy)) hq)

/-- As long as every layout committed raises the epoch, a round lasts as long as its epoch. -/
theorem mem_round_of_epoch (h : History es s) (hc : Raising es)
    (hx : x ∈ es) (ha : x.acked? = some q) (hq : s.epoch ∈ q.epoch?) : x ∈ round es := by
  obtain ⟨pre, post, rfl⟩ := List.append_of_mem hx
  exact mem_round_since h (raisingAt_right hc _) ha hq

/-- What holds of two events of one round, the first before the second. -/
structure Ordered (x y : Event) : Prop where
  promise_promise : ∀ r ∈ x.promise?, ∀ r' ∈ y.promise?, r < r'
  promise_vote : ∀ r ∈ x.promise?, ∀ v ∈ y.vote?, r ≤ v.rank
  vote_vote : ∀ v ∈ x.vote?, ∀ w ∈ y.vote?, v.rank < w.rank
  vote_promise : ∀ v ∈ x.vote?, ∀ r ∈ y.promise?, v.rank < r

theorem le_promised {r : Rank} (hr : Recalls es s) (hx : x ∈ round es) (h : r ∈ x.promise?) :
    ∃ p ∈ s.promised, r ≤ p :=
  hr.promised.2 r (List.mem_filterMap.mpr ⟨x, hx, h⟩)

theorem le_accepted {v : Accepted} (hr : Recalls es s) (hx : x ∈ round es) (h : v ∈ x.vote?) :
    ∃ w ∈ s.accepted, v.rank ≤ w.rank :=
  hr.accepted.2 v (List.mem_filterMap.mpr ⟨x, hx, h⟩)

theorem ordered_of_mem_round (hr : Recalls es s) (h : Turn s y t) (hx : x ∈ round es) :
    Ordered x y where
  promise_promise := by
    intro r hrx r' hry
    obtain ⟨p, hp, hrp⟩ := le_promised hr hx hrx
    exact Std.lt_of_le_of_lt hrp (promise_turn h hry p hp)
  promise_vote := by
    intro r hrx v hvy
    obtain ⟨p, hp, hrp⟩ := le_promised hr hx hrx
    rw [(vote_turn h hvy).1] at hp
    obtain rfl := Option.some.inj hp
    exact hrp
  vote_vote := by
    -- The layout accepted so far is at most at the promised rank, and not at that very rank.
    intro v hvx w hwy
    obtain ⟨hp, hne⟩ := vote_turn h hwy
    obtain ⟨u, hu, hvu⟩ := le_accepted hr hx hvx
    obtain ⟨p, hp', hup⟩ := hr.accepted_le u hu
    rw [hp] at hp'
    obtain rfl := Option.some.inj hp'
    have hu' : u.rank ≠ w.rank := by
      intro he
      apply hne
      rw [State.acceptedRank, hu, ← he]
      rfl
    exact Std.lt_of_le_of_lt hvu (Std.lt_of_le_of_ne hup hu')
  vote_promise := by
    intro v hvx r hry
    obtain ⟨u, hu, hvu⟩ := le_accepted hr hx hvx
    obtain ⟨p, hp, hup⟩ := hr.accepted_le u hu
    exact Std.lt_of_le_of_lt hvu (Std.lt_of_le_of_lt hup (promise_turn h hry p hp))

/-- A vote is for the rank promised last. -/
theorem promised_of_vote {v : Accepted} (hr : Recalls es s) (h : Turn s y t)
    (hy : v ∈ y.vote?) : ∃ x ∈ round es, v.rank ∈ x.promise? :=
  List.mem_filterMap.mp (hr.promised.1 _ (vote_turn h hy).1)

namespace Acceptor

variable {σ : Type} [StableStore σ] {a b : Acceptor σ}

/-- In a round the ranks promised and voted for go up, a vote follows the promise of its rank, and a
promise tells the highest vote of the round so far, or that there is none. -/
theorem promise_law (ha : a.Fresh) (h : a.Run (es ++ y :: fs) b) :
    (∀ x ∈ round es, Ordered x y) ∧
      (∀ v ∈ y.vote?, ∃ x ∈ round es, v.rank ∈ x.promise?) ∧
      ∀ q p l, y = .handled q (.ok (.prepareAck p l)) → ∃ top : Option Accepted,
        IsTop Accepted.rank (votes es) top ∧ p = top.map Accepted.rank ∧
          l = top.map Accepted.layout := by
  obtain ⟨s, t, hs, hy⟩ := history_before (run_history ha h).1
  have hr := recalls_history hs
  refine ⟨fun x hx => ordered_of_mem_round hr hy hx, fun v hv => promised_of_vote hr hy hv, ?_⟩
  rintro q p l rfl
  obtain ⟨hp, hl⟩ := prepareAck_turn hy
  exact ⟨s.accepted, hr.accepted, hp, hl⟩

/-- A round with a failed save and a restart in it. -/
theorem promise_law_across_restart :
    let l : Layout := .single "a"
    let r : Rank := ⟨1, ⟨7⟩⟩
    let r' : Rank := ⟨1, ⟨9⟩⟩
    let e : StorageError := .io (.other "disk full")
    let es : List Event := [.handled (.bootstrap l) (.ok .ack),
      .handled (.prepare r 0) (.ok (.prepareAck none none)),
      .handled (.propose r l 0) (.error e), .handled (.propose r l 0) (.ok .ack), .restarted]
    let y : Event := .handled (.prepare r' 0) (.ok (.prepareAck (some r) (some l)))
    (∀ x ∈ round es, Ordered x y) ∧ ∃ top : Option Accepted,
      IsTop Accepted.rank (votes es) top ∧ some r = top.map Accepted.rank ∧
        some l = top.map Accepted.layout := by
  intro l r r' e es y
  have hrun : ∃ b, Run (⟨.initial, {}⟩ : Acceptor MemoryStore) (es ++ y :: []) b :=
    ⟨_, run_cons (.handled rfl rfl) <| run_cons (.handled rfl rfl) <|
      run_cons (.handled (m := ⟨⟨true, 0, some l, some r, none⟩, false, true⟩) rfl rfl) <|
      run_cons (.handled (m := ⟨⟨true, 0, some l, some r, none⟩, false, false⟩) rfl rfl) <|
      run_cons (.restarted rfl rfl) <| run_cons (.handled rfl rfl) .nil⟩
  obtain ⟨b, hb⟩ := hrun
  obtain ⟨ho, _, ht⟩ := promise_law ⟨rfl, rfl⟩ hb
  exact ⟨ho, ht _ _ _ rfl⟩

end Acceptor
end Synod
