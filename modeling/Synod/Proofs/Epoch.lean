import Synod.Proofs.Coherence

/-!
What lasts as long as an epoch. While every layout committed raises the epoch, a request that was
granted is not granted again, and in one epoch promises go up and a rank is voted for once. A layout
committed in its own epoch starts a fresh round there, and the round before is forgotten.
-/
namespace Synod

variable {s : State} {es fs : List Event} {x y : Event} {q : Request}

/-- The epoch that a request brings a node to at least, if it is granted. -/
def Request.reaches? : Request → Option UInt64
  | .setEpoch e => some e
  | .committed _ l _ => some l.epoch
  | _ => none

namespace Ordered

variable {r r' : Rank} {l l' : Layout} {n n' : UInt64}

theorem lt_of_prepare (h : Ordered x y) (hx : x.acked? = some (.prepare r n))
    (hy : y.acked? = some (.prepare r' n')) : r < r' :=
  h.promise_promise r (Event.promise?_eq_some.mpr ⟨n, hx⟩) r'
    (Event.promise?_eq_some.mpr ⟨n', hy⟩)

theorem lt_of_propose (h : Ordered x y) (hx : x.acked? = some (.propose r l n))
    (hy : y.acked? = some (.propose r' l' n')) : r < r' :=
  h.vote_vote ⟨r, l⟩ (Event.vote?_eq_some.mpr ⟨n, hx⟩) ⟨r', l'⟩
    (Event.vote?_eq_some.mpr ⟨n', hy⟩)

end Ordered

theorem reaches_le_of_grant {t : State} {a : Response} (h : s.Grant q t a) :
    ∀ n ∈ q.reaches?, n ≤ t.epoch := by
  cases h with
  | setEpoch =>
    rintro _ ⟨⟩
    exact State.le_epoch_advance_right s _
  | committed =>
    rintro _ ⟨⟩
    exact State.le_epoch_advance_right s _
  | _ => simp [Request.reaches?]

theorem reaches_le_of_acked (h : History es s) (hx : x ∈ es) (ha : x.acked? = some q) :
    ∀ n ∈ q.reaches?, n ≤ s.epoch := by
  intro n hn
  refine history_since h hx (fun _ ht => ?_) fun hs hle ht => Std.le_trans hle (epoch_le_turn hs ht)
  obtain ⟨a, _, hg⟩ := turn_grant ht ha (by rintro rfl; simp [Request.reaches?] at hn)
  exact reaches_le_of_grant hg n hn

/-- What was granted once is not granted again. What protects a request is for each kind another
fact: the state is bootstrapped, the epoch has been reached, or the round is still under way. -/
theorem not_grant_of_acked (h : History es s) (hc : Raising es) (hx : x ∈ es)
    (ha : x.acked? = some q) {t : State} {a : Response} : ¬ s.Grant q t a := by
  intro hg
  -- If it were granted, the grant would be a turn in the round of the first one.
  have hack : (Event.handled q (.ok a)).acked? = some q := by
    simp [Event.acked?, State.isReject_of_grant hg]
  have hround : s.epoch ∈ q.epoch? → Ordered x (.handled q (.ok a)) := fun hq =>
    ordered_of_mem_round (recalls_history h) (.granted hg) (mem_round_of_epoch h hc hx ha hq)
  cases hg with
  | bootstrap hb => simp [bootstrapped_of_acked h hx ha] at hb
  | setEpoch _ he => exact Std.not_lt_of_ge (reaches_le_of_acked h hx ha _ rfl) he
  | prepare he => exact Std.lt_irrefl ((hround (he ▸ rfl)).lt_of_prepare ha hack)
  | propose he => exact Std.lt_irrefl ((hround (he ▸ rfl)).lt_of_propose ha hack)
  | committed he =>
    have hlt := hc x hx _ _ _ ha
    rw [he] at hlt
    exact Std.not_lt_of_ge (reaches_le_of_acked h hx ha _ rfl) hlt

/-- If no layout has been committed since then in its own epoch, a request stamped with the present
epoch is in order with what happens next. -/
theorem ordered_since {t : State} (h : History (es ++ x :: fs) s) (hy : Turn s y t)
    (hc : RaisingAt s.epoch fs) (ha : x.acked? = some q) (hq : s.epoch ∈ q.epoch?)
    (hn : ∀ r l n, q ≠ .committed r l n) : Ordered x y := by
  have hcx : RaisingAt s.epoch (x :: fs) := by
    rintro z hz r l hza
    rcases List.mem_cons.mp hz with rfl | hz
    · exact absurd (Option.some.inj (ha.symm.trans hza)) (hn r l _)
    · exact hc z hz r l hza
  exact ordered_of_mem_round (recalls_history h) hy (mem_round_since h hcx ha hq)

namespace Acceptor

variable {σ : Type} [StableStore σ] {a b c d f : Acceptor σ} {mid : List Event}

/-- If every layout committed raises the epoch, a request that was acked is rejected whenever it is
delivered again, and changes neither the state nor the store. -/
theorem redelivery_rejected (ha : a.Fresh) (h : a.Run es b) (hc : Raising es) (hx : x ∈ es)
    (hack : x.acked? = some q) (hq : q ≠ .getLayout) :
    ∃ r : Response, r.isReject = true ∧ ∀ m : σ, handle ⟨b.state, m⟩ q = (.ok r, ⟨b.state, m⟩) := by
  have hh := (run_history ha h).1
  rcases b.state.judge_cases q with ⟨r, hj, hkept⟩ | ⟨t, r, hg⟩
  · cases hkept with
    | query => exact absurd rfl hq
    | reject hr => exact ⟨r, hr, fun m => by simp [handle, hj]⟩
  · exact absurd hg (not_grant_of_acked hh hc hx hack)

/-- The rank that was voted for has been outbid since, after a save that failed, and the state is
recovered. -/
theorem redelivery_rejected_after_restart :
    let l : Layout := ⟨0, ["a"], [], []⟩
    let l' : Layout := ⟨1, ["b"], [], []⟩
    let r : Rank := ⟨1, ⟨7⟩⟩
    let r' : Rank := ⟨1, ⟨9⟩⟩
    let e : StorageError := .io (.other "disk full")
    let es : List Event := [.handled (.bootstrap l) (.ok .ack),
      .handled (.committed r l' 0) (.ok .ack),
      .handled (.prepare r 1) (.ok (.prepareAck none none)),
      .handled (.propose r l' 1) (.ok .ack), .handled (.prepare r' 1) (.error e),
      .handled (.prepare r' 1) (.ok (.prepareAck (some r) (some l'))), .restarted]
    ∃ b : Acceptor MemoryStore, Run ⟨.initial, {}⟩ es b ∧ Raising es ∧
      ∃ p : Response, p.isReject = true ∧
        ∀ m : MemoryStore, handle ⟨b.state, m⟩ (.propose r l' 1) = (.ok p, ⟨b.state, m⟩) := by
  intro l l' r r' e es
  have hrun : ∃ b, Run (⟨.initial, {}⟩ : Acceptor MemoryStore) es b :=
    ⟨_, run_cons (.handled rfl rfl) <| run_cons (.handled rfl rfl) <|
      run_cons (.handled rfl rfl) <| run_cons (.handled rfl rfl) <|
      run_cons (.handled (m := ⟨⟨true, 1, some l', some r, some ⟨r, l'⟩⟩, false, true⟩) rfl rfl) <|
      run_cons (.handled (m := ⟨⟨true, 1, some l', some r, some ⟨r, l'⟩⟩, false, false⟩) rfl rfl) <|
      run_cons (.restarted rfl rfl) .nil⟩
  have hraise : Raising es := by simp [Raising, es, l', Event.acked?, Response.isReject]
  have hmem : .handled (.propose r l' 1) (.ok .ack) ∈ es := by simp [es]
  obtain ⟨b, hb⟩ := hrun
  exact ⟨b, hb, hraise, redelivery_rejected ⟨rfl, rfl⟩ hb hraise hmem rfl (by simp)⟩

/-- A rank is voted for once in an epoch, and as long as the epoch stays the promises go up, unless
a layout is committed in between that does not leave the epoch. -/
theorem one_vote_per_rank {n : UInt64} (ha : a.Fresh) (hb : a.Run es b) (hx : b.Step x c)
    (hd : c.Run mid d) (hy : d.Step y f) (hc : RaisingAt n mid) :
    (∀ r l l', x.acked? = some (.propose r l n) → y.acked? ≠ some (.propose r l' n)) ∧
      (b.state.epoch = n → d.state.epoch = n → ∀ r r' k k', x.acked? = some (.prepare r k) →
        y.acked? = some (.prepare r' k') → r < r') := by
  have hbs := settled_run (settled_of_fresh ha) hb
  obtain ⟨hxt, hcs⟩ := step_turn hbs hx
  obtain ⟨hyt, _⟩ := step_turn (settled_run hcs hd) hy
  have hh := (run_history ha (run_append (.snoc hb hx) hd)).1
  rw [List.append_assoc] at hh
  constructor
  · intro r l l' hxa hya
    obtain rfl := epoch_of_acked hyt hya n rfl
    exact Std.lt_irrefl ((ordered_since hh hyt hc hxa rfl (by simp)).lt_of_propose hxa hya)
  · rintro hbn rfl r r' k k' hxa hya
    have hk : k = d.state.epoch := (epoch_of_acked hxt hxa k rfl).trans hbn
    exact (ordered_since hh hyt hc hxa (hk ▸ rfl) (by simp)).lt_of_prepare hxa hya

/-- Between two promises of one epoch a vote is saved, a commit in the epoch of its layout is not,
and the state is recovered. -/
theorem one_vote_per_rank_across_restart :
    let l : Layout := ⟨0, ["a"], [], []⟩
    let r : Rank := ⟨1, ⟨7⟩⟩
    let r' : Rank := ⟨1, ⟨9⟩⟩
    let e : StorageError := .io (.other "disk full")
    let x : Event := .handled (.prepare r 0) (.ok (.prepareAck none none))
    let y : Event := .handled (.prepare r' 0) (.ok (.prepareAck (some r) (some l)))
    let mid : List Event := [.handled (.propose r l 0) (.ok .ack),
      .handled (.committed r l 0) (.error e), .restarted,
      .handled (.propose r l 0) (.ok (.proposeReject (some r) (some r)))]
    ∃ b c d f : Acceptor MemoryStore,
      Run ⟨.initial, {}⟩ [.handled (.bootstrap l) (.ok .ack)] b ∧ b.Step x c ∧ c.Run mid d ∧
        d.Step y f ∧ RaisingAt 0 mid ∧ b.state.epoch = 0 ∧ d.state.epoch = 0 ∧ r < r' := by
  intro l r r' e x y mid
  let holding (p : Option Rank) (v : Option Accepted) : Acceptor MemoryStore :=
    ⟨⟨true, 0, some l, p, v⟩, ⟨⟨true, 0, some l, p, v⟩, false, false⟩⟩
  have hb : Run ⟨.initial, {}⟩ [.handled (.bootstrap l) (.ok .ack)] (holding none none) :=
    .snoc .nil (.handled rfl rfl)
  have hx : (holding none none).Step x (holding (some r) none) := .handled rfl rfl
  let broken : MemoryStore := ⟨⟨true, 0, some l, some r, some ⟨r, l⟩⟩, false, true⟩
  have hd : (holding (some r) none).Run mid (holding (some r) (some ⟨r, l⟩)) :=
    run_cons (.handled rfl rfl) <| run_cons (.handled (m := broken) rfl rfl) <|
      run_cons (.restarted (m := { broken with writeFault := false }) rfl rfl) <|
      run_cons (.handled rfl rfl) .nil
  have hy : (holding (some r) (some ⟨r, l⟩)).Step y (holding (some r') (some ⟨r, l⟩)) :=
    .handled rfl rfl
  have hraise : RaisingAt 0 mid := by simp [RaisingAt, mid, Event.acked?, Response.isReject]
  have hlt := (one_vote_per_rank ⟨rfl, rfl⟩ hb hx hd hy hraise).2 rfl rfl r r' 0 0 rfl rfl
  exact ⟨_, _, _, _, hb, hx, hd, hy, hraise, rfl, rfl, hlt⟩

/-- A layout committed in its own epoch: the rank voted for before is promised again, and another
layout is voted for at it. -/
theorem two_votes_in_one_epoch :
    let l : Layout := ⟨0, ["a"], [], []⟩
    let l' : Layout := ⟨0, ["b"], [], []⟩
    let r : Rank := ⟨1, ⟨1⟩⟩
    let promise : Event := .handled (.prepare r 0) (.ok (.prepareAck none none))
    let vote : Event := .handled (.propose r l 0) (.ok .ack)
    let vote' : Event := .handled (.propose r l' 0) (.ok .ack)
    ∃ b : Acceptor MemoryStore, Run ⟨.initial, {}⟩
        [.handled (.bootstrap l) (.ok .ack), promise, vote, .handled (.committed r l 0) (.ok .ack),
          promise, vote'] b ∧
      b.state.epoch = 0 ∧ promise.promise? = some r ∧ vote.vote? = some ⟨r, l⟩ ∧
      vote'.vote? = some ⟨r, l'⟩ ∧ l ≠ l' := by
  intro l l' r promise vote vote'
  refine ⟨⟨⟨true, 0, some l, some r, some ⟨r, l'⟩⟩, ⟨⟨true, 0, some l, some r, some ⟨r, l'⟩⟩,
    false, false⟩⟩, ?_, rfl, rfl, rfl, rfl, by decide⟩
  exact run_cons (.handled rfl rfl) <| run_cons (.handled rfl rfl) <|
    run_cons (.handled rfl rfl) <| run_cons (.handled rfl rfl) <|
    run_cons (.handled rfl rfl) <| run_cons (.handled rfl rfl) .nil

end Acceptor
end Synod
