import Synod.Proofs.Conversation
import Synod.Proofs.Highest
import Synod.Proofs.Reliable

/-!
Proposers that compete. In whatever order and however often their prepares are handled, the promise
ends at the highest of them, and epochs that are set end at the greatest. Only the answers tell the
order.
-/
namespace Synod

/-- The ranks that bear the stamp of an epoch. -/
def stamped (n : UInt64) (xs : List (Rank × UInt64)) : List Rank :=
  xs.filterMap fun x => if x.2 = n then some x.1 else none

/-- The requests for promises of ranks, each with the epoch that it is stamped with. -/
def prepares (xs : List (Rank × UInt64)) : List Request := xs.map fun x => .prepare x.1 x.2

def seals (ns : List UInt64) : List Request := ns.map .setEpoch

section Stamped

variable {n : UInt64} {r : Rank} {x : Rank × UInt64} {xs : List (Rank × UInt64)}

theorem mem_stamped : r ∈ stamped n xs ↔ (r, n) ∈ xs := by
  constructor
  · intro h
    obtain ⟨⟨r', k⟩, hx, hr⟩ := List.mem_filterMap.mp h
    by_cases hk : k = n
    · subst hk
      rw [if_pos rfl] at hr
      obtain rfl := Option.some.inj hr
      exact hx
    · rw [if_neg hk] at hr
      cases hr
  · intro h
    exact List.mem_filterMap.mpr ⟨(r, n), h, if_pos rfl⟩

theorem stamped_cons (n : UInt64) (x : Rank × UInt64) (xs : List (Rank × UInt64)) :
    stamped n (x :: xs) = stamped n [x] ++ stamped n xs :=
  List.filterMap_append (l := [x])

theorem stamped_self (r : Rank) (n : UInt64) : stamped n [(r, n)] = [r] := by simp [stamped]

theorem stamped_ne (hn : x.2 ≠ n) : stamped n [x] = [] := by simp [stamped, hn]

end Stamped

namespace State

variable {s : State} {n k : UInt64}

/-- The state once an epoch is to be set: only a greater one is, and it begins a fresh round. -/
def sealedAt (s : State) (n : UInt64) : State :=
  if s.epoch < n then { s with epoch := n, promised := none, accepted := none } else s

theorem sealedAt_of_le (h : n ≤ s.epoch) : s.sealedAt n = s := if_neg (UInt64.not_lt.mpr h)

theorem sealedAt_of_lt (h : s.epoch < n) : s.sealedAt n = s.advance n := by
  have hepoch : (s.advance n).epoch = n := by rw [epoch_advance, if_pos (Std.le_of_lt h)]
  rw [sealedAt, if_pos h]
  nth_rewrite 1 [← hepoch]
  rfl

theorem bootstrapped_sealedAt (s : State) (n : UInt64) :
    (s.sealedAt n).bootstrapped = s.bootstrapped := by
  unfold sealedAt
  split
  · rfl
  · rfl

theorem epoch_sealedAt (s : State) (n : UInt64) :
    (s.sealedAt n).epoch ∈ [s.epoch, n] ∧ s.epoch ≤ (s.sealedAt n).epoch ∧
      n ≤ (s.sealedAt n).epoch := by
  by_cases h : s.epoch < n
  · rw [sealedAt, if_pos h]
    exact ⟨by simp, Std.le_of_lt h, Std.le_refl n⟩
  · have hle := UInt64.not_lt.mp h
    rw [sealedAt_of_le hle]
    exact ⟨by simp, Std.le_refl s.epoch, hle⟩

/-- An epoch that was set before leaves no trace once a greater one is. -/
theorem sealedAt_sealedAt (h : (s.sealedAt n).epoch ≤ k) :
    (s.sealedAt n).sealedAt k = s.sealedAt k := by
  by_cases hn : s.epoch < n
  · rw [sealedAt, if_pos hn] at h
    have hk : s.epoch < k := Std.lt_of_lt_of_le hn h
    rw [sealedAt, sealedAt, if_pos hn, sealedAt, if_pos hk]
    split
    · rfl
    · rename_i hnot
      obtain rfl := Std.le_antisymm h (UInt64.not_lt.mp hnot)
      rfl
  · rw [sealedAt_of_le (UInt64.not_lt.mp hn)]

end State

namespace Acceptor

variable {σ : Type} [Store σ] {m : σ} {s : State}

/-- A prepare takes the promise to the higher of the two ranks, if it bears the stamp of the epoch, and
it is granted if its rank is above the promise. -/
theorem handle_prepare (hb : s.bootstrapped = true) (hm : Reliable m) (x : Rank × UInt64) :
    ∃ top r k, handle ⟨s, m⟩ (.prepare x.1 x.2) = (.ok r, ⟨{ s with promised := top }, k⟩) ∧
      Reliable k ∧ IsTop id (s.promised.toList ++ stamped s.epoch [x]) top ∧
      ((∃ p l, r = .prepareAck p l) ↔ x.2 = s.epoch ∧ ∀ p ∈ s.promised, p < x.1) := by
  obtain ⟨r, n⟩ := x
  have htop := IsTop.toList s.promised
  by_cases hn : n = s.epoch
  · subst hn
    rw [stamped_self]
    by_cases hr : ∀ p ∈ s.promised, p < r
    · obtain ⟨k, hh, hk⟩ := handle_granted hm (.prepare rfl hb hr)
      have hle : ∀ p ∈ s.promised, p ≤ r := fun p hp => Std.le_of_lt (hr p hp)
      exact ⟨some r, _, k, hh, hk, isTop_snoc htop hle, by simpa using hr⟩
    · have hle : some r ≤ s.promised := by
        by_contra hn
        exact hr (Rank.not_some_le_iff.mp hn)
      have hex : ∃ p ∈ s.promised, r ≤ p := by
        by_contra hn
        exact hr fun p hp => Std.not_le.mp fun h => hn ⟨p, hp, h⟩
      have hh := handle_refused (m := m) (.notAbove hb hle)
      exact ⟨s.promised, _, m, hh, hm, htop.snoc_of_le hex, by simpa using hr⟩
  · have hh := handle_refused (s := s) (m := m) (q := .prepare r n) (.fenced rfl hn)
    refine ⟨s.promised, _, m, hh, hm, ?_, by simp [hn]⟩
    rw [stamped_ne hn, List.append_nil]
    exact htop

/-- Several prepares take it to the highest of their ranks, and nothing else changes. -/
theorem handleAll_prepares (hb : s.bootstrapped = true) (hm : Reliable m)
    (xs : List (Rank × UInt64)) : ∃ top k,
      (handleAll ⟨s, m⟩ (prepares xs)).2 = ⟨{ s with promised := top }, k⟩ ∧ Reliable k ∧
        IsTop id (s.promised.toList ++ stamped s.epoch xs) top := by
  induction xs generalizing s m with
  | nil =>
    refine ⟨s.promised, m, rfl, hm, ?_⟩
    rw [stamped, List.filterMap_nil, List.append_nil]
    exact IsTop.toList s.promised
  | cons x xs ih =>
    obtain ⟨mid, r, k, hh, hk, hmid, _⟩ := handle_prepare hb hm x
    obtain ⟨top, k', hall, hk', htop⟩ := ih (s := { s with promised := mid }) hb hk
    refine ⟨top, k', ?_, hk', ?_⟩
    · change (handleAll (handle ⟨s, m⟩ (.prepare x.1 x.2)).2 (prepares xs)).2 = _
      rw [hh]
      exact hall
    · rw [stamped_cons, ← List.append_assoc]
      exact hmid.of_toList_append htop

/-- A promise is granted to a rank that bears the stamp of the epoch and is above all before it. -/
theorem outcome_prepare (hb : s.bootstrapped = true) (hm : Reliable m)
    (pre : List (Rank × UInt64)) (x : Rank × UInt64) (post : List (Rank × UInt64)) :
    ∃ r, (handleAll ⟨s, m⟩ (prepares (pre ++ x :: post))).1[pre.length]? = some (.ok r) ∧
      ((∃ p l, r = .prepareAck p l) ↔
        x.2 = s.epoch ∧ ∀ y ∈ s.promised.toList ++ stamped s.epoch pre, y < x.1) := by
  obtain ⟨top, k, hpre, hk, htop⟩ := handleAll_prepares hb hm pre
  obtain ⟨_, r, _, hx, _, _, hack⟩ := handle_prepare (s := { s with promised := top }) hb hk x
  refine ⟨r, ?_, ?_⟩
  · have hget := getElem?_handleAll ⟨s, m⟩ (prepares pre) (.prepare x.1 x.2) (prepares post)
    rw [hpre, hx, prepares, List.length_map] at hget
    rw [prepares, List.map_append, List.map_cons]
    exact hget
  · rw [hack, htop.lt_iff]

theorem handle_setEpoch (hb : s.bootstrapped = true) (hm : Reliable m) (n : UInt64) :
    ∃ k, (handle ⟨s, m⟩ (.setEpoch n)).2 = ⟨s.sealedAt n, k⟩ ∧ Reliable k := by
  by_cases hn : s.epoch < n
  · obtain ⟨k, hh, hk⟩ := handle_granted hm (.setEpoch hb hn)
    rw [State.sealedAt_of_lt hn, hh]
    exact ⟨k, rfl, hk⟩
  · have hle := UInt64.not_lt.mp hn
    rw [State.sealedAt_of_le hle, handle_refused (.reached hb hle)]
    exact ⟨m, rfl, hm⟩

/-- The greatest of several epochs is set. -/
theorem handleAll_seals (hb : s.bootstrapped = true) (hm : Reliable m) (ns : List UInt64) :
    ∃ top k, (handleAll ⟨s, m⟩ (seals ns)).2 = ⟨s.sealedAt top, k⟩ ∧ top ∈ s.epoch :: ns ∧
      ∀ n ∈ s.epoch :: ns, n ≤ top := by
  induction ns generalizing s m with
  | nil =>
    refine ⟨s.epoch, m, ?_, List.mem_singleton_self s.epoch, fun n hn => ?_⟩
    · rw [State.sealedAt_of_le (Std.le_refl _)]
      rfl
    · rw [List.mem_singleton.mp hn]
      exact Std.le_refl _
  | cons n ns ih =>
    obtain ⟨k, hh, hk⟩ := handle_setEpoch hb hm n
    have hb' := (State.bootstrapped_sealedAt s n).trans hb
    obtain ⟨top, k', hall, hmem, hle⟩ := ih hb' hk
    obtain ⟨hin, hs, hn⟩ := State.epoch_sealedAt s n
    have htop := hle _ List.mem_cons_self
    refine ⟨top, k', ?_, ?_, fun j hj => ?_⟩
    · change (handleAll (handle ⟨s, m⟩ (.setEpoch n)).2 (seals ns)).2 = _
      rw [hh, hall, State.sealedAt_sealedAt htop]
    · change top ∈ [s.epoch, n] ++ ns
      rcases List.mem_cons.mp hmem with rfl | hmem
      · exact List.mem_append_left ns hin
      · exact List.mem_append_right _ hmem
    · rcases List.mem_cons.mp hj with rfl | hj
      · exact Std.le_trans hs htop
      · rcases List.mem_cons.mp hj with rfl | hj
        · exact Std.le_trans hn htop
        · exact hle j (List.mem_cons_of_mem _ hj)

/-- In a bootstrapped state, if saves succeed: prepares with the same ranks and stamps end in the same
state in any order, with any repetitions. Its promise is the highest of the promise before and the ranks
that bear the stamp of the epoch, and the promises granted are to those of them that are above it and
above all such ranks before. Epochs that are set end in the same state in any order too, with the
greatest of them if it is greater than the one before, and a fresh round then only. -/
theorem prepares_and_seals_in_any_order (hb : s.bootstrapped = true) (hm : Reliable m) :
    (∀ xs, ∃ top, IsTop id (s.promised.toList ++ stamped s.epoch xs) top ∧
      ∀ ys, (∀ x, x ∈ ys ↔ x ∈ xs) →
        (handleAll ⟨s, m⟩ (prepares ys)).2.state = { s with promised := top } ∧
        ∀ pre x post, ys = pre ++ x :: post →
          ∃ r, (handleAll ⟨s, m⟩ (prepares ys)).1[pre.length]? = some (.ok r) ∧
            ((∃ p l, r = .prepareAck p l) ↔ x.2 = s.epoch ∧ (∀ p ∈ s.promised, p < x.1) ∧
              ∀ y ∈ pre, y.2 = s.epoch → y.1 < x.1)) ∧
    ∀ ns, ∃ top ∈ s.epoch :: ns, (∀ n ∈ s.epoch :: ns, n ≤ top) ∧
      ∀ ks, (∀ n, n ∈ ks ↔ n ∈ ns) → (handleAll ⟨s, m⟩ (seals ks)).2.state =
        if s.epoch < top then { s with epoch := top, promised := none, accepted := none } else s := by
  constructor
  · intro xs
    obtain ⟨top, _, _, _, htop⟩ := handleAll_prepares hb hm xs
    refine ⟨top, htop, fun ys hys => ⟨?_, ?_⟩⟩
    · obtain ⟨top', k, hall, _, htop'⟩ := handleAll_prepares hb hm ys
      have hsame : ∀ r, r ∈ s.promised.toList ++ stamped s.epoch ys ↔
          r ∈ s.promised.toList ++ stamped s.epoch xs := by
        intro r
        rw [List.mem_append, List.mem_append, mem_stamped, mem_stamped, hys]
      rw [hall, htop'.eq_of_mem_iff htop hsame]
    · rintro pre x post rfl
      obtain ⟨r, hr, hack⟩ := outcome_prepare hb hm pre x post
      refine ⟨r, hr, hack.trans (and_congr_right fun _ => ?_)⟩
      rw [List.forall_mem_append]
      refine and_congr (by simp) ⟨fun h y hy hn => ?_, fun h y hy => ?_⟩
      · exact h y.1 (mem_stamped.mpr (hn ▸ hy))
      · exact h _ (mem_stamped.mp hy) rfl
  · intro ns
    obtain ⟨top, _, _, hmem, hle⟩ := handleAll_seals hb hm ns
    refine ⟨top, hmem, hle, fun ks hks => ?_⟩
    obtain ⟨top', k, hall, hmem', hle'⟩ := handleAll_seals hb hm ks
    have hsame : ∀ n, n ∈ s.epoch :: ks ↔ n ∈ s.epoch :: ns := by
      intro n
      rw [List.mem_cons, List.mem_cons, hks]
    have htop : top' = top :=
      Std.le_antisymm (hle top' ((hsame top').mp hmem')) (hle' top ((hsame top).mpr hmem))
    rw [hall, htop]
    rfl

/-- Two proposers tie on a sequence number, and a rank above theirs bears another stamp. -/
theorem prepares_and_seals_in_any_order_with_ties :
    let x : Rank × UInt64 := (⟨5, ⟨8⟩⟩, 2)
    let y : Rank × UInt64 := (⟨5, ⟨9⟩⟩, 2)
    let z : Rank × UInt64 := (⟨7, ⟨1⟩⟩, 3)
    let s : State := ⟨true, 2, some ⟨2, ["a"], [], []⟩, some ⟨5, ⟨4⟩⟩, none⟩
    let a : Acceptor MemoryStore := ⟨s, { state := s }⟩
    Reliable a.store ∧ (a.handleAll (prepares [x, y, z])).2.state = { s with promised := some y.1 } ∧
      (a.handleAll (prepares [z, y, x, y])).2.state = { s with promised := some y.1 } ∧
      (∃ r, (a.handleAll (prepares [z, y, x, y])).1[2]? = some (.ok r) ∧
        ¬ ∃ p l, r = .prepareAck p l) ∧
      (a.handleAll (seals [4, 6, 2])).2.state = (a.handleAll (seals [6, 6, 2, 4])).2.state := by
  intro x y z s a
  have hm : Reliable a.store := reliable_memory s false
  obtain ⟨hprepare, hseal⟩ := prepares_and_seals_in_any_order (s := s) rfl hm
  obtain ⟨top, htop, hall⟩ := hprepare [x, y, z]
  have hy : IsTop id (s.promised.toList ++ stamped s.epoch [x, y, z]) (some y.1) := by
    change IsTop id [⟨5, ⟨4⟩⟩, ⟨5, ⟨8⟩⟩, ⟨5, ⟨9⟩⟩] _
    simp only [IsTop]
    decide
  obtain rfl : top = some y.1 := htop.eq_of_mem_iff hy fun _ => Iff.rfl
  have hperm : ∀ w, w ∈ [z, y, x, y] ↔ w ∈ [x, y, z] := by
    intro w
    simp only [List.mem_cons, List.not_mem_nil]
    grind
  obtain ⟨hfirst, _⟩ := hall [x, y, z] fun _ => Iff.rfl
  obtain ⟨hsecond, hack⟩ := hall [z, y, x, y] hperm
  obtain ⟨r, hr, hiff⟩ := hack [z, y] x [y] rfl
  obtain ⟨e, _, _, hends⟩ := hseal [4, 6, 2]
  refine ⟨hm, hfirst, hsecond, ⟨r, hr, fun h => ?_⟩, ?_⟩
  · exact absurd ((hiff.mp h).2.2 y (by simp) rfl) (by decide)
  · rw [hends _ fun _ => Iff.rfl, hends [6, 6, 2, 4] fun n => by simp; grind]

end Acceptor
end Synod
