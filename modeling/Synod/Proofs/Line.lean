import Synod.Proofs.Schedule

/-!
What the acts of a run say of its connections, and of the requests that were put in line: those
handled and those in the queue.
-/
namespace Synod

section Precedes

variable {α : Type} {l l' : List α} {x y z : α}

/-- Whether one element stands before another. -/
def Precedes (l : List α) (x y : α) : Prop := [x, y].Sublist l

theorem precedes_append_iff :
    Precedes (l ++ l') x y ↔ Precedes l x y ∨ (x ∈ l ∧ y ∈ l') ∨ Precedes l' x y := by
  unfold Precedes
  rw [List.sublist_append_iff]
  constructor
  · rintro ⟨a, b, h, ha, hb⟩
    rcases a with _ | ⟨x', _ | ⟨y', a⟩⟩
    · exact Or.inr (Or.inr (h ▸ hb))
    · obtain ⟨rfl, rfl⟩ := List.cons.inj h
      exact Or.inr (Or.inl ⟨List.singleton_sublist.mp ha, List.singleton_sublist.mp hb⟩)
    · simp only [List.cons_append, List.cons.injEq, List.nil_eq, List.append_eq_nil_iff] at h
      obtain ⟨rfl, rfl, rfl, rfl⟩ := h
      exact Or.inl ha
  · rintro (h | ⟨hx, hy⟩ | h)
    · exact ⟨[x, y], [], rfl, h, List.nil_sublist _⟩
    · exact ⟨[x], [y], rfl, List.singleton_sublist.mpr hx, List.singleton_sublist.mpr hy⟩
    · exact ⟨[], [x, y], rfl, List.nil_sublist _, h⟩

theorem precedes_snoc_iff : Precedes (l ++ [z]) x y ↔ Precedes l x y ∨ x ∈ l ∧ y = z := by
  have hz : ¬ Precedes [z] x y := by
    intro h
    have := h.length_le
    simp at this
  rw [precedes_append_iff, List.mem_singleton, or_iff_left hz]

theorem mem_left_of_precedes (h : Precedes l x y) : x ∈ l := h.subset (by simp)

end Precedes

namespace Server

variable {ι σ : Type} [StableStore σ] {s t : Server ι σ} {y : Op ι} {q : Request} {e : Act ι}
  {es : List (Act ι)} {line l l' : List (Op ι × Request)}

/-- What the acts of a run say of its connections. -/
structure Attended (es : List (Act ι)) (s : Server ι σ) : Prop where
  received : ∀ c q, s.phase c = .received q → .received (s.op c) q ∈ es
  replying : ∀ c r, s.phase c = .replying r → ∃ e ∈ es, e.reply? = some (s.op c, r)
  answered : ∀ c n, n < (s.op c).index → ∃ e ∈ es, ∃ r, e.reply? = some (⟨c, n⟩, r)
  ordered : ∀ c m n q, m < n → .received ⟨c, n⟩ q ∈ es →
    ∃ e r, e.reply? = some (⟨c, m⟩, r) ∧ Precedes es e (.received ⟨c, n⟩ q)

/-- What the acts of a run say of the requests that were put in line, answered ones first. -/
structure Line (es : List (Act ι)) (s : Server ι σ) (line : List (Op ι × Request)) : Prop where
  received : ∀ p ∈ line, .received p.1 p.2 ∈ es
  begun : ∀ p ∈ line, s.Begun p.1
  nodup : (line.map Prod.fst).Nodup
  precedes : ∀ e f x r y, Precedes es e f → e.reply? = some (x, r) → f.start? = some y →
    y ∈ line.map Prod.fst → Precedes (line.map Prod.fst) x y

theorem attended_start (a : Acceptor σ) :
    Attended [] (start a : Server ι σ) where
  received _ _ h := by simp [start, phase] at h
  replying _ _ h := by simp [start, phase] at h
  answered _ _ h := by simp [start, op] at h
  ordered _ _ _ _ _ h := by simp at h

theorem line_start (a : Acceptor σ) : Line [] (start a : Server ι σ) [] where
  received := by simp
  begun := by simp
  nodup := by simp
  precedes := by simp

variable [DecidableEq ι]

theorem attended_step (h : Attended es s) (hs : Step s e t) :
    Attended (es ++ [e]) t where
  received c q hq := by
    rcases connection_step hs c with
        ⟨ho, hp⟩ | ⟨q, hi, rfl, ho, hp⟩ | ⟨r, _, ho, hp⟩ | ⟨r, _, _, ho, hp⟩
    · rw [ho]
      rcases hp with hp | hp | hp <;> rw [hp] at hq
      · exact List.mem_append_left _ (h.received c q hq)
      · cases hq
      · cases hq
    · rw [hp] at hq
      obtain rfl := Phase.received.inj hq
      simp [ho]
    · rw [hp] at hq
      cases hq
    · rw [hp] at hq
      cases hq
  replying c r hr := by
    rcases connection_step hs c with
        ⟨ho, hp⟩ | ⟨q, hi, rfl, ho, hp⟩ | ⟨r', he, ho, hp⟩ | ⟨r, _, _, ho, hp⟩
    · rw [ho]
      rcases hp with hp | hp | hp <;> rw [hp] at hr
      · obtain ⟨f, hf, hfr⟩ := h.replying c r hr
        exact ⟨f, List.mem_append_left _ hf, hfr⟩
      · cases hr
      · cases hr
    · rw [hp] at hr
      cases hr
    · rw [hp] at hr
      obtain rfl := Phase.replying.inj hr
      exact ⟨e, by simp, ho ▸ he⟩
    · rw [hp] at hr
      cases hr
  answered c n hn := by
    have hold : n < (s.op c).index → ∃ f ∈ es ++ [e], ∃ r, f.reply? = some (⟨c, n⟩, r) := by
      intro hlt
      obtain ⟨f, hf, hfr⟩ := h.answered c n hlt
      exact ⟨f, List.mem_append_left _ hf, hfr⟩
    rcases connection_step hs c with ⟨ho, _⟩ | ⟨q, _, _, ho, _⟩ | ⟨r, _, ho, _⟩ | ⟨r, hr, _, ho, _⟩
    · exact hold (ho ▸ hn)
    · exact hold (ho ▸ hn)
    · exact hold (ho ▸ hn)
    · rw [ho] at hn
      rcases Nat.lt_succ_iff_lt_or_eq.mp hn with hlt | rfl
      · exact hold hlt
      · obtain ⟨f, hf, hfr⟩ := h.replying c r hr
        exact ⟨f, List.mem_append_left _ hf, r, hfr⟩
  ordered c m n q hmn hx := by
    rcases List.mem_append.mp hx with hx | hx
    · obtain ⟨f, r, hfr, hp⟩ := h.ordered c m n q hmn hx
      exact ⟨f, r, hfr, precedes_snoc_iff.mpr (Or.inl hp)⟩
    · have he := List.mem_singleton.mp hx
      cases hs with
      | @received d p hi =>
        obtain ⟨ho, rfl⟩ := Act.received.inj he
        obtain rfl : c = d := congrArg Op.connection ho
        have hlt : m < (s.op c).index := ho ▸ hmn
        obtain ⟨f, hf, r, hfr⟩ := h.answered c m hlt
        exact ⟨f, r, hfr, precedes_snoc_iff.mpr (Or.inr ⟨hf, by rw [ho]⟩)⟩
      | _ => cases he

/-- A step that puts no request in line. -/
theorem line_keep (h : Line es s line) (hs : Step s e t)
    (he : ∀ y, e.start? = some y → ¬ s.Begun y) : Line (es ++ [e]) t line where
  received p hp := List.mem_append_left _ (h.received p hp)
  begun p hp := begun_step hs (h.begun p hp)
  nodup := h.nodup
  precedes f g x r y hfg hf hg hy := by
    rcases precedes_snoc_iff.mp hfg with hfg | ⟨_, rfl⟩
    · exact h.precedes f g x r y hfg hf hg hy
    · obtain ⟨p, hp, rfl⟩ := List.mem_map.mp hy
      exact absurd (h.begun p hp) (he p.1 hg)

/-- A step that puts a request in line, behind all that were answered. -/
theorem line_insert (h : Line es s (l ++ l')) (hs : Step s e t)
    (hr : .received y q ∈ es) (hn : ¬ s.Begun y) (hy : t.Begun y)
    (he : ∀ z, e.start? = some z → z = y)
    (ha : ∀ f ∈ es, ∀ x r, f.reply? = some (x, r) → x ∈ l.map Prod.fst) :
    Line (es ++ [e]) t (l ++ (y, q) :: l') := by
  have hnot : ∀ p ∈ l ++ l', p.1 ≠ y := by
    rintro p hp rfl
    exact hn (h.begun p hp)
  have hmem : ∀ p ∈ l ++ (y, q) :: l', p = (y, q) ∨ p ∈ l ++ l' := by
    intro p hp
    simpa [or_left_comm] using hp
  refine ⟨fun p hp => ?_, fun p hp => ?_, ?_, ?_⟩
  · rcases hmem p hp with rfl | hp
    · exact List.mem_append_left _ hr
    · exact List.mem_append_left _ (h.received p hp)
  · rcases hmem p hp with rfl | hp
    · exact hy
    · exact begun_step hs (h.begun p hp)
  · rw [(List.perm_middle.map Prod.fst).nodup_iff, List.map_cons, List.nodup_cons]
    refine ⟨?_, h.nodup⟩
    intro hy
    obtain ⟨p, hp, hpy⟩ := List.mem_map.mp hy
    exact hnot p hp hpy
  · intro f g x r z hfg hf hg hz
    have hmono : ∀ {x z}, Precedes ((l ++ l').map Prod.fst) x z →
        Precedes ((l ++ (y, q) :: l').map Prod.fst) x z :=
      fun hp => hp.trans (((List.Sublist.refl l).append (List.sublist_cons_self _ l')).map _)
    have hnew : f ∈ es → Precedes ((l ++ (y, q) :: l').map Prod.fst) x y := by
      intro hf'
      rw [List.map_append, precedes_append_iff]
      exact Or.inr (Or.inl ⟨ha f hf' x r hf, by simp⟩)
    rcases precedes_snoc_iff.mp hfg with hfg | ⟨hf', rfl⟩
    · obtain ⟨p, hp, rfl⟩ := List.mem_map.mp hz
      rcases hmem p hp with rfl | hp
      · exact hnew (mem_left_of_precedes hfg)
      · exact hmono (h.precedes f g x r p.1 hfg hf hg (List.mem_map_of_mem hp))
    · obtain rfl := he z hg
      exact hnew hf'

end Server
end Synod
