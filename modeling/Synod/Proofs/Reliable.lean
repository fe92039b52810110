import Synod.Proofs.History

/-!
Stores whose saves succeed. Over such a store every request is answered: what the rules grant takes
effect, and the store stays as good as it was.
-/
namespace Synod

variable {σ : Type} [Store σ] {m n : σ} {s t : State} {q : Request} {r : Response}

/-- A store whose saves succeed from now on: nothing that a save leads to makes the next one fail. -/
def Reliable (m : σ) : Prop :=
  ∃ P : σ → Prop, P m ∧ ∀ n s, P n → ∃ k, Store.save s n = (.ok (), k) ∧ P k

theorem reliable_save (h : Reliable m) (s : State) :
    ∃ n, Store.save s m = (.ok (), n) ∧ Reliable n := by
  obtain ⟨P, hm, hsave⟩ := h
  obtain ⟨n, hn, hp⟩ := hsave m s hm
  exact ⟨n, hn, P, hp, hsave⟩

theorem reliable_memory (s : State) (b : Bool) : Reliable (⟨s, b, false⟩ : MemoryStore) := by
  refine ⟨fun m => m.writeFault = false, rfl, fun m t hm => ⟨{ m with state := t }, ?_, hm⟩⟩
  simp [Store.save, MemoryStore.save, hm]

namespace Acceptor

theorem handle_granted (hm : Reliable m) (hg : s.Grant q t r) :
    ∃ n, handle ⟨s, m⟩ q = (.ok r, ⟨t, n⟩) ∧ Reliable n := by
  obtain ⟨n, hs, hn⟩ := reliable_save hm t
  exact ⟨n, handle_saved (State.judge_of_grant hg) hs, hn⟩

theorem handle_refused (hr : s.Refused q r) : handle ⟨s, m⟩ q = (.ok r, ⟨s, m⟩) :=
  handle_keep (a := ⟨s, m⟩) (State.judge_of_refused hr)

end Acceptor
end Synod
