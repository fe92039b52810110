import Mathlib.Logic.Function.Basic
import Synod.Node
import Synod.Proofs.Session

/-! A session among nodes that serve others too, with answers that get lost and peers of any kind. -/
namespace Synod.Shell

/-- A session and the nodes that there are. -/
structure World (ι σ : Type) where
  session : Session
  node : ι → Node σ

/-- What happens to a session or to a node. -/
inductive Scene (ι : Type) where
  /-- The session does something that none of the nodes takes notice of, or that some other peer
  answers. -/
  | apart (deed : Deed)
  /-- A node answers the session. The answer arrives, or the connection fails. -/
  | met (node : ι) (request : Request) (outcome : Except Error Response)
  /-- A node serves others, or is stopped and started, or loses its directory. -/
  | elsewhere (node : ι)

namespace Scene

variable {ι : Type}

def deed? : Scene ι → Option Deed
  | apart d => some d
  | met _ q o => some (.asked q o)
  | elsewhere _ => none

def node? : Scene ι → Option ι
  | apart _ => none
  | met i _ _ | elsewhere i => some i

end Scene

/-- What the session did. -/
def deeds {ι : Type} (es : List (Scene ι)) : List Deed := es.filterMap Scene.deed?

theorem deeds_snoc {ι : Type} (es : List (Scene ι)) (e : Scene ι) :
    deeds (es ++ [e]) = deeds es ++ e.deed?.toList := by
  cases h : e.deed? <;> simp [deeds, h]

namespace World

variable {ι σ : Type} [DecidableEq ι] [Store σ] {w v u : World ι σ} {e : Scene ι}
  {es fs : List (Scene ι)} {i : ι} {s t : Session} {q : Request} {r : Response}

inductive Step (w : World ι σ) : Scene ι → World ι σ → Prop where
  | apart {d : Deed} {t : Session} (h : w.session.Step d t) :
      Step w (.apart d) { w with session := t }
  | met {i : ι} {q : Request} {o : Except Error Response} {t : Session} {reply : Reply} {n : Node σ}
      (h : w.session.Step (.asked q o) t) (hn : (w.node i).answer q = (reply, n))
      (ho : ∀ r, o = .ok r → reply = .ok r) :
      Step w (.met i q o) ⟨t, Function.update w.node i n⟩
  | elsewhere {i : ι} (n : Node σ) :
      Step w (.elsewhere i) { w with node := Function.update w.node i n }

inductive Run (w : World ι σ) : List (Scene ι) → World ι σ → Prop where
  | nil : Run w [] w
  | snoc {es : List (Scene ι)} {e : Scene ι} {v u : World ι σ} (h : Run w es v) (he : Step v e u) :
      Run w (es ++ [e]) u

theorem run_deeds (h : Run w es v) : w.session.Run (deeds es) v.session := by
  induction h with
  | nil => exact .nil
  | snoc _ he ih =>
    rw [deeds_snoc]
    cases he with
    | apart hd => exact .snoc ih hd
    | met hd => exact .snoc ih hd
    | elsewhere n =>
      rw [Scene.deed?, Option.toList_none, List.append_nil]
      exact ih

theorem run_append (h : Run w es v) (he : Run v fs u) : Run w (es ++ fs) u := by
  induction he with
  | nil => rwa [List.append_nil]
  | snoc _ he ih =>
    rw [← List.append_assoc]
    exact .snoc ih he

/-- A node that nothing happens to stays as it is. -/
theorem node_of_run (h : Run w es v) (hi : ∀ e ∈ es, e.node? ≠ some i) : v.node i = w.node i := by
  induction h with
  | nil => rfl
  | @snoc es e v u _ he ih =>
    have hes : v.node i = w.node i := ih fun e he => hi e (List.mem_append_left _ he)
    have hne : e.node? ≠ some i := hi e (List.mem_append_right _ (List.mem_singleton_self e))
    rw [← hes]
    cases he with
    | apart => rfl
    | met =>
      refine Function.update_of_ne (fun hii => hne ?_) _ _
      rw [hii]
      rfl
    | elsewhere =>
      refine Function.update_of_ne (fun hii => hne ?_) _ _
      rw [hii]
      rfl

end World
end Synod.Shell
