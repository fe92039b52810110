import Synod.Proofs.Coherence
import Synod.Proofs.Conversation
import Synod.Proofs.Replay

/-!
How long requests and replies are. A proposal or a commit of a layout is longer than every reply
that tells the layout, but a bootstrap is shorter than the reply to a layout query.
-/
namespace Synod

namespace Wire

@[simp] theorem length_word64 (n : UInt64) : (encode n).length = 8 := by simp [encode]

@[simp] theorem length_rank (r : Rank) : (encode r).length = 32 := by
  simp [encode, length_encodeLength]

@[simp] theorem length_none {α : Type} [Wire α] : (encode (none : Option α)).length = 1 := rfl

@[simp] theorem length_some {α : Type} [Wire α] (a : α) :
    (encode (some a)).length = (encode a).length + 1 := rfl

theorem length_rank?_le (o : Option Rank) : (encode o).length ≤ 33 := by
  cases o <;> simp

theorem length_replicate {α : Type} [Wire α] (n : Nat) (a : α) :
    (encode (List.replicate n a)).length = 8 + n * (encode a).length := by
  have hcontents : ((List.replicate n a).flatMap encode).length = n * (encode a).length := by
    rw [List.length_flatMap, List.map_replicate, List.sum_replicate_nat]
  simp only [encode, List.length_append, length_encodeLength, List.length_replicate, hcontents]

theorem length_request (q : Request) :
    (encode q).length = match q with
      | .bootstrap l => (encode l).length + 4
      | .getLayout => 4
      | .setEpoch _ => 12
      | .prepare _ _ => 44
      | .propose _ l _ | .committed _ l _ => (encode l).length + 44 := by
  rw [encode_request]
  cases q <;> simp [length_tag] <;> omega

theorem length_reply (a : Response) :
    (encode (.ok a : Reply)).length = (encode a).length + 4 := by
  rw [encode_reply]
  simp only [List.length_append, length_tag]
  omega

theorem length_reply_layout (l : Layout) (n : UInt64) :
    (encode (.ok (.layout l n) : Reply)).length = (encode l).length + 16 := by
  rw [length_reply, encode_response]
  simp only [List.length_append, length_tag, length_word64]
  omega

theorem length_reply_prepareAck_le (r : Option Rank) (l : Option Layout) :
    (encode (.ok (.prepareAck r l) : Reply)).length ≤ (encode l).length + 41 := by
  have hr := length_rank?_le r
  rw [length_reply, encode_response]
  simp only [List.length_append, length_tag]
  omega

/-- A reply that tells no layout is short. -/
theorem length_reply_le {a : Response} (h : a.isReject = true ∨ a = .ack) :
    (encode (.ok a : Reply)).length ≤ 74 := by
  rw [length_reply, encode_response]
  cases a with
  | ack | alreadyBootstrapped | noBootstrap | wrongEpoch e => simp [length_tag]
  | layout | prepareAck => simp [Response.isReject] at h
  | prepareReject r =>
    have hr := length_rank?_le r
    simp only [List.length_append, length_tag]
    omega
  | proposeReject p r =>
    have hp := length_rank?_le p
    have hr := length_rank?_le r
    simp only [List.length_append, length_tag]
    omega

end Wire

variable {s : State} {es : List Event} {q : Request} {l : Layout}

theorem respond_cases (s : State) : (Snapshot.of s).respond = .noBootstrap ∨
    ∃ l ∈ s.layout, (Snapshot.of s).respond = .layout l s.epoch := by
  unfold Snapshot.respond Snapshot.of
  split
  · rename_i l hl
    split
    · exact Or.inr ⟨l, hl, rfl⟩
    · exact Or.inl rfl
  · exact Or.inl rfl

theorem handled_of_acked (h : q ∈ acked es) : ∃ o, Event.handled q o ∈ es := by
  obtain ⟨x, hx, ha⟩ := List.mem_filterMap.mp h
  cases x with
  | restarted => cases ha
  | handled p o =>
    cases o with
    | error e => cases ha
    | ok a =>
      simp only [Event.acked?] at ha
      split at ha
      · cases ha
      · obtain rfl := Option.some.inj ha
        exact ⟨_, hx⟩

/-- The layout accepted was proposed. -/
theorem proposed_of_accepted {v : Accepted} (h : History es s) (hv : v ∈ s.accepted) :
    ∃ n, .propose v.rank v.layout n ∈ acked es := by
  obtain ⟨x, hx, hxv⟩ := List.mem_filterMap.mp ((recalls_history h).accepted.1 v hv)
  obtain ⟨n, ha⟩ := Event.vote?_eq_some.mp hxv
  exact ⟨n, List.mem_filterMap.mpr ⟨x, mem_of_mem_round hx, ha⟩⟩

/-- Before the first layout nothing is committed. -/
theorem not_committed_of_clean {r : Rank} {n : UInt64} (h : History es s)
    (hb : s.bootstrapped = false) : .committed r l n ∉ acked es := by
  intro hc
  obtain ⟨x, hx, ha⟩ := List.mem_filterMap.mp hc
  rw [bootstrapped_of_acked h hx ha (by simp)] at hb
  cases hb

/-- Whether a layout was committed, or is the first one and nothing was committed since. -/
def Installed (qs : List Request) (l : Layout) : Prop :=
  (∃ r n, .committed r l n ∈ qs) ∨ .bootstrap l ∈ qs ∧ ∀ r m n, .committed r m n ∉ qs

theorem installed_append {qs more : List Request} (h : Installed qs l)
    (hmore : ∀ r m n, .committed r m n ∉ more) : Installed (qs ++ more) l := by
  rcases h with ⟨r, n, hc⟩ | ⟨hb, hn⟩
  · exact Or.inl ⟨r, n, List.mem_append_left _ hc⟩
  · refine Or.inr ⟨List.mem_append_left _ hb, fun r m n hc => ?_⟩
    rcases List.mem_append.mp hc with hc | hc
    · exact hn r m n hc
    · exact hmore r m n hc

theorem installed_of_layout (h : History es s) (hl : l ∈ s.layout) : Installed (acked es) l := by
  induction h with
  | nil => cases hl
  | @snoc es e s t h he ih =>
    rw [acked_snoc]
    rcases turn_cases he with ⟨hn, rfl⟩ | ⟨q, a, _, ha, hg⟩
    · exact installed_append (ih hl) (by rcases hn with hn | hn <;> simp [hn])
    · rw [ha, Option.toList_some]
      cases hg with
      | bootstrap hb =>
        obtain rfl := Option.some.inj hl
        refine Or.inr ⟨by simp, fun r m n hc => ?_⟩
        have hc := (List.mem_append.mp hc).resolve_right (by simp)
        exact not_committed_of_clean h hb hc
      | committed =>
        obtain rfl := Option.some.inj hl
        exact Or.inl ⟨_, _, List.mem_append_right _ (List.mem_singleton_self _)⟩
      | _ => exact installed_append (ih hl) (by simp)

/-- The requests in a list of events are short enough for a frame. -/
def Framed (es : List Event) : Prop :=
  ∀ q o, Event.handled q o ∈ es → (Wire.encode q).length ≤ Frame.limit

theorem length_le_of_acked (hes : Framed es) (h : q ∈ acked es) :
    (Wire.encode q).length ≤ Frame.limit := by
  obtain ⟨o, ho⟩ := handled_of_acked h
  exact hes q o ho

/-- A layout that came with a proposal or a commit leaves room in a frame. -/
theorem room_of_acked (hes : Framed es) {p : Rank} {n : UInt64}
    (h : .propose p l n ∈ acked es ∨ .committed p l n ∈ acked es) :
    (Wire.encode l).length + 44 ≤ Frame.limit := by
  rcases h with h | h
  · have hl := length_le_of_acked hes h
    rwa [Wire.length_request] at hl
  · have hl := length_le_of_acked hes h
    rwa [Wire.length_request] at hl

/-- The layout accepted leaves room for the reply that tells it. -/
theorem room_of_accepted (h : History es s) (hes : Framed es) :
    (Wire.encode s.acceptedLayout).length + 41 ≤ Frame.limit := by
  cases hv : s.accepted with
  | none =>
    rw [State.acceptedLayout, hv]
    decide
  | some v =>
    obtain ⟨n, hp⟩ := proposed_of_accepted h hv
    have hroom := room_of_acked hes (Or.inl hp)
    rw [State.acceptedLayout, hv, Option.map_some, Wire.length_some]
    omega

namespace Node

variable {σ : Type} [StableStore σ] {a b : Acceptor σ} {r : Response}

/-- If every request fits a frame, then so does every reply, but one: the answer to a layout query
while the layout is the first one, and its bootstrap was less than twelve bytes short of the limit. -/
theorem oversized_reply_iff (ha : a.Fresh) (h : a.Run es b) (hes : Framed es)
    (hr : ((ofAcceptor b).answer q).1 = .ok r) :
    Frame.limit < (Wire.encode (.ok r : Reply)).length ↔
      ∃ l, q = .getLayout ∧ r = .layout l b.state.epoch ∧ .bootstrap l ∈ acked es ∧
        (∀ p m n, .committed p m n ∉ acked es) ∧
        Frame.limit < (Wire.encode (Request.bootstrap l)).length + 12 := by
  have hh := (Acceptor.run_history ha h).1
  constructor
  · intro hlt
    have hshort : ¬ (r.isReject = true ∨ r = .ack) := by
      intro hc
      have hle := Wire.length_reply_le hc
      have hlim : 74 ≤ Frame.limit := by decide
      omega
    obtain ⟨c, hc⟩ : ∃ c, b.handle q = (.ok r, c) := by
      rw [answer_ofAcceptor] at hr
      exact ⟨_, Prod.ext (eq_of_reply hr) rfl⟩
    -- Only the current layout and a promise can be long. An accepted layout came with a proposal.
    cases Acceptor.handled_of_eq hc with
    | kept _ hk =>
      cases hk with
      | reject hj => exact absurd (Or.inl hj) hshort
      | query =>
        rcases respond_cases b.state with hn | ⟨l, hl, hn⟩ <;> rw [hn] at hlt hshort ⊢
        · exact absurd (Or.inl rfl) hshort
        · rw [Wire.length_reply_layout] at hlt
          rcases installed_of_layout hh hl with ⟨p, m, hi⟩ | ⟨hi, hnone⟩
          · have hroom := room_of_acked hes (Or.inr hi)
            omega
          · refine ⟨l, rfl, rfl, hi, hnone, ?_⟩
            rw [Wire.length_request]
            exact hlt
    | saved hg =>
      cases hg with
      | prepare =>
        have hroom := room_of_accepted hh hes
        have hle := Wire.length_reply_prepareAck_le b.state.acceptedRank b.state.acceptedLayout
        omega
      | _ => exact absurd (Or.inr rfl) hshort
  · rintro ⟨l, _, rfl, _, _, hlt⟩
    rw [Wire.length_request] at hlt
    rw [Wire.length_reply_layout]
    exact hlt

section First

/-- A layout of servers without names. -/
def nameless (n : Nat) : Layout := ⟨0, List.replicate n "", [], []⟩

theorem length_nameless (n : Nat) : (Wire.encode (nameless n)).length = 8 * n + 32 := by
  have hname : (Wire.encode "").length = 8 := by decide
  have hnames := Wire.length_replicate n ""
  have hempty : (Wire.encode ([] : List String)).length = 8 := by decide
  rw [nameless, Wire.encode_layout]
  simp only [List.length_append, Wire.length_word64, hnames, hname, hempty]
  omega

/-- An acceptor in memory after its bootstrap. -/
def bootstrapped (l : Layout) : Acceptor MemoryStore :=
  let s : State := ⟨true, 0, some l, none, none⟩
  ⟨s, ⟨s, false, false⟩⟩

theorem run_bootstrap (l : Layout) :
    Acceptor.Run ⟨.initial, {}⟩ [.handled (.bootstrap l) (.ok .ack)] (bootstrapped l) :=
  Acceptor.run_cons (.handled rfl rfl) .nil

theorem answer_bootstrapped (l : Layout) : (ofAcceptor (bootstrapped l)).answer .getLayout
    = (.ok (.layout l 0), ofAcceptor (bootstrapped l)) := rfl

/-- A bootstrap twelve bytes short of the limit. The layout is told in a reply of exactly the limit. -/
theorem longest_layout_told :
    let l := nameless 1048570
    (Wire.encode (Request.bootstrap l)).length + 12 = Frame.limit ∧
      ((ofAcceptor (bootstrapped l)).answer .getLayout).1 = .ok (.layout l 0) ∧
      (Wire.encode (.ok (.layout l 0) : Reply)).length ≤ Frame.limit := by
  intro l
  have hl : (Wire.encode l).length = 8 * 1048570 + 32 := length_nameless _
  have hq : (Wire.encode (Request.bootstrap l)).length = (Wire.encode l).length + 4 :=
    Wire.length_request _
  have hlimit : Frame.limit = 8388608 := rfl
  have hshort : (Wire.encode (Request.bootstrap l)).length + 12 = Frame.limit := by omega
  have hanswer : ((ofAcceptor (bootstrapped l)).answer .getLayout).1 = .ok (.layout l 0) :=
    congrArg Prod.fst (answer_bootstrapped l)
  have hframed : Framed [.handled (.bootstrap l) (.ok .ack)] := by
    intro q o ho
    obtain ⟨rfl, rfl⟩ := Event.handled.inj (List.mem_singleton.mp ho)
    omega
  refine ⟨hshort, hanswer, Nat.not_lt.mp fun hlt => ?_⟩
  obtain ⟨m, _, hm, _, _, hlong⟩ :=
    (oversized_reply_iff ⟨rfl, rfl⟩ (run_bootstrap l) hframed hanswer).mp hlt
  obtain ⟨rfl, _⟩ := Response.layout.inj hm
  omega

/-- A bootstrap four bytes short of the limit is acked, but the layout is never told: at every query
the connection is closed without a reply. -/
theorem longer_layout_not_told :
    let l := nameless 1048571
    (Wire.encode (Request.bootstrap l)).length ≤ Frame.limit ∧
      Acceptor.Run ⟨.initial, ({} : MemoryStore)⟩ [.handled (.bootstrap l) (.ok .ack)]
        (bootstrapped l) ∧
      ((ofAcceptor (bootstrapped l)).answer .getLayout).1 = .ok (.layout l 0) ∧
      Frame.limit < (Wire.encode (.ok (.layout l 0) : Reply)).length ∧
      (ofAcceptor (bootstrapped l)).serve (Frame.encode (Wire.encode Request.getLayout))
        = ([], [], true, ofAcceptor (bootstrapped l)) := by
  intro l
  have hl : (Wire.encode l).length = 8 * 1048571 + 32 := length_nameless _
  have hq : (Wire.encode (Request.bootstrap l)).length = (Wire.encode l).length + 4 :=
    Wire.length_request _
  have hr : (Wire.encode (.ok (.layout l 0) : Reply)).length = (Wire.encode l).length + 16 :=
    Wire.length_reply_layout l 0
  have hlimit : Frame.limit = 8388608 := rfl
  have hlong : Frame.limit < (Wire.encode (.ok (.layout l 0) : Reply)).length := by omega
  have hanswer := answer_bootstrapped l
  refine ⟨by omega, run_bootstrap l, congrArg Prod.fst hanswer, hlong, ?_⟩
  have hquery : (Wire.encode Request.getLayout).length ≤ Frame.limit := by decide
  have hfront := Frame.front_encode hquery []
  rw [List.append_nil] at hfront
  rw [serve_unsendable hfront rfl (by rw [hanswer]; exact hlong), hanswer]

end First

end Node
end Synod
