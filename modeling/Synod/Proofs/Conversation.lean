import Synod.Proofs.Frames
import Synod.Proofs.Schedule

/-!
A connection on its own, from its first byte to its last: the requests that its stream begins with
are answered in order, and what follows them is without effect.
-/
namespace Synod

namespace Acceptor

variable {σ : Type} [Store σ]

/-- Handles requests in order. -/
def handleAll (a : Acceptor σ) : List Request → List (Except StorageError Response) × Acceptor σ
  | [] => ([], a)
  | q :: qs =>
    let (outcome, a) := a.handle q
    let (outcomes, a) := a.handleAll qs
    (outcome :: outcomes, a)

@[simp] theorem handleAll_nil (a : Acceptor σ) : a.handleAll [] = ([], a) := rfl

@[simp] theorem handleAll_cons (a : Acceptor σ) (q : Request) (qs : List Request) :
    a.handleAll (q :: qs) =
      ((a.handle q).1 :: ((a.handle q).2.handleAll qs).1, ((a.handle q).2.handleAll qs).2) := rfl

theorem length_handleAll (a : Acceptor σ) (qs : List Request) :
    (a.handleAll qs).1.length = qs.length := by
  induction qs generalizing a with
  | nil => rfl
  | cons q qs ih => simp [ih]

theorem handleAll_append (a : Acceptor σ) (qs rs : List Request) :
    a.handleAll (qs ++ rs) = ((a.handleAll qs).1 ++ ((a.handleAll qs).2.handleAll rs).1,
      ((a.handleAll qs).2.handleAll rs).2) := by
  induction qs generalizing a with
  | nil => rfl
  | cons q qs ih => simp [ih]

/-- The outcome of one of several requests is that of the acceptor which those before it leave. -/
theorem getElem?_handleAll (a : Acceptor σ) (qs : List Request) (q : Request) (rs : List Request) :
    (a.handleAll (qs ++ q :: rs)).1[qs.length]? = some ((a.handleAll qs).2.handle q).1 := by
  rw [handleAll_append, ← a.length_handleAll qs]
  simp

end Acceptor

namespace Node

variable {σ : Type} [Store σ] {n k : Node σ} {stream body rest : Bytes} {q : Request}

/-- The frame that reports an outcome. -/
def frame (o : Except StorageError Response) : Bytes := Frame.encode (Wire.encode (reply o))

/-- Between requests, a layout query is answered as by the acceptor. -/
theorem answer_ofAcceptor (a : Acceptor σ) (q : Request) :
    (ofAcceptor a).answer q = (reply (a.handle q).1, ofAcceptor (a.handle q).2) := by
  cases q with
  | getLayout =>
    rw [Acceptor.handle_getLayout]
    rfl
  | _ => rfl

section Serve

theorem take_undecodable {e : WireError}
    (hd : (Wire.decode body : Except WireError Request) = .error e) : n.take body = (none, n) := by
  rw [take, hd]

theorem take_request (hd : Wire.decode body = .ok q) :
    n.take body = (frame? (n.answer q).1, (n.answer q).2) := by
  rw [take, hd]

theorem serve_unfinished (h : Frame.front stream = .unfinished) :
    n.serve stream = ([], stream, false, n) := by
  rw [serve, Frame.each_unfinished h]
  rfl

theorem serve_oversized (h : Frame.front stream = .oversized) :
    n.serve stream = ([], [], true, n) := by
  rw [serve, Frame.each_oversized h]
  rfl

/-- A connection is closed at a frame for which nothing is written. -/
theorem serve_none (h : Frame.front stream = .frame body rest) (ht : n.take body = (none, k)) :
    n.serve stream = ([], [], true, k) := by
  simp only [serve, Frame.each_frame h, StateT.run_bind, StateT.run_modifyGet, ht]
  rfl

theorem serve_some {out : Bytes} (h : Frame.front stream = .frame body rest)
    (ht : n.take body = (some out, k)) :
    n.serve stream = (out :: (k.serve rest).1, (k.serve rest).2) := by
  simp only [serve, Frame.each_frame h, StateT.run_bind, StateT.run_modifyGet, ht]
  rfl

theorem serve_undecodable {e : WireError} (h : Frame.front stream = .frame body rest)
    (hd : (Wire.decode body : Except WireError Request) = .error e) :
    n.serve stream = ([], [], true, n) :=
  serve_none h (take_undecodable hd)

theorem serve_unsendable (h : Frame.front stream = .frame body rest) (hd : Wire.decode body = .ok q)
    (hl : Frame.limit < (Wire.encode (n.answer q).1).length) :
    n.serve stream = ([], [], true, (n.answer q).2) :=
  serve_none h (by rw [take_request hd, frame?, if_pos hl])

theorem serve_request (h : Frame.front stream = .frame body rest) (hd : Wire.decode body = .ok q)
    (hl : (Wire.encode (n.answer q).1).length ≤ Frame.limit) :
    n.serve stream =
      (Frame.encode (Wire.encode (n.answer q).1) :: ((n.answer q).2.serve rest).1,
        ((n.answer q).2.serve rest).2) :=
  serve_some h (by rw [take_request hd, frame?, if_neg (Nat.not_lt.mpr hl)])

/-- A connection that is still open has taken every complete frame. -/
theorem front_left (h : (n.serve stream).2.2.1 = false) :
    Frame.front (n.serve stream).2.1 = .unfinished := by
  induction stream using Frame.bodies.induct generalizing n with
  | case1 stream body rest hf _ ih =>
    rcases ht : n.take body with ⟨_ | out, k⟩
    · rw [serve_none hf ht] at h
      cases h
    · rw [serve_some hf ht] at h ⊢
      exact ih h
  | case2 stream hf =>
    rw [serve_oversized hf] at h
    cases h
  | case3 stream hf =>
    rw [serve_unfinished hf]
    exact hf

/-- What arrives later is answered after what is left, unless the connection was closed. -/
theorem serve_append (n : Node σ) (stream more : Bytes) :
    n.serve (stream ++ more) =
      if (n.serve stream).2.2.1 then n.serve stream
      else
        let after := (n.serve stream).2.2.2.serve ((n.serve stream).2.1 ++ more)
        ((n.serve stream).1 ++ after.1, after.2) := by
  induction stream using Frame.bodies.induct generalizing n with
  | case1 stream body rest hf _ ih =>
    have hfront := Frame.front_frame_append hf more
    rcases ht : n.take body with ⟨_ | out, k⟩
    · rw [serve_none hfront ht, serve_none hf ht, if_pos rfl]
    · rw [serve_some hfront ht, serve_some hf ht, ih]
      dsimp only
      split <;> rfl
  | case2 stream hf =>
    rw [serve_oversized (Frame.front_oversized_append hf more), serve_oversized hf, if_pos rfl]
  | case3 stream hf => simp [serve_unfinished hf]

end Serve

/-- A connection whose bytes arrive in pieces, up to its end: the frames written. What is left of the
bytes waits for the next piece. -/
def converse (n : Node σ) (left : Bytes) : List Bytes → List Bytes × Node σ
  | [] => ([], n)
  | piece :: pieces =>
    let (frames, left, closed, n) := n.serve (left ++ piece)
    if closed then (frames, n)
    else
      let (more, n) := n.converse left pieces
      (frames ++ more, n)

/-- Into what pieces the bytes are cut makes no difference. -/
theorem converse_eq {left : Bytes} (h : Frame.front left = .unfinished) (pieces : List Bytes) :
    n.converse left pieces =
      ((n.serve (left ++ pieces.flatten)).1, (n.serve (left ++ pieces.flatten)).2.2.2) := by
  induction pieces generalizing n left with
  | nil =>
    rw [List.flatten_nil, List.append_nil, serve_unfinished h]
    rfl
  | cons piece pieces ih =>
    rw [List.flatten_cons, ← List.append_assoc, serve_append]
    simp only [converse]
    -- A closed connection takes nothing more; an open one goes on from what is left.
    split
    · rfl
    · rename_i ho
      rw [ih (front_left (Bool.not_eq_true _ |>.mp ho))]

/-- Where no request follows, nothing is written and nothing changes. -/
theorem serve_of_stuck (h : Stuck Request stream) :
    (n.serve stream).1 = [] ∧ (n.serve stream).2.2.2 = n := by
  cases hf : Frame.front stream with
  | unfinished => simp [serve_unfinished hf]
  | oversized => simp [serve_oversized hf]
  | frame body rest =>
    cases hd : (Wire.decode body : Except WireError Request) with
    | ok q => exact absurd hd (h body rest hf q)
    | error e => simp [serve_undecodable hf hd]

/-- Whether the reply that reports an outcome fits a frame. -/
def Sendable (o : Except StorageError Response) : Prop :=
  (Wire.encode (reply o)).length ≤ Frame.limit

/-- The requests in front of a stream are answered in order, as by the acceptor. -/
theorem serve_of_carries {a : Acceptor σ} {qs : List Request} (h : Carries stream qs rest)
    (hs : ∀ o ∈ (a.handleAll qs).1, Sendable o) :
    (ofAcceptor a).serve stream =
      ((a.handleAll qs).1.map frame ++ ((ofAcceptor (a.handleAll qs).2).serve rest).1,
        ((ofAcceptor (a.handleAll qs).2).serve rest).2) := by
  induction h generalizing a with
  | nil => rfl
  | @cons body stream rest q qs hl hq _ ih =>
    rw [Acceptor.handleAll_cons] at hs ⊢
    obtain ⟨ho, htail⟩ := List.forall_mem_cons.mp hs
    have hanswer := answer_ofAcceptor a q
    have hout : (Wire.encode ((ofAcceptor a).answer q).1).length ≤ Frame.limit := by
      rw [hanswer]
      exact ho
    rw [serve_request (Frame.front_encode hl stream) hq hout, hanswer, ih htail]
    rfl

/-- Frames of replies are read back as the replies. -/
theorem carries_frames {os : List (Except StorageError Response)} (h : ∀ o ∈ os, Sendable o) :
    Carries (os.map frame).flatten (os.map reply) [] := by
  have hflat : (os.map frame).flatten
      = (os.map reply).flatMap fun r => Frame.encode (Wire.encode r) := by
    rw [List.flatMap_map, List.flatMap_def]
    rfl
  rw [hflat]
  refine carries_encode fun r hr => ?_
  obtain ⟨o, ho, rfl⟩ := List.mem_map.mp hr
  exact h o ho

/-- A connection answers the longest run of frames of requests that its stream begins with. They are
handled in order, as one acceptor handles them, and each is answered with one frame; the bytes after
them change neither the frames nor the node. The run for the frames of a list of requests is the
list. -/
theorem answers_leading_requests (a : Acceptor σ) (stream : Bytes) :
    (∃ qs : List Request, Leads stream qs) ∧
      (∀ qs, Leads stream qs → (∀ o ∈ (a.handleAll qs).1, Sendable o) →
        (a.handleAll qs).1.length = qs.length ∧
          Carries ((a.handleAll qs).1.map frame).flatten ((a.handleAll qs).1.map reply) [] ∧
          ∀ pieces, pieces.flatten = stream → (ofAcceptor a).converse [] pieces
            = ((a.handleAll qs).1.map frame, ofAcceptor (a.handleAll qs).2)) ∧
      ∀ qs : List Request, (∀ q ∈ qs, (Wire.encode q).length ≤ Frame.limit) →
        stream = (qs.flatMap fun q => Frame.encode (Wire.encode q)) → Leads stream qs := by
  refine ⟨exists_leads Request stream, fun qs hqs hs => ⟨a.length_handleAll qs, carries_frames hs, ?_⟩,
    fun qs hl he => he ▸ leads_of_carries (carries_encode hl) stuck_nil⟩
  rintro pieces rfl
  obtain ⟨rest, hc, hstuck⟩ := stuck_of_leads hqs
  obtain ⟨hnone, hsame⟩ := serve_of_stuck (n := ofAcceptor (a.handleAll qs).2) hstuck
  rw [converse_eq rfl, List.nil_append, serve_of_carries hc hs, hnone, hsame, List.append_nil]

/-- Two requests, the second with a byte to spare in its frame. A frame that is no request follows, and
the frame of a request that is never handled. -/
theorem answers_leading_requests_before_garbage :
    let l : Layout := ⟨3, ["a"], [], []⟩
    let a : Acceptor MemoryStore := ⟨.initial, {}⟩
    let good := Frame.encode (Wire.encode (Request.bootstrap l))
      ++ Frame.encode (Wire.encode Request.getLayout ++ [9])
    let bad := Frame.encode [255] ++ Frame.encode (Wire.encode (Request.setEpoch 5))
    Leads (good ++ bad) [Request.bootstrap l, .getLayout] ∧
      ∃ frames n, (ofAcceptor a).converse [] [good.take 2, good.drop 2 ++ bad] = (frames, n) ∧
        Carries frames.flatten [(.ok .ack : Reply), .ok (.layout l 0)] [] ∧
        n.published = ⟨true, 0, some l⟩ := by
  intro l a good bad
  have hq : (Wire.decode (Wire.encode (Request.bootstrap l)) : Except WireError Request)
      = .ok (.bootstrap l) := by
    have hd := Wire.decode_encode (a := Request.bootstrap l) (LawfulWire.fits_of_length (by decide)) []
    rwa [List.append_nil] at hd
  have hcarries : Carries (good ++ bad) [Request.bootstrap l, .getLayout] bad := by
    rw [List.append_assoc]
    exact .cons (by decide) hq (.cons (by decide) rfl .nil)
  have hstuck : Stuck Request bad := by
    intro body rest hf q hd
    rw [Frame.front_encode (by decide)] at hf
    obtain ⟨rfl, rfl⟩ := Frame.Front.frame.inj hf
    cases hd
  have hleads := leads_of_carries hcarries hstuck
  have hsend : ∀ o ∈ (a.handleAll [.bootstrap l, .getLayout]).1, Sendable o := by
    simp only [Sendable]
    decide
  obtain ⟨_, hframes, hconverse⟩ := (answers_leading_requests a (good ++ bad)).2.1 _ hleads hsend
  refine ⟨hleads, _, _, hconverse _ ?_, hframes, rfl⟩
  rw [List.flatten_cons, List.flatten_singleton, ← List.append_assoc, List.take_append_drop]

end Node
end Synod
