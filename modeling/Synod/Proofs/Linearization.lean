import Synod.Proofs.Line

/-!
A running node gives the replies of one acceptor that handles the requests one after another. A
request takes its place in the order when its state is published, a layout query when it is read.
-/
namespace Synod

/-- A request with its outcome. -/
structure Served (ι : Type) where
  op : Op ι
  request : Request
  outcome : Except StorageError Response

namespace Served

variable {ι : Type}

def event (v : Served ι) : Event := .handled v.request v.outcome

def reply (v : Served ι) : Reply := Node.reply v.outcome

end Served

namespace Server

variable {ι σ : Type} {s t : Server ι σ} {c : ι} {p : Phase} {x y : Op ι} {q : Request}
  {r : Reply} {e : Act ι} {es : List (Act ι)} {settled settled' pending pending' : List (Served ι)}
  {o : Except StorageError Response}

/-- The requests that were put in line: those handled, and those in the queue. -/
def lineOf (settled pending : List (Served ι)) (queue : List (Op ι × Request)) :
    List (Op ι × Request) :=
  (settled ++ pending).map (fun v => (v.op, v.request)) ++ queue

theorem mem_lineOf {queue : List (Op ι × Request)} {v : Served ι} (hv : v ∈ settled) :
    v.op ∈ (lineOf settled pending queue).map Prod.fst :=
  List.mem_map.mpr ⟨(v.op, v.request), List.mem_append_left _ (List.mem_map_of_mem
    (f := fun v : Served ι => (v.op, v.request)) (List.mem_append_left _ hv)), rfl⟩

theorem lineOf_settled (v : Served ι) (queue : List (Op ι × Request)) :
    lineOf (settled ++ [v]) pending queue =
      settled.map (fun v => (v.op, v.request)) ++
        (v.op, v.request) :: lineOf [] pending queue := by
  simp [lineOf]

theorem lineOf_eq_append (queue : List (Op ι × Request)) :
    lineOf settled pending queue
      = settled.map (fun v => (v.op, v.request)) ++ lineOf [] pending queue := by
  simp [lineOf]

theorem map_lineOf (queue : List (Op ι × Request)) :
    (lineOf settled pending queue).map Prod.fst
      = (settled ++ pending).map Served.op ++ queue.map Prod.fst := by
  rw [lineOf, List.map_append, List.map_map]
  rfl

/-- A handled request is not in the queue, so that what precedes it in line was handled. -/
theorem precedes_handled (h : Line es s (lineOf settled pending s.queue))
    (hp : Precedes ((lineOf settled pending s.queue).map Prod.fst) x y)
    (hy : y ∈ (settled ++ pending).map Served.op) :
    Precedes ((settled ++ pending).map Served.op) x y := by
  have hnodup := h.nodup
  rw [map_lineOf] at hp hnodup
  have hq : y ∉ s.queue.map Prod.fst := fun hq => (List.nodup_append.mp hnodup).2.2 y hy y hq rfl
  rcases precedes_append_iff.mp hp with hp | ⟨_, hq'⟩ | hp
  · exact hp
  · exact absurd hq' hq
  · exact absurd (hp.subset (by simp)) hq

variable [StableStore σ] {a b : Acceptor σ}

/-- Whether a layout query stands in an order where its reply is the acceptor's own answer, and
shows the state that is saved. -/
def ReadAt (a : Acceptor σ) (order : List (Served ι)) (y : Op ι) (r : Reply) : Prop :=
  ∃ before after b, order = before ++ ⟨y, .getLayout, (b.handle .getLayout).1⟩ :: after ∧
    Acceptor.Run a (before.map Served.event) b ∧
    r = .ok (Snapshot.of (StableStore.held b.store)).respond

/-- An order of the requests handled in a run, in which one acceptor gives the same replies. -/
structure Linearization (a : Acceptor σ) (es : List (Act ι)) (s : Server ι σ)
    (order : List (Served ι)) : Prop where
  /-- The acceptor handles them in this order, with these outcomes. -/
  legal : Acceptor.Run a (order.map Served.event) s.node.acceptor
  once : (order.map Served.op).Nodup
  handled : ∀ x, x ∈ order.map Served.op ↔ ∃ e ∈ es, e.handles? = some x
  received : ∀ v ∈ order, .received v.op v.request ∈ es
  replied : ∀ e ∈ es, ∀ x r, e.reply? = some (x, r) → ∃ v ∈ order, v.op = x ∧ v.reply = r
  connection : ∀ c m n, m < n → ⟨c, n⟩ ∈ order.map Served.op →
    Precedes (order.map Served.op) ⟨c, m⟩ ⟨c, n⟩
  /-- What had its reply when a request was received, or its snapshot read, comes before it. -/
  realTime : ∀ e f x r y, Precedes es e f → e.reply? = some (x, r) → f.start? = some y →
    y ∈ order.map Served.op → Precedes (order.map Served.op) x y
  snapshot : ∀ y r, .read y r ∈ es → ReadAt a order y r

/-- The acceptor has handled the settled requests, which the snapshot shows, and then the one that
is not published yet. -/
structure Executed (a : Acceptor σ) (s : Server ι σ) (settled pending : List (Served ι)) :
    Prop where
  legal : ∃ b, Acceptor.Run a (settled.map Served.event) b ∧ s.node.published = .of b.state ∧
    Acceptor.Run b (pending.map Served.event) s.node.acceptor
  worker : match s.worker with
    | .idle => pending = []
    | .handled x o => ∃ q, pending = [⟨x, q, o⟩]
    | .published x o => pending = [] ∧ ∃ q, ⟨x, q, o⟩ ∈ settled

/-- What the acts of a run say of the requests that were handled. -/
structure Recorded (a : Acceptor σ) (es : List (Act ι)) (settled pending : List (Served ι)) :
    Prop where
  handled : ∀ x, x ∈ (settled ++ pending).map Served.op ↔ ∃ e ∈ es, e.handles? = some x
  replied : ∀ e ∈ es, ∀ x r, e.reply? = some (x, r) → ∃ v ∈ settled, v.op = x ∧ v.reply = r
  snapshot : ∀ y r, .read y r ∈ es → ReadAt a settled y r

theorem readAt_prefix (hp : settled <+: settled') (h : ReadAt a settled y r) :
    ReadAt a settled' y r := by
  obtain ⟨ext, rfl⟩ := hp
  obtain ⟨before, after, b, rfl, hb, hr⟩ := h
  exact ⟨before, after ++ ext, b, by simp, hb, hr⟩

theorem recorded_nil (a : Acceptor σ) : Recorded (ι := ι) a [] [] [] where
  handled := by simp
  replied := by simp
  snapshot := by simp

theorem recorded_snoc (h : Recorded a es settled pending) (hp : settled <+: settled')
    (hh : ∀ x, x ∈ (settled' ++ pending').map Served.op ↔
      x ∈ (settled ++ pending).map Served.op ∨ e.handles? = some x)
    (ha : ∀ x r, e.reply? = some (x, r) → ∃ v ∈ settled', v.op = x ∧ v.reply = r)
    (hs : ∀ y r, e = .read y r → ReadAt a settled' y r) :
    Recorded a (es ++ [e]) settled' pending' where
  handled x := by
    rw [hh, h.handled]
    simp [or_and_right, exists_or]
  replied f hf x r hr := by
    rcases List.mem_append.mp hf with hf | hf
    · obtain ⟨v, hv, hx⟩ := h.replied f hf x r hr
      exact ⟨v, hp.subset hv, hx⟩
    · obtain rfl := List.mem_singleton.mp hf
      exact ha x r hr
  snapshot y r hy := by
    rcases List.mem_append.mp hy with hy | hy
    · exact readAt_prefix hp (h.snapshot y r hy)
    · exact hs y r (List.mem_singleton.mp hy).symm

/-- A step that handles no request. -/
theorem recorded_keep (h : Recorded a es settled pending) (hh : e.handles? = none)
    (ha : ∀ x r, e.reply? = some (x, r) → ∃ v ∈ settled, v.op = x ∧ v.reply = r) :
    Recorded a (es ++ [e]) settled pending := by
  refine recorded_snoc h List.prefix_rfl (fun x => ?_) ha (fun y r he => ?_)
  · simp [hh]
  · subst he
    simp [Act.handles?] at hh

theorem executed_handled {l : List (Op ι × Request)} {m : σ} (h : Executed a s settled pending)
    (hw : s.worker = .idle) (hm : StableStore.held m = StableStore.held s.node.acceptor.store)
    (hh : Acceptor.handle ⟨s.node.acceptor.state, m⟩ q = (o, b)) :
    pending = [] ∧ Executed a
      { s with node := ⟨b, s.node.published⟩, queue := l, worker := .handled x o }
      settled [⟨x, q, o⟩] := by
  obtain ⟨⟨b', hb, hpub, hpend⟩, hp⟩ := h
  obtain rfl : pending = [] := by simpa [hw] using hp
  obtain rfl := Acceptor.run_nil_iff.mp hpend
  exact ⟨rfl, ⟨s.node.acceptor, hb, hpub, .snoc .nil (.handled hm hh)⟩, q, rfl⟩

theorem executed_published (h : Executed a s settled pending) (hw : s.worker = .handled x o) :
    Executed a { s with node := .ofAcceptor s.node.acceptor, worker := .published x o }
      (settled ++ pending) [] := by
  obtain ⟨⟨b, hb, _, hpend⟩, hp⟩ := h
  obtain ⟨q, rfl⟩ : ∃ q, pending = [⟨x, q, o⟩] := by simpa [hw] using hp
  refine ⟨⟨s.node.acceptor, ?_, rfl, .nil⟩, rfl, q, by simp⟩
  rw [List.map_append]
  exact Acceptor.run_append hb hpend

theorem executed_sent (h : Executed a s settled pending) (hw : s.worker = .published x o)
    (hn : t.node = s.node) (ht : t.worker = .idle) :
    (∃ v ∈ settled, v.op = x ∧ v.reply = Node.reply o) ∧ Executed a t settled pending := by
  have hp := h.worker
  simp only [hw] at hp
  obtain ⟨rfl, q, hq⟩ := hp
  exact ⟨⟨_, hq, rfl, rfl⟩, hn ▸ h.legal, by simp [ht]⟩

/-- All that was said of a run. -/
structure Tracked (a : Acceptor σ) (es : List (Act ι)) (s : Server ι σ)
    (settled pending : List (Served ι)) : Prop where
  attended : Attended es s
  line : Line es s (lineOf settled pending s.queue)
  executed : Executed a s settled pending
  recorded : Recorded a es settled pending

theorem tracked_start (a : Acceptor σ) : Tracked a [] (start a : Server ι σ) [] [] where
  attended := attended_start a
  line := line_start a
  executed := ⟨⟨a, .nil, rfl, .nil⟩, rfl⟩
  recorded := recorded_nil a

variable [DecidableEq ι]

theorem executed_read (ha : a.Settled) (h : Executed a s settled pending) (c : ι) :
    ∃ v : Served ι, v.op = s.op c ∧ v.request = .getLayout ∧
      v.reply = (s.node.answer .getLayout).1 ∧
      ReadAt a (settled ++ [v]) (s.op c) (s.node.answer .getLayout).1 ∧
      Executed a (s.setPhase c p) (settled ++ [v]) pending := by
  obtain ⟨⟨b, hb, hpub, hpend⟩, hw⟩ := h
  have hans : (s.node.answer .getLayout).1 = .ok (Snapshot.of b.state).respond := by
    rw [← hpub]
    rfl
  have hsaved : StableStore.held b.store = b.state := Acceptor.settled_run ha hb
  refine ⟨⟨s.op c, .getLayout, (b.handle .getLayout).1⟩, rfl, rfl, hans.symm, ?_,
    ⟨b, ?_, hpub, hpend⟩, ?_⟩
  · exact ⟨settled, [], b, rfl, hb, by rw [hans, hsaved]⟩
  · rw [List.map_append]
    exact .snoc hb (.handled rfl rfl)
  · change match s.worker with | .idle => _ | .handled x o => _ | .published x o => _
    split at hw
    · exact hw
    · exact hw
    · exact ⟨hw.1, hw.2.imp fun q hq => List.mem_append_left _ hq⟩

/-- A step of a connection that handles no request and puts none in line. -/
theorem tracked_keep (h : Tracked a es s settled pending) (hs : Step s e t)
    (hn : t.node = s.node) (hw : t.worker = s.worker) (hq : t.queue = s.queue)
    (hh : e.handles? = none) (he : ∀ y, e.start? = some y → ¬ s.Begun y)
    (ha : ∀ x r, e.reply? = some (x, r) → ∃ v ∈ settled, v.op = x ∧ v.reply = r) :
    Tracked a (es ++ [e]) t settled pending where
  attended := attended_step h.attended hs
  line := hq ▸ line_keep h.line hs he
  executed := ⟨hn ▸ h.executed.legal, hw ▸ h.executed.worker⟩
  recorded := recorded_keep h.recorded hh ha

theorem tracked_read (ha : a.Settled) (h : Tracked a es s settled pending)
    (hp : s.phase c = .received .getLayout) :
    ∃ v, Tracked a (es ++ [.read (s.op c) (s.node.answer .getLayout).1])
      (s.setPhase c (.replying (s.node.answer .getLayout).1)) (settled ++ [v]) pending := by
  have hs : Step s _ _ := .read hp
  obtain ⟨v, hop, hreq, hr, hread, hex⟩ := executed_read ha h.executed c
  refine ⟨v, attended_step h.attended hs, ?_, hex, ?_⟩
  · have hline := h.line
    rw [lineOf_eq_append] at hline
    change Line _ _ (lineOf _ _ s.queue)
    rw [lineOf_settled, hop, hreq]
    refine line_insert hline hs (h.attended.received c _ hp) ?_ (begun_setPhase rfl) ?_ ?_
    · exact not_begun_op (by simp [hp, Phase.begun])
    · rintro z ⟨⟩
      rfl
    · intro f hf x r hx
      obtain ⟨v, hv, rfl, _⟩ := h.recorded.replied f hf x r hx
      rw [List.map_map]
      exact List.mem_map_of_mem hv
  · refine recorded_snoc h.recorded (List.prefix_append _ _) ?_ ?_ ?_
    · intro x
      simp only [List.append_assoc, List.map_append, List.mem_append, List.map_cons, List.map_nil,
        List.mem_singleton, Act.handles?, Option.some.injEq, hop]
      tauto
    · rintro x r ⟨⟩
      exact ⟨v, by simp, hop, hr⟩
    · rintro y r ⟨⟩
      exact hread

theorem tracked_queued (h : Tracked a es s settled pending) (hp : s.phase c = .received q)
    (hq : q ≠ .getLayout) :
    Tracked a (es ++ [.queued (s.op c)])
      ({ s with queue := s.queue ++ [(s.op c, q)] }.setPhase c .waiting) settled pending := by
  have hs : Step s _ _ := .queued hp hq
  refine ⟨attended_step h.attended hs, ?_, ⟨h.executed.legal, h.executed.worker⟩,
    recorded_keep h.recorded rfl (by rintro x r ⟨⟩)⟩
  have hline := h.line
  rw [← List.append_nil (lineOf _ _ _)] at hline
  change Line _ _ (lineOf _ _ (s.queue ++ [(s.op c, q)]))
  rw [lineOf, ← List.append_assoc]
  refine line_insert hline hs (h.attended.received c q hp) ?_ ?_ ?_ ?_
  · exact not_begun_op (by simp [hp, Phase.begun])
  · exact begun_setPhase (s := { s with queue := s.queue ++ [(s.op c, q)] }) rfl
  · rintro z ⟨⟩
  · intro f hf x r hx
    obtain ⟨v, hv, rfl, _⟩ := h.recorded.replied f hf x r hx
    exact mem_lineOf hv

theorem tracked_handled {l : List (Op ι × Request)} {m : σ}
    (h : Tracked a es s settled pending) (hw : s.worker = .idle) (hq : s.queue = (x, q) :: l)
    (hm : StableStore.held m = StableStore.held s.node.acceptor.store)
    (hh : Acceptor.handle ⟨s.node.acceptor.state, m⟩ q = (o, b)) :
    Tracked a (es ++ [.handled x])
      { s with node := ⟨b, s.node.published⟩, queue := l, worker := .handled x o }
      settled [⟨x, q, o⟩] := by
  have hs : Step s _ _ := .handled hw hq hm hh
  obtain ⟨rfl, hex⟩ := executed_handled (x := x) (l := l) h.executed hw hm hh
  refine ⟨attended_step h.attended hs, ?_, hex, ?_⟩
  · have hline := line_keep h.line hs (by rintro y ⟨⟩)
    rw [hq] at hline
    simpa [lineOf] using hline
  · refine recorded_snoc h.recorded List.prefix_rfl ?_ ?_ ?_
    · intro y
      simp [Act.handles?, eq_comm]
    · rintro y r ⟨⟩
    · rintro y r ⟨⟩

theorem tracked_published (h : Tracked a es s settled pending) (hw : s.worker = .handled x o) :
    Tracked a (es ++ [.published])
      { s with node := .ofAcceptor s.node.acceptor, worker := .published x o }
      (settled ++ pending) [] := by
  have hs : Step s _ _ := .published hw
  refine ⟨attended_step h.attended hs, ?_, executed_published h.executed hw, ?_⟩
  · have hline := line_keep h.line hs (by rintro y ⟨⟩)
    simpa [lineOf] using hline
  · refine recorded_snoc h.recorded (List.prefix_append _ _) ?_ ?_ ?_
    · intro y
      simp [Act.handles?]
    · rintro y r ⟨⟩
    · rintro y r ⟨⟩

theorem tracked_sent (h : Tracked a es s settled pending) (hw : s.worker = .published x o)
    (hs : Step s (.sent x (Node.reply o)) t) (hn : t.node = s.node) (ht : t.worker = .idle)
    (hq : t.queue = s.queue) : Tracked a (es ++ [.sent x (Node.reply o)]) t settled pending := by
  obtain ⟨hv, hex⟩ := executed_sent h.executed hw hn ht
  refine ⟨attended_step h.attended hs, hq ▸ line_keep h.line hs (by rintro y ⟨⟩), hex, ?_⟩
  refine recorded_keep h.recorded rfl ?_
  rintro y r ⟨⟩
  exact hv

theorem tracked_forwarded (h : Tracked a es s settled pending) (hp : s.phase c = .replying r) :
    Tracked a (es ++ [.forwarded (s.op c) r]) (s.advance c) settled pending := by
  refine tracked_keep h (.forwarded hp) rfl rfl rfl rfl (by rintro y ⟨⟩) ?_
  rintro x r ⟨⟩
  obtain ⟨f, hf, hfr⟩ := h.attended.replying c _ hp
  exact h.recorded.replied f hf _ _ hfr

theorem tracked_step (ha : a.Settled) (h : Tracked a es s settled pending) (hs : Step s e t) :
    ∃ settled' pending', Tracked a (es ++ [e]) t settled' pending' := by
  have hstep := hs
  cases hs with
  | received hp =>
    refine ⟨_, _, tracked_keep h hstep rfl rfl rfl rfl ?_ (by rintro x r ⟨⟩)⟩
    rintro y ⟨⟩
    exact not_begun_op (by simp [hp, Phase.begun])
  | read hp =>
    obtain ⟨v, hv⟩ := tracked_read ha h hp
    exact ⟨_, _, hv⟩
  | queued hp hq => exact ⟨_, _, tracked_queued h hp hq⟩
  | handled hw hq hm hh => exact ⟨_, _, tracked_handled h hw hq hm hh⟩
  | published hw => exact ⟨_, _, tracked_published h hw⟩
  | sent hw hx => exact ⟨_, _, tracked_sent h hw hstep rfl rfl rfl⟩
  | sentToNobody hw hx => exact ⟨_, _, tracked_sent h hw hstep rfl rfl rfl⟩
  | forwarded hp => exact ⟨_, _, tracked_forwarded h hp⟩
  | dropped =>
    exact ⟨_, _, tracked_keep h hstep rfl rfl rfl rfl (by rintro y ⟨⟩) (by rintro x r ⟨⟩)⟩

theorem tracked_run (ha : a.Settled) (h : Run a es s) :
    ∃ settled pending, Tracked a es s settled pending := by
  induction h with
  | nil => exact ⟨[], [], tracked_start a⟩
  | snoc _ he ih =>
    obtain ⟨settled, pending, ht⟩ := ih
    exact tracked_step ha ht he

/-- However the steps of the connections and of the worker interleave, the replies are those of one
acceptor that handles each handled request once, in an order that respects every connection and the
time of the replies. A layout query that is answered from the snapshot has its place in it. -/
theorem linearizable (ha : a.Settled) (h : Run a es s) :
    ∃ order, Linearization a es s order := by
  obtain ⟨settled, pending, hatt, hline, ⟨⟨b, hb, _, hpend⟩, _⟩, hrec⟩ := tracked_run ha h
  have hnodup := hline.nodup
  rw [map_lineOf] at hnodup
  have hreceived : ∀ v ∈ settled ++ pending, .received v.op v.request ∈ es := by
    intro v hv
    exact hline.received (v.op, v.request) (List.mem_append_left _ (List.mem_map_of_mem hv))
  have htime : ∀ e f x r y, Precedes es e f → e.reply? = some (x, r) → f.start? = some y →
      y ∈ (settled ++ pending).map Served.op →
        Precedes ((settled ++ pending).map Served.op) x y := by
    intro e f x r y hef he hf hy
    refine precedes_handled hline (hline.precedes e f x r y hef he hf ?_) hy
    rw [map_lineOf]
    exact List.mem_append_left _ hy
  refine ⟨settled ++ pending, ?_, (List.nodup_append.mp hnodup).1, hrec.handled, hreceived,
    ?_, ?_, htime, ?_⟩
  · rw [List.map_append]
    exact Acceptor.run_append hb hpend
  · intro e he x r hr
    obtain ⟨v, hv, hx⟩ := hrec.replied e he x r hr
    exact ⟨v, List.mem_append_left _ hv, hx⟩
  · intro c m n hmn hn
    obtain ⟨v, hv, hop⟩ := List.mem_map.mp hn
    have hrecv := hreceived v hv
    rw [hop] at hrecv
    obtain ⟨e, r, he, hp⟩ := hatt.ordered c m n _ hmn hrecv
    exact htime e _ _ r _ hp he rfl hn
  · intro y r hy
    exact readAt_prefix (List.prefix_append _ _) (hrec.snapshot y r hy)

/-- A snapshot is read between the handling of a request and its publication. -/
theorem linearizable_read_before_publish :
    let a : Acceptor MemoryStore := ⟨.initial, {}⟩
    let es : List (Act Bool) :=
      [.received ⟨false, 0⟩ (.bootstrap default), .queued ⟨false, 0⟩, .handled ⟨false, 0⟩,
        .received ⟨true, 0⟩ .getLayout, .read ⟨true, 0⟩ (.ok .noBootstrap), .published,
        .sent ⟨false, 0⟩ (.ok .ack)]
    a.Settled ∧ ∃ s, Run a es s ∧ ∃ order, Linearization a es s order := by
  intro a es
  have h0 : Run a [] (start a : Server Bool MemoryStore) := .nil
  have h1 := Run.snoc h0 (.received (c := false) (q := .bootstrap default) rfl)
  have h2 := Run.snoc h1 (.queued (c := false) (q := .bootstrap default) rfl (by simp))
  have h3 := Run.snoc h2 (.handled (x := ⟨false, 0⟩) (l := []) rfl rfl rfl rfl)
  have h4 := Run.snoc h3 (.received (c := true) (q := .getLayout) rfl)
  have h5 := Run.snoc h4 (.read (c := true) rfl)
  have h6 := Run.snoc h5 (.published rfl)
  have h7 := Run.snoc h6 (.sent rfl ⟨rfl, rfl⟩)
  have hs : a.Settled := rfl
  exact ⟨hs, _, h7, linearizable hs h7⟩

end Server
end Synod
