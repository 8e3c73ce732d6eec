import MaxNet.Lib.SerialQueue
import MaxNet.Session.WriteView

namespace MaxNet

/-- The write side works as a serial queue: the front of `msg_queue` is the message in flight, and the
    messages leave in the order of the `write()` calls. -/
structure WriteView.Refines {M : Type} (v : WriteView M) (q : SerialQueue M) : Prop where
  submitted : q.submitted = v.written
  started : q.started = v.handed ++ v.dispatched
  waiting : q.waiting = v.queue
  finished : q.finished = v.released
  flight : v.inFlight = v.queue.take 1
  distinct : v.written.Nodup
  late : v.handled = false → v.passedOn = []

namespace WriteView.Refines

variable {E M : Type} {v w : WriteView M} {q : SerialQueue M}

theorem singleton_of_dispatched (r : v.Refines q) {m : M} (member : m ∈ v.dispatched) :
    v.dispatched = [m] ∧ v.outstanding = [] ∧ ∃ rest, v.queue = m :: rest := by
  have flight := r.flight
  obtain ⟨d, ds, hd⟩ : ∃ d ds, v.dispatched = d :: ds := List.exists_cons_of_ne_nil (List.ne_nil_of_mem member)
  cases hq : v.queue with
  | nil => simp [inFlight, hd, hq] at flight
  | cons front rest =>
    simp only [inFlight, hd, hq, List.cons_append, List.take_succ_cons, List.take_zero, List.cons.injEq,
      List.append_eq_nil_iff] at flight
    rcases flight with ⟨rfl, rfl, out⟩
    rw [hd, List.mem_singleton] at member
    subst member
    exact ⟨hd, out, rest, rfl⟩

theorem singleton_of_outstanding (r : v.Refines q) {m : M} (member : m ∈ v.outstanding) :
    v.dispatched = [] ∧ v.outstanding = [m] ∧ ∃ rest, v.queue = m :: rest := by
  have flight := r.flight
  have single : v.inFlight.length ≤ 1 := by
    rw [flight, List.length_take]
    omega
  have positive := List.length_pos_of_mem member
  simp only [inFlight, List.length_append] at single
  have none : v.dispatched = [] := List.length_eq_zero_iff.mp (by omega)
  obtain ⟨o, ho⟩ := List.length_eq_one_iff.mp (show v.outstanding.length = 1 by omega)
  rw [ho, List.mem_singleton] at member
  subst member
  cases hq : v.queue with
  | nil => simp [inFlight, none, ho, hq] at flight
  | cons front rest =>
    have same : m = front := by simpa [inFlight, none, ho, hq] using flight
    exact ⟨none, ho, rest, by rw [same]⟩

theorem submit (r : v.Refines q) {m : M} (fresh : m ∉ v.written) (inIoThread : Bool)
    (idle : v.queue = []) :
    ({ v with queue := [m], written := v.written ++ [m] }.perform inIoThread m).Refines (q.submit m) := by
  have flight := r.flight
  simp only [inFlight, idle, List.take_nil, List.append_eq_nil_iff] at flight
  rcases flight with ⟨noDispatched, noOutstanding⟩
  have distinct : (v.written ++ [m]).Nodup := by
    simpa using r.distinct.concat fresh
  have waiting : q.waiting = [] := r.waiting.trans idle
  cases inIoThread <;>
    exact
      { submitted := by simp [SerialQueue.submit, perform, r.submitted]
        started := by simp [SerialQueue.submit, perform, waiting, r.started, noDispatched]
        waiting := by simp [SerialQueue.submit, perform, waiting]
        finished := by simp [SerialQueue.submit, perform, released, r.finished]
        flight := by simp [inFlight, perform, noDispatched, noOutstanding]
        distinct := by simpa [perform] using distinct
        late := by simpa [perform] using r.late }

theorem enqueue (r : v.Refines q) {m : M} (fresh : m ∉ v.written) (busy : v.queue ≠ []) :
    ({ v with queue := v.queue ++ [m], written := v.written ++ [m] } : WriteView M).Refines
      (q.submit m) := by
  have waiting : q.waiting ≠ [] := by rw [r.waiting]; exact busy
  obtain ⟨front, rest, hq⟩ := List.exists_cons_of_ne_nil busy
  exact
    { submitted := by simp [SerialQueue.submit, r.submitted]
      started := by simp [SerialQueue.submit, waiting, r.started]
      waiting := by simp [SerialQueue.submit, r.waiting]
      finished := by simp [SerialQueue.submit, released, r.finished]
      flight := by
        have flight := r.flight
        rw [hq] at flight
        simpa [inFlight, hq] using flight
      distinct := by simpa using r.distinct.concat fresh
      late := r.late }

theorem start [DecidableEq M] (r : v.Refines q) {m : M} (member : m ∈ v.dispatched) :
    ({ v with
        dispatched := v.dispatched.erase m
        outstanding := v.outstanding ++ [m]
        handed := v.handed ++ [m] } : WriteView M).Refines q := by
  obtain ⟨single, none, rest, hq⟩ := r.singleton_of_dispatched member
  exact
    { submitted := r.submitted
      started := by simpa [single] using r.started
      waiting := r.waiting
      finished := r.finished
      flight := by simp [inFlight, single, none, hq]
      distinct := r.distinct
      late := r.late }

theorem finish (r : v.Refines q) {m : M} {rest : List M}
    (none : v.dispatched = []) (queue : v.queue = m :: rest) :
    ({ v.release [m] with queue := rest, outstanding := rest.take 1, handed := v.handed ++ rest.take 1 } :
      WriteView M).Refines q.finish := by
  have waiting : q.waiting = m :: rest := r.waiting.trans queue
  have finished := release_released [m] v r.late
  exact
    { submitted := by simp [SerialQueue.finish, r.submitted]
      started := by simp [SerialQueue.finish, waiting, r.started, none]
      waiting := by simp [SerialQueue.finish, waiting]
      finished := by
        simpa [SerialQueue.finish, waiting, r.finished, released] using finished.symm
      flight := by simp [inFlight, none]
      distinct := by simpa using r.distinct
      late := by
        intro hh
        have hv : v.handled = false := by simpa using hh
        simpa [release, hv] using r.late hv }

theorem abandon (r : v.Refines q) {m : M} {rest : List M}
    (none : v.dispatched = []) (queue : v.queue = m :: rest) :
    ({ v.release (m :: rest) with queue := [], outstanding := [] } : WriteView M).Refines q.abandon := by
  have waiting : q.waiting = m :: rest := r.waiting.trans queue
  have finished := release_released (m :: rest) v r.late
  exact
    { submitted := by simp [SerialQueue.abandon, r.submitted]
      started := by simp [SerialQueue.abandon, r.started]
      waiting := by simp [SerialQueue.abandon]
      finished := by
        simpa [SerialQueue.abandon, waiting, r.finished, released] using finished.symm
      flight := by simp [inFlight, none]
      distinct := by simpa using r.distinct
      late := by
        intro hh
        have hv : v.handled = false := by simpa using hh
        simpa [release, hv] using r.late hv }

theorem done [DecidableEq M] (r : v.Refines q) {m : M} (member : m ∈ v.outstanding)
    (done : Session.WriteDone m { v with outstanding := v.outstanding.erase m } w) :
    ∃ q', w.Refines q' := by
  obtain ⟨none, single, tail, hq⟩ := r.singleton_of_outstanding member
  have finish := r.finish none hq
  have abandon := r.abandon none hq
  cases done with
  | nothing empty => simp [hq] at empty
  | last front queue =>
    obtain ⟨rfl, rfl⟩ : m = front ∧ tail = [] := by simpa [hq] using queue
    refine ⟨q.finish, ?_⟩
    cases hh : v.handled <;> simpa [release, hh, single] using finish
  | next front second rest queue =>
    obtain ⟨rfl, rfl⟩ : m = front ∧ tail = second :: rest := by simpa [hq] using queue
    refine ⟨q.finish, ?_⟩
    cases hh : v.handled <;> simpa [release, perform, hh, single] using finish
  | clear front second rest queue =>
    obtain ⟨rfl, rfl⟩ : m = front ∧ tail = second :: rest := by simpa [hq] using queue
    refine ⟨q.abandon, ?_⟩
    cases hh : v.handled <;> simpa [release, hh, single] using abandon

end WriteView.Refines

namespace Session

variable {E M : Type}

def FreshWrite (s : Session E M) : Event E M → Prop
  | .write _ m => m ∉ s.view.written
  | _ => True

def FlushesNothing (s : Session E M) (e : Event E M) : Prop := s.Flushes e → s.msgQueue = []

instance (s : Session E M) (e : Event E M) : Decidable (s.Flushes e) := by
  induction e using Event.casesOn
  case strandStep =>
    show Decidable (_ ∧ _)
    infer_instance
  all_goals exact isFalse id

instance (s : Session E M) (e : Event E M) : Decidable (s.FlushesNothing e) := by
  unfold FlushesNothing
  infer_instance

theorem initial_refines (role : Role) (inbox : List WsMessage) :
    (initial role inbox : Session E M).view.Refines SerialQueue.empty where
  submitted := rfl
  started := rfl
  waiting := rfl
  finished := rfl
  flight := rfl
  distinct := List.nodup_nil
  late := fun _ => rfl

def HandledWrites (s : Session E M) : Event E M → Prop
  | .write _ m => s.onWriteDone = true ∧ m ∉ s.view.written
  | _ => True

instance [DecidableEq M] (s : Session E M) (e : Event E M) : Decidable (s.HandledWrites e) := by
  induction e using Event.casesOn
  case write =>
    show Decidable (_ ∧ _)
    infer_instance
  all_goals exact isTrue True.intro

theorem HandledWrites.fresh {s : Session E M} {e : Event E M} (handled : s.HandledWrites e) :
    s.FreshWrite e := by
  cases e with
  | write inIoThread m => exact handled.2
  | _ => exact True.intro

def PlainWrites (s : Session E M) : Event E M → Prop
  | .setOnWriteDone => False
  | .write _ m => m ∉ s.view.written
  | _ => True

instance [DecidableEq M] (s : Session E M) (e : Event E M) : Decidable (s.PlainWrites e) := by
  induction e using Event.casesOn
  case setOnWriteDone => exact isFalse id
  case write =>
    show Decidable (_ ∉ _)
    infer_instance
  all_goals exact isTrue True.intro

theorem PlainWrites.fresh {s : Session E M} {e : Event E M} (plain : s.PlainWrites e) :
    s.FreshWrite e := by
  cases e with
  | write inIoThread m => exact plain
  | _ => exact True.intro

/-- The queue is busy exactly while one write is in flight, the one of its front. -/
structure OneWriteInFlight (s : Session E M) : Prop where
  busy_iff : s.msgQueue ≠ [] ↔ s.view.inFlight.length = 1
  front : ∀ m ∈ s.view.inFlight, s.msgQueue.head? = some m
  single : s.writes.length ≤ 1
  unreleased : ∀ m ∈ s.view.inFlight, m ∉ s.view.passedOn

theorem one_in_flight_of_refines {s : Session E M} {q : SerialQueue M} (r : s.view.Refines q) :
    s.OneWriteInFlight := by
  have flight : s.view.inFlight = s.msgQueue.take 1 := r.flight
  have front : ∀ m ∈ s.view.inFlight, s.msgQueue.head? = some m := by
    intro m member
    rw [flight] at member
    cases hq : s.msgQueue with
    | nil => simp [hq] at member
    | cons first rest =>
      have same : m = first := by simpa [hq] using member
      rw [same]
      rfl
  refine ⟨?_, front, ?_, ?_⟩
  · rw [flight]
    cases s.msgQueue <;> simp
  · have length := congrArg List.length flight
    simp only [WriteView.inFlight, List.length_append, List.length_take] at length
    change s.view.outstanding.length ≤ 1
    omega
  · intro m member passed
    have waiting : m ∈ q.waiting := by
      rw [r.waiting]
      exact List.mem_of_mem_head? (front m member)
    have distinct : q.submitted.Nodup := r.submitted ▸ r.distinct
    apply q.waiting_not_finished distinct waiting
    rw [r.finished]
    exact List.mem_append_right _ passed

variable [DecidableEq E] [DecidableEq M]

theorem step_refines {s t : Session E M} {e : Event E M} {q : SerialQueue M} (r : s.view.Refines q)
    (fresh : s.FreshWrite e) (nothing : s.FlushesNothing e) (h : s.step e = some t) :
    ∃ q', t.view.Refines q' := by
  rcases step_view h with step | ⟨flushes, same⟩
  · generalize t.view = w at step
    cases step with
    | other => exact ⟨q, r⟩
    | install =>
      exact ⟨q, { r with late := by intro hh; cases hh }⟩
    | submit inIoThread m idle => exact ⟨_, r.submit fresh inIoThread idle⟩
    | enqueue inIoThread m busy => exact ⟨_, r.enqueue fresh busy⟩
    | start m member => exact ⟨_, r.start member⟩
    | done m ec bytes w member done => exact r.done member done
  · rw [same, WriteView.flush_of_empty s.view (nothing flushes)]
    exact ⟨q, r⟩

/-! ### With a handler for finished writes -/

theorem flushed_view {s t : Session E M} {e : Event E M} (flushes : s.Flushes e)
    (h : s.step e = some t) : t.view = s.view.flush := by
  cases e with
  | strandStep =>
    obtain ⟨rest, hs⟩ := List.head?_eq_some_iff.mp flushes.1
    simp only [step, hs] at h
    cases h
    rw [view_exec_flush]
    exact if_pos flushes.2
  | _ => exact flushes.elim

theorem flush_breaks_flight {s t : Session E M} {e : Event E M} {q : SerialQueue M}
    (r : s.view.Refines q) (flushes : s.Flushes e) (h : s.step e = some t)
    (waiting : s.msgQueue ≠ []) : ¬ t.OneWriteInFlight := by
  have flushed := flushed_view flushes h
  intro good
  have busy := (one_in_flight_of_refines r).busy_iff.mp waiting
  have flight : t.view.inFlight = s.view.inFlight := by
    rw [flushed]
    simp [WriteView.flush, WriteView.inFlight]
  have queue : t.msgQueue = [] := congrArg WriteView.queue flushed
  exact good.busy_iff.mpr (flight ▸ busy) queue

/-- With a handler set before the first write, the queue and the write in flight agree in every state
    of a run if and only if the flush of `read_handler` never meets a waiting message. -/
theorem one_write_in_flight_iff (role : Role) (inbox : List WsMessage) (es : List (Event E M))
    (t : Session E M) (ran : (machine E M).run (initial role inbox) es = some t)
    (handled : (machine E M).Each HandledWrites (initial role inbox) es) :
    (machine E M).Always OneWriteInFlight (initial role inbox) es ↔
      (machine E M).Each FlushesNothing (initial role inbox) es := by
  apply Transition.System.always_iff_each (I := fun s => ∃ q, s.view.Refines q)
    (R := HandledWrites) (t := t)
  · rintro s ⟨q, r⟩
    exact one_in_flight_of_refines r
  · rintro s e t ⟨q, r⟩ handled nothing step
    exact step_refines r handled.fresh nothing step
  · rintro s e t ⟨q, r⟩ handled step good flushes
    by_contra waiting
    exact flush_breaks_flight r flushes step waiting good
  · exact ⟨_, initial_refines role inbox⟩
  · exact handled
  · exact ran

def closedWhenWritten : List (Event Unit Nat) :=
  .setOnWriteDone :: opening ++ [.write true 1, .write false 2, .written 1 .success 4, .written 2 .success 4,
    .readFailed .closed [], .strandStep, .strandStep, .strandStep]

theorem one_write_in_flight_iff_closed_when_written :
    (∃ t, (machine Unit Nat).run (initial .client []) closedWhenWritten = some t) ∧
      (machine Unit Nat).Always OneWriteInFlight (initial .client []) closedWhenWritten := by
  obtain ⟨t, final⟩ : ∃ t, (machine Unit Nat).run (initial .client []) closedWhenWritten = some t := ⟨_, rfl⟩
  exact ⟨⟨t, final⟩, (one_write_in_flight_iff .client [] closedWhenWritten t final (by decide)).mpr (by decide)⟩

def flushedInFlight : List (Event Unit Nat) :=
  .setOnWriteDone :: opening ++ [.write true 1, .readFailed .closed [], .strandStep, .strandStep]

theorem one_write_in_flight_fails :
    ¬ ∀ (role : Role) (inbox : List WsMessage) (es : List (Event Unit Nat)) (t : Session Unit Nat),
      (machine Unit Nat).run (initial role inbox) es = some t →
      (machine Unit Nat).Each HandledWrites (initial role inbox) es →
      (machine Unit Nat).Always OneWriteInFlight (initial role inbox) es := by
  intro claim
  have ran : ((machine Unit Nat).run (initial .client []) flushedInFlight).isSome = true := by decide
  obtain ⟨t, final⟩ := Option.isSome_iff_exists.mp ran
  have handled : (machine Unit Nat).Each HandledWrites (initial .client []) flushedInFlight := by decide
  have good := (claim .client [] flushedInFlight t final handled).final final
  have queue : ((machine Unit Nat).run (initial .client []) flushedInFlight).map
      (fun s => (s.msgQueue, s.view.inFlight, s.view.passedOn)) = some ([], [1], [1]) := by decide
  rw [final] at queue
  simp only [Option.map_some, Option.some.injEq, Prod.mk.injEq] at queue
  exact good.unreleased 1 (by simp [queue]) (by simp [queue])

/-! ### Without a handler for finished writes -/

theorem plain_step_unhandled {s t : Session E M} {e : Event E M} (plain : s.PlainWrites e)
    (unhandled : s.onWriteDone = false) (h : s.step e = some t) : t.onWriteDone = false := by
  rcases step_view h with step | ⟨_, same⟩
  · change t.view.handled = false
    change s.view.handled = false at unhandled
    generalize t.view = w at step
    cases step with
    | other => exact unhandled
    | install => exact plain.elim
    | submit inIoThread => cases inIoThread <;> exact unhandled
    | enqueue => exact unhandled
    | start => exact unhandled
    | done m ec bytes w member done => cases done <;> simpa [WriteView.perform] using unhandled
  · have handled := congrArg WriteView.handled same
    simp only [WriteView.flush, WriteView.release_handled] at handled
    exact handled.trans unhandled

structure WritesInOrder (s : Session E M) : Prop where
  single : s.writes.length ≤ 1
  in_order : s.view.handed.Sublist s.view.written
  freed_once : s.view.freed.Nodup
  freed_done : ∀ m ∈ s.view.freed, m ∉ s.view.inFlight
  drained : s.Idle → s.msgQueue = [] ∧ ∀ m ∈ s.view.written, s.view.freed.count m = 1

omit [DecidableEq E] in
theorem writes_in_order_of_refines {s : Session E M} {q : SerialQueue M} (r : s.view.Refines q)
    (unhandled : s.onWriteDone = false) : s.WritesInOrder := by
  have freed : s.view.freed = q.finished := by
    rw [r.finished, WriteView.released, r.late unhandled, List.append_nil]
  have distinct : q.submitted.Nodup := r.submitted ▸ r.distinct
  have one := one_in_flight_of_refines r
  refine ⟨one.single, ?_, ?_, ?_, ?_⟩
  · have begun := q.started_sublist
    rw [r.started, r.submitted] at begun
    exact (List.sublist_append_left _ _).trans begun
  · rw [freed]
    exact q.finished_nodup distinct
  · intro m gone flying
    have waiting : m ∈ q.waiting := by
      rw [r.waiting]
      exact List.mem_of_mem_head? (one.front m flying)
    exact q.waiting_not_finished distinct waiting (freed ▸ gone)
  · intro idle
    have none : s.view.inFlight = [] := by
      simp [WriteView.inFlight, view, idle.2.2.2.1, idle.2.2.2.2.1]
    have empty : s.msgQueue = [] := by
      by_contra busy
      have length := one.busy_iff.mp busy
      rw [none] at length
      cases length
    refine ⟨empty, fun m member => ?_⟩
    have all : q.finished = q.submitted := q.idle_iff.mp (r.waiting.trans empty)
    rw [freed, all, r.submitted]
    exact List.count_eq_one_of_mem r.distinct member

theorem plain_run (role : Role) (inbox : List WsMessage) (es : List (Event E M)) (t : Session E M)
    (ran : (machine E M).run (initial role inbox) es = some t)
    (plain : (machine E M).Each PlainWrites (initial role inbox) es) :
    (∃ q, t.view.Refines q) ∧ t.onWriteDone = false := by
  apply Transition.System.invariant_of_run
    (P := fun s => (∃ q, s.view.Refines q) ∧ s.onWriteDone = false) ?_ ?_ plain ran
  · rintro s e t ⟨⟨q, r⟩, unhandled⟩ plain step
    have nothing : s.FlushesNothing e := by
      intro flushes
      cases e with
      | strandStep => exact absurd (flushes.2.symm.trans unhandled) (by simp)
      | _ => exact flushes.elim
    exact ⟨step_refines r plain.fresh nothing step, plain_step_unhandled plain unhandled step⟩
  · exact ⟨⟨_, initial_refines role inbox⟩, rfl⟩

/-- Without a handler at most one write is outstanding, the stream is handed the messages in the order
    of the calls, and every message is back at the factory, once, when the session has come to rest. -/
theorem plain_writes_in_order (role : Role) (inbox : List WsMessage) (es : List (Event E M))
    (t : Session E M) (ran : (machine E M).run (initial role inbox) es = some t)
    (plain : (machine E M).Each PlainWrites (initial role inbox) es) : t.WritesInOrder := by
  obtain ⟨⟨q, r⟩, unhandled⟩ := plain_run role inbox es t ran plain
  exact writes_in_order_of_refines r unhandled

def closedAfterWrite : List (Event Unit Nat) :=
  opening ++ [.write false 1, .write true 2, .write true 3, .writeStart 1, .streamCloses,
    .written 1 .success 4]

theorem plain_writes_in_order_closed : ∃ t : Session Unit Nat,
    (machine Unit Nat).run (initial .client []) closedAfterWrite = some t ∧ t.WritesInOrder := by
  have ran : ((machine Unit Nat).run (initial .client []) closedAfterWrite).isSome = true := by decide
  obtain ⟨t, final⟩ := Option.isSome_iff_exists.mp ran
  exact ⟨t, final, plain_writes_in_order .client [] closedAfterWrite t final (by decide)⟩

end Session

end MaxNet
