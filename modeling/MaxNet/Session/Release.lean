import MaxNet.Session.WriteOrder

namespace MaxNet

/-- The books of the write side while a handler releases the messages. A write may be in flight for a
    message that has been released, but never for one that waits behind the front. -/
structure WriteView.Ledger {M : Type} (v : WriteView M) : Prop where
  order : v.passedOn ++ v.queue = v.written
  distinct : v.written.Nodup
  front : ∀ m rest, v.queue = m :: rest → m ∈ v.inFlight
  only_front : ∀ m ∈ v.inFlight, m ∈ v.queue → v.queue.head? = some m
  known : ∀ m ∈ v.inFlight, m ∈ v.written
  once : v.inFlight.Nodup
  unhandled : v.handled = false → v.written = []

namespace WriteView.Ledger

variable {M : Type} {v w : WriteView M}

theorem handled_of_waiting (l : v.Ledger) (waiting : v.queue ≠ []) : v.handled = true := by
  by_contra unhandled
  have none := l.unhandled (by simpa using unhandled)
  have empty := l.order.trans none
  exact waiting (List.append_eq_nil_iff.mp empty).2

theorem perform_nodup (inIoThread : Bool) {m : M} (once : v.inFlight.Nodup) (new : m ∉ v.inFlight) :
    (v.perform inIoThread m).inFlight.Nodup := by
  have perm : (v.perform inIoThread m).inFlight.Perm (m :: v.inFlight) := by
    cases inIoThread with
    | true =>
      simp only [perform, if_true, inFlight, ← List.append_assoc]
      exact List.perm_append_singleton m (v.dispatched ++ v.outstanding)
    | false =>
      simp [perform, inFlight]
  exact perm.nodup_iff.mpr (List.nodup_cons.mpr ⟨new, once⟩)

theorem submit (l : v.Ledger) {m : M} (fresh : m ∉ v.written) (handled : v.handled = true)
    (inIoThread : Bool) (idle : v.queue = []) :
    ({ v with queue := [m], written := v.written ++ [m] }.perform inIoThread m).Ledger := by
  have new : m ∉ v.inFlight := fun member => fresh (l.known m member)
  have order : v.passedOn = v.written := by simpa [idle] using l.order
  refine ⟨?_, ?_, ?_, ?_, ?_, ?_, ?_⟩
  · simp [order]
  · simpa using l.distinct.concat fresh
  · intro a rest hq
    simp only [perform_queue, List.cons.injEq] at hq
    exact (mem_inFlight_perform inIoThread m a _).mpr (Or.inr hq.1.symm)
  · intro a _ waiting
    simp only [perform_queue, List.mem_singleton] at waiting
    simp [waiting]
  · intro a flying
    simp only [perform_written, List.mem_append, List.mem_singleton]
    exact ((mem_inFlight_perform inIoThread m a _).mp flying).imp_left (l.known a)
  · exact perform_nodup inIoThread l.once new
  · simp [handled]

theorem enqueue (l : v.Ledger) {m : M} (fresh : m ∉ v.written) (handled : v.handled = true)
    (busy : v.queue ≠ []) :
    ({ v with queue := v.queue ++ [m], written := v.written ++ [m] } : WriteView M).Ledger := by
  obtain ⟨first, rest, hq⟩ := List.exists_cons_of_ne_nil busy
  refine ⟨?_, ?_, ?_, ?_, ?_, l.once, ?_⟩
  · change v.passedOn ++ (v.queue ++ [m]) = v.written ++ [m]
    rw [← l.order, List.append_assoc]
  · change (v.written ++ [m]).Nodup
    simpa using l.distinct.concat fresh
  · intro a tail ha
    have same : first = a := by
      change v.queue ++ [m] = a :: tail at ha
      rw [hq, List.cons_append] at ha
      exact (List.cons.inj ha).1
    exact same ▸ l.front first rest hq
  · intro a flying waiting
    change a ∈ v.queue ++ [m] at waiting
    change (v.queue ++ [m]).head? = some a
    have old : a ∈ v.queue := by
      rcases List.mem_append.mp waiting with old | new
      · exact old
      · rw [List.mem_singleton] at new
        subst new
        exact absurd (l.known a flying) fresh
    have head := l.only_front a flying old
    rw [hq] at head ⊢
    exact head
  · intro a flying
    exact List.mem_append_left _ (l.known a flying)
  · intro unhandled
    rw [handled] at unhandled
    cases unhandled

theorem start [DecidableEq M] (l : v.Ledger) {m : M} (member : m ∈ v.dispatched) :
    ({ v with
        dispatched := v.dispatched.erase m
        outstanding := v.outstanding ++ [m]
        handed := v.handed ++ [m] } : WriteView M).Ledger := by
  have perm : (v.dispatched.erase m ++ (v.outstanding ++ [m])).Perm v.inFlight := by
    have moved := (List.perm_append_singleton m (v.dispatched.erase m ++ v.outstanding))
    have back := (List.perm_cons_erase member).symm.append_right v.outstanding
    rw [← List.append_assoc]
    exact moved.trans back
  refine ⟨l.order, l.distinct, ?_, ?_, ?_, ?_, l.unhandled⟩
  · intro a rest hq
    exact perm.mem_iff.mpr (l.front a rest hq)
  · intro a flying
    exact l.only_front a (perm.mem_iff.mp flying)
  · intro a flying
    exact l.known a (perm.mem_iff.mp flying)
  · exact perm.nodup_iff.mpr l.once

/-- Once the whole queue is released, no message waits behind another one. -/
theorem flushed (order : v.passedOn ++ v.queue = v.written) (distinct : v.written.Nodup)
    (known : ∀ m ∈ v.inFlight, m ∈ v.written) (once : v.inFlight.Nodup) (handled : v.handled = true) :
    v.flush.Ledger := by
  have same : v.flush = { v with passedOn := v.passedOn ++ v.queue, queue := [] } := by
    rw [WriteView.flush, release, if_pos handled]
  rw [same]
  exact
    { order := by simpa using order
      distinct := distinct
      front := by simp
      only_front := by simp
      known := known
      once := once
      unhandled := by simp [handled] }

theorem flush (l : v.Ledger) (handled : v.handled = true) : v.flush.Ledger :=
  flushed l.order l.distinct l.known l.once handled

theorem queue_nodup (l : v.Ledger) : v.queue.Nodup := by
  have distinct := l.distinct
  rw [← l.order] at distinct
  exact distinct.of_append_right

theorem inFlight_perm [DecidableEq M] {m : M} (member : m ∈ v.outstanding) :
    v.inFlight.Perm (m :: (v.dispatched ++ v.outstanding.erase m)) :=
  ((List.perm_cons_erase member).append_left v.dispatched).trans List.perm_middle

theorem not_flying_behind (l : v.Ledger) {m : M} {rest : List M} (queue : v.queue = m :: rest) :
    ∀ x ∈ rest, x ∉ v.inFlight := by
  intro x waiting flying
  have head := l.only_front x flying (by rw [queue]; exact List.mem_cons_of_mem m waiting)
  obtain rfl : m = x := by simpa [queue] using head
  have distinct := l.queue_nodup
  rw [queue] at distinct
  exact (List.nodup_cons.mp distinct).1 waiting

/-- The front leaves the stream and is released, and the message behind it is next. -/
theorem next [DecidableEq M] (l : v.Ledger) {m second : M} {rest : List M} (member : m ∈ v.outstanding)
    (queue : v.queue = m :: second :: rest) :
    ({ ({ v with outstanding := v.outstanding.erase m } : WriteView M).release [m] with
        queue := second :: rest }.perform true second).Ledger := by
  have perm := inFlight_perm member
  have once := (List.nodup_cons.mp (perm.nodup_iff.mp l.once)).2
  have left : ∀ x ∈ v.dispatched ++ v.outstanding.erase m, x ∈ v.inFlight :=
    fun x flying => perm.mem_iff.mpr (List.mem_cons_of_mem m flying)
  have handled := l.handled_of_waiting (by simp [queue])
  have order := l.order
  have behind := l.not_flying_behind queue
  refine ⟨?_, ?_, ?_, ?_, ?_, ?_, ?_⟩ <;> simp only [release, handled, if_true]
  · simp [← order, queue]
  · simpa using l.distinct
  · intro a tail hq
    simp only [perform_queue, List.cons.injEq] at hq
    exact (mem_inFlight_perform true second a _).mpr (Or.inr hq.1.symm)
  · intro a flying waiting
    simp only [perform_queue] at waiting ⊢
    rcases (mem_inFlight_perform true second a _).mp flying with old | new
    · exact absurd (left a old) (behind a waiting)
    · rw [new]
      rfl
  · intro a flying
    simp only [perform_written]
    rcases (mem_inFlight_perform true second a _).mp flying with old | new
    · exact l.known a (left a old)
    · rw [new, ← order, queue]
      simp
  · exact perform_nodup true once fun flying => behind second (by simp) (left second flying)
  · simp

theorem done [DecidableEq M] (l : v.Ledger) {m : M} (member : m ∈ v.outstanding)
    (own : v.queue = [] ∨ v.queue.head? = some m)
    (done : Session.WriteDone m { v with outstanding := v.outstanding.erase m } w) : w.Ledger := by
  let u : WriteView M := { v with outstanding := v.outstanding.erase m }
  have perm := inFlight_perm member
  have once : u.inFlight.Nodup := (List.nodup_cons.mp (perm.nodup_iff.mp l.once)).2
  have known : ∀ x ∈ u.inFlight, x ∈ u.written :=
    fun x flying => l.known x (perm.mem_iff.mpr (List.mem_cons_of_mem m flying))
  have flushed (waiting : v.queue ≠ []) : u.flush.Ledger :=
    flushed l.order l.distinct known once (l.handled_of_waiting waiting)
  cases done with
  | nothing empty =>
    have none : v.queue = [] := empty
    exact
      { order := l.order
        distinct := l.distinct
        front := by simp [none]
        only_front := by simp [none]
        known := known
        once := once
        unhandled := l.unhandled }
  | last front queue =>
    have waiting : v.queue = [front] := queue
    obtain rfl : front = m := by simpa [waiting] using own
    have all : ({ u.release [front] with queue := [] } : WriteView M) = u.flush := by rw [WriteView.flush, queue]
    rw [all]
    exact flushed (by simp [waiting])
  | next front second rest queue =>
    have waiting : v.queue = front :: second :: rest := queue
    obtain rfl : front = m := by simpa [waiting] using own
    exact l.next member waiting
  | clear front second rest queue =>
    have waiting : v.queue = front :: second :: rest := queue
    obtain rfl : front = m := by simpa [waiting] using own
    have all : ({ u.release (front :: second :: rest) with queue := [] } : WriteView M) = u.flush := by
      rw [WriteView.flush, queue]
    rw [all]
    exact flushed (by simp [waiting])

theorem passed_of_stale (l : v.Ledger) {m : M} (member : m ∈ v.outstanding)
    (stale : v.queue.head? ≠ some m) : m ∈ v.passedOn := by
  have flying : m ∈ v.inFlight := List.mem_append_right _ member
  have known := l.known m flying
  rw [← l.order, List.mem_append] at known
  rcases known with passed | waiting
  · exact passed
  · exact absurd (l.only_front m flying waiting) stale

end WriteView.Ledger

namespace Session

variable {E M : Type}

def CompletesFront (s : Session E M) : Event E M → Prop
  | .written m _ _ => s.msgQueue = [] ∨ s.msgQueue.head? = some m
  | _ => True

instance [DecidableEq M] (s : Session E M) (e : Event E M) : Decidable (s.CompletesFront e) := by
  induction e using Event.casesOn
  case written =>
    show Decidable (_ ∨ _)
    infer_instance
  all_goals exact isTrue True.intro

theorem destroy_view {s t : Session E M} (gone : s.destroy = some t) :
    t.view = s.view.flush ∨ (t.view = s.view ∧ s.msgQueue = []) := by
  unfold destroy at gone
  split at gone
  · cases gone
    exact Or.inl (view_releaseAll s.msgQueue s rfl)
  · split at gone
    · rename_i empty
      cases gone
      exact Or.inr ⟨rfl, empty⟩
    · cases gone

theorem destroy_grows {s t : Session E M} (gone : s.destroy = some t) :
    s.view.written <+: t.view.written ∧ s.view.passedOn <+: t.view.passedOn := by
  rcases destroy_view gone with same | ⟨same, _⟩
  · rw [same]
    simp only [WriteView.flush, WriteView.release]
    split <;> simp
  · rw [same]
    exact ⟨List.prefix_rfl, List.prefix_rfl⟩

theorem initial_ledger (role : Role) (inbox : List WsMessage) :
    (initial role inbox : Session E M).view.Ledger where
  order := rfl
  distinct := List.nodup_nil
  front := nofun
  only_front := nofun
  known := nofun
  once := List.nodup_nil
  unhandled := fun _ => rfl

section Count

variable [DecidableEq M]

def ReleasedOnce (s : Session E M) : Prop := ∀ m ∈ s.view.written, s.view.passedOn.count m = 1

def ReleasedTwice (s : Session E M) : Prop := ∃ m ∈ s.view.written, 2 ≤ s.view.passedOn.count m

theorem ReleasedTwice.not_once {s : Session E M} (twice : s.ReleasedTwice) : ¬ s.ReleasedOnce := by
  rcases twice with ⟨m, known, count⟩
  intro once
  have one := once m known
  omega

theorem ReleasedTwice.grow {s t : Session E M} (twice : s.ReleasedTwice)
    (written : s.view.written <+: t.view.written) (passed : s.view.passedOn <+: t.view.passedOn) :
    t.ReleasedTwice := by
  rcases twice with ⟨m, known, count⟩
  exact ⟨m, written.subset known, count.trans (passed.sublist.count_le m)⟩

theorem idle_ledger_once {s t : Session E M} (l : s.view.Ledger) (idle : s.Idle)
    (gone : s.destroy = some t) : t.ReleasedOnce := by
  have none : s.view.inFlight = [] := by
    simp [WriteView.inFlight, view, idle.2.2.2.1, idle.2.2.2.2.1]
  have empty : s.view.queue = [] := by
    by_contra busy
    obtain ⟨m, rest, hq⟩ := List.exists_cons_of_ne_nil busy
    have flying := l.front m rest hq
    rw [none] at flying
    cases flying
  have same : t.view = s.view := by
    rcases destroy_view gone with flushed | ⟨same, _⟩
    · rw [flushed, WriteView.flush_of_empty s.view empty]
    · exact same
  have order := l.order
  rw [empty, List.append_nil] at order
  intro m known
  rw [same] at known ⊢
  rw [order]
  exact List.count_eq_one_of_mem l.distinct known

end Count

variable [DecidableEq E] [DecidableEq M]

theorem step_ledger {s t : Session E M} {e : Event E M} (l : s.view.Ledger)
    (handled : s.HandledWrites e) (own : s.CompletesFront e) (h : s.step e = some t) :
    t.view.Ledger := by
  rcases step_view h with step | ⟨flushes, same⟩
  · generalize t.view = w at step
    cases step with
    | other => exact l
    | install => exact { l with unhandled := by intro hh; cases hh }
    | submit inIoThread m idle => exact l.submit handled.2 handled.1 inIoThread idle
    | enqueue inIoThread m busy => exact l.enqueue handled.2 handled.1 busy
    | start m member => exact l.start member
    | done m ec bytes w member done => exact l.done member own done
  · rw [same]
    cases e with
    | strandStep => exact l.flush flushes.2
    | _ => exact flushes.elim

theorem step_grows {s t : Session E M} {e : Event E M} (h : s.step e = some t) :
    s.view.written <+: t.view.written ∧ s.view.passedOn <+: t.view.passedOn := by
  rcases step_view h with step | ⟨flushes, same⟩
  · generalize t.view = w at step
    cases step with
    | other => exact ⟨List.prefix_rfl, List.prefix_rfl⟩
    | install => exact ⟨List.prefix_rfl, List.prefix_rfl⟩
    | submit inIoThread m idle =>
      simp only [WriteView.perform_written, WriteView.perform_passedOn]
      exact ⟨List.prefix_append _ _, List.prefix_rfl⟩
    | enqueue inIoThread m busy => exact ⟨List.prefix_append _ _, List.prefix_rfl⟩
    | start m member => exact ⟨List.prefix_rfl, List.prefix_rfl⟩
    | done m ec bytes w member done =>
      cases done <;> simp only [WriteView.perform_written, WriteView.perform_passedOn, WriteView.release] <;>
        (try split) <;> simp
  · rw [same]
    simp only [WriteView.flush, WriteView.release]
    split <;> simp

theorem stale_step_twice {s t : Session E M} {e : Event E M} (l : s.view.Ledger)
    (stale : ¬ s.CompletesFront e) (h : s.step e = some t) : t.ReleasedTwice := by
  cases e with
  | written m ec bytes =>
    simp only [CompletesFront, not_or] at stale
    rcases stale with ⟨busy, notFront⟩
    rcases step_view h with step | ⟨flushes, _⟩
    · have grows := step_grows h
      generalize hw : t.view = w at step
      cases step with
      | other _ quiet => exact quiet.elim
      | done _ _ _ _ member done =>
        have passed := l.passed_of_stale member notFront
        have handled := l.handled_of_waiting busy
        have known : m ∈ t.view.written := grows.1.subset (l.known m (List.mem_append_right _ member))
        have again : s.view.passedOn ++ [m] <+: t.view.passedOn := by
          rw [hw]
          cases done with
          | nothing empty => exact absurd empty busy
          | last front queue => simp [WriteView.release, handled]
          | next front second rest queue => simp [WriteView.release, handled]
          | clear front second rest queue =>
            simp only [WriteView.release, handled, if_true]
            exact ⟨second :: rest, by simp⟩
        refine ⟨m, known, le_trans ?_ (again.sublist.count_le m)⟩
        have positive := List.count_pos_iff.mpr passed
        rw [List.count_append, List.count_singleton_self]
        omega
    · exact flushes.elim
  | _ => exact absurd True.intro stale

/-- With a handler set before the first write, a session that is destroyed at rest has released every
    message exactly once if and only if each completed write was the write of the front message,
    whenever messages were waiting. -/
theorem released_once_iff (role : Role) (inbox : List WsMessage) (es : List (Event E M))
    (s t : Session E M) (ran : (machine E M).run (initial role inbox) es = some s)
    (handled : (machine E M).Each HandledWrites (initial role inbox) es) (idle : s.Idle)
    (gone : s.destroy = some t) :
    t.ReleasedOnce ↔ (machine E M).Each CompletesFront (initial role inbox) es := by
  have outcome : ((machine E M).Each CompletesFront (initial role inbox) es ∧ s.view.Ledger) ∨
      (¬ (machine E M).Each CompletesFront (initial role inbox) es ∧ s.ReleasedTwice) := by
    apply Transition.System.each_or_bad (R := HandledWrites) (I := fun s => s.view.Ledger)
    · intro s e t l handled own step
      exact step_ledger l handled own step
    · intro s e t l _ stale step
      exact stale_step_twice l stale step
    · intro s e t twice step
      exact twice.grow (step_grows step).1 (step_grows step).2
    · exact initial_ledger role inbox
    · exact handled
    · exact ran
  rcases outcome with ⟨all, l⟩ | ⟨broken, twice⟩
  · exact ⟨fun _ => all, fun _ => idle_ledger_once l idle gone⟩
  · have final := twice.grow (destroy_grows gone).1 (destroy_grows gone).2
    exact ⟨fun once => absurd once final.not_once, fun all => absurd all broken⟩

theorem released_once_iff_closed_when_written : ∃ s t : Session Unit Nat,
    (machine Unit Nat).run (initial .client []) closedWhenWritten = some s ∧ s.destroy = some t ∧
      t.view.written = [1, 2] ∧ t.ReleasedOnce := by
  have observed : ((machine Unit Nat).run (initial .client []) closedWhenWritten).bind (fun s =>
      s.destroy.map fun t => (decide s.Idle, t.view.written)) = some (true, [1, 2]) := by decide
  obtain ⟨s, ran, after⟩ := Option.bind_eq_some_iff.mp observed
  obtain ⟨t, gone, seen⟩ := Option.map_eq_some_iff.mp after
  simp only [Prod.mk.injEq, decide_eq_true_eq] at seen
  rcases seen with ⟨idle, written⟩
  exact ⟨s, t, ran, gone, written,
    (released_once_iff .client [] closedWhenWritten s t ran (by decide) idle gone).mpr (by decide)⟩

def writtenAfterFlush : List (Event Unit Nat) :=
  flushedInFlight ++ [.strandStep, .write true 2, .written 1 .success 4, .written 2 .success 4]

theorem released_once_fails :
    ¬ ∀ (role : Role) (inbox : List WsMessage) (es : List (Event Unit Nat)) (s t : Session Unit Nat),
      (machine Unit Nat).run (initial role inbox) es = some s →
      (machine Unit Nat).Each HandledWrites (initial role inbox) es →
      s.Idle → s.destroy = some t → t.ReleasedOnce := by
  intro claim
  have observed : ((machine Unit Nat).run (initial .client []) writtenAfterFlush).bind (fun s =>
      s.destroy.map fun t => (decide s.Idle, t.view.written, t.view.passedOn)) =
        some (true, [1, 2], [1, 1]) := by decide
  obtain ⟨s, ran, after⟩ := Option.bind_eq_some_iff.mp observed
  obtain ⟨t, gone, seen⟩ := Option.map_eq_some_iff.mp after
  simp only [Prod.mk.injEq, decide_eq_true_eq] at seen
  rcases seen with ⟨idle, written, passed⟩
  have once := claim .client [] writtenAfterFlush s t ran (by decide) idle gone 2 (by simp [written])
  rw [passed] at once
  exact absurd once (by decide)

end Session

end MaxNet
