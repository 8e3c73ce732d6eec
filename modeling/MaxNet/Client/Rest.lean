import MaxNet.Client.Sends
import MaxNet.Session.Rest

namespace MaxNet

namespace MultiResolver

variable {E H : Type}

def work (r : MultiResolver E H) : Nat := 9 * (r.wsQueue.length + r.resolving.length)

theorem beginFront_work (r : MultiResolver E H) :
    r.beginFront.1.work ≤ r.work + 9 ∧ (r.wsQueue = [] → r.beginFront.1.work = r.work) := by
  unfold beginFront
  cases queue : r.wsQueue with
  | nil => exact ⟨Nat.le_add_right _ _, fun _ => rfl⟩
  | cons front rest =>
    refine ⟨?_, nofun⟩
    simp only [beginResolve]
    split
    · simp only [work, List.length_append, List.length_singleton]
      omega
    · exact Nat.le_add_right _ _

theorem resolve_work (url : NetUrl E) (handler : H) (r : MultiResolver E H) :
    (r.resolve url handler).1.work ≤ r.work + 18 := by
  let queued : MultiResolver E H := { r with wsQueue := r.wsQueue ++ [(url, handler)] }
  have longer : queued.work = r.work + 9 := by
    simp only [queued, work, List.length_append, List.length_singleton]
    omega
  have begun := (beginFront_work queued).1
  change (if queued.wsQueue.length < 2 then queued.beginFront else (queued, none)).1.work ≤ r.work + 18
  split
  · omega
  · change queued.work ≤ r.work + 18
    omega

theorem resolveHandler_work [DecidableEq E] [DecidableEq H] {op : ResolveOp E H} {r : MultiResolver E H}
    (member : op ∈ r.resolving) (ec : ErrorCode) (results : List E) (qelem : NetUrl E × H) :
    ({ r with resolving := r.resolving.erase op }.resolveHandler ec results qelem).1.work + 9 ≤ r.work := by
  let popped : MultiResolver E H :=
    { r with resolving := r.resolving.erase op, wsQueue := r.wsQueue.tail }
  have handled : ({ r with resolving := r.resolving.erase op }.resolveHandler ec results qelem).1.work =
      popped.beginFront.1.work := by
    unfold resolveHandler
    simp only
    split
    · rename_i begun
      simp only [popped, begun]
    · rename_i begun
      simp only [popped, begun]
      rfl
  have length : (r.resolving.erase op).length + 1 = r.resolving.length := by
    have positive := List.length_pos_of_mem member
    rw [List.length_erase_of_mem member]
    omega
  have before : popped.work = 9 * (r.wsQueue.tail.length + (r.resolving.erase op).length) := rfl
  have begun := beginFront_work popped
  rw [handled]
  cases queue : r.wsQueue with
  | nil =>
    have same := begun.2 (by simp [popped, queue])
    rw [queue] at before
    simp only [work, queue, List.tail_nil, List.length_nil] at same before ⊢
    omega
  | cons front rest =>
    rw [queue] at before
    simp only [work, queue, List.tail_cons, List.length_cons] at begun before ⊢
    omega

end MultiResolver

namespace Client

variable {E M : Type}

def sessionsWork (c : Client E M) : Nat := (c.sessions.map Session.work).sum

def work (c : Client E M) : Nat := c.sessionsWork + c.resolver.work

def Event.own : Event E M → Bool
  | .resolved _ _ _ => true
  | .session _ e => e.own
  | _ => false

def Event.cost : Event E M → Nat
  | .sessionCreate _ inbox => 3 * inbox.length + 18
  | .sessionClose => 4
  | .send _ _ => 3
  | .resolved _ _ _ => 0
  | .session _ e => e.cost

theorem work_connect {s t : Session E M} {url : NetUrl E} (h : s.connect url = some t) : t.work = s.work + 8 := by
  have view := Session.view_connect h
  simp only [Session.connect, Option.ite_none_right_eq_some, Option.some.injEq] at h
  obtain ⟨_, rfl⟩ := h
  simp only [Session.work, view]
  simp only [Session.pending, Session.log, List.length_append, List.length_singleton]
  omega

theorem doSessionConnect_work (call : Nat) (url : NetUrl E) (c : Client E M) :
    (c.doSessionConnect call url).work ≤ c.work + 8 := by
  unfold doSessionConnect
  cases c.session with
  | none => exact Nat.le_add_right _ _
  | some i =>
    have installed : ((c.sessions.modify i Session.installHandlers).map Session.work).sum = c.sessionsWork :=
      congrArg List.sum (Lists.map_modify_eq fun s _ => rfl)
    simp only
    split
    · rename_i t connected
      obtain ⟨s, found, connected⟩ := Option.bind_eq_some_iff.mp connected
      have moved := Lists.sum_map_set (f := Session.work) (b := t) found
      have more := work_connect connected
      simp only [work, sessionsWork] at installed ⊢
      omega
    · simp only [work, sessionsWork] at installed ⊢
      omega

variable [DecidableEq E] [DecidableEq M] {c d : Client E M} {e : Event E M}

omit [DecidableEq M] in
theorem sessionCreate_work (url : NetUrl E) (inbox : List WsMessage) (c : Client E M) :
    (c.sessionCreate url inbox).work ≤ c.work + (3 * inbox.length + 18) := by
  let created : Client E M := { c with
    sessions := c.sessions ++ [Session.initial .client inbox]
    session := some c.sessions.length
    requested := c.requested ++ [url] }
  have fresh : (Session.initial .client inbox : Session E M).work = 3 * inbox.length := by
    simp [Session.work, Session.pending, Session.strandWork, WriteView.work, Session.view, Session.initial]
  have before : created.work = c.work + 3 * inbox.length := by
    simp only [created, work, sessionsWork, List.map_append, List.map_cons, List.map_nil, List.sum_append, List.sum_cons,
      List.sum_nil, fresh]
    omega
  have resolving := MultiResolver.resolve_work url c.sessions.length c.resolver
  have connecting := doSessionConnect_work c.sessions.length url created
  change (if !url.isResolved then { created with resolver := (created.resolver.resolve url c.sessions.length).1 }
    else created.doSessionConnect c.sessions.length url).work ≤ _
  split
  · change created.sessionsWork + (c.resolver.resolve url c.sessions.length).1.work ≤ _
    have whole : created.work = created.sessionsWork + c.resolver.work := rfl
    omega
  · omega

omit [DecidableEq M] in
theorem resolved_work {op : ResolveOp E Nat} (member : op ∈ c.resolver.resolving) (ec : ErrorCode) (results : List E) :
    (c.resolved op ec results).work + 1 ≤ c.work := by
  have handled := MultiResolver.resolveHandler_work member ec results op.qelem
  unfold Client.resolved
  split
  · rename_i resolver call _ url same
    have less : resolver.work + 9 ≤ c.resolver.work := by rwa [same] at handled
    have connecting := doSessionConnect_work call url ({ c with resolver } : Client E M)
    have whole : ({ c with resolver } : Client E M).work = c.sessionsWork + resolver.work := rfl
    have before : c.work = c.sessionsWork + c.resolver.work := rfl
    omega
  · rename_i resolver _ same
    have less : resolver.work + 9 ≤ c.resolver.work := by rwa [same] at handled
    change c.sessionsWork + resolver.work + 1 ≤ c.sessionsWork + c.resolver.work
    omega

theorem work_close (s : Session E M) : s.close.work ≤ s.work + 4 := by
  have called : s.step .close = some s.close := rfl
  simpa [Session.Event.own, Session.Event.cost] using Session.step_work called

theorem work_write (inIoThread : Bool) (m : M) (s : Session E M) : (s.write inIoThread m).work ≤ s.work + 3 := by
  have called : s.step (.write inIoThread m) = some (s.write inIoThread m) := rfl
  simpa [Session.Event.own, Session.Event.cost] using Session.step_work called

theorem step_work (h : c.step e = some d) : d.work + (if e.own then 1 else 0) ≤ c.work + e.cost := by
  by_cases session : ∃ i e', e = .session i e'
  · obtain ⟨i, e, rfl⟩ := session
    obtain ⟨s, t, found, moved, rfl⟩ := step_session h
    have less := Session.step_work moved
    have sum := Lists.sum_map_set (f := Session.work) (b := t) found
    change ((c.sessions.set i t).map Session.work).sum + c.resolver.work + (if e.own then 1 else 0) ≤
      (c.sessions.map Session.work).sum + c.resolver.work + e.cost
    omega
  · unfold Client.step at h
    split at h
    · cases h
    · cases e with
      | sessionCreate url inbox =>
        cases h
        exact sessionCreate_work url inbox c
      | sessionClose =>
        cases h
        unfold sessionClose
        split
        · exact Nat.le_add_right _ _
        · rename_i i _
          have sum := Lists.sum_map_modify_le (f := Session.work) c.sessions i work_close
          change ((c.sessions.modify i Session.close).map Session.work).sum + c.resolver.work ≤
            (c.sessions.map Session.work).sum + c.resolver.work + 4
          omega
      | send inIoThread m =>
        cases h
        unfold Client.send
        split
        · exact Nat.le_add_right _ _
        · rename_i i _
          have sum := Lists.sum_map_modify_le (f := Session.work) c.sessions i (work_write inIoThread m)
          change ((c.sessions.modify i (Session.write inIoThread m)).map Session.work).sum + c.resolver.work ≤
            (c.sessions.map Session.work).sum + c.resolver.work + 3
          omega
      | resolved op ec results =>
        obtain ⟨member, same⟩ := Option.ite_none_right_eq_some.mp h
        cases same
        exact resolved_work member ec results
      | session i e => exact absurd ⟨i, e, rfl⟩ session

theorem drains : (machine E M).Drains Event.own work Event.cost where
  step := fun _ _ _ h => step_work h
  free := by
    intro e self
    cases e with
    | resolved op ec results => rfl
    | session i e => exact Session.drains.free e self
    | _ => cases self

/-- At rest no session has anything left to do, and no request is being resolved. -/
theorem atRest_parts (alive : c.aborted = false) (still : (machine E M).AtRest Event.own c) :
    (∀ s ∈ c.sessions, (Session.machine E M).AtRest Session.Event.own s) ∧ c.resolver.resolving = [] := by
  constructor
  · intro s member e t self taken
    obtain ⟨i, found⟩ := List.mem_iff_getElem?.mp member
    apply still (.session i e) { c with sessions := c.sessions.set i t } self
    have moved : (c.sessions[i]?.bind (Session.step · e)).map (fun t => { c with sessions := c.sessions.set i t }) =
        some { c with sessions := c.sessions.set i t } := by
      rw [found]
      exact congrArg (Option.map _) taken
    have running : ¬ c.aborted = true := by simp [alive]
    show Client.step c (.session i e) = _
    unfold Client.step
    rw [if_neg running]
    cases e with
    | connect url => cases self
    | _ => exact moved
  · apply List.eq_nil_iff_forall_not_mem.mpr
    intro op member
    apply still (.resolved op .success []) (c.resolved op .success []) rfl
    have running : ¬ c.aborted = true := by simp [alive]
    show Client.step c (.resolved op .success []) = _
    unfold Client.step
    rw [if_neg running]
    exact if_pos member

omit [DecidableEq E] [DecidableEq M] in
theorem passes_own {es : List (Event E M)} (all : ∀ e ∈ es, e.own = true) :
    ∀ c : Client E M, ∀ e ∈ es, c.Passes Session.PlainWrites e := by
  intro c e member
  have self := all e member
  cases e with
  | send inIoThread m => cases self
  | session i e =>
    intro s _
    have alone : ∀ f ∈ [e], f.own = true := List.forall_mem_singleton.mpr self
    exact Session.plain_of_own alone s e (List.mem_singleton_self e)
  | _ => exact True.intro

omit [DecidableEq E] [DecidableEq M] in
theorem unsent_of_own (self : e.own = true) : e.sent? = none ∧ e.direct = false := by
  cases e with
  | session i e => cases e <;> first | exact ⟨rfl, rfl⟩ | cases self
  | send inIoThread m => cases self
  | _ => exact ⟨rfl, rfl⟩

omit [DecidableEq E] [DecidableEq M] in
theorem sent_own {es : List (Event E M)} (all : ∀ e ∈ es, e.own = true) : es.filterMap Event.sent? = [] := by
  rw [List.filterMap_eq_nil_iff]
  intro e member
  exact (unsent_of_own (all e member)).1

omit [DecidableEq E] [DecidableEq M] in
/-- A request that is left over cannot be started. -/
theorem waiting_unfit (o : c.book.Ordered) (idle : c.resolver.resolving = []) :
    ∀ qelem ∈ c.resolver.wsQueue.head?, ¬ qelem.1.PortFits := by
  intro qelem first fits
  obtain ⟨_, _, started⟩ := MultiResolver.opFor_of_fits qelem fits
  obtain ⟨rest, queue⟩ := List.head?_eq_some_iff.mp first
  have front : c.resolver.resolving = (c.resolver.wsQueue.take 1).filterMap MultiResolver.opFor? := o.front
  rw [idle, queue] at front
  simp [started] at front

/-- The io context of a client cannot be kept busy by the client alone, whatever number of sessions it has. Without
    further calls it comes to rest. Unless an assertion has failed by then, every session is settled, every message that
    was sent is deallocated, in the order of the calls, and a host is left to be resolved only where the first has a port
    that does not fit. As for a session alone, a read to which nothing more arrives completes with an error. -/
theorem comes_to_rest (es : List (Event E M)) (c : Client E M) (ran : (machine E M).run {} es = some c)
    (plain : (machine E M).Each (Passes Session.PlainWrites) {} es) (through : ∀ e ∈ es, e.direct = false) :
    es.countP Event.own ≤ (es.map Event.cost).sum ∧
      (∃ rest d, (machine E M).run c rest = some d ∧ (∀ e ∈ rest, e.own = true) ∧ (machine E M).AtRest Event.own d) ∧
      ∀ rest d, (machine E M).run c rest = some d → (∀ e ∈ rest, e.own = true) →
        rest.length ≤ c.work ∧ ((machine E M).AtRest Event.own d → d.aborted = false →
          (∀ s ∈ d.sessions, s.Settled) ∧ (d.sessions.flatMap fun s => s.view.freed) = es.filterMap Event.sent? ∧
            ∀ qelem ∈ d.resolver.wsQueue.head?, ¬ qelem.1.PortFits) := by
  refine ⟨?_, drains.exists_rest c, ?_⟩
  · have bound := drains.run ran
    have start : ({} : Client E M).work = 0 := rfl
    omega
  · intro rest d later all
    have bound := drains.own_run later all
    refine ⟨by omega, ?_⟩
    intro still alive
    obtain ⟨resting, idle⟩ := atRest_parts alive still
    have whole : (machine E M).run {} (es ++ rest) = some d := Transition.System.run_append_some.mpr ⟨c, ran, later⟩
    have each : (machine E M).Each (Passes Session.PlainWrites) {} (es ++ rest) :=
      plain.append ran (Transition.System.each_of_forall (passes_own all))
    have settled : ∀ s ∈ d.sessions, s.Settled ∧ s.view.freed = s.view.written := by
      intro s member
      obtain ⟨inbox, fs, own, each⟩ := sessions_reached unasked_plainWrites (es ++ rest) d whole each s member
      obtain ⟨⟨q, refines⟩, unhandled⟩ := Session.plain_run .client inbox fs s own each
      have settled := Session.settled_of_rest refines unhandled (resting s member)
      have books := Session.freed_append_queue refines unhandled
      rw [settled.empty, List.append_nil] at books
      exact ⟨settled, books⟩
    refine ⟨fun s member => (settled s member).1, ?_, waiting_unfit (ordered_of_run whole) idle⟩
    have indirect : ∀ e ∈ rest, e.direct = false := fun e member => (unsent_of_own (all e member)).2
    have sent := sent_of_run whole (List.forall_mem_append.mpr ⟨through, indirect⟩) alive
    rw [List.filterMap_append, sent_own all, List.append_nil] at sent
    rw [← sent]
    apply List.flatMap_congr
    intro s member
    exact (settled s member).2

/-- Where no request is left, no assertion is left to fail. -/
theorem alive_step (alive : c.aborted = false ∧ c.resolver.resolving = []) (self : e.own = true) (h : c.step e = some d) :
    d.aborted = false ∧ d.resolver.resolving = [] := by
  cases e with
  | session i e =>
    obtain ⟨s, t, _, _, rfl⟩ := step_session h
    exact alive
  | resolved op ec results =>
    have member : op ∈ c.resolver.resolving := by
      simp only [Client.step, alive.1, Bool.false_eq_true, if_false, Option.ite_none_right_eq_some] at h
      exact h.1
    rw [alive.2] at member
    cases member
  | _ => cases self

theorem comes_to_rest_twice : ∃ c rest d, (machine Unit Nat).run {} sendsTwice = some c ∧
    (machine Unit Nat).run c rest = some d ∧ d.aborted = false ∧ (machine Unit Nat).AtRest Event.own d ∧
    (d.sessions.flatMap fun s => s.view.freed) = [1, 2, 3] := by
  obtain ⟨c, ran, start⟩ : ∃ c, (machine Unit Nat).run {} sendsTwice = some c ∧
      (c.aborted = false ∧ c.resolver.resolving = []) := ⟨_, rfl, rfl, rfl⟩
  obtain ⟨-, ⟨rest, d, later, all, still⟩, settled⟩ := comes_to_rest sendsTwice c ran (by decide) (by decide)
  have alive : d.aborted = false ∧ d.resolver.resolving = [] :=
    Transition.System.invariant_of_run (P := fun c : Client Unit Nat => c.aborted = false ∧ c.resolver.resolving = [])
      (fun _ _ _ alive self h => alive_step alive self h) start (Transition.System.each_of_forall fun _ => all) later
  exact ⟨c, rest, d, ran, later, alive.1, still, ((settled rest d later all).2 still alive.1).2.1⟩

end Client

end MaxNet
