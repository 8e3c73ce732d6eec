import Mathlib.Data.List.Flatten
import MaxNet.Client.Runs
import MaxNet.Client.Sessions
import MaxNet.Session.Delivery

namespace MaxNet

theorem Session.view_connect {E M : Type} {s t : Session E M} {url : NetUrl E} (h : s.connect url = some t) :
    t.view = s.view := by
  simp only [Session.connect, Option.ite_none_right_eq_some, Option.some.injEq] at h
  obtain ⟨_, rfl⟩ := h
  exact Session.view_log_other _ _ (by simp [Action.Writing])

/-- What was written has been deallocated or is in the queue. -/
theorem Session.freed_append_queue {E M : Type} [DecidableEq M] {s : Session E M} {q : SerialQueue M}
    (refines : s.view.Refines q) (unhandled : s.onWriteDone = false) : s.view.freed ++ s.msgQueue = s.view.written := by
  have released : q.finished = s.view.freed := by
    rw [refines.finished, WriteView.released, refines.late unhandled, List.append_nil]
  rw [← refines.submitted, q.order, released, refines.waiting]
  rfl

namespace Client

variable {E M : Type}

def Event.sent? : Event E M → Option M
  | .send _ m => some m
  | _ => none

def Event.direct : Event E M → Bool
  | .session _ (.write _ _) => true
  | _ => false

def written (c : Client E M) : List (List M) := c.sessions.map fun s => s.view.written

theorem written_modify {f : Session E M → Session E M} (same : ∀ s, (f s).view = s.view) (sessions : List (Session E M))
    (i : Nat) : ((sessions.modify i f).map fun s => s.view.written) = sessions.map fun s => s.view.written :=
  Lists.map_modify_eq fun s _ => congrArg WriteView.written (same s)

section Frames

variable (c : Client E M)

theorem written_doSessionConnect (call : Nat) (url : NetUrl E) : (c.doSessionConnect call url).written = c.written := by
  unfold doSessionConnect
  cases c.session with
  | none => rfl
  | some i =>
    have installed : ((c.sessions.modify i Session.installHandlers).map fun s => s.view.written) = c.written :=
      written_modify (f := Session.installHandlers) (fun _ => rfl) c.sessions i
    simp only
    split
    · rename_i t connected
      obtain ⟨s, found, connected⟩ := Option.bind_eq_some_iff.mp connected
      rw [← installed]
      exact Lists.map_set_eq found (congrArg WriteView.written (Session.view_connect connected))
    · exact installed

theorem written_sessionClose : c.sessionClose.written = c.written := by
  unfold sessionClose
  split
  · rfl
  · exact written_modify Session.view_close c.sessions _

theorem written_resolved [DecidableEq E] (op : ResolveOp E Nat) (ec : ErrorCode) (results : List E) :
    (c.resolved op ec results).written = c.written := by
  unfold Client.resolved
  split
  · exact written_doSessionConnect _ _ _
  · rfl

theorem written_sessionCreate [DecidableEq E] (url : NetUrl E) (inbox : List WsMessage) :
    (c.sessionCreate url inbox).written = c.written ++ [[]] := by
  let created : Client E M := { c with
    sessions := c.sessions ++ [Session.initial .client inbox]
    session := some c.sessions.length
    requested := c.requested ++ [url] }
  have fresh : created.written = c.written ++ [[]] := List.map_append
  unfold Client.sessionCreate
  split
  · exact fresh
  · exact (written_doSessionConnect created c.sessions.length url).trans fresh

end Frames

variable [DecidableEq E] [DecidableEq M] {past : List (Event E M)} {c d : Client E M} {e : Event E M}

omit [DecidableEq E] in
/-- Messages go to the session that was made last. -/
theorem written_send (last : ∀ i, c.session = some i → i + 1 = c.sessions.length) (inIoThread : Bool) (m : M)
    (alive : (c.send inIoThread m).aborted = false) :
    (c.send inIoThread m).written.flatten = c.written.flatten ++ [m] := by
  unfold Client.send at alive ⊢
  cases current : c.session with
  | none =>
    rw [current] at alive
    cases alive
  | some i =>
    have grows := Lists.flatMap_modify_last (f := Session.write inIoThread m) (g := fun s => s.view.written)
      (last i current) (Session.written_write inIoThread m)
    exact grows

theorem step_session {i : Nat} {e : Session.Event E M} (h : c.step (.session i e) = some d) :
    ∃ s t, c.sessions[i]? = some s ∧ s.step e = some t ∧ d = { c with sessions := c.sessions.set i t } := by
  unfold Client.step at h
  split at h
  · cases h
  · have taken : (c.sessions[i]?.bind (Session.step · e)).map (fun t => { c with sessions := c.sessions.set i t }) =
        some d := by
      cases e with
      | connect url => cases h
      | _ => exact h
    obtain ⟨t, moved, rfl⟩ := Option.map_eq_some_iff.mp taken
    obtain ⟨s, found, moved⟩ := Option.bind_eq_some_iff.mp moved
    exact ⟨s, t, found, moved, rfl⟩

theorem sent_step (o : c.book.Ordered) (sent : c.written.flatten = past.filterMap Event.sent?) (through : e.direct = false)
    (h : c.step e = some d) (alive : d.aborted = false) :
    d.written.flatten = (past ++ [e]).filterMap Event.sent? := by
  rw [List.filterMap_append, ← sent]
  have unsent (none : e.sent? = none) (same : d.written.flatten = c.written.flatten) :
      d.written.flatten = c.written.flatten ++ [e].filterMap Event.sent? := by
    rw [List.filterMap_cons_none none, same]
    exact (List.append_nil _).symm
  by_cases session : ∃ i e', e = .session i e'
  · obtain ⟨i, e, rfl⟩ := session
    obtain ⟨s, t, found, moved, rfl⟩ := step_session h
    rcases Session.written_step moved with same | ⟨inIoThread, m, rfl, _⟩
    · exact unsent rfl (congrArg List.flatten (Lists.map_set_eq found same))
    · cases through
  · unfold Client.step at h
    split at h
    · cases h
    · cases e with
      | sessionCreate url inbox =>
        cases h
        apply unsent rfl
        rw [written_sessionCreate, List.flatten_append]
        simp
      | sessionClose =>
        cases h
        exact unsent rfl (congrArg List.flatten c.written_sessionClose)
      | send inIoThread m =>
        cases h
        exact written_send o.current inIoThread m alive
      | resolved op ec results =>
        obtain ⟨_, same⟩ := Option.ite_none_right_eq_some.mp h
        cases same
        exact unsent rfl (congrArg List.flatten (c.written_resolved op ec results))
      | session i e => exact absurd ⟨i, e, rfl⟩ session

theorem ordered_of_run {es : List (Event E M)} (ran : (machine E M).run {} es = some c) :
    c.book.Ordered := by
  apply Transition.System.invariant_of_run (P := fun c : Client E M => c.book.Ordered) ?_ initial_ordered
    Transition.System.each_true ran
  intro c e d o _ h
  exact (ordered_step o h).2

theorem sent_of_run {es : List (Event E M)} (ran : (machine E M).run {} es = some c)
    (through : ∀ e ∈ es, e.direct = false) (alive : c.aborted = false) :
    (c.sessions.flatMap fun s => s.view.written) = es.filterMap Event.sent? := by
  have kept : c.book.Ordered ∧ (c.aborted = false → c.written.flatten = ([] ++ es).filterMap Event.sent?) := by
    refine Transition.System.history_invariant
      (I := fun past (c : Client E M) =>
        c.book.Ordered ∧ (c.aborted = false → c.written.flatten = past.filterMap Event.sent?))
      (Q := fun _ e => e.direct = false) ?_ [] ⟨initial_ordered, fun _ => rfl⟩
      (Transition.System.each_of_forall fun _ e member => through e member) ran
    rintro past c e d ⟨o, sent⟩ through h
    refine ⟨(ordered_step o h).2, ?_⟩
    have before : c.aborted = false := by
      by_contra gone
      unfold machine Client.step at h
      simp [gone] at h
    exact sent_step o (sent before) through h
  exact kept.2 alive

/-- A message that was sent is in one place, and in its place: the sessions of a client, in the order in which they were
    made, have deallocated the messages of the calls of `send()` in order, up to those that wait in their queues. What
    their streams were given are messages in the order of the calls, and a session at rest has none left. -/
theorem sends_accounted (es : List (Event E M)) (c : Client E M) (ran : (machine E M).run {} es = some c)
    (plain : (machine E M).Each (Passes Session.PlainWrites) {} es) (through : ∀ e ∈ es, e.direct = false)
    (alive : c.aborted = false) :
    (c.sessions.flatMap fun s => s.view.freed ++ s.msgQueue) = es.filterMap Event.sent? ∧
      (c.sessions.flatMap fun s => s.view.handed).Sublist (es.filterMap Event.sent?) ∧
      ∀ s ∈ c.sessions, s.writes.length ≤ 1 ∧ (s.Idle → s.msgQueue = []) := by
  have whole := sent_of_run ran through alive
  have orderly : ∀ s ∈ c.sessions, s.view.freed ++ s.msgQueue = s.view.written ∧ s.WritesInOrder := by
    intro s member
    obtain ⟨inbox, fs, own, each⟩ := sessions_reached unasked_plainWrites es c ran plain s member
    obtain ⟨⟨q, refines⟩, unhandled⟩ := Session.plain_run .client inbox fs s own each
    exact ⟨Session.freed_append_queue refines unhandled, Session.writes_in_order_of_refines refines unhandled⟩
  refine ⟨?_, ?_, ?_⟩
  · rw [← whole]
    apply List.flatMap_congr
    intro s member
    exact (orderly s member).1
  · rw [← whole]
    apply List.Sublist.flatMap_right
    intro s member
    exact (orderly s member).2.in_order
  · intro s member
    obtain ⟨_, inOrder⟩ := orderly s member
    exact ⟨inOrder.single, fun idle => (inOrder.drained idle).1⟩

instance decidablePasses (Q : Session E M → Session.Event E M → Prop) [∀ s e, Decidable (Q s e)] (c : Client E M)
    (e : Event E M) : Decidable (c.Passes Q e) :=
  match e with
  | .send inIoThread m =>
    inferInstanceAs (Decidable (∀ i ∈ c.session, ∀ s ∈ c.sessions[i]?, Q s (.write inIoThread m)))
  | .session i e => inferInstanceAs (Decidable (∀ s ∈ c.sessions[i]?, Q s e))
  | .sessionCreate _ _ | .sessionClose | .resolved _ _ _ => isTrue True.intro

def sendsTwice : List (Event Unit Nat) :=
  [.sessionCreate { hostname := ['h'], endpointSeq := [()] } [], .send true 1, .send false 2,
    .sessionCreate { hostname := ['h'], endpointSeq := [()] } [], .send true 3, .session 0 (.written 1 .success 1)]

/-- The second message still waits in the session that was replaced. -/
theorem sends_accounted_twice : ∃ c : Client Unit Nat, (machine Unit Nat).run {} sendsTwice = some c ∧
    c.sessions.length = 2 ∧ (c.sessions.flatMap fun s => s.view.freed ++ s.msgQueue) = [1, 2, 3] := by
  have observed : ∃ c, (machine Unit Nat).run {} sendsTwice = some c ∧ c.sessions.length = 2 ∧ c.aborted = false :=
    ⟨_, rfl, rfl, rfl⟩
  obtain ⟨c, ran, two, alive⟩ := observed
  have accounted := sends_accounted sendsTwice c ran (by decide) (by decide) alive
  exact ⟨c, ran, two, accounted.1⟩

end Client

end MaxNet
