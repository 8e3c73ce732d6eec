import MaxNet.Session.Frames

namespace MaxNet

def Action.isAsyncRead {M : Type} : Action M → Bool
  | asyncRead => true
  | _ => false

namespace Session

variable {E M : Type}

def readsStarted (s : Session E M) : Nat := s.trace.countP Action.isAsyncRead

structure Control where
  role : Role
  accepts : Nat
  status : StatusCode
  strand : List Stmt
  started : Nat

def Control.exec (c : Control) : Stmt → Control
  | .statusSet cd => { c with status := cd }
  | .performRead => if c.status = .online then { c with started := c.started + 1 } else c
  | _ => c

def control (s : Session E M) : Control where
  role := s.role
  accepts := s.accepts
  status := s.status
  strand := s.readStrand
  started := s.readsStarted

theorem control_log (a : Action M) (s : Session E M) (other : a.isAsyncRead = false) :
    (s.log a).control = s.control := by
  simp [control, readsStarted, log, other]

theorem writeBlind_control : WriteBlind (control : Session E M → Control) where
  log := by
    intro a s writing
    apply control_log
    cases a <;> first | rfl | exact writing.elim
  msgQueue := fun _ _ => rfl
  writeStarts := fun _ _ => rfl
  writes := fun _ _ => rfl
  stats := fun _ _ => rfl

theorem control_callOnReady (ec : ErrorCode) (s : Session E M) : (s.callOnReady ec).control = s.control := by
  unfold callOnReady
  split
  · exact control_log _ _ rfl
  · rfl

theorem control_callOnRead (ec : ErrorCode) (message : Option (List UInt8)) (bytes : Nat) (s : Session E M) :
    (s.callOnRead ec message bytes).control = s.control := by
  unfold callOnRead
  split
  · exact control_log _ _ rfl
  · rfl

theorem control_exec (s : Session E M) (stmt : Stmt) : (s.exec stmt).control = s.control.exec stmt := by
  cases stmt with
  | statusSet cd => rfl
  | disableStats => rfl
  | callOnReady ec => exact control_callOnReady ec s
  | performRead =>
    simp only [exec, performRead, Control.exec]
    change (if s.status = .online then ({ s with reads := s.reads + 1 }.log .asyncRead : Session E M) else s).control =
      if s.status = .online then { s.control with started := s.readsStarted + 1 } else s.control
    split
    · simp [control, readsStarted, log, Action.isAsyncRead]
    · rfl
  | deliver bytes => exact control_callOnRead _ _ _ _
  | consume bytes => rfl
  | flushQueue =>
    simp only [exec]
    split
    · exact writeBlind_control.releaseAll _ _
    · rfl
  | callOnRead ec bytes => exact control_callOnRead _ _ _ _

theorem control_enter (stmt : Stmt) (rest : List Stmt) (s : Session E M) :
    (s.enter (stmt :: rest)).control = { s.control.exec stmt with strand := rest } := by
  change ({ s.exec stmt with readStrand := rest } : Session E M).control = _
  rw [← control_exec]
  rfl

theorem control_close (s : Session E M) : s.close.control = s.control := by
  unfold close
  simp only
  split <;> rfl

theorem control_closeHandler (ec : ErrorCode) (s : Session E M) :
    (s.closeHandler ec).control = { s.control with status := .offline } := by
  unfold closeHandler
  simp only
  split <;> split <;>
    first
    | rfl
    | exact control_log _ _ rfl

theorem control_connectHandler (ec : ErrorCode) (url : NetUrl E) (s : Session E M) :
    (s.connectHandler ec url).control = s.control ∨
      (s.connectHandler ec url).control = { s.control with status := .aborted } := by
  unfold connectHandler
  split
  · exact Or.inl (control_log _ _ rfl)
  · exact Or.inr (control_callOnReady ec _)

namespace Control

structure Steady (c : Control) : Prop where
  client : c.role = .client
  unaccepted : c.accepts = 0
  strand : .statusSet .online ∉ c.strand

structure Barred (started : Nat) (c : Control) : Prop where
  status : c.status ≠ .online
  reads : c.started = started

theorem exec_frame (c : Control) (stmt : Stmt) :
    (c.exec stmt).role = c.role ∧ (c.exec stmt).accepts = c.accepts ∧ (c.exec stmt).strand = c.strand := by
  cases stmt with
  | performRead =>
    simp only [exec]
    split <;> exact ⟨rfl, rfl, rfl⟩
  | _ => exact ⟨rfl, rfl, rfl⟩

theorem Steady.exec {c : Control} (steady : c.Steady) (stmt : Stmt) : (c.exec stmt).Steady := by
  obtain ⟨role, accepts, strand⟩ := exec_frame c stmt
  exact ⟨role.trans steady.client, accepts.trans steady.unaccepted, strand ▸ steady.strand⟩

theorem Steady.enter {c : Control} (steady : c.Steady) (stmt : Stmt) {rest : List Stmt}
    (never : .statusSet .online ∉ rest) : ({ c.exec stmt with strand := rest } : Control).Steady where
  client := (steady.exec stmt).client
  unaccepted := (steady.exec stmt).unaccepted
  strand := never

theorem Barred.exec {started : Nat} {c : Control} (barred : c.Barred started) {stmt : Stmt}
    (never : stmt ≠ .statusSet .online) : (c.exec stmt).Barred started := by
  cases stmt with
  | statusSet cd => exact ⟨fun online => never (congrArg Stmt.statusSet online), barred.reads⟩
  | performRead =>
    unfold Control.exec
    rw [if_neg barred.status]
    exact barred
  | _ => exact barred

theorem Barred.enter {started : Nat} {c : Control} (barred : c.Barred started) {stmt : Stmt}
    (never : stmt ≠ .statusSet .online) (rest : List Stmt) :
    ({ c.exec stmt with strand := rest } : Control).Barred started where
  status := (barred.exec never).status
  reads := (barred.exec never).reads

end Control

theorem handshakeHandler_split (ec : ErrorCode) : ∃ stmt rest, handshakeHandler ec = stmt :: rest ∧
    .statusSet .online ∉ rest ∧ (ec.failed = true → stmt ≠ .statusSet .online) := by
  unfold handshakeHandler
  split
  · exact ⟨_, _, rfl, by simp, by simp⟩
  · rename_i succeeded
    exact ⟨_, _, rfl, by simp, fun failed => absurd failed succeeded⟩

theorem readHandler_split (ec : ErrorCode) (bytes : Nat) : ∃ stmt rest, readHandler ec bytes = stmt :: rest ∧
    .statusSet .online ∉ rest ∧ stmt ≠ .statusSet .online := by
  unfold readHandler
  split
  · exact ⟨_, _, rfl, by simp, by simp⟩
  · split
    · exact ⟨_, _, rfl, by simp, by simp⟩
    · exact ⟨_, _, rfl, by simp, by simp⟩

def FailsHandshake : Event E M → Prop
  | .handshaken ec => ec.failed = true
  | _ => True

/-- A client session goes online, and starts to read, by no other way than a handshake that succeeds. -/
theorem step_control [DecidableEq E] [DecidableEq M] {s t : Session E M} {e : Event E M}
    (h : s.step e = some t) (steady : s.control.Steady) :
    t.control.Steady ∧
      ∀ started, FailsHandshake e → s.control.Barred started → t.control.Barred started := by
  have same {e : Event E M} (kept : t.control = s.control) : t.control.Steady ∧
      ∀ started, FailsHandshake e → s.control.Barred started → t.control.Barred started :=
    ⟨kept ▸ steady, fun started _ barred => kept ▸ barred⟩
  have reset {e : Event E M} {cd : StatusCode} (kept : t.control = { s.control with status := cd })
      (other : cd ≠ .online) : t.control.Steady ∧
        ∀ started, FailsHandshake e → s.control.Barred started → t.control.Barred started := by
    rw [kept]
    exact ⟨⟨steady.client, steady.unaccepted, steady.strand⟩, fun _ _ barred => ⟨other, barred.reads⟩⟩
  cases step_cases h with
  | setOnReady => exact same rfl
  | setOnRead => exact same rfl
  | setOnClose => exact same rfl
  | setOnWriteDone => exact same rfl
  | connect url => exact reset (control_log .connect _ rfl) (by simp)
  | accept server => exact absurd (server.symm.trans steady.client) (by simp)
  | write inIoThread m => exact same (writeBlind_control.write inIoThread m s)
  | close => exact same (control_close s)
  | connected url ec =>
    rcases control_connectHandler ec url { s with connects := s.connects.erase url } with kept | aborted
    · exact same kept
    · exact reset aborted (by simp)
  | handshaken ec =>
    obtain ⟨stmt, rest, body, never, failing⟩ := handshakeHandler_split ec
    rw [body, control_enter]
    exact ⟨steady.enter stmt never, fun started failed barred => barred.enter (failing failed) rest⟩
  | accepted ec positive =>
    have none : s.accepts = 0 := steady.unaccepted
    omega
  | writeStart m => exact same (control_log _ _ rfl)
  | written m ec bytes => exact same (writeBlind_control.writeCompleteHandler _ _ _)
  | received pieces message rest next positive free whole =>
    obtain ⟨stmt, rest, body, never, other⟩ := readHandler_split .success message.payload.length
    rw [body, control_enter]
    exact ⟨steady.enter stmt never, fun started _ barred => barred.enter other rest⟩
  | readFailed ec pieces positive free failed =>
    obtain ⟨stmt, rest, body, never, other⟩ := readHandler_split ec pieces.flatten.length
    rw [body, control_enter]
    exact ⟨steady.enter stmt never, fun started _ barred => barred.enter other rest⟩
  | strandStep stmt rest busy =>
    have absent : .statusSet .online ∉ stmt :: rest := busy ▸ steady.strand
    rw [List.mem_cons, not_or] at absent
    rw [control_exec]
    have next : ({ s with readStrand := rest } : Session E M).control.Steady :=
      ⟨steady.client, steady.unaccepted, absent.2⟩
    refine ⟨next.exec stmt, fun started _ barred => ?_⟩
    have before : ({ s with readStrand := rest } : Session E M).control.Barred started :=
      ⟨barred.status, barred.reads⟩
    exact before.exec (Ne.symm absent.1)
  | closeStart => exact same (control_log _ _ rfl)
  | closed ec => exact reset (control_closeHandler ec _) (by simp)
  | closeTimerExpires => exact same rfl
  | closeTimerFires wait ec =>
    apply same ?_
    unfold closeTimeout
    split <;> rfl
  | streamCloses => exact same rfl

theorem initial_steady (inbox : List WsMessage) :
    (initial .client inbox : Session E M).control.Steady := ⟨rfl, rfl, by simp [control, initial]⟩

variable [DecidableEq E] [DecidableEq M]

theorem steady_of_run (inbox : List WsMessage) (es : List (Event E M)) (s : Session E M)
    (ran : (machine E M).run (initial .client inbox) es = some s) : s.control.Steady := by
  apply Transition.System.invariant_of_run (P := fun s => s.control.Steady) (Q := fun _ _ => True) ?_
    (initial_steady inbox) Transition.System.each_true ran
  intro s e t steady _ taken
  exact (step_control taken steady).1

/-- Once `close()` has been called on a session that is not online, it does not go online, and no read is
    started on it. -/
def CloseIsFinal (s : Session E M) (es : List (Event E M)) : Prop :=
  ∀ before after closed, es = before ++ .close :: after → (machine E M).run s before = some closed →
    closed.status ≠ .online →
      (machine E M).Always (fun t => t.status ≠ .online ∧ t.readsStarted = closed.readsStarted)
        closed.close after

def HandshakesFailAfterClose (s : Session E M) (es : List (Event E M)) : Prop :=
  ∀ before after closed, es = before ++ .close :: after → (machine E M).run s before = some closed →
    closed.status ≠ .online → ∀ e ∈ after, FailsHandshake e

theorem handshaken_online {s t : Session E M} {ec : ErrorCode} (succeeded : ¬ ec.failed = true)
    (h : s.step (.handshaken ec) = some t) : t.status = .online := by
  cases step_cases h with
  | handshaken _ positive free =>
    unfold handshakeHandler
    rw [if_neg succeeded]
    rfl

theorem closeIsFinal_of_fail {inbox : List WsMessage} {es : List (Event E M)}
    (fail : HandshakesFailAfterClose (initial .client inbox) es) : CloseIsFinal (initial .client inbox) es := by
  intro before after closed split reached waiting
  have steady := steady_of_run inbox before closed reached
  have both : (machine E M).Always
      (fun u => u.control.Steady ∧ u.control.Barred closed.readsStarted) closed.close after := by
    apply Transition.System.always_of_invariant (Q := fun _ e => FailsHandshake e) ?_ ?_
      (Transition.System.each_of_forall fun s e member => fail before after closed split reached waiting e member)
    · rintro s e u ⟨steady, barred⟩ fails taken
      have next := step_control taken steady
      exact ⟨next.1, next.2 _ fails barred⟩
    · rw [control_close]
      exact ⟨steady, waiting, rfl⟩
  exact both.mono fun u inv => ⟨inv.2.status, inv.2.reads⟩

end Session

end MaxNet
