import MaxNet.Session.EndStatus

namespace MaxNet

namespace Session

variable {E M : Type}

def Event.isCall : Event E M → Bool
  | .setOnReady | .setOnRead | .setOnClose | .setOnWriteDone | .connect _ | .accept | .write _ _ | .close => true
  | _ => false

def Event.ReadFails : Event E M → Prop
  | .readFailed _ _ => True
  | _ => False

structure Unclosed (s : Session E M) : Prop where
  closeTmt : s.closeTmt = false
  closeWaits : s.closeWaits = []
  closeStarts : s.closeStarts = 0
  closes : s.closes = 0
  started : s.trace.countP Action.isAsyncClose = 0
  socketOpen : s.socketOpen = true

def Attended (s : Session E M) : Prop := s.status = .online → 0 < s.life.reading

def Event.ofClosing : Event E M → Bool
  | .connect _ | .close | .closeStart | .closed _ | .closeTimerExpires | .closeTimerFires _ => true
  | _ => false

end Session

structure Closing where
  closeTmt : Bool
  closeWaits : List Wait
  closeStarts : Nat
  closes : Nat
  started : Nat
  socketOpen : Bool

inductive ClosingStep {E M : Type} (v : Closing) : Session.Event E M → Closing → Prop
  | connect (url : NetUrl E) : ClosingStep v (.connect url) { v with socketOpen := true }
  | close (dispatched : Nat) :
    ClosingStep v .close
      { v with
        closeTmt := true, closeWaits := v.closeWaits.map Wait.cancel ++ [.armed]
        closeStarts := v.closeStarts + dispatched }
  | closeStart (positive : 0 < v.closeStarts) :
    ClosingStep v .closeStart
      { v with closeStarts := v.closeStarts - 1, closes := v.closes + 1, started := v.started + 1 }
  | closed (ec : ErrorCode) (positive : 0 < v.closes) :
    ClosingStep v (.closed ec)
      { v with
        closes := v.closes - 1, closeWaits := if v.closeTmt then v.closeWaits.map Wait.cancel else v.closeWaits }
  | closeTimerExpires (member : .armed ∈ v.closeWaits) :
    ClosingStep v .closeTimerExpires { v with closeWaits := v.closeWaits.erase .armed ++ [.expired] }
  | closeTimerFires (wait : Wait) (ec : ErrorCode) (result : wait.result = some ec) (member : wait ∈ v.closeWaits) :
    ClosingStep v (.closeTimerFires wait)
      { v with closeWaits := v.closeWaits.erase wait, socketOpen := v.socketOpen && ec.failed }
  | other (e : Session.Event E M) (apart : e.ofClosing = false) : ClosingStep v e v

namespace Session

variable {E M : Type}

def closing (s : Session E M) : Closing where
  closeTmt := s.closeTmt
  closeWaits := s.closeWaits
  closeStarts := s.closeStarts
  closes := s.closes
  started := s.trace.countP Action.isAsyncClose
  socketOpen := s.socketOpen

theorem closing_log (a : Action M) (s : Session E M) (other : a.isAsyncClose = false) :
    (s.log a).closing = s.closing := by
  simp [closing, log, other]

theorem writeBlind_closing : WriteBlind (closing : Session E M → _) where
  log := by
    intro a s writing
    apply closing_log
    cases a <;> first | rfl | exact writing.elim
  msgQueue := fun _ _ => rfl
  writeStarts := fun _ _ => rfl
  writes := fun _ _ => rfl
  stats := fun _ _ => rfl

theorem closing_call (c : Prop) [Decidable c] (a : Action M) (s : Session E M) (other : a.isAsyncClose = false) :
    (if c then s.log a else s).closing = s.closing := by
  split
  · exact closing_log a s other
  · rfl

theorem closing_exec (s : Session E M) (stmt : Stmt) : (s.exec stmt).closing = s.closing := by
  cases stmt with
  | callOnReady ec => exact closing_call _ _ s rfl
  | performRead =>
    show s.performRead.closing = s.closing
    unfold performRead
    split
    · exact closing_log _ _ rfl
    · rfl
  | deliver bytes => exact closing_call _ _ (s.countInbound bytes) rfl
  | callOnRead ec bytes => exact closing_call _ _ s rfl
  | flushQueue =>
    simp only [exec]
    split
    · exact writeBlind_closing.releaseAll _ s
    · rfl
  | _ => rfl

theorem closing_enter (body : List Stmt) (s : Session E M) : (s.enter body).closing = s.closing := by
  cases body with
  | nil => rfl
  | cons stmt rest => exact closing_exec s stmt

theorem closing_connectHandler (ec : ErrorCode) (url : NetUrl E) (s : Session E M) :
    (s.connectHandler ec url).closing = s.closing := by
  unfold connectHandler
  split
  · exact closing_log _ _ rfl
  · exact closing_call _ _ ({ s with status := .aborted } : Session E M).disableStats rfl

theorem closing_closeTimeout (ec : ErrorCode) (s : Session E M) :
    (s.closeTimeout ec).closing = { s.closing with socketOpen := s.socketOpen && ec.failed } := by
  unfold closeTimeout
  cases failed : ec.failed <;> simp [closing]

theorem closing_closeHandler (ec : ErrorCode) (s : Session E M) :
    (s.closeHandler ec).closing =
      { s.closing with closeWaits := if s.closeTmt then s.closeWaits.map Wait.cancel else s.closeWaits } := by
  unfold closeHandler
  simp only
  rw [closing_call _ _ _ rfl]
  split <;> rfl

variable [DecidableEq E] [DecidableEq M] {s t : Session E M} {e : Event E M}

theorem step_closing (taken : s.step e = some t) : ClosingStep s.closing e t.closing := by
  have same (apart : e.ofClosing = false) (kept : t.closing = s.closing) : ClosingStep s.closing e t.closing :=
    kept ▸ .other e apart
  cases step_cases taken with
  | setOnReady | setOnRead | setOnClose | setOnWriteDone | streamCloses => exact same rfl rfl
  | connect url client valid resolved =>
    have opened := closing_log (Action.connect : Action M)
      { s with status := .blocked, socketOpen := true, connects := s.connects ++ [url] } rfl
    exact opened ▸ .connect url
  | accept server => exact same rfl (closing_log _ _ rfl)
  | write inIoThread message => exact same rfl (writeBlind_closing.write inIoThread message s)
  | close =>
    unfold close
    simp only
    split
    · exact .close 1
    · exact .close 0
  | connected url ec member => exact same rfl (closing_connectHandler ec url _)
  | handshaken ec positive free => exact same rfl (closing_enter _ _)
  | accepted ec positive free => exact same rfl (closing_enter _ _)
  | writeStart m member => exact same rfl (closing_log _ _ rfl)
  | written m ec bytes member => exact same rfl (writeBlind_closing.writeCompleteHandler _ _ _)
  | received pieces message rest next positive free whole => exact same rfl (closing_enter _ _)
  | readFailed ec pieces positive free failed => exact same rfl (closing_enter _ _)
  | strandStep stmt rest busy => exact same rfl (closing_exec _ stmt)
  | closeStart positive =>
    have counted : (s.trace ++ [Action.asyncClose]).countP Action.isAsyncClose =
        s.trace.countP Action.isAsyncClose + 1 := by simp [Action.isAsyncClose]
    show ClosingStep s.closing .closeStart (closing (log .asyncClose _))
    simp only [closing, log, counted]
    exact .closeStart (v := s.closing) positive
  | closed ec positive =>
    rw [closing_closeHandler]
    exact .closed ec positive
  | closeTimerExpires member => exact .closeTimerExpires (v := s.closing) member
  | closeTimerFires wait ec result member =>
    rw [closing_closeTimeout]
    exact .closeTimerFires wait ec result member

omit [DecidableEq E] [DecidableEq M] in
theorem unclosed_iff : s.Unclosed ↔ s.closing = ⟨false, [], 0, 0, 0, true⟩ := by
  simp only [closing, Closing.mk.injEq]
  constructor
  · intro unclosed
    exact ⟨unclosed.closeTmt, unclosed.closeWaits, unclosed.closeStarts, unclosed.closes, unclosed.started,
      unclosed.socketOpen⟩
  · intro ⟨closeTmt, closeWaits, closeStarts, closes, started, socketOpen⟩
    exact ⟨closeTmt, closeWaits, closeStarts, closes, started, socketOpen⟩

theorem Unclosed.step (unclosed : s.Unclosed) (own : e.isCall = false) (taken : s.step e = some t) : t.Unclosed := by
  have moved := step_closing taken
  rw [unclosed_iff] at unclosed ⊢
  rw [unclosed] at moved
  generalize t.closing = w at moved ⊢
  cases moved with
  | connect url => cases own
  | close dispatched => cases own
  | closeStart positive => cases positive
  | closed ec positive => cases positive
  | closeTimerExpires member => cases member
  | closeTimerFires wait ec result member => cases member
  | other => rfl

omit [DecidableEq E] [DecidableEq M] in
theorem attended_of_lifeStep {v w : Life} (attended : v.status = .online → 0 < v.reading) (taken : LifeStep v e w)
    (other : e ≠ .strandStep) (online : w.status = .online) : 0 < w.reading := by
  cases taken with
  | connect url => cases online
  | refused _ positive => cases online
  | established _ positive => exact Nat.succ_pos _
  | readFailed ec pieces positive =>
    simp only [readStatus] at online
    split at online <;> cases online
  | unread positive => exact absurd rfl other
  | closed ec reported once positive => cases online
  | _ => exact attended online

/-- `read_strand_` takes a read from an online session only to start the next one. -/
theorem Attended.strandStep (attended : s.Attended) (quiet : Quiet s.readStrand) (taken : s.step .strandStep = some t) :
    t.Attended := by
  cases step_cases taken with
  | strandStep stmt rest busy =>
    intro online
    have before : s.life.reading = s.reads + (stmt :: rest).countP Stmt.isPerformRead := by rw [← busy]; rfl
    have popped : ({ s with readStrand := rest } : Session E M).life =
        { s.life with reading := s.reads + rest.countP Stmt.isPerformRead } := rfl
    have status : (({ s with readStrand := rest } : Session E M).exec stmt).life.status = .online := online
    rw [life_exec, popped] at status ⊢
    cases stmt with
    | statusSet cd => exact absurd (busy ▸ List.mem_cons_self) (quiet cd)
    | performRead =>
      simp only [Life.exec] at status ⊢
      split at status
      · rename_i still
        rw [if_pos still]
        exact Nat.succ_pos _
      · rename_i gone
        exact absurd status gone
    | _ =>
      have positive := attended status
      rw [before, List.countP_cons] at positive
      simpa [Life.exec, Stmt.isPerformRead] using positive

theorem Attended.step (attended : s.Attended) (quiet : Quiet s.readStrand) (taken : s.step e = some t) : t.Attended := by
  by_cases strand : e = .strandStep
  · rw [strand] at taken
    exact attended.strandStep quiet taken
  · intro online
    exact attended_of_lifeStep (v := s.life) attended (step_life taken quiet) strand online

structure LeftOpen (s : Session E M) : Prop where
  unclosed : s.Unclosed
  quiet : Quiet s.readStrand
  opened : s.life.opened = true
  token : s.life.Ending True True
  attended : s.Attended

omit [DecidableEq E] [DecidableEq M] in
theorem isCall_of_opens (opening : opens e = true) : e.isCall = true := by
  cases e with
  | connect url => rfl
  | accept => rfl
  | _ => cases opening

omit [DecidableEq E] [DecidableEq M] in
/-- As long as it is online, it keeps the io context busy. -/
theorem LeftOpen.not_idle (left : s.LeftOpen) (online : s.status = .online) : ¬ s.Idle := by
  intro idle
  have reading := left.attended online
  obtain ⟨_, _, _, _, _, none, free, _⟩ := idle
  simp [life, none, free] at reading

theorem LeftOpen.step (left : s.LeftOpen) (own : e.isCall = false) (taken : s.step e = some t) : t.LeftOpen := by
  have closed : opens e ≠ true := by
    intro opening
    rw [isCall_of_opens opening] at own
    cases own
  have moved := step_life taken left.quiet
  exact
    { unclosed := left.unclosed.step own taken
      quiet := quiet_step left.quiet taken
      opened := (opened_of_lifeStep moved closed).trans left.opened
      token := left.token.step (fun opening => absurd opening closed) (fun _ => True.intro) (fun _ => True.intro) moved
      attended := left.attended.step left.quiet taken }

/-- Nothing but a read that fails ends it. -/
theorem LeftOpen.online_step (left : s.LeftOpen) (own : e.isCall = false) (kept : ¬ e.ReadFails)
    (taken : s.step e = some t) (online : s.status = .online) : t.status = .online := by
  have reading := left.attended online
  have token := left.token.token
  have moved := step_life taken left.quiet
  have none : s.life.closes = 0 := left.unclosed.closes
  show t.life.status = .online
  generalize after : t.life = w at moved
  cases moved with
  | connect url => cases own
  | refused _ positive => omega
  | readFailed ec pieces positive => exact absurd True.intro kept
  | closed ec reported once positive => omega
  | established _ positive => rfl
  | _ => exact online

structure ClosedFrom (s t : Session E M) : Prop where
  quiet : Quiet t.readStrand
  closeTmt : t.closeTmt = true
  dispatched : s.wsOpen = true → s.status = .online → 0 < t.closeStarts + t.trace.countP Action.isAsyncClose

omit [DecidableEq E] [DecidableEq M] in
theorem closedFrom_close (quiet : Quiet s.readStrand) : s.ClosedFrom s.close := by
  have kept : s.close.readStrand = s.readStrand := congrArg ReadView.strand (readView_close s)
  refine ⟨kept ▸ quiet, ?_, ?_⟩
  · unfold close
    simp only
    split <;> rfl
  · intro wsOpen online
    have asked : s.close.life.closeStarts = s.life.closeStarts + 1 := by rw [life_close, if_pos ⟨wsOpen, online⟩]
    have positive : s.close.closeStarts = s.closeStarts + 1 := asked
    omega

theorem closeTmt_step (own : e.isCall = false) (taken : s.step e = some t) : t.closeTmt = s.closeTmt := by
  have moved := step_closing taken
  show t.closing.closeTmt = s.closing.closeTmt
  generalize t.closing = w at moved
  cases moved with
  | close dispatched => cases own
  | _ => rfl

omit [DecidableEq E] [DecidableEq M] in
theorem dispatched_step {v w : Life} (taken : LifeStep v e w) : v.closeStarts + v.started ≤ w.closeStarts + w.started := by
  cases taken with
  | close ready => simp only; omega
  | closeStart positive => simp only; omega
  | _ => exact Nat.le_refl _

theorem ClosedFrom.step {u : Session E M} (closed : u.ClosedFrom s) (own : e.isCall = false)
    (taken : s.step e = some t) : u.ClosedFrom t := by
  refine ⟨quiet_step closed.quiet taken, (closeTmt_step own taken).trans closed.closeTmt, ?_⟩
  intro wsOpen online
  have positive := closed.dispatched wsOpen online
  have grows : s.closeStarts + s.trace.countP Action.isAsyncClose ≤
      t.closeStarts + t.trace.countP Action.isAsyncClose := dispatched_step (step_life taken closed.quiet)
  omega

end Session

end MaxNet
