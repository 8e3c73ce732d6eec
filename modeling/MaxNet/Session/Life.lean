import MaxNet.Session.ReadView

namespace MaxNet

namespace Action

variable {M : Type}

def isAsyncClose : Action M → Bool
  | asyncClose => true
  | _ => false

def isOnClose : Action M → Bool
  | onClose _ => true
  | _ => false

def isControl (a : Action M) : Bool := a.isOpening || a.isAsyncClose || a.isOnClose

end Action

/-- What opens and ends a session: the operations under way that will still set its status, and the
    closes started and reported so far. `reading` counts the reads that are outstanding or about to be
    started. -/
structure Life where
  wsOpen : Bool
  status : StatusCode
  opened : Bool
  opening : Nat
  reading : Nat
  closeStarts : Nat
  closes : Nat
  started : Nat
  reported : Nat

namespace Life

def exec (v : Life) : Stmt → Life
  | .statusSet cd => { v with status := cd }
  | .performRead => if v.status = .online then { v with reading := v.reading + 1 } else v
  | _ => v

end Life

namespace Session

variable {E M : Type}

def life (s : Session E M) : Life where
  wsOpen := s.wsOpen
  status := s.status
  opened := s.trace.any Action.isOpening
  opening := s.connects.length + s.handshakes + s.accepts
  reading := s.reads + s.readStrand.countP Stmt.isPerformRead
  closeStarts := s.closeStarts
  closes := s.closes
  started := s.trace.countP Action.isAsyncClose
  reported := s.trace.countP Action.isOnClose

theorem life_log (a : Action M) (s : Session E M) (other : a.isControl = false) : (s.log a).life = s.life := by
  simp only [Action.isControl, Bool.or_eq_false_iff] at other
  simp [life, log, other]

theorem writeBlind_life : WriteBlind (life : Session E M → Life) where
  log := by
    intro a s writing
    apply life_log
    cases a <;> first | rfl | exact writing.elim
  msgQueue := fun _ _ => rfl
  writeStarts := fun _ _ => rfl
  writes := fun _ _ => rfl
  stats := fun _ _ => rfl

theorem life_callOnReady (ec : ErrorCode) (s : Session E M) : (s.callOnReady ec).life = s.life := by
  unfold callOnReady
  by_cases installed : s.onReady = true
  · rw [if_pos installed]
    exact life_log _ _ rfl
  · rw [if_neg installed]

theorem life_callOnRead (ec : ErrorCode) (message : Option (List UInt8)) (bytes : Nat) (s : Session E M) :
    (s.callOnRead ec message bytes).life = s.life := by
  unfold callOnRead
  by_cases installed : s.onRead = true
  · rw [if_pos installed]
    exact life_log _ _ rfl
  · rw [if_neg installed]

theorem life_exec (s : Session E M) (stmt : Stmt) : (s.exec stmt).life = s.life.exec stmt := by
  cases stmt with
  | statusSet cd => rfl
  | disableStats => rfl
  | callOnReady ec => exact life_callOnReady ec s
  | performRead =>
    show s.performRead.life = if s.status = .online then { s.life with reading := s.life.reading + 1 } else s.life
    unfold performRead
    by_cases online : s.status = .online
    · rw [if_pos online, if_pos online, life_log _ _ rfl]
      have count : s.reads + 1 + s.readStrand.countP Stmt.isPerformRead =
          s.reads + s.readStrand.countP Stmt.isPerformRead + 1 := by omega
      simp only [life, count]
    · rw [if_neg online, if_neg online]
  | deliver bytes => exact life_callOnRead _ _ _ _
  | consume bytes => rfl
  | flushQueue =>
    simp only [exec]
    by_cases handled : s.onWriteDone = true
    · rw [if_pos handled]
      exact writeBlind_life.releaseAll _ _
    · rw [if_neg handled]
      rfl
  | callOnRead ec bytes => exact life_callOnRead _ _ _ _

def readStatus (ec : ErrorCode) : StatusCode := if ec ≠ .closed ∧ ec.value ≠ 89 then .aborted else .offline

inductive LifeStep (v : Life) : Event E M → Life → Prop
  | other (e : Event E M) : LifeStep v e v
  | connect (url : NetUrl E) :
    LifeStep v (.connect url) { v with status := .blocked, opened := true, opening := v.opening + 1 }
  | accept : LifeStep v .accept { v with opened := true, opening := v.opening + 1 }
  | refused (e : Event E M) (positive : 0 < v.opening) :
    LifeStep v e { v with opening := v.opening - 1, status := .aborted }
  | established (e : Event E M) (positive : 0 < v.opening) :
    LifeStep v e
      { v with opening := v.opening - 1, wsOpen := true, status := .online, reading := v.reading + 1 }
  | readFailed (ec : ErrorCode) (pieces : List (List UInt8)) (positive : 0 < v.reading) :
    LifeStep v (.readFailed ec pieces) { v with reading := v.reading - 1, status := readStatus ec }
  | unread (positive : 0 < v.reading) : LifeStep v .strandStep { v with reading := v.reading - 1 }
  | close (ready : v.wsOpen = true ∧ v.status = .online) :
    LifeStep v .close { v with closeStarts := v.closeStarts + 1 }
  | closeStart (positive : 0 < v.closeStarts) :
    LifeStep v .closeStart
      { v with closeStarts := v.closeStarts - 1, closes := v.closes + 1, started := v.started + 1 }
  | closed (ec : ErrorCode) (reported : Nat) (once : reported ≤ v.reported + 1) (positive : 0 < v.closes) :
    LifeStep v (.closed ec) { v with closes := v.closes - 1, status := .offline, reported := reported }
  | streamCloses : LifeStep v .streamCloses { v with wsOpen := false }

def Quiet (strand : List Stmt) : Prop := ∀ cd, .statusSet cd ∉ strand

structure Opens (ec : ErrorCode) (cd : StatusCode) (rest : List Stmt) : Prop where
  quiet : Quiet rest
  outcome : (ec.failed = true ∧ cd = .aborted ∧ rest.countP Stmt.isPerformRead = 0) ∨
    (ec.failed = false ∧ cd = .online ∧ rest.countP Stmt.isPerformRead = 1)

theorem handshakeHandler_body (ec : ErrorCode) :
    ∃ cd rest, handshakeHandler ec = .statusSet cd :: rest ∧ Opens ec cd rest := by
  unfold handshakeHandler
  by_cases failed : ec.failed = true
  · rw [if_pos failed]
    exact ⟨_, _, rfl, by simp [Quiet], Or.inl ⟨failed, rfl, rfl⟩⟩
  · rw [if_neg failed]
    exact ⟨_, _, rfl, by simp [Quiet], Or.inr ⟨by simpa using failed, rfl, rfl⟩⟩

theorem acceptedHandler_body (ec : ErrorCode) :
    ∃ cd rest, acceptedHandler ec = .statusSet cd :: rest ∧ Opens ec cd rest := by
  unfold acceptedHandler
  by_cases failed : ec.failed = true
  · rw [if_pos failed]
    exact ⟨_, _, rfl, by simp [Quiet], Or.inl ⟨failed, rfl, rfl⟩⟩
  · rw [if_neg failed]
    exact ⟨_, _, rfl, by simp [Quiet], Or.inr ⟨by simpa using failed, rfl, rfl⟩⟩

theorem readHandler_body (ec : ErrorCode) (bytes : Nat) (failed : ec.failed = true) :
    ∃ rest, Quiet rest ∧ readHandler ec bytes = .statusSet (readStatus ec) :: rest ∧
      rest.countP Stmt.isPerformRead = 0 := by
  unfold readHandler readStatus Quiet
  rw [failed]
  simp only [Bool.not_true, Bool.false_eq_true, if_false]
  by_cases aborts : ec ≠ .closed ∧ ec.value ≠ 89
  · rw [if_pos aborts, if_pos aborts]
    exact ⟨_, by simp, rfl, rfl⟩
  · rw [if_neg aborts, if_neg aborts]
    exact ⟨_, by simp, rfl, rfl⟩

theorem life_enter_statusSet (cd : StatusCode) (rest : List Stmt) (s : Session E M) :
    (s.enter (.statusSet cd :: rest)).life =
      { s.life with status := cd, reading := s.reads + rest.countP Stmt.isPerformRead } := rfl

theorem life_enter_deliver (bytes : Nat) (rest : List Stmt) (s : Session E M) :
    (s.enter (.deliver bytes :: rest)).life =
      { s.life with reading := s.reads + rest.countP Stmt.isPerformRead } := by
  have entered : (s.enter (.deliver bytes :: rest)).life =
      { (s.exec (.deliver bytes)).life with
        reading := (s.exec (.deliver bytes)).reads + rest.countP Stmt.isPerformRead } := rfl
  have reads : (s.exec (.deliver bytes)).reads = s.reads := by
    simp only [exec, callOnRead]
    by_cases installed : (s.countInbound bytes).onRead = true
    · rw [if_pos installed]
      rfl
    · rw [if_neg installed]
      rfl
  rw [entered, life_exec, reads]
  rfl

theorem Opens.lifeStep {v : Life} {e : Event E M} {ec : ErrorCode} {cd : StatusCode} {rest : List Stmt}
    (opens : Opens ec cd rest) (positive : 0 < v.opening) :
    LifeStep v e { v with
      opening := v.opening - 1
      wsOpen := v.wsOpen || !ec.failed
      status := cd
      reading := v.reading + rest.countP Stmt.isPerformRead } := by
  rcases opens.outcome with ⟨failed, rfl, count⟩ | ⟨succeeded, rfl, count⟩
  · rw [failed, count, Bool.not_true, Bool.or_false]
    exact .refused e positive
  · rw [succeeded, count, Bool.not_false, Bool.or_true]
    exact .established e positive

theorem life_close (s : Session E M) :
    s.close.life = if s.wsOpen = true ∧ s.status = .online then
      { s.life with closeStarts := s.life.closeStarts + 1 } else s.life := by
  let t : Session E M := { s.disableStats with
    closeTmt := true, closeWaits := s.closeWaits.map Wait.cancel ++ [.armed] }
  show (if s.wsOpen = true ∧ s.status = .online then { t with closeStarts := t.closeStarts + 1 } else t).life = _
  by_cases ready : s.wsOpen = true ∧ s.status = .online
  · rw [if_pos ready, if_pos ready]
    rfl
  · rw [if_neg ready, if_neg ready]
    rfl

theorem life_closeHandler (ec : ErrorCode) (s : Session E M) :
    ∃ reported, reported ≤ s.life.reported + 1 ∧
      (s.closeHandler ec).life = { s.life with status := .offline, reported } := by
  let t : Session E M := if s.closeTmt then { s with closeWaits := s.closeWaits.map Wait.cancel } else s
  have same : t.life = s.life := by
    simp only [t]
    by_cases timed : s.closeTmt = true
    · rw [if_pos timed]
      rfl
    · rw [if_neg timed]
  let u : Session E M := { t with status := .offline }
  have offline : u.life = { s.life with status := .offline } := by rw [← same]; rfl
  show ∃ reported, reported ≤ s.life.reported + 1 ∧
    (if u.onClose then u.log (.onClose ec) else u).life = { s.life with status := .offline, reported }
  by_cases installed : u.onClose = true
  · rw [if_pos installed]
    refine ⟨s.life.reported + 1, Nat.le_refl _, ?_⟩
    rw [← same]
    simp [life, log, u, Action.isOpening, Action.isAsyncClose, Action.isOnClose]
  · rw [if_neg installed]
    exact ⟨s.life.reported, Nat.le_succ _, offline⟩

theorem life_connectHandler (ec : ErrorCode) (url : NetUrl E) (s : Session E M) :
    (s.connectHandler ec url).life =
      if ec.failed then { s.life with status := .aborted } else { s.life with opening := s.life.opening + 1 } := by
  unfold connectHandler
  cases ec.failed with
  | true => exact life_callOnReady ec _
  | false =>
    have count : s.connects.length + (s.handshakes + 1) + s.accepts =
        s.connects.length + s.handshakes + s.accepts + 1 := by omega
    rw [Bool.not_false, if_pos rfl, life_log _ _ rfl]
    simp [life, count]

theorem strand_call (installed : Bool) (a : Action M) (v : ReadView M) : (v.call installed a).strand = v.strand := by
  unfold ReadView.call
  cases installed with
  | true => rfl
  | false => rfl

theorem strand_exec (online text : Bool) (v : ReadView M) (stmt : Stmt) :
    (v.exec online text stmt).strand = v.strand := by
  cases stmt with
  | callOnReady ec => exact strand_call _ _ v
  | deliver bytes => exact strand_call _ _ v
  | callOnRead ec bytes => exact strand_call _ _ v
  | performRead => cases online <;> rfl
  | _ => rfl

theorem Quiet.step {v w : ReadView M} {e : Event E M} (quiet : Quiet v.strand) (taken : ReadStep v e w) :
    Quiet w.strand := by
  cases taken with
  | refused url ec positive =>
    rw [strand_call]
    exact quiet
  | handshaken ec stmt rest body =>
    obtain ⟨cd, tail, split, opens⟩ := handshakeHandler_body ec
    exact (List.cons.inj (split.symm.trans body)).2 ▸ opens.quiet
  | accepted ec stmt rest body =>
    obtain ⟨cd, tail, split, opens⟩ := acceptedHandler_body ec
    exact (List.cons.inj (split.symm.trans body)).2 ▸ opens.quiet
  | received =>
    rw [strand_call]
    simp [Quiet]
  | readFailed ec pieces stmt rest body failed =>
    obtain ⟨tail, silent, split, _⟩ := readHandler_body ec pieces.flatten.length failed
    exact (List.cons.inj (split.symm.trans body)).2 ▸ silent
  | strandStep stmt rest online text busy =>
    rw [strand_exec]
    exact fun cd member => quiet cd (busy ▸ List.mem_cons_of_mem stmt member)
  | _ => exact quiet

theorem step_life [DecidableEq E] [DecidableEq M] {s t : Session E M} {e : Event E M} (h : s.step e = some t)
    (quiet : Quiet s.readStrand) : LifeStep s.life e t.life := by
  have same {e : Event E M} (kept : t.life = s.life) : LifeStep s.life e t.life := kept ▸ LifeStep.other e
  cases step_cases h with
  | setOnReady => exact same rfl
  | setOnRead => exact same rfl
  | setOnClose => exact same rfl
  | setOnWriteDone => exact same rfl
  | connect url =>
    have count : s.connects.length + s.handshakes + s.accepts + 1 =
        (s.connects ++ [url]).length + s.handshakes + s.accepts := (openings_connect url s).symm
    have opened := LifeStep.connect (v := s.life) (E := E) (M := M) url
    simp only [life, count] at opened
    simpa [life, log, Action.isOpening, Action.isAsyncClose, Action.isOnClose] using opened
  | accept =>
    have opened := LifeStep.accept (v := s.life) (E := E) (M := M)
    simpa [life, log, accept, Action.isOpening, Action.isAsyncClose, Action.isOnClose, Nat.add_assoc] using opened
  | write inIoThread m => exact same (writeBlind_life.write inIoThread m s)
  | close =>
    rw [life_close]
    by_cases ready : s.wsOpen = true ∧ s.status = .online
    · rw [if_pos ready]
      exact .close ready
    · rw [if_neg ready]
      exact .other _
  | connected url ec member =>
    obtain ⟨positive, count⟩ := openings_connected member
    have popped : ({ s with connects := s.connects.erase url } : Session E M).life =
        { s.life with opening := s.life.opening - 1 } := by
      simp only [life, count, openings]
    rw [life_connectHandler, popped]
    by_cases failed : ec.failed = true
    · rw [if_pos failed]
      exact .refused _ positive
    · rw [if_neg failed]
      have restored : s.life.opening - 1 + 1 = s.life.opening := Nat.succ_pred_eq_of_pos positive
      simp only [restored]
      exact .other _
  | handshaken ec positive free =>
    obtain ⟨cd, rest, body, opens⟩ := handshakeHandler_body ec
    have count : s.connects.length + s.handshakes + s.accepts - 1 =
        s.connects.length + (s.handshakes - 1) + s.accepts := by omega
    have opened := opens.lifeStep (E := E) (M := M) (v := s.life) (e := .handshaken ec)
      (by simp only [life]; omega)
    rw [body, life_enter_statusSet]
    simp only [life, free, count, List.countP_nil, Nat.add_zero] at opened ⊢
    exact opened
  | accepted ec positive free =>
    obtain ⟨cd, rest, body, opens⟩ := acceptedHandler_body ec
    have count : s.connects.length + s.handshakes + s.accepts - 1 =
        s.connects.length + s.handshakes + (s.accepts - 1) := by omega
    have opened := opens.lifeStep (E := E) (M := M) (v := s.life) (e := .accepted ec)
      (by simp only [life]; omega)
    rw [body, life_enter_statusSet]
    simp only [life, free, count, List.countP_nil, Nat.add_zero] at opened ⊢
    exact opened
  | writeStart m => exact same (life_log _ _ rfl)
  | written m ec bytes => exact same (writeBlind_life.writeCompleteHandler _ _ _)
  | received pieces message rest next positive free whole =>
    apply same ?_
    have body : readHandler .success message.payload.length =
        [.deliver message.payload.length, .consume message.payload.length, .performRead] := rfl
    have again : [Stmt.consume message.payload.length, .performRead].countP Stmt.isPerformRead = 1 := rfl
    have count : s.reads - 1 + 1 = s.reads := by omega
    rw [body, life_enter_deliver, again]
    simp only [life, free, count, List.countP_nil, Nat.add_zero]
  | readFailed ec pieces positive free failed =>
    obtain ⟨rest, _, body, count⟩ := readHandler_body ec pieces.flatten.length failed
    have read := LifeStep.readFailed (v := s.life) (E := E) (M := M) ec pieces (by simp only [life]; omega)
    rw [body, life_enter_statusSet, count]
    simp only [life, free, List.countP_nil, Nat.add_zero] at read ⊢
    exact read
  | strandStep stmt rest busy =>
    rw [life_exec]
    have popped : ({ s with readStrand := rest } : Session E M).life =
        { s.life with reading := s.reads + rest.countP Stmt.isPerformRead } := rfl
    have before : s.life.reading = s.reads + (stmt :: rest).countP Stmt.isPerformRead := by rw [← busy]; rfl
    rw [List.countP_cons] at before
    rw [popped]
    cases stmt with
    | statusSet cd => exact absurd (busy ▸ List.mem_cons_self) (quiet cd)
    | performRead =>
      simp only [Stmt.isPerformRead, if_true] at before
      have count : s.reads + rest.countP Stmt.isPerformRead = s.life.reading - 1 := by omega
      rw [count]
      show LifeStep s.life .strandStep (if s.life.status = .online then
        { s.life with reading := s.life.reading - 1 + 1 } else { s.life with reading := s.life.reading - 1 })
      by_cases online : s.life.status = .online
      · have restored : s.life.reading - 1 + 1 = s.life.reading := by omega
        rw [if_pos online, restored]
        exact .other _
      · rw [if_neg online]
        exact .unread (by omega)
    | _ =>
      simp only [Stmt.isPerformRead, Bool.false_eq_true, if_false, Nat.add_zero] at before
      rw [← before]
      exact .other _
  | closeStart positive =>
    have started := LifeStep.closeStart (v := s.life) (E := E) (M := M) positive
    simpa [life, log, Action.isOpening, Action.isAsyncClose, Action.isOnClose] using started
  | closed ec positive =>
    obtain ⟨reported, once, after⟩ := life_closeHandler ec { s with closes := s.closes - 1 }
    rw [after]
    exact .closed ec reported once positive
  | closeTimerExpires => exact same rfl
  | closeTimerFires wait ec =>
    apply same ?_
    unfold closeTimeout
    split <;> rfl
  | streamCloses => exact .streamCloses

end Session

end MaxNet
