import MaxNet.Session.Frames

namespace MaxNet

namespace Action

variable {M : Type}

def isOpening : Action M → Bool
  | connect | accept => true
  | _ => false

def isReady : Action M → Bool
  | onReady _ => true
  | _ => false

def isRead : Action M → Bool
  | onRead _ _ _ => true
  | _ => false

def isReadError : Action M → Bool
  | onRead ec _ _ => ec.failed
  | _ => false

def delivered? : Action M → Option (Option (List UInt8))
  | onRead ec message _ => if ec.failed then none else some message
  | _ => none

def isCallback (a : Action M) : Bool := a.isReady || a.isRead

end Action

namespace Stmt

def isPerformRead : Stmt → Bool
  | performRead => true
  | _ => false

def isCallOnReady : Stmt → Bool
  | callOnReady _ => true
  | _ => false

def isCallOnRead : Stmt → Bool
  | callOnRead _ _ => true
  | _ => false

end Stmt

/-- The receiving side of a session: what is still to be opened and read, what the handler on
    `read_strand_` has left to do, and the calls of `on_ready_` and `on_read_` in their order. -/
structure ReadView (M : Type) where
  opened : Bool
  opening : Nat
  reads : Nat
  strand : List Stmt
  buffer : List (List UInt8)
  inbox : List WsMessage
  onReady : Bool
  onRead : Bool
  calls : List (Action M)

namespace ReadView

variable {M : Type}

def call (installed : Bool) (a : Action M) (v : ReadView M) : ReadView M :=
  if installed then { v with calls := v.calls ++ [a] } else v

theorem call_strand (installed : Bool) (a : Action M) (rest : List Stmt) (v : ReadView M) :
    { v.call installed a with strand := rest } = ({ v with strand := rest }.call installed a : ReadView M) := by
  cases installed <;> rfl

def exec (online text : Bool) (v : ReadView M) : Stmt → ReadView M
  | .callOnReady ec => v.call v.onReady (.onReady ec)
  | .performRead => if online then { v with reads := v.reads + 1 } else v
  | .deliver bytes =>
    v.call v.onRead (.onRead .success (some (fromConstBuffers v.buffer [] text)) bytes)
  | .consume bytes => { v with buffer := Session.consume bytes v.buffer }
  | .callOnRead ec bytes => v.call v.onRead (.onRead ec none bytes)
  | .statusSet _ | .disableStats | .flushQueue => v

end ReadView

namespace Session

variable {E M : Type}

def readView (s : Session E M) : ReadView M where
  opened := s.trace.any Action.isOpening
  opening := s.connects.length + s.handshakes + s.accepts
  reads := s.reads
  strand := s.readStrand
  buffer := s.buffer
  inbox := s.inbox
  onReady := s.onReady
  onRead := s.onRead
  calls := s.trace.filter Action.isCallback

theorem readView_log_other (a : Action M) (s : Session E M) (notOpening : a.isOpening = false)
    (notCallback : a.isCallback = false) : (s.log a).readView = s.readView := by
  simp [readView, log, notOpening, notCallback, List.filter_append]

theorem readView_log_callback (a : Action M) (s : Session E M) (notOpening : a.isOpening = false)
    (callback : a.isCallback = true) :
    (s.log a).readView = { s.readView with calls := s.readView.calls ++ [a] } := by
  simp [readView, log, notOpening, callback, List.filter_append]

theorem readView_log_opening (a : Action M) (s : Session E M) (opening : a.isOpening = true)
    (notCallback : a.isCallback = false) :
    (s.log a).readView = { s.readView with opened := true } := by
  simp [readView, log, opening, notCallback, List.filter_append]

theorem writeBlind_readView : WriteBlind (readView : Session E M → ReadView M) where
  log := by
    intro a s writing
    apply readView_log_other
    · cases a <;> first | rfl | exact writing.elim
    · cases a <;> first | rfl | exact writing.elim
  msgQueue := fun _ _ => rfl
  writeStarts := fun _ _ => rfl
  writes := fun _ _ => rfl
  stats := fun _ _ => rfl

theorem readView_callOnReady (ec : ErrorCode) (s : Session E M) :
    (s.callOnReady ec).readView = s.readView.call s.onReady (.onReady ec) := by
  unfold callOnReady ReadView.call
  split
  · exact readView_log_callback _ _ rfl rfl
  · rfl

theorem readView_callOnRead (ec : ErrorCode) (message : Option (List UInt8)) (bytes : Nat)
    (s : Session E M) :
    (s.callOnRead ec message bytes).readView = s.readView.call s.onRead (.onRead ec message bytes) := by
  unfold callOnRead ReadView.call
  split
  · exact readView_log_callback _ _ rfl rfl
  · rfl

theorem readView_exec (s : Session E M) (stmt : Stmt) :
    (s.exec stmt).readView = s.readView.exec (s.status = .online) s.gotText stmt := by
  cases stmt with
  | statusSet cd => rfl
  | disableStats => rfl
  | callOnReady ec => exact readView_callOnReady ec s
  | performRead =>
    simp only [exec, performRead, ReadView.exec, decide_eq_true_eq]
    split
    · exact readView_log_other _ _ rfl rfl
    · rfl
  | deliver bytes => exact readView_callOnRead _ _ _ _
  | consume bytes => rfl
  | flushQueue =>
    simp only [exec]
    split
    · exact writeBlind_readView.releaseAll _ _
    · rfl
  | callOnRead ec bytes => exact readView_callOnRead _ _ _ _

theorem readView_connectHandler (ec : ErrorCode) (url : NetUrl E) (s : Session E M) :
    (s.connectHandler ec url).readView =
      if ec.failed then s.readView.call s.onReady (.onReady ec)
      else { s.readView with opening := s.readView.opening + 1 } := by
  unfold connectHandler
  cases ec.failed with
  | true => exact readView_callOnReady ec _
  | false =>
    have count : s.connects.length + (s.handshakes + 1) + s.accepts =
        s.connects.length + s.handshakes + s.accepts + 1 := by omega
    rw [Bool.not_false, if_pos rfl, readView_log_other _ _ rfl rfl]
    simp [readView, count]

theorem readView_close (s : Session E M) : s.close.readView = s.readView := by
  unfold close
  simp only
  split <;> rfl

theorem readView_closeHandler (ec : ErrorCode) (s : Session E M) :
    (s.closeHandler ec).readView = s.readView := by
  unfold closeHandler
  simp only
  split <;> split <;>
    first
    | rfl
    | exact readView_log_other _ _ rfl rfl

inductive ReadStep (v : ReadView M) : Event E M → ReadView M → Prop
  | other (e : Event E M) : ReadStep v e v
  | setOnReady : ReadStep v .setOnReady { v with onReady := true }
  | setOnRead : ReadStep v .setOnRead { v with onRead := true }
  | connect (url : NetUrl E) : ReadStep v (.connect url) { v with opened := true, opening := v.opening + 1 }
  | accept : ReadStep v .accept { v with opened := true, opening := v.opening + 1 }
  | refused (url : NetUrl E) (ec : ErrorCode) (positive : 0 < v.opening) :
    ReadStep v (.connected url ec) ({ v with opening := v.opening - 1 }.call v.onReady (.onReady ec))
  | handshaken (ec : ErrorCode) (stmt : Stmt) (rest : List Stmt) (body : handshakeHandler ec = stmt :: rest)
    (positive : 0 < v.opening) (free : v.strand = []) :
    ReadStep v (.handshaken ec) { v with opening := v.opening - 1, strand := rest }
  | accepted (ec : ErrorCode) (stmt : Stmt) (rest : List Stmt) (body : acceptedHandler ec = stmt :: rest)
    (positive : 0 < v.opening) (free : v.strand = []) :
    ReadStep v (.accepted ec) { v with opening := v.opening - 1, strand := rest }
  | received (pieces : List (List UInt8)) (message : WsMessage) (rest : List WsMessage)
    (next : v.inbox = message :: rest) (positive : 0 < v.reads) (free : v.strand = [])
    (whole : pieces.flatten = message.payload) :
    ReadStep v (.received pieces)
      ({ v with
          reads := v.reads - 1
          inbox := rest
          buffer := v.buffer ++ pieces
          strand := [.consume message.payload.length, .performRead] }.call v.onRead
        (.onRead .success (some (fromConstBuffers (v.buffer ++ pieces) [] message.text))
          message.payload.length))
  | readFailed (ec : ErrorCode) (pieces : List (List UInt8)) (stmt : Stmt) (rest : List Stmt)
    (body : readHandler ec pieces.flatten.length = stmt :: rest) (failed : ec.failed = true)
    (positive : 0 < v.reads) (free : v.strand = []) :
    ReadStep v (.readFailed ec pieces)
      { v with reads := v.reads - 1, buffer := v.buffer ++ pieces, strand := rest }
  | strandStep (stmt : Stmt) (rest : List Stmt) (online text : Bool) (busy : v.strand = stmt :: rest) :
    ReadStep v .strandStep ({ v with strand := rest }.exec online text stmt)

theorem enter_statusSet (cd : StatusCode) (rest : List Stmt) (s : Session E M) :
    (s.enter (.statusSet cd :: rest)).readView = { s.readView with strand := rest } := rfl

theorem enter_deliver (bytes : Nat) (rest : List Stmt) (s : Session E M) :
    (s.enter (.deliver bytes :: rest)).readView = { s.readView with strand := rest }.call s.onRead
      (.onRead .success (some (fromConstBuffers s.buffer [] s.gotText)) bytes) := by
  change ({ s.exec (.deliver bytes) with readStrand := rest } : Session E M).readView = _
  have delivered := readView_exec s (.deliver bytes)
  have strand : ({ s.exec (.deliver bytes) with readStrand := rest } : Session E M).readView =
      { (s.exec (.deliver bytes)).readView with strand := rest } := rfl
  rw [strand, delivered]
  exact ReadView.call_strand s.onRead _ rest s.readView

theorem handshakeHandler_head (ec : ErrorCode) :
    ∃ cd rest, handshakeHandler ec = .statusSet cd :: rest := by
  unfold handshakeHandler
  split <;> exact ⟨_, _, rfl⟩

theorem acceptedHandler_head (ec : ErrorCode) :
    ∃ cd rest, acceptedHandler ec = .statusSet cd :: rest := by
  unfold acceptedHandler
  split <;> exact ⟨_, _, rfl⟩

theorem readHandler_head (ec : ErrorCode) (bytes : Nat) (failed : ec.failed = true) :
    ∃ cd rest, readHandler ec bytes = .statusSet cd :: rest := by
  unfold readHandler
  rw [failed]
  simp only [Bool.not_true, Bool.false_eq_true, if_false]
  split <;> exact ⟨_, _, rfl⟩

theorem step_readView [DecidableEq E] [DecidableEq M] {s t : Session E M} {e : Event E M}
    (h : s.step e = some t) : ReadStep s.readView e t.readView := by
  have same {e : Event E M} (kept : t.readView = s.readView) : ReadStep s.readView e t.readView :=
    kept ▸ ReadStep.other e
  cases step_cases h with
  | setOnReady => exact .setOnReady
  | setOnRead => exact .setOnRead
  | setOnClose => exact same rfl
  | setOnWriteDone => exact same rfl
  | connect url =>
    have opened := ReadStep.connect (v := s.readView) url
    have count : s.connects.length + s.handshakes + s.accepts + 1 =
        (s.connects ++ [url]).length + s.handshakes + s.accepts := (openings_connect url s).symm
    rw [readView_log_opening _ _ rfl rfl]
    simp only [readView, count] at opened
    exact opened
  | accept =>
    rw [accept, readView_log_opening _ _ rfl rfl]
    exact .accept
  | write inIoThread m => exact same (writeBlind_readView.write inIoThread m s)
  | close => exact same (readView_close s)
  | connected url ec member =>
    obtain ⟨positive, count⟩ := openings_connected member
    have popped : ({ s with connects := s.connects.erase url } : Session E M).readView =
        { s.readView with opening := s.readView.opening - 1 } := by
      simp only [readView, count, openings]
    rw [readView_connectHandler, popped]
    split
    · exact .refused url ec positive
    · have restored : s.readView.opening - 1 + 1 = s.readView.opening := Nat.succ_pred_eq_of_pos positive
      simp only [restored]
      exact ReadStep.other _
  | handshaken ec positive free =>
    obtain ⟨cd, rest, body⟩ := handshakeHandler_head ec
    have entered := ReadStep.handshaken (E := E) (v := s.readView) ec _ rest body
      (by simp only [readView]; omega) free
    have count : s.connects.length + s.handshakes + s.accepts - 1 =
        s.connects.length + (s.handshakes - 1) + s.accepts := by omega
    rw [body, enter_statusSet]
    simp only [readView, count] at entered
    exact entered
  | accepted ec positive free =>
    obtain ⟨cd, rest, body⟩ := acceptedHandler_head ec
    have entered := ReadStep.accepted (E := E) (v := s.readView) ec _ rest body
      (by simp only [readView]; omega) free
    have count : s.connects.length + s.handshakes + s.accepts - 1 =
        s.connects.length + s.handshakes + (s.accepts - 1) := by omega
    rw [body, enter_statusSet]
    simp only [readView, count] at entered
    exact entered
  | writeStart m => exact same (readView_log_other _ _ rfl rfl)
  | written m ec bytes => exact same (writeBlind_readView.writeCompleteHandler _ _ _)
  | received pieces message rest next positive free whole =>
    have received := ReadStep.received (E := E) (v := s.readView) pieces message rest next positive free whole
    have body : readHandler .success message.payload.length =
        [.deliver message.payload.length, .consume message.payload.length, .performRead] := rfl
    rw [body, enter_deliver]
    exact received
  | readFailed ec pieces positive free failed =>
    obtain ⟨cd, rest, body⟩ := readHandler_head ec pieces.flatten.length failed
    rw [body, enter_statusSet]
    exact .readFailed ec pieces _ rest body failed positive free
  | strandStep stmt rest busy =>
    rw [readView_exec]
    exact .strandStep stmt rest _ _ busy
  | closeStart => exact same (readView_log_other _ _ rfl rfl)
  | closed ec => exact same (readView_closeHandler _ _)
  | closeTimerExpires => exact same rfl
  | closeTimerFires wait ec =>
    apply same ?_
    unfold closeTimeout
    split <;> rfl
  | streamCloses => exact same rfl

end Session

end MaxNet
