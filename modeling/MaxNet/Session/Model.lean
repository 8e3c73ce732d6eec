import MaxNet.Lib.Transition
import MaxNet.Stats
import MaxNet.NetUrl.Basic
import MaxNet.Message.Base

namespace MaxNet

inductive Role
  | client
  | server
  deriving DecidableEq, Repr

inductive StatusCode
  | offline
  | online
  | blocked
  | aborted
  | suspended
  deriving DecidableEq, Repr

structure WsMessage where
  payload : List UInt8
  text : Bool
  deriving DecidableEq

def WsMessage.data (message : WsMessage) : List UInt8 := if message.text then [] else message.payload

inductive Action (M : Type)
  | connect
  | accept
  | write (message : M)
  | asyncWrite (message : M)
  | onWriteDone (message : M)
  | deallocate (message : M)
  | asyncHandshake (host path : List Char)
  | asyncRead
  | onReady (ec : ErrorCode)
  | onRead (ec : ErrorCode) (message : Option (List UInt8)) (bytes : Nat)
  | asyncClose
  | onClose (ec : ErrorCode)
  deriving DecidableEq

/-- The statements of the handlers that run on `read_strand_`. A handler on the strand is not
    overtaken by another one on the strand, but everything else may happen between its statements. -/
inductive Stmt
  | statusSet (cd : StatusCode)
  | disableStats
  | callOnReady (ec : ErrorCode)
  | performRead
  | deliver (bytes : Nat)
  | consume (bytes : Nat)
  | flushQueue
  | callOnRead (ec : ErrorCode) (bytes : Nat)
  deriving DecidableEq

structure Session (E M : Type) where
  role : Role
  status : StatusCode := .blocked
  -- whether the optional handlers are set
  onReady : Bool := false
  onRead : Bool := false
  onClose : Bool := false
  onWriteDone : Bool := false
  msgQueue : List M := []
  buffer : List (List UInt8) := []
  stats : SessionStats := {}
  closeTmt : Bool := false
  -- `stream_`, and the messages it has yet to hand out
  wsOpen : Bool := false
  socketOpen : Bool := false
  gotText : Bool := false
  inbox : List WsMessage
  -- operations and handlers that Asio holds for the session
  connects : List (NetUrl E) := []
  handshakes : Nat := 0
  accepts : Nat := 0
  writeStarts : List M := []
  writes : List M := []
  reads : Nat := 0
  closeStarts : Nat := 0
  closes : Nat := 0
  closeWaits : List Wait := []
  readStrand : List Stmt := []
  trace : List (Action M) := []

namespace Session

variable {E M : Type}

def log (a : Action M) (s : Session E M) : Session E M := { s with trace := s.trace ++ [a] }

def disableStats (s : Session E M) : Session E M := { s with stats := s.stats.setEnabled false }

def countOutbound (bytes : Nat) (s : Session E M) : Session E M :=
  { s with stats := { s.stats with outbound := s.stats.outbound.record bytes } }

def countInbound (bytes : Nat) (s : Session E M) : Session E M :=
  { s with stats := { s.stats with inbound := s.stats.inbound.record bytes } }

/-! ### Write operations -/

/-- A thread that does not run the io context leaves the start of the operation to `write_strand_`. -/
def performWrite (inIoThread : Bool) (msg : M) (s : Session E M) : Session E M :=
  if inIoThread then { s with writes := s.writes ++ [msg] }.log (.asyncWrite msg)
  else { s with writeStarts := s.writeStarts ++ [msg] }

def write (inIoThread : Bool) (message : M) (s : Session E M) : Session E M :=
  let s := { s with msgQueue := s.msgQueue ++ [message] }.log (.write message)
  if s.msgQueue.length < 2 then s.performWrite inIoThread message else s

/-- Hands a message to `on_write_done_`, or back to the factory where no handler is set. -/
def release (msg : M) (s : Session E M) : Session E M :=
  if s.onWriteDone then s.log (.onWriteDone msg) else s.log (.deallocate msg)

def releaseAll : List M → Session E M → Session E M
  | [], s => s
  | msg :: rest, s => releaseAll rest { s.release msg with msgQueue := rest }

def writeCompleteHandler (bytes : Nat) (msg : M) (s : Session E M) : Session E M :=
  let s := s.countOutbound bytes
  match s.msgQueue with
  | [] => s
  | _ :: rest =>
    let s := { s with msgQueue := rest }.release msg
    match rest with
    | [] => s
    | next :: _ => if s.wsOpen then s.performWrite true next else releaseAll rest s

/-! ### Read operations -/

def consume : Nat → List (List UInt8) → List (List UInt8)
  | _, [] => []
  | bytes, piece :: pieces =>
    if bytes < piece.length then piece.drop bytes :: pieces
    else consume (bytes - piece.length) pieces

/-- Called on `read_strand_` only, where a dispatch to the strand runs the lambda at once. -/
def performRead (s : Session E M) : Session E M :=
  if s.status = .online then { s with reads := s.reads + 1 }.log .asyncRead else s

def readHandler (ec : ErrorCode) (bytes : Nat) : List Stmt :=
  if !ec.failed then [.deliver bytes, .consume bytes, .performRead]
  else if ec ≠ .closed ∧ ec.value ≠ 89 then
    [.statusSet .aborted, .disableStats, .callOnRead ec bytes]
  else [.statusSet .offline, .disableStats, .flushQueue, .callOnRead ec bytes]

def handshakeHandler (ec : ErrorCode) : List Stmt :=
  if ec.failed then [.statusSet .aborted, .disableStats, .callOnReady ec]
  else [.statusSet .online, .callOnReady ec, .performRead]

def acceptedHandler (ec : ErrorCode) : List Stmt :=
  if ec.failed then [.statusSet .aborted, .disableStats, .callOnReady ec]
  else [.statusSet .online, .performRead, .callOnReady ec]

def callOnReady (ec : ErrorCode) (s : Session E M) : Session E M :=
  if s.onReady then s.log (.onReady ec) else s

def callOnRead (ec : ErrorCode) (message : Option (List UInt8)) (bytes : Nat)
    (s : Session E M) : Session E M :=
  if s.onRead then s.log (.onRead ec message bytes) else s

def exec (s : Session E M) : Stmt → Session E M
  | .statusSet cd => { s with status := cd }
  | .disableStats => s.disableStats
  | .callOnReady ec => s.callOnReady ec
  | .performRead => s.performRead
  | .deliver bytes =>
    let s := s.countInbound bytes
    s.callOnRead .success (some (fromConstBuffers s.buffer [] s.gotText)) bytes
  | .consume bytes => { s with buffer := consume bytes s.buffer }
  | .flushQueue => if s.onWriteDone then releaseAll s.msgQueue s else s
  | .callOnRead ec bytes => s.callOnRead ec none bytes

/-- A handler is entered on the free `read_strand_` and runs up to its second statement. -/
def enter (body : List Stmt) (s : Session E M) : Session E M :=
  match body with
  | [] => s
  | stmt :: rest => { s.exec stmt with readStrand := rest }

/-! ### Connection and control operations -/

/-- `none` where an assertion fails. -/
def connect (url : NetUrl E) (s : Session E M) : Option (Session E M) :=
  let s := { s with status := .blocked }
  if url.valid && url.isResolved then
    some ({ s with socketOpen := true, connects := s.connects ++ [url] }.log .connect)
  else none

def accept (s : Session E M) : Session E M := { s with accepts := s.accepts + 1 }.log .accept

def connectHandler (ec : ErrorCode) (url : NetUrl E) (s : Session E M) : Session E M :=
  if !ec.failed then { s with handshakes := s.handshakes + 1 }.log (.asyncHandshake url.host url.path)
  else ({ s with status := .aborted }.disableStats).callOnReady ec

def close (s : Session E M) : Session E M :=
  let s := { s.disableStats with
    closeTmt := true, closeWaits := s.closeWaits.map Wait.cancel ++ [.armed] }
  if s.wsOpen ∧ s.status = .online then { s with closeStarts := s.closeStarts + 1 } else s

def closeTimeout (ec : ErrorCode) (s : Session E M) : Session E M :=
  if !ec.failed then { s with socketOpen := false } else s

def closeHandler (ec : ErrorCode) (s : Session E M) : Session E M :=
  let s := if s.closeTmt then { s with closeWaits := s.closeWaits.map Wait.cancel } else s
  let s := { s with status := .offline }
  if s.onClose then s.log (.onClose ec) else s

/-- `~session`. Both loops call `on_write_done_.value()`, which throws on an empty optional: `none`. -/
def destroy (s : Session E M) : Option (Session E M) :=
  if s.onWriteDone then some (releaseAll s.msgQueue s)
  else if s.msgQueue = [] then some s else none

/-! ### Runs -/

/-- What can happen to a session: the calls of its methods from any thread, the start of a dispatched
    lambda, and the completion of an operation it has started. -/
inductive Event (E M : Type)
  | setOnReady
  | setOnRead
  | setOnClose
  | setOnWriteDone
  | connect (url : NetUrl E)
  | accept
  | write (inIoThread : Bool) (message : M)
  | close
  | connected (url : NetUrl E) (ec : ErrorCode)
  | handshaken (ec : ErrorCode)
  | accepted (ec : ErrorCode)
  | writeStart (message : M)
  | written (message : M) (ec : ErrorCode) (bytes : Nat)
  | received (pieces : List (List UInt8))
  | readFailed (ec : ErrorCode) (pieces : List (List UInt8))
  | strandStep
  | closeStart
  | closed (ec : ErrorCode)
  | closeTimerExpires
  | closeTimerFires (wait : Wait)
  | streamCloses

/-- A started operation completes once. A successful read has appended exactly the next whole message,
    in any pieces; a failed one may leave bytes behind. The stream may be found closed at any moment. -/
def step [DecidableEq E] [DecidableEq M] (s : Session E M) : Event E M → Option (Session E M)
  | .setOnReady => some { s with onReady := true }
  | .setOnRead => some { s with onRead := true }
  | .setOnClose => some { s with onClose := true }
  | .setOnWriteDone => some { s with onWriteDone := true }
  | .connect url => if s.role = .client then s.connect url else none
  | .accept => if s.role = .server then some s.accept else none
  | .write inIoThread message => some (s.write inIoThread message)
  | .close => some s.close
  | .connected url ec =>
    if url ∈ s.connects then
      some ({ s with connects := s.connects.erase url }.connectHandler ec url)
    else none
  | .handshaken ec =>
    if 0 < s.handshakes ∧ s.readStrand = [] then
      some ({ s with handshakes := s.handshakes - 1, wsOpen := s.wsOpen || !ec.failed }.enter
        (handshakeHandler ec))
    else none
  | .accepted ec =>
    if 0 < s.accepts ∧ s.readStrand = [] then
      some ({ s with accepts := s.accepts - 1, wsOpen := s.wsOpen || !ec.failed }.enter
        (acceptedHandler ec))
    else none
  | .writeStart message =>
    if message ∈ s.writeStarts then
      some ({ s with
        writeStarts := s.writeStarts.erase message, writes := s.writes ++ [message] }.log
          (.asyncWrite message))
    else none
  | .written message _ bytes =>
    if message ∈ s.writes then
      some ({ s with writes := s.writes.erase message }.writeCompleteHandler bytes message)
    else none
  | .received pieces =>
    match s.inbox with
    | message :: rest =>
      if 0 < s.reads ∧ s.readStrand = [] ∧ pieces.flatten = message.payload then
        some ({ s with
          reads := s.reads - 1, inbox := rest, gotText := message.text,
          buffer := s.buffer ++ pieces }.enter (readHandler .success message.payload.length))
      else none
    | [] => none
  | .readFailed ec pieces =>
    if 0 < s.reads ∧ s.readStrand = [] ∧ ec.failed then
      some ({ s with reads := s.reads - 1, buffer := s.buffer ++ pieces }.enter
        (readHandler ec pieces.flatten.length))
    else none
  | .strandStep =>
    match s.readStrand with
    | stmt :: rest => some ({ s with readStrand := rest }.exec stmt)
    | [] => none
  | .closeStart =>
    if 0 < s.closeStarts then
      some ({ s with closeStarts := s.closeStarts - 1, closes := s.closes + 1 }.log .asyncClose)
    else none
  | .closed ec =>
    if 0 < s.closes then some ({ s with closes := s.closes - 1 }.closeHandler ec) else none
  | .closeTimerExpires =>
    if .armed ∈ s.closeWaits then
      some { s with closeWaits := s.closeWaits.erase .armed ++ [.expired] }
    else none
  | .closeTimerFires wait =>
    match wait.result with
    | some ec =>
      if wait ∈ s.closeWaits then
        some ({ s with closeWaits := s.closeWaits.erase wait }.closeTimeout ec)
      else none
    | none => none
  | .streamCloses => some { s with wsOpen := false }

inductive Step [DecidableEq E] [DecidableEq M] (s : Session E M) : Event E M → Session E M → Prop
  | setOnReady : Step s .setOnReady { s with onReady := true }
  | setOnRead : Step s .setOnRead { s with onRead := true }
  | setOnClose : Step s .setOnClose { s with onClose := true }
  | setOnWriteDone : Step s .setOnWriteDone { s with onWriteDone := true }
  | connect (url : NetUrl E) (client : s.role = .client) (valid : url.valid = true)
    (resolved : url.isResolved = true) :
    Step s (.connect url)
      ({ s with status := .blocked, socketOpen := true, connects := s.connects ++ [url] }.log .connect)
  | accept (server : s.role = .server) : Step s .accept s.accept
  | write (inIoThread : Bool) (message : M) : Step s (.write inIoThread message) (s.write inIoThread message)
  | close : Step s .close s.close
  | connected (url : NetUrl E) (ec : ErrorCode) (member : url ∈ s.connects) :
    Step s (.connected url ec) ({ s with connects := s.connects.erase url }.connectHandler ec url)
  | handshaken (ec : ErrorCode) (positive : 0 < s.handshakes) (free : s.readStrand = []) :
    Step s (.handshaken ec)
      ({ s with handshakes := s.handshakes - 1, wsOpen := s.wsOpen || !ec.failed }.enter (handshakeHandler ec))
  | accepted (ec : ErrorCode) (positive : 0 < s.accepts) (free : s.readStrand = []) :
    Step s (.accepted ec)
      ({ s with accepts := s.accepts - 1, wsOpen := s.wsOpen || !ec.failed }.enter (acceptedHandler ec))
  | writeStart (message : M) (member : message ∈ s.writeStarts) :
    Step s (.writeStart message)
      ({ s with
        writeStarts := s.writeStarts.erase message, writes := s.writes ++ [message] }.log (.asyncWrite message))
  | written (message : M) (ec : ErrorCode) (bytes : Nat) (member : message ∈ s.writes) :
    Step s (.written message ec bytes)
      ({ s with writes := s.writes.erase message }.writeCompleteHandler bytes message)
  | received (pieces : List (List UInt8)) (message : WsMessage) (rest : List WsMessage)
    (next : s.inbox = message :: rest) (positive : 0 < s.reads) (free : s.readStrand = [])
    (whole : pieces.flatten = message.payload) :
    Step s (.received pieces)
      ({ s with
        reads := s.reads - 1, inbox := rest, gotText := message.text,
        buffer := s.buffer ++ pieces }.enter (readHandler .success message.payload.length))
  | readFailed (ec : ErrorCode) (pieces : List (List UInt8)) (positive : 0 < s.reads) (free : s.readStrand = [])
    (failed : ec.failed = true) :
    Step s (.readFailed ec pieces)
      ({ s with reads := s.reads - 1, buffer := s.buffer ++ pieces }.enter
        (readHandler ec pieces.flatten.length))
  | strandStep (stmt : Stmt) (rest : List Stmt) (busy : s.readStrand = stmt :: rest) :
    Step s .strandStep ({ s with readStrand := rest }.exec stmt)
  | closeStart (positive : 0 < s.closeStarts) :
    Step s .closeStart ({ s with closeStarts := s.closeStarts - 1, closes := s.closes + 1 }.log .asyncClose)
  | closed (ec : ErrorCode) (positive : 0 < s.closes) :
    Step s (.closed ec) ({ s with closes := s.closes - 1 }.closeHandler ec)
  | closeTimerExpires (member : .armed ∈ s.closeWaits) :
    Step s .closeTimerExpires { s with closeWaits := s.closeWaits.erase .armed ++ [.expired] }
  | closeTimerFires (wait : Wait) (ec : ErrorCode) (result : wait.result = some ec)
    (member : wait ∈ s.closeWaits) :
    Step s (.closeTimerFires wait) ({ s with closeWaits := s.closeWaits.erase wait }.closeTimeout ec)
  | streamCloses : Step s .streamCloses { s with wsOpen := false }

theorem step_cases [DecidableEq E] [DecidableEq M] {s t : Session E M} {e : Event E M} (h : s.step e = some t) :
    s.Step e t := by
  cases e with
  | setOnReady | setOnRead | setOnClose | setOnWriteDone | write | close | streamCloses =>
    cases h
    constructor
  | connect url =>
    simp only [step, connect, Option.ite_none_right_eq_some, Bool.and_eq_true, Option.some.injEq] at h
    obtain ⟨client, ⟨valid, resolved⟩, rfl⟩ := h
    exact .connect url client valid resolved
  | accept =>
    simp only [step, Option.ite_none_right_eq_some, Option.some.injEq] at h
    rcases h with ⟨server, rfl⟩
    exact .accept server
  | connected url ec =>
    simp only [step, Option.ite_none_right_eq_some, Option.some.injEq] at h
    rcases h with ⟨member, rfl⟩
    exact .connected url ec member
  | handshaken ec =>
    simp only [step, Option.ite_none_right_eq_some, Option.some.injEq] at h
    obtain ⟨⟨positive, free⟩, rfl⟩ := h
    exact .handshaken ec positive free
  | accepted ec =>
    simp only [step, Option.ite_none_right_eq_some, Option.some.injEq] at h
    obtain ⟨⟨positive, free⟩, rfl⟩ := h
    exact .accepted ec positive free
  | writeStart message =>
    simp only [step, Option.ite_none_right_eq_some, Option.some.injEq] at h
    rcases h with ⟨member, rfl⟩
    exact .writeStart message member
  | written message ec bytes =>
    simp only [step, Option.ite_none_right_eq_some, Option.some.injEq] at h
    rcases h with ⟨member, rfl⟩
    exact .written message ec bytes member
  | received pieces =>
    simp only [step] at h
    split at h
    · rename_i message rest next
      simp only [Option.ite_none_right_eq_some, Option.some.injEq] at h
      obtain ⟨⟨positive, free, whole⟩, rfl⟩ := h
      exact .received pieces message rest next positive free whole
    · cases h
  | readFailed ec pieces =>
    simp only [step, Option.ite_none_right_eq_some, Option.some.injEq] at h
    obtain ⟨⟨positive, free, failed⟩, rfl⟩ := h
    exact .readFailed ec pieces positive free failed
  | strandStep =>
    simp only [step] at h
    split at h
    · rename_i stmt rest busy
      cases h
      exact .strandStep stmt rest busy
    · cases h
  | closeStart =>
    simp only [step, Option.ite_none_right_eq_some, Option.some.injEq] at h
    rcases h with ⟨positive, rfl⟩
    exact .closeStart positive
  | closed ec =>
    simp only [step, Option.ite_none_right_eq_some, Option.some.injEq] at h
    rcases h with ⟨positive, rfl⟩
    exact .closed ec positive
  | closeTimerExpires =>
    simp only [step, Option.ite_none_right_eq_some, Option.some.injEq] at h
    rcases h with ⟨member, rfl⟩
    exact .closeTimerExpires member
  | closeTimerFires wait =>
    simp only [step] at h
    split at h
    · rename_i ec result
      simp only [Option.ite_none_right_eq_some, Option.some.injEq] at h
      rcases h with ⟨member, rfl⟩
      exact .closeTimerFires wait ec result member
    · cases h

def initial (role : Role) (inbox : List WsMessage) : Session E M :=
  { role, inbox, socketOpen := role == .server }

def Idle (s : Session E M) : Prop :=
  s.connects = [] ∧ s.handshakes = 0 ∧ s.accepts = 0 ∧ s.writeStarts = [] ∧ s.writes = [] ∧
    s.reads = 0 ∧ s.readStrand = [] ∧ s.closeStarts = 0 ∧ s.closes = 0

instance (s : Session E M) : Decidable s.Idle := by unfold Idle; infer_instance

def machine (E M : Type) [DecidableEq E] [DecidableEq M] :
    Transition.System (Session E M) (Event E M) := ⟨step⟩

def opening : List (Event Unit Nat) :=
  [.setOnReady, .setOnRead, .connect { hostname := ['h'], endpointSeq := [()] },
    .connected { hostname := ['h'], endpointSeq := [()] } .success, .handshaken .success,
    .strandStep, .strandStep]

end Session

end MaxNet
