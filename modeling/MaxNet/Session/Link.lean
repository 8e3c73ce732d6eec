import MaxNet.Session.Receive
import MaxNet.Session.WriteOrder

namespace MaxNet

def Role.other : Role → Role
  | .client => .server
  | .server => .client

@[simp] theorem Role.other_other (r : Role) : r.other.other = r := by cases r <;> rfl

theorem Role.other_ne (r : Role) : r.other ≠ r := by cases r <;> simp [Role.other]

theorem Role.eq_or_other (q r : Role) : q = r ∨ q = r.other := by cases q <;> cases r <;> simp [Role.other]

namespace Session

variable {E M : Type}

def arrive (later : List WsMessage) (s : Session E M) : Session E M := { s with inbox := s.inbox ++ later }

@[simp] theorem arrive_nil (s : Session E M) : s.arrive [] = s := by simp [arrive]

theorem arrive_arrive (first second : List WsMessage) (s : Session E M) :
    (s.arrive first).arrive second = s.arrive (first ++ second) := by
  simp [arrive]

theorem initial_arrive (role : Role) (inbox later : List WsMessage) :
    (initial role inbox : Session E M).arrive later = initial role (inbox ++ later) := rfl

/-- The messages that a step hands to the stream while it is open. A stream that is not open refuses the
    operation, and nothing is put on the wire. -/
def sends (s t : Session E M) : List M :=
  if s.wsOpen then t.view.handed.drop s.view.handed.length else []

section Arrive

variable (later : List WsMessage)

theorem release_arrive (m : M) (s : Session E M) : (s.arrive later).release m = (s.release m).arrive later := by
  unfold release
  show (if s.onWriteDone then _ else _) = _
  split <;> rfl

theorem releaseAll_arrive (ms : List M) (s : Session E M) :
    releaseAll ms (s.arrive later) = (releaseAll ms s).arrive later := by
  induction ms generalizing s with
  | nil => rfl
  | cons m rest ih =>
    rw [releaseAll, releaseAll, release_arrive, ← ih]
    rfl

theorem performWrite_arrive (inIoThread : Bool) (m : M) (s : Session E M) :
    (s.arrive later).performWrite inIoThread m = (s.performWrite inIoThread m).arrive later := by
  cases inIoThread <;> rfl

theorem write_arrive (inIoThread : Bool) (m : M) (s : Session E M) :
    (s.arrive later).write inIoThread m = (s.write inIoThread m).arrive later := by
  let t := { s with msgQueue := s.msgQueue ++ [m] }.log (.write m)
  show (if t.msgQueue.length < 2 then (t.arrive later).performWrite inIoThread m else t.arrive later) =
    (if t.msgQueue.length < 2 then t.performWrite inIoThread m else t).arrive later
  rw [performWrite_arrive, apply_ite (arrive later)]

theorem writeCompleteHandler_arrive (bytes : Nat) (m : M) (s : Session E M) :
    (s.arrive later).writeCompleteHandler bytes m = (s.writeCompleteHandler bytes m).arrive later := by
  have popped (rest : List M) : ({ (s.arrive later).countOutbound bytes with msgQueue := rest } : Session E M).release m =
      (({ s.countOutbound bytes with msgQueue := rest } : Session E M).release m).arrive later :=
    release_arrive later m { s.countOutbound bytes with msgQueue := rest }
  have queue : ((s.arrive later).countOutbound bytes).msgQueue = s.msgQueue := rfl
  have same : (s.countOutbound bytes).msgQueue = s.msgQueue := rfl
  simp only [writeCompleteHandler, queue, same]
  cases s.msgQueue with
  | nil => rfl
  | cons front rest =>
    cases rest with
    | nil => exact popped []
    | cons next rest =>
      simp only [popped, performWrite_arrive, releaseAll_arrive]
      exact (apply_ite (arrive later) _ _ _).symm

theorem callOnReady_arrive (ec : ErrorCode) (s : Session E M) :
    (s.arrive later).callOnReady ec = (s.callOnReady ec).arrive later :=
  (apply_ite (arrive later) (s.onReady = true) (s.log (.onReady ec)) s).symm

theorem callOnRead_arrive (ec : ErrorCode) (message : Option (List UInt8)) (bytes : Nat) (s : Session E M) :
    (s.arrive later).callOnRead ec message bytes = (s.callOnRead ec message bytes).arrive later :=
  (apply_ite (arrive later) (s.onRead = true) (s.log (.onRead ec message bytes)) s).symm

theorem exec_arrive (s : Session E M) (stmt : Stmt) : (s.arrive later).exec stmt = (s.exec stmt).arrive later := by
  cases stmt with
  | statusSet cd => rfl
  | disableStats => rfl
  | callOnReady ec => exact callOnReady_arrive later ec s
  | performRead =>
    exact (apply_ite (arrive later) (s.status = .online) ({ s with reads := s.reads + 1 }.log .asyncRead) s).symm
  | deliver bytes => exact callOnRead_arrive later .success _ bytes (s.countInbound bytes)
  | consume bytes => rfl
  | flushQueue =>
    show (if s.onWriteDone then releaseAll s.msgQueue (s.arrive later) else s.arrive later) = _
    rw [releaseAll_arrive]
    exact (apply_ite (arrive later) (s.onWriteDone = true) _ s).symm
  | callOnRead ec bytes => exact callOnRead_arrive later ec none bytes s

theorem enter_arrive (body : List Stmt) (s : Session E M) :
    (s.arrive later).enter body = (s.enter body).arrive later := by
  cases body with
  | nil => rfl
  | cons stmt rest =>
    show ({ (s.arrive later).exec stmt with readStrand := rest } : Session E M) = _
    rw [exec_arrive]
    rfl

theorem connectHandler_arrive (ec : ErrorCode) (url : NetUrl E) (s : Session E M) :
    (s.arrive later).connectHandler ec url = (s.connectHandler ec url).arrive later := by
  unfold connectHandler
  cases ec.failed with
  | true => exact callOnReady_arrive later ec ({ s with status := .aborted }.disableStats)
  | false => rfl

theorem close_arrive (s : Session E M) : (s.arrive later).close = s.close.arrive later := by
  let t : Session E M := { s.disableStats with
    closeTmt := true, closeWaits := s.closeWaits.map Wait.cancel ++ [.armed] }
  exact (apply_ite (arrive later) (t.wsOpen ∧ t.status = .online) { t with closeStarts := t.closeStarts + 1 } t).symm

theorem closeHandler_arrive (ec : ErrorCode) (s : Session E M) :
    (s.arrive later).closeHandler ec = (s.closeHandler ec).arrive later := by
  let t : Session E M := if s.closeTmt then { s with closeWaits := s.closeWaits.map Wait.cancel } else s
  let u : Session E M := { t with status := .offline }
  have same : (if (s.arrive later).closeTmt then
      { s.arrive later with closeWaits := (s.arrive later).closeWaits.map Wait.cancel } else s.arrive later) =
      t.arrive later :=
    (apply_ite (arrive later) (s.closeTmt = true) { s with closeWaits := s.closeWaits.map Wait.cancel } s).symm
  unfold closeHandler
  rw [same]
  exact (apply_ite (arrive later) (u.onClose = true) (u.log (.onClose ec)) u).symm

theorem closeTimeout_arrive (ec : ErrorCode) (s : Session E M) :
    (s.arrive later).closeTimeout ec = (s.closeTimeout ec).arrive later :=
  (apply_ite (arrive later) ((!ec.failed) = true) { s with socketOpen := false } s).symm

variable [DecidableEq E] [DecidableEq M]

/-- A step takes place in the same way where more messages are on their way. -/
theorem step_arrive {s t : Session E M} {e : Event E M} (h : s.step e = some t) :
    (s.arrive later).step e = some (t.arrive later) := by
  cases step_cases h with
  | setOnReady | setOnRead | setOnClose | setOnWriteDone | streamCloses => rfl
  | connect url client valid resolved =>
    show (if s.role = .client then (s.arrive later).connect url else none) = _
    rw [if_pos client, connect, valid, resolved]
    rfl
  | accept server => exact if_pos server
  | write inIoThread m => exact congrArg some (write_arrive later inIoThread m s)
  | close => exact congrArg some (close_arrive later s)
  | connected url ec member =>
    exact (if_pos member).trans
      (congrArg some (connectHandler_arrive later ec url { s with connects := s.connects.erase url }))
  | handshaken ec positive free =>
    exact (if_pos ⟨positive, free⟩).trans (congrArg some (enter_arrive later (handshakeHandler ec)
      { s with handshakes := s.handshakes - 1, wsOpen := s.wsOpen || !ec.failed }))
  | accepted ec positive free =>
    exact (if_pos ⟨positive, free⟩).trans (congrArg some (enter_arrive later (acceptedHandler ec)
      { s with accepts := s.accepts - 1, wsOpen := s.wsOpen || !ec.failed }))
  | writeStart m member => exact if_pos member
  | written m ec bytes member =>
    exact (if_pos member).trans
      (congrArg some (writeCompleteHandler_arrive later bytes m { s with writes := s.writes.erase m }))
  | received pieces message rest next positive free whole =>
    have queued : (s.arrive later).inbox = message :: (rest ++ later) := by simp [arrive, next]
    simp only [step, queued]
    exact (if_pos ⟨positive, free, whole⟩).trans (congrArg some (enter_arrive later _
      { s with
        reads := s.reads - 1, inbox := rest, gotText := message.text, buffer := s.buffer ++ pieces }))
  | readFailed ec pieces positive free failed =>
    exact (if_pos ⟨positive, free, failed⟩).trans (congrArg some (enter_arrive later _
      { s with reads := s.reads - 1, buffer := s.buffer ++ pieces }))
  | strandStep stmt rest busy =>
    have running : (s.arrive later).readStrand = stmt :: rest := busy
    simp only [step, running]
    exact congrArg some (exec_arrive later { s with readStrand := rest } stmt)
  | closeStart positive => exact if_pos positive
  | closed ec positive =>
    exact (if_pos positive).trans (congrArg some (closeHandler_arrive later ec { s with closes := s.closes - 1 }))
  | closeTimerExpires member => exact if_pos member
  | closeTimerFires wait ec result member =>
    simp only [step, result]
    exact (if_pos member).trans
      (congrArg some (closeTimeout_arrive later ec { s with closeWaits := s.closeWaits.erase wait }))

theorem run_arrive {s t : Session E M} {es : List (Event E M)} (ran : (machine E M).run s es = some t) :
    (machine E M).run (s.arrive later) es = some (t.arrive later) := by
  induction es generalizing s with
  | nil =>
    cases ran
    rfl
  | cons e es ih =>
    obtain ⟨u, taken, rest⟩ := Transition.System.run_cons_some.mp ran
    exact Transition.System.run_cons_some.mpr ⟨u.arrive later, step_arrive later taken, ih rest⟩

theorem each_arrive {Q : Session E M → Event E M → Prop} (blind : ∀ s e, Q s e → Q (s.arrive later) e)
    {s t : Session E M} {es : List (Event E M)} (ran : (machine E M).run s es = some t)
    (each : (machine E M).Each Q s es) : (machine E M).Each Q (s.arrive later) es := by
  induction es generalizing s with
  | nil => exact True.intro
  | cons e es ih =>
    obtain ⟨u, taken, rest⟩ := Transition.System.run_cons_some.mp ran
    refine ⟨blind s e each.1, fun v step => ?_⟩
    obtain rfl : u.arrive later = v := Option.some.inj ((step_arrive later taken).symm.trans step)
    exact ih rest (each.2 u taken)

end Arrive

end Session

/-- Two sessions on the two ends of a connection. `sent` are the messages that the stream of an end has put on
    the wire so far; they reach the other end whole and in their order, or not at all. -/
structure Link (E M : Type) where
  ends : Role → Session E M
  sent : Role → List M

namespace Link

variable {E M : Type}

def start : Link E M := ⟨fun r => Session.initial r [], fun _ => []⟩

section Machine

variable [DecidableEq E] [DecidableEq M] (frame : Role → M → WsMessage)

def step (l : Link E M) (e : Role × Session.Event E M) : Option (Link E M) :=
  ((l.ends e.1).step e.2).map fun t =>
    let messages := (l.ends e.1).sends t
    { ends := fun r => if r = e.1 then t else (l.ends r).arrive (messages.map (frame e.1))
      sent := fun r => if r = e.1 then l.sent r ++ messages else l.sent r }

def machine : Transition.System (Link E M) (Role × Session.Event E M) := ⟨step frame⟩

def incoming (l : Link E M) (r : Role) : List WsMessage := (l.sent r.other).map (frame r.other)

theorem step_cases {frame : Role → M → WsMessage} {l k : Link E M} {q : Role} {e : Session.Event E M}
    (h : (machine frame).step l (q, e) = some k) :
    ∃ t, (l.ends q).step e = some t ∧ k.ends q = t ∧ k.sent q = l.sent q ++ (l.ends q).sends t ∧
      k.ends q.other = (l.ends q.other).arrive (((l.ends q).sends t).map (frame q)) ∧
      k.sent q.other = l.sent q.other := by
  obtain ⟨t, taken, rfl⟩ := Option.map_eq_some_iff.mp h
  exact ⟨t, taken, if_pos rfl, if_pos rfl, if_neg q.other_ne, if_neg q.other_ne⟩

def eventsOf (r : Role) (es : List (Role × Session.Event E M)) : List (Session.Event E M) :=
  es.filterMap fun e => if e.1 = r then some e.2 else none

variable {frame} {Q : Session E M → Session.Event E M → Prop}

/-- What the other end is going to send may as well be known from the start. -/
theorem run_end (blind : ∀ later s e, Q s e → Q (s.arrive later) e) (r : Role) {k l : Link E M}
    {es : List (Role × Session.Event E M)} (ran : (machine frame).run k es = some l)
    (each : (machine frame).Each (fun l e => Q (l.ends e.1) e.2) k es) :
    ∃ later, l.sent r.other = k.sent r.other ++ later ∧
      (Session.machine E M).run ((k.ends r).arrive (later.map (frame r.other))) (eventsOf r es) = some (l.ends r) ∧
      (Session.machine E M).Each Q ((k.ends r).arrive (later.map (frame r.other))) (eventsOf r es) := by
  induction es generalizing k with
  | nil =>
    cases ran
    exact ⟨[], (List.append_nil _).symm, congrArg some (Session.arrive_nil _), True.intro⟩
  | cons e es ih =>
    obtain ⟨j, taken, rest⟩ := Transition.System.run_cons_some.mp ran
    obtain ⟨later, sent, own, asked⟩ := ih rest (each.2 j taken)
    rcases e with ⟨q, e⟩
    obtain ⟨t, step, stepped, added, arrived, kept⟩ := step_cases taken
    rcases Role.eq_or_other q r with rfl | rfl
    · have first : eventsOf q ((q, e) :: es) = e :: eventsOf q es := List.filterMap_cons_some (if_pos rfl)
      rw [stepped] at own asked
      have moved := Session.step_arrive (later.map (frame q.other)) step
      refine ⟨later, kept ▸ sent, ?_, ?_⟩
      · rw [first]
        exact Transition.System.run_cons_some.mpr ⟨_, moved, own⟩
      · rw [first]
        refine ⟨blind _ _ e each.1, fun u taken => ?_⟩
        obtain rfl := Option.some.inj (moved.symm.trans taken)
        exact asked
    · have none : eventsOf r ((r.other, e) :: es) = eventsOf r es := List.filterMap_cons_none (if_neg r.other_ne)
      rw [Role.other_other] at arrived
      rw [arrived, Session.arrive_arrive, ← List.map_append] at own asked
      rw [none]
      exact ⟨_, by rw [sent, added, List.append_assoc], own, asked⟩

/-- Each end of a link is a session by itself, which is given the messages that the other end has sent. -/
theorem ends_are_sessions (blind : ∀ later s e, Q s e → Q (s.arrive later) e)
    (es : List (Role × Session.Event E M)) (l : Link E M) (ran : (machine frame).run start es = some l)
    (each : (machine frame).Each (fun l e => Q (l.ends e.1) e.2) start es) (r : Role) :
    (Session.machine E M).run (Session.initial r (l.incoming frame r)) (eventsOf r es) = some (l.ends r) ∧
      (Session.machine E M).Each Q (Session.initial r (l.incoming frame r)) (eventsOf r es) := by
  obtain ⟨later, sent, own, asked⟩ := run_end blind r ran each
  have all : l.incoming frame r = later.map (frame r.other) := congrArg (List.map (frame r.other)) sent
  rw [all]
  exact ⟨own, asked⟩

end Machine

def byteFrame (_ : Role) (n : Nat) : WsMessage := ⟨[n.toUInt8], false⟩

def bothOpen : List (Role × Session.Event Unit Nat) :=
  Session.opening.map (fun e => (.client, e)) ++
    [(.server, .setOnReady), (.server, .setOnRead), (.server, .accept), (.server, .accepted .success),
      (.server, .strandStep), (.server, .strandStep)]

def exchange : List (Role × Session.Event Unit Nat) :=
  bothOpen ++ [(.client, .write true 1), (.client, .write false 2), (.server, .received [[1]]), (.server, .write true 3),
    (.server, .strandStep), (.server, .strandStep), (.client, .written 1 .success 1), (.server, .received [[2]]),
    (.client, .written 2 .success 1)]

theorem ends_are_sessions_exchange : ∃ l, (machine byteFrame).run start exchange = some l ∧
    (Session.machine Unit Nat).run (Session.initial .server (l.incoming byteFrame .server)) (eventsOf .server exchange) =
      some (l.ends .server) := by
  have ran : ((machine byteFrame).run start exchange).isSome = true := by decide
  obtain ⟨l, final⟩ := Option.isSome_iff_exists.mp ran
  have blind : ∀ later (s : Session Unit Nat) e, s.PlainWrites e → (s.arrive later).PlainWrites e :=
    fun _ _ e plain => by cases e <;> exact plain
  exact ⟨l, final, (ends_are_sessions blind exchange l final (by decide) .server).1⟩

end Link

end MaxNet
