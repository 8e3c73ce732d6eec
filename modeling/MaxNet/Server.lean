import MaxNet.Listener.HandOff
import MaxNet.Session.Model

namespace MaxNet

/-- The class of the sessions of the server. A socket that has been moved from and a null pointer are `none`, as is
    what comes of a constructor that does not return. -/
structure SessionClass (C S : Type) where
  construct (nextLayer : Option C) (refc : Option Int) : Option S
  status : S → StatusCode
  close : S → S

structure WebsocketServer (C S : Type) where
  listener : Listener Unit C := {}
  sessions : List S := []
  crashed : Bool := false

namespace WebsocketServer

variable {C S : Type} (sessionImpl : SessionClass C S)

def start (open_ setOption bind listen : ErrorCode) (s : WebsocketServer C S) : WebsocketServer C S :=
  { s with listener := (s.listener.startListen () open_ setOption bind listen).1 }

def doHandleSession (_ : ErrorCode) (sock : Option C) (s : WebsocketServer C S) : Option (WebsocketServer C S) :=
  (sessionImpl.construct sock none).map fun session => { s with sessions := s.sessions ++ [session] }

/-- The handler has been called with the socket, and the rest of the hand-off never runs. -/
def crash (accept : Accept Unit × ErrorCode) (rest : List (Accept Unit × ErrorCode)) (s : WebsocketServer C S) :
    WebsocketServer C S :=
  { s with
    crashed := true
    listener := { s.listener with
      posted := rest
      socket := none
      calls := s.listener.calls ++ [(accept.1.handler, accept.2, s.listener.socket)] } }

def shutdown (s : WebsocketServer C S) : WebsocketServer C S :=
  let s := if s.listener.status = .open then { s with listener := s.listener.stopListen } else s
  { s with sessions := s.sessions.map fun sess =>
      if sessionImpl.status sess = .online ∨ sessionImpl.status sess = .suspended then sessionImpl.close sess
      else sess }

inductive Event (C S : Type)
  | start (open_ setOption bind listen : ErrorCode)
  | shutdown
  | acceptSucceeds (accept : Accept Unit) (connection : C)
  | acceptFails (accept : Accept Unit) (ec : ErrorCode)
  | acceptHandler
  | acquire
  | handOff
  | session (i : Nat) (next : S)

def listens (threads : Nat) (e : Listener.Event Unit C) (s : WebsocketServer C S) : Option (WebsocketServer C S) :=
  (Listener.step threads s.listener e).map fun listener => { s with listener }

def handOff (threads : Nat) (s : WebsocketServer C S) : Option (WebsocketServer C S) :=
  match s.listener.posted with
  | accept :: rest =>
    match s.doHandleSession sessionImpl accept.2 s.listener.socket with
    | some t => (Listener.step threads s.listener .handOff).map fun listener => { t with listener }
    | none => if s.listener.ThreadFree threads then some (s.crash accept rest) else none
  | [] => none

def step (threads : Nat) (s : WebsocketServer C S) (e : Event C S) : Option (WebsocketServer C S) :=
  if s.crashed then none
  else
    match e with
    | .start open_ setOption bind listen => some (s.start open_ setOption bind listen)
    | .shutdown => some (s.shutdown sessionImpl)
    | .acceptSucceeds accept connection => s.listens threads (.acceptSucceeds accept connection)
    | .acceptFails accept ec => s.listens threads (.acceptFails accept ec)
    | .acceptHandler => s.listens threads .acceptHandler
    | .acquire => s.listens threads .acquire
    | .handOff => s.handOff sessionImpl threads
    | .session i next => some { s with sessions := s.sessions.set i next }

def machine (threads : Nat) : Transition.System (WebsocketServer C S) (Event C S) := ⟨step sessionImpl threads⟩

/-- The connections that were accepted without an error have been handed over or wait for it, and there is a
    session for each that has been. -/
structure RecordsReal (s : WebsocketServer C S) : Prop where
  accepted : s.listener.accepted.length = s.listener.served + s.listener.waiting
  sessions : s.sessions.length = s.listener.served

/-- A hand-off that runs is that of a connection accepted without an error exactly if the constructor returns. -/
def HandsOverReal (s : WebsocketServer C S) : Event C S → Prop
  | .handOff => ∀ accept ∈ s.listener.posted.head?,
      (sessionImpl.construct s.listener.socket none).isSome = !accept.2.failed
  | _ => True

instance (s : WebsocketServer C S) (e : Event C S) : Decidable (s.HandsOverReal sessionImpl e) := by
  unfold HandsOverReal
  split <;> infer_instance

def Event.listener? : Event C S → Option (Listener.Event Unit C)
  | start open_ setOption bind listen => some (.startListen () open_ setOption bind listen)
  | acceptSucceeds accept connection => some (.acceptSucceeds accept connection)
  | acceptFails accept ec => some (.acceptFails accept ec)
  | acceptHandler => some .acceptHandler
  | acquire => some .acquire
  | _ => none

inductive Step (threads : Nat) (s : WebsocketServer C S) : Event C S → WebsocketServer C S → Prop
  | listened {e : Event C S} {f : Listener.Event Unit C} {listener : Listener Unit C} (same : e.listener? = some f)
      (moved : Listener.step threads s.listener f = some listener) : Step threads s e { s with listener }
  | shutdown : Step threads s .shutdown (s.shutdown sessionImpl)
  | handed {accept : Accept Unit × ErrorCode} {rest : List (Accept Unit × ErrorCode)} {session : S}
      {listener : Listener Unit C} (posted : s.listener.posted = accept :: rest)
      (returns : sessionImpl.construct s.listener.socket none = some session)
      (moved : Listener.step threads s.listener .handOff = some listener) :
      Step threads s .handOff { s with listener, sessions := s.sessions ++ [session] }
  | crashed {accept : Accept Unit × ErrorCode} {rest : List (Accept Unit × ErrorCode)}
      (posted : s.listener.posted = accept :: rest) (lost : sessionImpl.construct s.listener.socket none = none) :
      Step threads s .handOff (s.crash accept rest)
  | session {i : Nat} {next : S} : Step threads s (.session i next) { s with sessions := s.sessions.set i next }

variable {sessionImpl} {threads : Nat} {s t : WebsocketServer C S} {e : Event C S}

theorem step_cases (h : step sessionImpl threads s e = some t) :
    s.crashed = false ∧ Step sessionImpl threads s e t := by
  unfold step at h
  by_cases ended : s.crashed = true
  · rw [if_pos ended] at h
    cases h
  · rw [if_neg ended] at h
    refine ⟨by simpa using ended, ?_⟩
    have listens {e : Event C S} {f : Listener.Event Unit C} (same : e.listener? = some f)
        (h : s.listens threads f = some t) : Step sessionImpl threads s e t := by
      obtain ⟨listener, taken, rfl⟩ := Option.map_eq_some_iff.mp h
      exact .listened same taken
    cases e with
    | start open_ setOption bind listen => exact listens rfl h
    | shutdown =>
      cases h
      exact .shutdown
    | acceptSucceeds accept connection => exact listens rfl h
    | acceptFails accept ec => exact listens rfl h
    | acceptHandler => exact listens rfl h
    | acquire => exact listens rfl h
    | handOff =>
      simp only [handOff, doHandleSession] at h
      split at h
      · rename_i accept rest posted
        cases made : sessionImpl.construct s.listener.socket none with
        | some session =>
          rw [made] at h
          obtain ⟨listener, taken, rfl⟩ := Option.map_eq_some_iff.mp h
          exact .handed posted made taken
        | none =>
          rw [made] at h
          obtain ⟨_, same⟩ := Option.ite_none_right_eq_some.mp h
          cases same
          exact .crashed posted made
      · cases h
    | session i next =>
      cases h
      exact .session

theorem listener_ne_handOff {f : Listener.Event Unit C} (same : e.listener? = some f) : f ≠ .handOff := by
  rintro rfl
  cases e <;> cases same

theorem shutdown_eq (sessionImpl : SessionClass C S) (s : WebsocketServer C S) :
    ∃ listener : Listener Unit C, s.shutdown sessionImpl = { s with
      listener, sessions := (s.shutdown sessionImpl).sessions } ∧
    (listener = s.listener ∨ listener = s.listener.stopListen) ∧
    (s.shutdown sessionImpl).sessions.length = s.sessions.length := by
  unfold WebsocketServer.shutdown
  by_cases listening : s.listener.status = .open
  · rw [if_pos listening]
    exact ⟨_, rfl, Or.inr rfl, List.length_map ..⟩
  · rw [if_neg listening]
    exact ⟨_, rfl, Or.inl rfl, List.length_map ..⟩

/-- The accept whose handler has been called is waiting no longer. -/
theorem served_crash {accept : Accept Unit × ErrorCode} {rest : List (Accept Unit × ErrorCode)}
    (posted : s.listener.posted = accept :: rest) :
    (s.crash accept rest).listener.served = s.listener.served + [accept].countP Listener.succeeded ∧
      (s.crash accept rest).listener.waiting + [accept].countP Listener.succeeded = s.listener.waiting := by
  constructor
  · simp only [crash, Listener.served, List.countP_append]
    rfl
  · simp only [crash, Listener.waiting, posted, List.countP_cons, List.countP_nil]
    omega

theorem RecordsReal.step (records : s.RecordsReal) (real : s.HandsOverReal sessionImpl e)
    (taken : step sessionImpl threads s e = some t) : t.RecordsReal := by
  have before := records.sessions
  have accepted := records.accepted
  cases (step_cases taken).2 with
  | listened same moved =>
    have inverted := Listener.step_cases moved
    exact
      { accepted := Listener.accepted_step inverted accepted
        sessions := before.trans (Listener.served_step inverted (listener_ne_handOff same)).symm }
  | shutdown =>
    obtain ⟨listener, same, stopped, length⟩ := shutdown_eq sessionImpl s
    rw [same]
    rcases stopped with rfl | rfl
    · exact ⟨accepted, length.trans before⟩
    · exact ⟨accepted, length.trans before⟩
  | @handed accept rest session listener posted returns moved =>
    have inverted := Listener.step_cases moved
    have succeeded : accept.2.failed = false := by
      have agree := real accept (by simp [posted])
      simpa [returns] using agree
    have served := Listener.served_step_handOff posted inverted
    have one : [accept].countP Listener.succeeded = 1 := by simp [Listener.succeeded, succeeded]
    refine ⟨Listener.accepted_step inverted accepted, ?_⟩
    show (s.sessions ++ [session]).length = listener.served
    rw [List.length_append, List.length_singleton]
    omega
  | @crashed accept rest posted lost =>
    have failed : accept.2.failed = true := by
      have agree := real accept (by simp [posted])
      simpa [lost] using agree
    have none : [accept].countP Listener.succeeded = 0 := by simp [Listener.succeeded, failed]
    obtain ⟨served, waiting⟩ := served_crash posted
    refine ⟨?_, ?_⟩
    · show s.listener.accepted.length = _
      omega
    · show s.sessions.length = _
      omega
  | session => exact ⟨accepted, (List.length_set ..).trans before⟩

theorem RecordsReal.real (before : s.RecordsReal) (taken : WebsocketServer.step sessionImpl threads s e = some t)
    (after : t.RecordsReal) : s.HandsOverReal sessionImpl e := by
  have sessions := before.sessions
  have sessions' := after.sessions
  cases (step_cases taken).2 with
  | @handed accept rest session listener posted returns moved =>
    intro front first
    obtain rfl : accept = front := by simpa [posted] using first
    have served := Listener.served_step_handOff posted (Listener.step_cases moved)
    change (s.sessions ++ [session]).length = listener.served at sessions'
    rw [List.length_append, List.length_singleton] at sessions'
    by_contra differ
    have failed : accept.2.failed = true := by simpa [returns] using differ
    have none : [accept].countP Listener.succeeded = 0 := by simp [Listener.succeeded, failed]
    omega
  | @crashed accept rest posted lost =>
    intro front first
    obtain rfl : accept = front := by simpa [posted] using first
    have served := (served_crash posted).1
    change s.sessions.length = _ at sessions'
    by_contra differ
    have succeeded : accept.2.failed = false := by simpa [lost] using differ
    have one : [accept].countP Listener.succeeded = 1 := by simp [Listener.succeeded, succeeded]
    omega
  | listened same => cases e <;> first | exact True.intro | cases same
  | _ => exact True.intro

/-- The server records exactly the connections that are accepted and handed over in every state of a run if and only if
    the constructor, called with a null counter, returns for each hand-off of an accept without an error and for no
    other. -/
theorem records_real_iff (sessionImpl : SessionClass C S) (threads : Nat) (es : List (Event C S))
    (ran : (machine sessionImpl threads).run {} es = some t) :
    (machine sessionImpl threads).Always RecordsReal {} es ↔
      (machine sessionImpl threads).Each (HandsOverReal sessionImpl) {} es := by
  have start : RecordsReal ({} : WebsocketServer C S) := ⟨rfl, rfl⟩
  apply Transition.System.always_iff_each (I := RecordsReal) (R := fun _ _ => True) ?_ ?_ ?_ start
    Transition.System.each_true ran
  · intro s records
    exact records
  · intro s e t records _ real taken
    exact records.step real taken
  · intro s e t records _ taken after
    exact records.real taken after

/-- `session.h`, whose constructor counts the session in `*refc`. -/
def serverSession : SessionClass Nat (Session Unit Nat) where
  construct _ refc := refc.map fun _ => .initial .server []
  status := Session.status
  close := Session.close

def uncountedSession : SessionClass Nat (Session Unit Nat) := { serverSession with
  construct := fun _ _ => some (.initial .server []) }

def acceptsAndStops : List (Event Nat (Session Unit Nat)) :=
  [.start .success .success ⟨98, .system⟩ .success, .start .success .success .success .success,
    .acceptSucceeds ⟨1, ()⟩ 7, .acceptHandler, .shutdown]

theorem records_real_iff_accepts :
    ((∃ t, (machine serverSession 1).run {} acceptsAndStops = some t ∧ t.listener.waiting = 1) ∧
      (machine serverSession 1).Always RecordsReal {} acceptsAndStops) ∧
    (∃ t, (machine uncountedSession 1).run {} (acceptsAndStops ++ [.handOff]) = some t ∧ t.sessions.length = 1) ∧
      (machine uncountedSession 1).Always RecordsReal {} (acceptsAndStops ++ [.handOff]) := by
  obtain ⟨t, ran, waiting⟩ : ∃ t, (machine serverSession 1).run {} acceptsAndStops = some t ∧
      t.listener.waiting = 1 := ⟨_, rfl, rfl⟩
  obtain ⟨u, ended, recorded⟩ : ∃ t, (machine uncountedSession 1).run {} (acceptsAndStops ++ [.handOff]) = some t ∧
      t.sessions.length = 1 := ⟨_, rfl, rfl⟩
  exact ⟨⟨⟨t, ran, waiting⟩, (records_real_iff serverSession 1 acceptsAndStops ran).mpr (by decide)⟩,
    ⟨u, ended, recorded⟩, (records_real_iff uncountedSession 1 (acceptsAndStops ++ [.handOff]) ended).mpr (by decide)⟩

def accepting : List (Event Nat (Session Unit Nat)) :=
  [.start .success .success .success .success, .acceptSucceeds ⟨0, ()⟩ 7, .acceptHandler, .handOff]

def abortedAccept {S : Type} : List (Event Nat S) :=
  [.start .success .success .success .success, .shutdown, .acceptFails ⟨0, ()⟩ ⟨125, .system⟩, .acceptHandler,
    .handOff]

theorem aborted_accept_recorded {S : Type} {sessionImpl : SessionClass Nat S} {session : S}
    (returns : sessionImpl.construct none none = some session) :
    ∃ t, (machine sessionImpl 1).run {} abortedAccept = some t ∧ t.listener.accepted = [] ∧ t.listener.served = 0 ∧
      t.sessions = [session] := by
  let handled : Listener Unit Nat :=
    { status := .closed, started := [()], socketMtx := true, posted := [(⟨0, ()⟩, ⟨125, .system⟩)] }
  have posted : (machine sessionImpl 1).run {} (abortedAccept.take 4) = some { listener := handled } := rfl
  let t : WebsocketServer Nat S :=
    { listener := { status := .closed, started := [()], calls := [((), ⟨125, .system⟩, none)] }, sessions := [session] }
  have handed : (machine sessionImpl 1).step { listener := handled } .handOff = some t := by
    show handOff sessionImpl 1 { listener := handled } = some t
    simp only [handOff, doHandleSession, handled, returns]
    rfl
  refine ⟨t, ?_, rfl, rfl, rfl⟩
  exact Transition.System.run_append_some.mpr ⟨_, posted, Transition.System.run_cons_some.mpr ⟨t, handed, rfl⟩⟩

/-- The first connection ends the program. With a constructor that can do without the counter, the accept that
    `shutdown` aborts is recorded. -/
theorem records_real_fails :
    (∃ t, (machine serverSession 1).run {} accepting = some t ∧ t.listener.accepted = [(0, 7)] ∧
      t.listener.calls = [((), .success, some 7)] ∧ t.sessions = [] ∧ t.crashed = true ∧
      ¬ (machine serverSession 1).Always RecordsReal {} accepting) ∧
    ∀ sessionImpl : SessionClass Nat (Session Unit Nat), (sessionImpl.construct none none).isSome = true →
      ¬ (machine sessionImpl 1).Always RecordsReal {} abortedAccept := by
  constructor
  · obtain ⟨t, ran, accepted, calls, none, crashed⟩ : ∃ t, (machine serverSession 1).run {} accepting = some t ∧
        t.listener.accepted = [(0, 7)] ∧ t.listener.calls = [((), .success, some 7)] ∧ t.sessions = [] ∧
          t.crashed = true := ⟨_, rfl, rfl, rfl, rfl, rfl⟩
    refine ⟨t, ran, accepted, calls, none, crashed, fun always => ?_⟩
    have recorded := (always.final ran).sessions
    rw [none, Listener.served, calls] at recorded
    cases recorded
  · intro sessionImpl returns always
    obtain ⟨session, returns⟩ := Option.isSome_iff_exists.mp returns
    obtain ⟨t, ran, _, served, sessions⟩ := aborted_accept_recorded returns
    have recorded := (always.final ran).sessions
    rw [sessions, served] at recorded
    cases recorded

end WebsocketServer

end MaxNet
