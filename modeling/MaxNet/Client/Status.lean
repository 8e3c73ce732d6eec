import MaxNet.Client.Destructor
import MaxNet.Session.Close

namespace MaxNet

def StatusCode.string : StatusCode → String
  | offline => "offline"
  | online => "online"
  | blocked => "blocked"
  | aborted => "aborted"
  | suspended => "undefined"

/-- How far a connection has come by what is reported of it. Either end is the end. -/
def progress : String → Option Nat
  | "no_connection" => some 0
  | "blocked" => some 1
  | "online" => some 2
  | "offline" => some 3
  | "aborted" => some 3
  | _ => none

def Forward (first second : String) : Prop := ∃ m n, progress first = some m ∧ progress second = some n ∧ m ≤ n

theorem Forward.trans {first second third : String} (one : Forward first second) (two : Forward second third) :
    Forward first third := by
  obtain ⟨m, n, start, middle, le⟩ := one
  obtain ⟨n', k, middle', final, le'⟩ := two
  obtain rfl : n = n' := Option.some.inj (middle.symm.trans middle')
  exact ⟨m, k, start, final, le.trans le'⟩

def StatusCode.stage (cd : StatusCode) : Nat := (progress cd.string).getD 0

theorem progress_string {cd : StatusCode} (known : cd ≠ .suspended) : progress cd.string = some cd.stage := by
  cases cd with
  | suspended => exact absurd rfl known
  | _ => rfl

namespace WebsocketClient

variable {E M : Type}

def status (c : WebsocketClient E M) : Option StatusCode :=
  c.connection.bind fun i => c.sessions[i]?.map Session.status

def reportStatus (c : WebsocketClient E M) : String :=
  match c.status with
  | none => "no_connection"
  | some cd => cd.string

theorem report_of_connected {P : Session E M → Prop} {c : WebsocketClient E M} (connected : c.Connected P) :
    ∃ s, c.sessions = [s] ∧ P s ∧ c.reportStatus = s.status.string := by
  obtain ⟨s, only, holds⟩ := connected.sessions
  have shown : c.status = some s.status := by simp [status, connected.connection, only]
  exact ⟨s, only, holds, by rw [reportStatus, shown]⟩

theorem report_of_waiting {c : WebsocketClient E M} (waiting : c.Waiting) : c.reportStatus = "no_connection" := by
  have shown : c.status = none := by simp [status, waiting.connection]
  rw [reportStatus, shown]

end WebsocketClient

namespace Session

variable {E M : Type}

structure OpenedOnce (s : Session E M) : Prop where
  quiet : Quiet s.readStrand
  opened : s.life.opened = true
  token : s.life.Ending True True
  known : s.status ≠ .suspended

theorem LeftOpen.openedOnce {s : Session E M} (left : s.LeftOpen) (blocked : s.status = .blocked) : s.OpenedOnce :=
  ⟨left.quiet, left.opened, left.token, by simp [blocked]⟩

theorem stage_le (cd : StatusCode) : cd.stage ≤ 3 := by
  cases cd <;> decide

theorem stage_ended {cd next : StatusCode} (ended : Ended next) : cd.stage ≤ next.stage ∧ next ≠ .suspended := by
  rcases ended with rfl | rfl
  · exact ⟨stage_le cd, by simp⟩
  · exact ⟨stage_le cd, by simp⟩

theorem ended_readStatus (ec : ErrorCode) : Ended (readStatus ec) := by
  unfold readStatus
  split
  · exact Or.inr rfl
  · exact Or.inl rfl

theorem stage_lifeStep {v w : Life} {e : Event E M} (token : v.Ending True True) (own : opens e ≠ true)
    (known : v.status ≠ .suspended) (taken : LifeStep v e w) : v.status.stage ≤ w.status.stage ∧ w.status ≠ .suspended := by
  cases taken with
  | connect url => exact absurd rfl own
  | accept => exact absurd rfl own
  | refused _ positive => exact stage_ended (Or.inr rfl)
  | established _ positive =>
    rw [token.waiting positive]
    exact ⟨Nat.le_succ 1, by simp⟩
  | readFailed ec pieces positive => exact stage_ended (ended_readStatus ec)
  | closed ec reported once positive => exact stage_ended (Or.inl rfl)
  | _ => exact ⟨Nat.le_refl _, known⟩

def Event.report? : Event E M → Option String
  | .connected _ ec => if ec.failed then some "aborted" else none
  | .handshaken ec | .accepted ec => some (if ec.failed then "aborted" else "online")
  | .readFailed ec _ => some (if ec ≠ .closed ∧ ec.value ≠ 89 then "aborted" else "offline")
  | .closed _ => some "offline"
  | _ => none

theorem status_opens {ec : ErrorCode} {cd : StatusCode} {rest : List Stmt} (opens : Opens ec cd rest) :
    cd.string = if ec.failed then "aborted" else "online" := by
  rcases opens.outcome with ⟨failed, rfl, _⟩ | ⟨succeeded, rfl, _⟩
  · rw [failed]
    rfl
  · rw [succeeded]
    rfl

theorem status_of_control {s t : Session E M} (same : s.control = t.control) : s.status = t.status :=
  congrArg Control.status same

variable [DecidableEq E] [DecidableEq M] {s t : Session E M} {e : Event E M}

/-- Of the events that are not calls, the four completions set the status. -/
theorem report_step (quiet : Quiet s.readStrand) (own : e.isCall = false) (taken : s.step e = some t) :
    t.status.string = e.report?.getD s.status.string := by
  cases step_cases taken with
  | setOnReady | setOnRead | setOnClose | setOnWriteDone | connect | accept | write | close => cases own
  | connected url ec =>
    have after := congrArg Life.status (life_connectHandler ec url { s with connects := s.connects.erase url })
    by_cases failed : ec.failed = true
    · rw [if_pos failed] at after
      rw [Event.report?, if_pos failed]
      exact congrArg StatusCode.string after
    · rw [if_neg failed] at after
      rw [Event.report?, if_neg failed]
      exact congrArg StatusCode.string after
  | handshaken ec =>
    obtain ⟨cd, rest, body, opens⟩ := handshakeHandler_body ec
    rw [body]
    exact status_opens opens
  | accepted ec =>
    obtain ⟨cd, rest, body, opens⟩ := acceptedHandler_body ec
    rw [body]
    exact status_opens opens
  | writeStart m => rfl
  | written m ec bytes =>
    exact congrArg StatusCode.string (status_of_control (writeBlind_control.writeCompleteHandler bytes m _))
  | received pieces message =>
    have body : readHandler .success message.payload.length =
        [.deliver message.payload.length, .consume message.payload.length, .performRead] := rfl
    rw [body]
    exact congrArg (fun v => v.status.string) (life_enter_deliver _ _ _)
  | readFailed ec pieces positive free failed =>
    obtain ⟨rest, _, body, _⟩ := readHandler_body ec pieces.flatten.length failed
    rw [body]
    show (readStatus ec).string = if ec ≠ .closed ∧ ec.value ≠ 89 then "aborted" else "offline"
    unfold readStatus
    split <;> rfl
  | strandStep stmt rest busy =>
    apply congrArg StatusCode.string
    have kept := congrArg Control.status (control_exec { s with readStrand := rest } stmt)
    cases stmt with
    | statusSet cd => exact absurd (busy ▸ List.mem_cons_self) (quiet cd)
    | performRead =>
      refine kept.trans ?_
      simp only [Control.exec]
      split <;> rfl
    | _ => exact kept
  | closeStart => rfl
  | closed ec =>
    have shut := congrArg Control.status (control_closeHandler ec { s with closes := s.closes - 1 })
    exact congrArg StatusCode.string shut
  | closeTimerExpires => rfl
  | closeTimerFires wait ec =>
    unfold closeTimeout
    split <;> rfl
  | streamCloses => rfl

theorem OpenedOnce.step (once : s.OpenedOnce) (own : opens e ≠ true) (taken : s.step e = some t) :
    t.OpenedOnce ∧ Forward s.status.string t.status.string := by
  have moved := step_life taken once.quiet
  obtain ⟨le, known⟩ := stage_lifeStep once.token own once.known moved
  have forward : Forward s.status.string t.status.string :=
    ⟨_, _, progress_string once.known, progress_string known, le⟩
  exact
    ⟨{ quiet := quiet_step once.quiet taken
       opened := (opened_of_lifeStep moved own).trans once.opened
       token := once.token.step (fun opening => absurd opening own) (fun _ => True.intro) (fun _ => True.intro) moved
       known := known }, forward⟩

end Session

namespace WebsocketClientObject

variable {E M : Type}

def Event.report? : Event E M → Option String
  | .resolved _ _ _ _ => some "blocked"
  | .session _ e => e.report?
  | .destruct => none

def reported (first : String) (past : List (Event E M)) : String := (past.filterMap Event.report?).getLast?.getD first

theorem reported_append (first : String) (past : List (Event E M)) (e : Event E M) :
    reported first (past ++ [e]) = e.report?.getD (reported first past) := by
  unfold reported
  cases asked : e.report? with
  | none => simp [List.filterMap_append, asked]
  | some report => simp [List.filterMap_append, asked]

variable [DecidableEq E] [DecidableEq M] {o p : WebsocketClientObject E M} {e : Event E M}

omit [DecidableEq E] [DecidableEq M] in
theorem forward_of_holds {c : WebsocketClient E M} (holds : Holds Session.OpenedOnce c) (alive : c.aborted = false) :
    Forward c.reportStatus c.reportStatus := by
  rcases holds with waiting | connected | aborted
  · rw [WebsocketClient.report_of_waiting waiting]
    exact ⟨0, 0, rfl, rfl, Nat.le_refl 0⟩
  · obtain ⟨s, _, once, shown⟩ := WebsocketClient.report_of_connected connected
    rw [shown]
    exact ⟨_, _, progress_string once.known, progress_string once.known, Nat.le_refl _⟩
  · rw [alive] at aborted
    cases aborted

structure Reports (e : Event E M) (c d : WebsocketClient E M) : Prop where
  report : d.reportStatus = e.report?.getD c.reportStatus
  forward : Forward c.reportStatus d.reportStatus

theorem reports_of_connected {s : Session E M} (connected : o.client.Connected fun u => u = s ∧ u.OpenedOnce)
    (later : Later o.client p.client e) :
    p.client.Connected Session.OpenedOnce ∧ Reports e o.client p.client := by
  obtain ⟨_, _, ⟨same, _⟩, before⟩ := WebsocketClient.report_of_connected connected
  rw [same] at before
  have next : p.client.Connected fun t => t.OpenedOnce ∧ t.status.string = e.report?.getD s.status.string ∧
      Forward s.status.string t.status.string := by
    apply connected.step ?_ later
    rintro i f u t rfl call ⟨rfl, once⟩ taken
    have calls : Session.opens f ≠ true := by
      intro opening
      rw [Session.isCall_of_opens opening] at call
      cases call
    obtain ⟨kept, forward⟩ := once.step calls taken
    exact ⟨kept, Session.report_step once.quiet call taken, forward⟩
  obtain ⟨t, _, ⟨_, report, forward⟩, after⟩ := WebsocketClient.report_of_connected next
  exact ⟨next.mono fun t all => all.1, by rw [after, before]; exact report, by rw [after, before]; exact forward⟩

theorem report_step (h : o.step e = some p) (holds : Holds Session.OpenedOnce o.client) :
    Holds Session.OpenedOnce p.client ∧ (p.client.aborted = false → Reports e o.client p.client) := by
  rcases step_cases h with ⟨_, later⟩ | ⟨rfl, _, running, rfl⟩
  · rcases holds with waiting | connected | aborted
    · have before := WebsocketClient.report_of_waiting waiting
      cases later with
      | session i f own taken =>
        obtain ⟨s, t, found, _⟩ := WebsocketClient.session_cases taken
        simp [waiting.sessions] at found
      | resolved op ec results inbox taken =>
        rcases waiting.resolved taken with connected | aborted
        · obtain ⟨s, _, fresh, after⟩ := WebsocketClient.report_of_connected connected
          rw [fresh.2] at after
          refine ⟨Or.inr (Or.inl (connected.mono fun s fresh => fresh.1.openedOnce fresh.2)), fun _ => ⟨after, ?_⟩⟩
          rw [before, after]
          exact ⟨0, 1, rfl, rfl, Nat.zero_le 1⟩
        · refine ⟨Or.inr (Or.inr aborted), fun alive => ?_⟩
          rw [alive] at aborted
          cases aborted
    · obtain ⟨s, only, once⟩ := connected.sessions
      obtain ⟨next, reports⟩ := reports_of_connected (s := s)
        ⟨connected.connection, ⟨s, only, rfl, once⟩, connected.resolved⟩ later
      exact ⟨Or.inr (Or.inl next), fun _ => reports⟩
    · exact absurd later (aborted_stuck aborted)
  · rcases holds with waiting | connected | aborted
    · have untouched : o.destruct.client = o.client := by
        unfold destruct WebsocketClient.closeConnection
        rw [waiting.connection]
      rw [untouched]
      exact ⟨Or.inl waiting, fun _ => ⟨rfl, forward_of_holds (Or.inl waiting) running⟩⟩
    · obtain ⟨s, only, once, before⟩ := WebsocketClient.report_of_connected connected
      have kept : s.close.status = s.status := Session.status_of_control (Session.control_close s)
      have closed := (once.step (by simp [Session.opens]) (rfl : s.step .close = some s.close)).1
      have next : o.destruct.client.Connected fun t => t.OpenedOnce ∧ t.status = s.status := by
        unfold destruct WebsocketClient.closeConnection
        rw [connected.connection]
        exact ⟨rfl, ⟨s.close, by simp [only], closed, kept⟩, connected.resolved⟩
      obtain ⟨t, _, ⟨_, same⟩, after⟩ := WebsocketClient.report_of_connected next
      have report : o.destruct.client.reportStatus = o.client.reportStatus := by rw [after, before, same]
      refine ⟨Or.inr (Or.inl (next.mono fun t both => both.1)), fun _ => ⟨report, ?_⟩⟩
      rw [report]
      exact forward_of_holds (Or.inr (Or.inl connected)) running
    · rw [running] at aborted
      cases aborted

theorem alive_of_step (h : o.step e = some p) : o.client.aborted = false := by
  rcases step_cases h with ⟨_, later⟩ | ⟨_, _, running, _⟩
  · by_contra aborted
    exact aborted_stuck (by simpa using aborted) later
  · exact running

theorem report_run {es : List (Event E M)} (holds : Holds Session.OpenedOnce o.client)
    (ran : (machine E M).run o es = some p) :
    Holds Session.OpenedOnce p.client ∧ (p.client.aborted = false →
      p.client.reportStatus = reported o.client.reportStatus es ∧ Forward o.client.reportStatus p.client.reportStatus) := by
  refine Transition.System.history_invariant (I := fun past (q : WebsocketClientObject E M) =>
    Holds Session.OpenedOnce q.client ∧ (q.client.aborted = false →
      q.client.reportStatus = reported o.client.reportStatus past ∧
        Forward o.client.reportStatus q.client.reportStatus)) ?_ [] ⟨holds, fun alive => ⟨rfl, forward_of_holds holds alive⟩⟩
    Transition.System.each_true ran
  rintro past q e r ⟨holds, known⟩ _ h
  obtain ⟨next, reports⟩ := report_step h holds
  refine ⟨next, fun alive => ?_⟩
  obtain ⟨report, forward⟩ := known (alive_of_step h)
  have step := reports alive
  exact ⟨by rw [reported_append, step.report, report], forward.trans step.forward⟩

omit [DecidableEq E] [DecidableEq M] in
/-- What is reported before anything has happened. -/
theorem report_construct {url : NetUrl E} {inbox : List WsMessage} (made : construct url inbox = .ok o) :
    o.client.reportStatus = if url.valid && url.isResolved then "blocked" else "no_connection" := by
  unfold construct at made
  cases port : url.port with
  | error x => simp [port, Except.map] at made
  | ok text =>
    simp only [port, Except.map, Except.ok.injEq] at made
    subst made
    cases valid : url.valid with
    | false => rfl
    | true =>
      cases resolved : url.isResolved with
      | false =>
        simp [WebsocketClient.makeConnection, resolved, WebsocketClient.reportStatus, WebsocketClient.status]
      | true =>
        simp [WebsocketClient.makeConnection, resolved, WebsocketClient.performConnect, Session.connect, valid,
          WebsocketClient.reportStatus, WebsocketClient.status, Session.log, StatusCode.string]

/-- The client reports what has happened last: nothing but a resolved host, a handshake, a failure or an end. In this
    way the report only moves forward, from no connection to blocked, online, and then offline or aborted. -/
theorem status_moves_forward {url : NetUrl E} {inbox : List WsMessage} {before after : List (Event E M)}
    {o c d : WebsocketClientObject E M} (made : construct url inbox = .ok o)
    (ran : (machine E M).run o before = some c) (later : (machine E M).run c after = some d)
    (alive : d.client.aborted = false) :
    d.client.reportStatus =
        reported (if url.valid && url.isResolved then "blocked" else "no_connection") (before ++ after) ∧
      Forward c.client.reportStatus d.client.reportStatus := by
  have start := (holds_construct made).2.mono fun s fresh => fresh.1.openedOnce fresh.2
  have whole := (report_run start (Transition.System.run_append_some.mpr ⟨c, ran, later⟩)).2 alive
  rw [report_construct made] at whole
  exact ⟨whole.1, ((report_run (report_run start ran).1 later).2 alive).2⟩

theorem status_moves_forward_deletedEarly : ∃ o c d : WebsocketClientObject Unit Nat,
    construct { hostname := ['h'] } [] = .ok o ∧ (machine Unit Nat).run o deletedEarly = some c ∧
      (machine Unit Nat).run c [.destruct, .session 0 (.readFailed .closed [])] = some d ∧
      d.client.reportStatus = "offline" ∧ Forward c.client.reportStatus d.client.reportStatus := by
  let o : WebsocketClientObject Unit Nat :=
    { client := ({} : WebsocketClient Unit Nat).makeConnection { hostname := ['h'] } [] }
  have made : construct { hostname := ['h'] } [] = .ok o := rfl
  obtain ⟨c, d, ran, later, alive⟩ : ∃ c d, (machine Unit Nat).run o deletedEarly = some c ∧
      (machine Unit Nat).run c [.destruct, .session 0 (.readFailed .closed [])] = some d ∧ d.client.aborted = false :=
    ⟨_, _, rfl, rfl, rfl⟩
  obtain ⟨report, forward⟩ := status_moves_forward made ran later alive
  exact ⟨o, c, d, made, ran, later, report, forward⟩

end WebsocketClientObject

end MaxNet
