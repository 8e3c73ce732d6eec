import MaxNet.Client.Model
import MaxNet.Session.Unclosed

namespace MaxNet

namespace WebsocketClient

variable {E M : Type}

def closeConnection (c : WebsocketClient E M) : WebsocketClient E M :=
  match c.connection with
  | none => c
  | some i => { c with sessions := c.sessions.modify i Session.close }

end WebsocketClient

/-- A `websocketclient` in its patch. `work` keeps the io context from returning until the destructor resets it. -/
structure WebsocketClientObject (E M : Type) where
  client : WebsocketClient E M := {}
  work : Bool := true

namespace WebsocketClientObject

variable {E M : Type}

/-- The constructor, once it has made a url of its arguments. It prints the port first, and starts the io context
    for a valid url only. -/
def construct (url : NetUrl E) (inbox : List WsMessage) : Except StdError (WebsocketClientObject E M) :=
  url.port.map fun _ => if url.valid then { client := ({} : WebsocketClient E M).makeConnection url inbox } else {}

def destruct (o : WebsocketClientObject E M) : WebsocketClientObject E M :=
  { client := o.client.closeConnection, work := false }

/-- `client_thread_ptr->join()` returns once the io context is out of work. -/
def Joins (o : WebsocketClientObject E M) : Prop :=
  o.work = false ∧ o.client.resolver.resolving = [] ∧ ∀ s ∈ o.client.sessions, s.Idle ∧ s.closeWaits = []

inductive Event (E M : Type)
  | resolved (op : ResolveOp E Unit) (ec : ErrorCode) (results : List E) (inbox : List WsMessage)
  | session (i : Nat) (e : Session.Event E M)
  | destruct

def step [DecidableEq E] [DecidableEq M] (o : WebsocketClientObject E M) :
    Event E M → Option (WebsocketClientObject E M)
  | .resolved op ec results inbox =>
    (o.client.step (.resolved op ec results inbox)).map fun client => { o with client }
  | .session i e =>
    if e.isCall then none else (o.client.step (.session i e)).map fun client => { o with client }
  | .destruct => if o.work && !o.client.aborted then some o.destruct else none

def machine (E M : Type) [DecidableEq E] [DecidableEq M] :
    Transition.System (WebsocketClientObject E M) (Event E M) := ⟨step⟩

inductive Later [DecidableEq E] [DecidableEq M] (c d : WebsocketClient E M) : Event E M → Prop
  | resolved (op : ResolveOp E Unit) (ec : ErrorCode) (results : List E) (inbox : List WsMessage)
    (taken : c.step (.resolved op ec results inbox) = some d) : Later c d (.resolved op ec results inbox)
  | session (i : Nat) (e : Session.Event E M) (own : e.isCall = false) (taken : c.step (.session i e) = some d) :
    Later c d (.session i e)

theorem step_cases [DecidableEq E] [DecidableEq M] {o p : WebsocketClientObject E M} {e : Event E M}
    (h : o.step e = some p) :
    (p.work = o.work ∧ Later o.client p.client e) ∨
      (e = .destruct ∧ o.work = true ∧ o.client.aborted = false ∧ p = o.destruct) := by
  cases e with
  | resolved op ec results inbox =>
    obtain ⟨client, taken, rfl⟩ := Option.map_eq_some_iff.mp h
    exact Or.inl ⟨rfl, .resolved op ec results inbox taken⟩
  | session i e =>
    simp only [step, Option.ite_none_left_eq_some, Bool.not_eq_true] at h
    obtain ⟨own, h⟩ := h
    obtain ⟨client, taken, rfl⟩ := Option.map_eq_some_iff.mp h
    exact Or.inl ⟨rfl, .session i e own taken⟩
  | destruct =>
    simp only [step, Option.ite_none_right_eq_some, Bool.and_eq_true, Bool.not_eq_true', Option.some.injEq] at h
    obtain ⟨⟨work, running⟩, rfl⟩ := h
    exact Or.inr ⟨rfl, work, running, rfl⟩

end WebsocketClientObject

namespace WebsocketClient

variable {E M : Type} {P : Session E M → Prop} {c d : WebsocketClient E M}

structure Waiting (c : WebsocketClient E M) : Prop where
  connection : c.connection = none
  sessions : c.sessions = []
  front : c.resolver.FrontOnly
  single : c.resolver.wsQueue.length ≤ 1

structure Connected (P : Session E M → Prop) (c : WebsocketClient E M) : Prop where
  connection : c.connection = some 0
  sessions : ∃ s, c.sessions = [s] ∧ P s
  resolved : c.resolver.resolving = []

theorem Connected.mono {R : Session E M → Prop} (connected : c.Connected P) (sub : ∀ s, P s → R s) : c.Connected R := by
  obtain ⟨s, only, holds⟩ := connected.sessions
  exact ⟨connected.connection, ⟨s, only, sub s holds⟩, connected.resolved⟩

def Fresh (s : Session E M) : Prop := s.LeftOpen ∧ s.status = .blocked

theorem fresh_connect (inbox : List WsMessage) {url : NetUrl E} {s : Session E M}
    (connects : (Session.initial .client inbox : Session E M).installHandlers.connect url = some s) : Fresh s := by
  simp only [Session.connect, Option.ite_none_right_eq_some, Option.some.injEq] at connects
  obtain ⟨_, rfl⟩ := connects
  refine ⟨?_, rfl⟩
  exact
    { unclosed := Session.unclosed_iff.mpr rfl
      quiet := by simp [Session.Quiet, Session.log, Session.installHandlers, Session.initial]
      opened := rfl
      token :=
        { token := by simp [Session.life, Session.log, Session.installHandlers, Session.initial]
          waiting := fun _ => rfl
          unopened := fun unopened => by cases unopened
          blocked := fun _ => ⟨rfl, rfl⟩
          offline := fun offline => by cases offline
          aborted := fun aborted => by cases aborted }
      attended := fun online => by cases online }

theorem connected_performConnect {url : NetUrl E} {inbox : List WsMessage} (none : c.sessions = [])
    (idle : c.resolver.resolving = []) :
    (c.performConnect url inbox).Connected Fresh ∨ (c.performConnect url inbox).aborted = true := by
  unfold performConnect
  simp only [none, List.length_nil, List.nil_append]
  split
  · rename_i s connects
    exact Or.inl ⟨rfl, ⟨s, rfl, fresh_connect inbox connects⟩, idle⟩
  · exact Or.inr rfl

variable [DecidableEq E] [DecidableEq M]

theorem Waiting.resolved {op : ResolveOp E Unit} {ec : ErrorCode} {results : List E} {inbox : List WsMessage}
    (waiting : c.Waiting) (h : c.step (.resolved op ec results inbox) = some d) :
    d.Connected Fresh ∨ d.aborted = true := by
  unfold step at h
  split at h
  · cases h
  · simp only [Option.ite_none_right_eq_some, Option.some.injEq] at h
    obtain ⟨member, rfl⟩ := h
    obtain ⟨rest, queue, only, _⟩ := waiting.front.front_of_mem member
    have single := waiting.single
    obtain rfl : rest = [] := by
      rw [queue, List.length_cons] at single
      exact List.eq_nil_of_length_eq_zero (by omega)
    unfold WebsocketClient.resolved MultiResolver.resolveHandler MultiResolver.beginFront
    simp only [queue, only, List.tail_cons, List.erase_cons_head]
    exact connected_performConnect waiting.sessions rfl

theorem session_cases {i : Nat} {e : Session.Event E M} (h : c.step (.session i e) = some d) :
    ∃ s t, c.sessions[i]? = some s ∧ s.step e = some t ∧ d = { c with sessions := c.sessions.set i t } := by
  unfold step at h
  split at h
  · cases h
  · cases e with
    | connect url => cases h
    | _ =>
      obtain ⟨t, taken, rfl⟩ := Option.map_eq_some_iff.mp h
      obtain ⟨s, found, taken⟩ := Option.bind_eq_some_iff.mp taken
      exact ⟨s, t, found, taken, rfl⟩

theorem Waiting.step {e : WebsocketClientObject.Event E M} (waiting : c.Waiting)
    (later : WebsocketClientObject.Later c d e) : d.Connected Fresh ∨ d.aborted = true := by
  cases later with
  | resolved op ec results inbox taken => exact waiting.resolved taken
  | session i e own taken =>
    obtain ⟨s, t, found, _⟩ := session_cases taken
    simp [waiting.sessions] at found

/-- What the events of the object do to the one session. -/
theorem Connected.step {e : WebsocketClientObject.Event E M} {R : Session E M → Prop} (connected : c.Connected P)
    (keep : ∀ i f s t, e = .session i f → f.isCall = false → P s → s.step f = some t → R t)
    (later : WebsocketClientObject.Later c d e) : d.Connected R := by
  cases later with
  | resolved op ec results inbox taken =>
    unfold WebsocketClient.step at taken
    split at taken
    · cases taken
    · simp [connected.resolved] at taken
  | session i f own taken =>
    obtain ⟨s, t, found, moved, rfl⟩ := session_cases taken
    obtain ⟨u, only, holds⟩ := connected.sessions
    rw [only] at found
    obtain ⟨rfl, rfl⟩ : i = 0 ∧ u = s := by simpa [List.getElem?_singleton] using found
    exact ⟨connected.connection, ⟨t, by simp [only], keep 0 f u t rfl own holds moved⟩, connected.resolved⟩

end WebsocketClient

namespace WebsocketClientObject

variable {E M : Type} [DecidableEq E] [DecidableEq M] {o p : WebsocketClientObject E M} {e : Event E M}

theorem aborted_stuck {c d : WebsocketClient E M} (aborted : c.aborted = true) : ¬ Later c d e := by
  intro later
  cases later with
  | resolved op ec results inbox taken => simp [WebsocketClient.step, aborted] at taken
  | session i e own taken => simp [WebsocketClient.step, aborted] at taken

def Holds (P : Session E M → Prop) (c : WebsocketClient E M) : Prop :=
  c.Waiting ∨ c.Connected P ∨ c.aborted = true

omit [DecidableEq E] [DecidableEq M] in
theorem Holds.mono {P R : Session E M → Prop} {c : WebsocketClient E M} (holds : Holds P c) (sub : ∀ s, P s → R s) :
    Holds R c := by
  rcases holds with waiting | connected | aborted
  · exact Or.inl waiting
  · exact Or.inr (Or.inl (connected.mono sub))
  · exact Or.inr (Or.inr aborted)

omit [DecidableEq E] [DecidableEq M] in
theorem holds_construct {url : NetUrl E} {inbox : List WsMessage} (made : construct url inbox = .ok o) :
    o.work = true ∧ Holds WebsocketClient.Fresh o.client := by
  unfold construct at made
  cases port : url.port with
  | error x => simp [port, Except.map] at made
  | ok text =>
    simp only [port, Except.map, Except.ok.injEq] at made
    subst made
    by_cases valid : url.valid = true
    · rw [if_pos valid]
      refine ⟨rfl, ?_⟩
      unfold WebsocketClient.makeConnection
      split
      · have state := MultiResolver.resolve_state url () ({} : MultiResolver E Unit) rfl
        refine Or.inl ⟨rfl, rfl, ?_, ?_⟩
        · rw [state]
          rfl
        · simp [state]
      · exact Or.inr (WebsocketClient.connected_performConnect rfl rfl)
    · rw [if_neg valid]
      exact ⟨rfl, Or.inl ⟨rfl, rfl, rfl, Nat.zero_le 1⟩⟩

theorem Holds.later {P : Session E M → Prop} {c d : WebsocketClient E M} (holds : Holds P c)
    (new : ∀ s, WebsocketClient.Fresh s → P s)
    (keep : ∀ i f s t, e = .session i f → f.isCall = false → P s → s.step f = some t → P t)
    (later : Later c d e) : Holds P d := by
  rcases holds with waiting | connected | aborted
  · rcases waiting.step later with connected | aborted
    · exact Or.inr (Or.inl (connected.mono new))
    · exact Or.inr (Or.inr aborted)
  · exact Or.inr (Or.inl (connected.step keep later))
  · exact absurd later (aborted_stuck aborted)

theorem holds_leftOpen_step (h : o.step e = some p) (holds : o.work = true → Holds Session.LeftOpen o.client)
    (work : p.work = true) : Holds Session.LeftOpen p.client := by
  rcases step_cases h with ⟨same, later⟩ | ⟨_, _, _, rfl⟩
  · exact (holds (same ▸ work)).later (fun s fresh => fresh.1) (fun i f s t _ own left taken => left.step own taken) later
  · cases work

/-- After the destructor, with a step that may happen to the session. -/
theorem destructed_step (h : o.step e = some p) (entered : o.work = false) :
    p.work = false ∧ Later o.client p.client e := by
  rcases step_cases h with ⟨same, later⟩ | ⟨_, work, _⟩
  · exact ⟨same.trans entered, later⟩
  · rw [entered] at work
    cases work

theorem connected_run {P : Session E M → Prop} {es : List (Event E M)} (entered : o.work = false)
    (connected : o.client.Connected P)
    (keep : ∀ i f s t, .session i f ∈ es → f.isCall = false → P s → s.step f = some t → P t)
    (ran : (machine E M).run o es = some p) : p.work = false ∧ p.client.Connected P := by
  have each : (machine E M).Each (fun _ e => e ∈ es) o es := Transition.System.each_of_forall fun _ _ member => member
  refine Transition.System.invariant_of_run (P := fun o => o.work = false ∧ o.client.Connected P) ?_
    ⟨entered, connected⟩ each ran
  rintro o e p ⟨entered, connected⟩ member h
  obtain ⟨still, later⟩ := destructed_step h entered
  exact ⟨still, connected.step (fun i f s t same => keep i f s t (same ▸ member)) later⟩

theorem waiting_run {es : List (Event E M)} (entered : o.work = false) (holds : Holds Session.LeftOpen o.client)
    (ran : (machine E M).run o es = some p) : p.work = false ∧ Holds Session.LeftOpen p.client := by
  refine Transition.System.invariant_of_run (P := fun o => o.work = false ∧ Holds Session.LeftOpen o.client) ?_
    ⟨entered, holds⟩ Transition.System.each_true ran
  rintro o e p ⟨entered, holds⟩ _ h
  obtain ⟨still, later⟩ := destructed_step h entered
  exact ⟨still, holds.later (fun s fresh => fresh.1) (fun i f s t _ own left taken => left.step own taken) later⟩

/-- As long as no read fails, a session that is left open and online does not let the destructor return. -/
theorem never_joins {es : List (Event E M)} (entered : o.work = false) (connected : o.client.Connected Session.LeftOpen)
    (online : ∃ s ∈ o.client.sessions, s.status = .online) (ran : (machine E M).run o es = some p)
    (reads : ∀ i e, .session i e ∈ es → ¬ e.ReadFails) : ¬ p.Joins := by
  rintro ⟨_, _, idle⟩
  obtain ⟨s, only, left⟩ := connected.sessions
  have up : s.status = .online := by simpa [only] using online
  have both : o.client.Connected fun s => s.LeftOpen ∧ s.status = .online :=
    ⟨connected.connection, ⟨s, only, left, up⟩, connected.resolved⟩
  have keep : ∀ i f (s t : Session E M), .session i f ∈ es → f.isCall = false → s.LeftOpen ∧ s.status = .online →
      s.step f = some t → t.LeftOpen ∧ t.status = .online := by
    rintro i f s t member own ⟨left, up⟩ taken
    exact ⟨left.step own taken, left.online_step own (reads i f member) taken up⟩
  obtain ⟨_, kept⟩ := connected_run entered both keep ran
  obtain ⟨t, same, still, up⟩ := kept.sessions
  exact still.not_idle up (idle t (by simp [same])).1

/-- The destructor closes the connection it finds. Where the host is still being resolved it finds none: the session
    that is made later is not closed by anyone, and while it is online only a read that fails lets the destructor
    return. -/
theorem destructor_waits {url : NetUrl E} {inbox : List WsMessage} {before after : List (Event E M)}
    {o c d : WebsocketClientObject E M} (made : construct url inbox = .ok o)
    (ran : (machine E M).run o before = some c) (entered : (machine E M).run c (.destruct :: after) = some d) :
    (c.client.connection.isSome = true →
        ∃ s t, c.client.sessions = [s] ∧ d.client.sessions = [t] ∧ s.ClosedFrom t) ∧
      (c.client.connection = none → d.client.aborted = false → ∀ s ∈ d.client.sessions, s.Unclosed ∧
        (s.status = .online → ∀ more f, (machine E M).run d more = some f →
          (∀ i e, .session i e ∈ more → ¬ e.ReadFails) → ¬ f.Joins)) := by
  obtain ⟨working, start⟩ := holds_construct made
  have holds : c.work = true → Holds Session.LeftOpen c.client :=
    Transition.System.invariant_of_run
      (P := fun o : WebsocketClientObject E M => o.work = true → Holds Session.LeftOpen o.client)
      (fun o e p holds _ h => holds_leftOpen_step h holds) (fun _ => start.mono fun s fresh => fresh.1)
      Transition.System.each_true ran
  obtain ⟨b, taken, rest⟩ := Transition.System.run_cons_some.mp entered
  have taken : c.step .destruct = some b := taken
  rcases step_cases taken with ⟨_, later⟩ | ⟨_, work, running, rfl⟩
  · cases later
  · constructor
    · intro found
      rcases holds work with waiting | connected | aborted
      · simp [waiting.connection] at found
      · obtain ⟨s, only, left⟩ := connected.sessions
        have closed : c.destruct.client.Connected s.ClosedFrom := by
          unfold destruct WebsocketClient.closeConnection
          rw [connected.connection]
          exact ⟨rfl, ⟨s.close, by simp [only], Session.closedFrom_close left.quiet⟩, connected.resolved⟩
        obtain ⟨_, kept⟩ := connected_run rfl closed (fun i f u t _ own closed taken => closed.step own taken) rest
        obtain ⟨t, same, closed⟩ := kept.sessions
        exact ⟨s, t, only, same, closed⟩
      · rw [running] at aborted
        cases aborted
    · intro none alive s member
      have untouched : c.destruct.client = c.client := by
        unfold destruct WebsocketClient.closeConnection
        rw [none]
      obtain ⟨still, kept⟩ := waiting_run (o := c.destruct) rfl (untouched ▸ holds work) rest
      rcases kept with waiting | connected | aborted
      · simp [waiting.sessions] at member
      · obtain ⟨t, only, left⟩ := connected.sessions
        obtain rfl : s = t := by simpa [only] using member
        refine ⟨left.unclosed, fun online more f ran reads => ?_⟩
        exact never_joins still connected ⟨s, member, online⟩ ran reads
      · rw [alive] at aborted
        cases aborted

def deletedEarly : List (Event Unit Nat) :=
  [.resolved { host := ['h'], port := stdPort, qelem := ({ hostname := ['h'] }, ()) } .success [()] [],
    .session 0 (.connected { hostname := ['h'], endpointSeq := [()] } .success), .session 0 (.handshaken .success),
    .session 0 .strandStep, .session 0 .strandStep]

theorem destructor_waits_deletedEarly : ∃ o d : WebsocketClientObject Unit Nat,
    construct { hostname := ['h'] } [] = .ok o ∧ (machine Unit Nat).run o (.destruct :: deletedEarly) = some d ∧
      ∃ s ∈ d.client.sessions, s.Unclosed ∧ s.status = .online ∧
        ∀ more f, (machine Unit Nat).run d more = some f → (∀ i e, .session i e ∈ more → ¬ e.ReadFails) → ¬ f.Joins := by
  let o : WebsocketClientObject Unit Nat :=
    { client := ({} : WebsocketClient Unit Nat).makeConnection { hostname := ['h'] } [] }
  have made : construct { hostname := ['h'] } [] = .ok o := rfl
  have before : (machine Unit Nat).run o [] = some o := rfl
  have ran : ∃ d s, (machine Unit Nat).run o (.destruct :: deletedEarly) = some d ∧ d.client.aborted = false ∧
      d.client.sessions = [s] ∧ s.status = .online := ⟨_, _, rfl, rfl, rfl, rfl⟩
  obtain ⟨d, s, ran, alive, only, online⟩ := ran
  obtain ⟨_, waits⟩ := destructor_waits made before ran
  obtain ⟨unclosed, stuck⟩ := waits rfl alive s (by simp [only])
  exact ⟨o, d, made, ran, s, by simp [only], unclosed, online, stuck online⟩

end WebsocketClientObject

end MaxNet
