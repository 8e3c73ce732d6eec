import MaxNet.Listener.Chains
import MaxNet.Server

namespace MaxNet

namespace WebsocketServer

variable {C S : Type} {sessionImpl : SessionClass C S} {threads : Nat} {s t : WebsocketServer C S} {e : Event C S}

def Event.opened? : Event C S → Option Unit
  | start open_ setOption bind listen =>
    (Listener.Event.startListen (C := C) () open_ setOption bind listen).opened?
  | _ => none

structure Accounts (past : List (Event C S)) (s : WebsocketServer C S) : Prop where
  calls : s.sessions.length + (if s.crashed then 1 else 0) = s.listener.calls.length
  accepted : s.listener.accepted.length = s.listener.served + s.listener.waiting
  ledger : s.crashed = false → s.listener.ledger.length = (past.filterMap Event.opened?).length

variable {past : List (Event C S)}

theorem opened_of_listener {f : Listener.Event Unit C} (same : e.listener? = some f) : e.opened? = f.opened? := by
  cases e <;> cases same <;> rfl

/-- What a step of the listener does to its ledger. -/
theorem ledger_past {f : Listener.Event Unit C} {listener : Listener Unit C}
    (ledger : s.listener.ledger.length = (past.filterMap Event.opened?).length) (same : e.opened? = f.opened?)
    (step : Listener.step threads s.listener f = some listener) :
    listener.ledger.length = ((past ++ [e]).filterMap Event.opened?).length := by
  have moved := (Listener.ledger_step step).length_eq
  rw [moved, List.filterMap_append, List.length_append, List.length_append, ledger, ← same]
  cases opened : e.opened? with
  | none => simp [opened]
  | some handler => simp [opened]

theorem ledger_kept (silent : e.opened? = none)
    (ledger : s.listener.ledger.length = (past.filterMap Event.opened?).length) :
    s.listener.ledger.length = ((past ++ [e]).filterMap Event.opened?).length := by
  simp [ledger, List.filterMap_append, silent]

theorem Accounts.step (accounts : s.Accounts past) (taken : step sessionImpl threads s e = some t) :
    t.Accounts (past ++ [e]) := by
  obtain ⟨running, inverted⟩ := step_cases taken
  have ledger := accounts.ledger running
  have calls : s.sessions.length = s.listener.calls.length := by simpa [running] using accounts.calls
  cases inverted with
  | @listened _ f listener same moved =>
    have inverted := Listener.step_cases moved
    exact
      { calls := by
          rw [Listener.calls_step inverted (listener_ne_handOff same)]
          exact accounts.calls
        accepted := Listener.accepted_step inverted accounts.accepted
        ledger := fun _ => ledger_past ledger (opened_of_listener same) moved }
  | shutdown =>
    obtain ⟨listener, same, stopped, length⟩ := shutdown_eq sessionImpl s
    have counted : (s.shutdown sessionImpl).sessions.length + (if s.crashed then 1 else 0) =
        s.listener.calls.length := by rw [length]; exact accounts.calls
    rw [same]
    rcases stopped with rfl | rfl
    · exact ⟨counted, accounts.accepted, fun _ => ledger_kept rfl ledger⟩
    · exact ⟨counted, accounts.accepted, fun _ => ledger_kept rfl ledger⟩
  | @handed accept rest session listener posted returns moved =>
    have inverted := Listener.step_cases moved
    have called : listener.calls.length = s.listener.calls.length + 1 := by
      cases inverted with
      | handed => simp [Listener.handOff_eq]
    refine ⟨?_, Listener.accepted_step inverted accounts.accepted, fun _ => ledger_past ledger rfl moved⟩
    simp [running, called, calls]
  | @crashed accept rest posted lost =>
    obtain ⟨served, waiting⟩ := served_crash posted
    refine ⟨by simp [crash, calls], ?_, nofun⟩
    have accepted := accounts.accepted
    show s.listener.accepted.length = _
    omega
  | session => exact ⟨by simpa using accounts.calls, accounts.accepted, fun _ => ledger_kept rfl ledger⟩

/-- The sessions of a server stand for the calls of its handler, the one that ends the program apart. All of them but one
    for each `start` that succeeded are those of connections it accepted, and only those that wait to be handed over are
    missing; the accept chains that are left will each add one of the others. Where the constructor of the sessions
    dereferences the counter, the handler is called once at most and no session is made. -/
theorem sessions_counted (sessionImpl : SessionClass C S) (threads : Nat) (es : List (Event C S))
    (ran : (machine sessionImpl threads).run {} es = some s) :
    s.sessions.length + (if s.crashed then 1 else 0) = s.listener.calls.length ∧
      (s.crashed = false → s.sessions.length + s.listener.waiting + s.listener.chains.length =
        s.listener.accepted.length + (es.filterMap Event.opened?).length) ∧
      ((∀ sock, sessionImpl.construct sock none = none) → s.sessions = []) := by
  have start : Accounts ([] : List (Event C S)) {} := ⟨rfl, rfl, fun _ => rfl⟩
  have accounts : s.Accounts ([] ++ es) :=
    Transition.System.history_invariant (fun past s e t accounts _ taken => accounts.step taken) [] start
      Transition.System.each_true ran
  refine ⟨accounts.calls, ?_, ?_⟩
  · intro running
    have calls : s.sessions.length = s.listener.calls.length := by simpa [running] using accounts.calls
    have accepted := accounts.accepted
    have ledger := accounts.ledger running
    have split := s.listener.served_errors
    rw [Listener.ledger, List.length_append, List.nil_append] at ledger
    omega
  · intro refuses
    apply Transition.System.invariant_of_run (P := fun s : WebsocketServer C S => s.sessions = []) ?_ rfl
      Transition.System.each_true ran
    intro s e t none _ taken
    cases (step_cases taken).2 with
    | listened => exact none
    | shutdown =>
      obtain ⟨_, _, _, length⟩ := shutdown_eq sessionImpl s
      rw [none] at length
      exact List.eq_nil_of_length_eq_zero length
    | handed posted returns =>
      rw [refuses] at returns
      cases returns
    | crashed => exact none
    | session => simp [none]

theorem sessions_counted_aborted :
    (∃ s, (machine uncountedSession 1).run {} abortedAccept = some s ∧ s.sessions.length = 1 ∧ s.crashed = false ∧
      s.sessions.length + s.listener.waiting + s.listener.chains.length =
        s.listener.accepted.length + ((abortedAccept : List (Event Nat (Session Unit Nat))).filterMap Event.opened?).length) ∧
    ∃ s, (machine serverSession 1).run {} accepting = some s ∧ s.crashed = true ∧ s.sessions = [] := by
  constructor
  · obtain ⟨s, ran, one, running⟩ : ∃ s, (machine uncountedSession 1).run {} abortedAccept = some s ∧
        s.sessions.length = 1 ∧ s.crashed = false := ⟨_, rfl, rfl, rfl⟩
    exact ⟨s, ran, one, running, (sessions_counted uncountedSession 1 abortedAccept ran).2.1 running⟩
  · obtain ⟨s, ran, crashed⟩ : ∃ s, (machine serverSession 1).run {} accepting = some s ∧ s.crashed = true :=
      ⟨_, rfl, rfl⟩
    exact ⟨s, ran, crashed, (sessions_counted serverSession 1 accepting ran).2.2 fun _ => rfl⟩

end WebsocketServer

end MaxNet
