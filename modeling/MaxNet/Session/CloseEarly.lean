import MaxNet.Lib.Lists
import MaxNet.Session.Close
import MaxNet.Session.CloseTimer

namespace MaxNet

namespace Session

variable {E M : Type}

/-- Closing a socket ends the operations that are outstanding on it with an error. -/
def ClosedSocketFails (s : Session E M) : Event E M → Prop
  | .connected _ ec | .handshaken ec => s.socketOpen = false → ec.failed = true
  | _ => True

/-- The handler of a timer of `close()` that was not cancelled has still to run. -/
def Timing (s : Session E M) : Prop := ∃ wait ∈ s.closeWaits, wait ≠ .cancelled

def TimerFinds (s : Session E M) : Event E M → Prop
  | .connect _ => s.Timing
  | .handshaken _ => s.socketOpen = false ∨ ¬ s.Timing
  | _ => True

instance (s : Session E M) : Decidable s.Timing := by unfold Timing; infer_instance

instance (s : Session E M) (e : Event E M) : Decidable (s.TimerFinds e) := by
  induction e using Event.casesOn
  case connect =>
    show Decidable s.Timing
    infer_instance
  case handshaken =>
    show Decidable (_ ∨ ¬ s.Timing)
    infer_instance
  all_goals exact isTrue True.intro

instance (s : Session E M) (e : Event E M) : Decidable (s.ClosedSocketFails e) := by
  induction e using Event.casesOn
  case connected | handshaken =>
    show Decidable (_ → _)
    infer_instance
  all_goals exact isTrue True.intro

structure Once (s : Session E M) : Prop where
  quiet : Quiet s.readStrand
  ending : s.life.Ending True True

def Spent (s : Session E M) : Prop := s.life.opened = true ∧ s.life.opening = 0

def OpensFirst (s : Session E M) (e : Event E M) : Prop := opens e = true → s.life.opened = false

theorem once_initial (role : Role) (inbox : List WsMessage) : (initial role inbox : Session E M).Once where
  quiet := by simp [Quiet, initial]
  ending := initial_ending True True role inbox

theorem Once.spent_of_online {s : Session E M} (once : s.Once) (online : s.status = .online) : s.Spent := by
  have busy : s.life.status ≠ .blocked := by
    intro blocked
    cases online.symm.trans blocked
  refine ⟨once.ending.opened_of_status busy, ?_⟩
  by_contra opening
  exact busy (once.ending.waiting (Nat.pos_of_ne_zero opening))

variable [DecidableEq E] [DecidableEq M] {s t : Session E M} {e : Event E M} {es : List (Event E M)}

/-- From the last `close()` before a handshake completes, called on a session that is not online, the timer finds the
    connection. -/
def ClosedInTime (s : Session E M) (es : List (Event E M)) : Prop :=
  ∀ before middle ec after closed, es = before ++ .close :: (middle ++ .handshaken ec :: after) → .close ∉ middle →
    (machine E M).run s before = some closed → closed.status ≠ .online →
      (machine E M).Each TimerFinds closed.close (middle ++ [.handshaken ec])

theorem Once.step (once : s.Once) (first : s.OpensFirst e) (taken : s.step e = some t) : t.Once where
  quiet := quiet_step once.quiet taken
  ending := once.ending.step first (fun _ => True.intro) (fun _ => True.intro) (step_life taken once.quiet)

theorem Spent.step (spent : s.Spent) (once : s.Once) (first : s.OpensFirst e) (taken : s.step e = some t) : t.Spent := by
  obtain ⟨opened, none⟩ := spent
  have closed : ¬ opens e = true := by
    intro opening
    have fresh := first opening
    rw [opened] at fresh
    cases fresh
  have moved := step_life taken once.quiet
  refine ⟨(opened_of_lifeStep moved closed).trans opened, ?_⟩
  show t.life.opening = 0
  generalize t.life = w at moved
  cases moved with
  | connect url => exact absurd rfl closed
  | accept => exact absurd rfl closed
  | refused _ positive => omega
  | established _ positive => omega
  | _ => exact none

theorem Spent.run (spent : s.Spent) (once : s.Once) (first : (machine E M).Each OpensFirst s es)
    (ran : (machine E M).run s es = some t) : t.Spent := by
  have both : t.Spent ∧ t.Once := by
    apply Transition.System.invariant_of_run (P := fun s : Session E M => s.Spent ∧ s.Once) ?_ ⟨spent, once⟩ first ran
    rintro s e t ⟨spent, once⟩ first taken
    exact ⟨spent.step once first taken, once.step first taken⟩
  exact both.1

theorem Once.spent_of_closed {ec : ErrorCode} (once : s.Once) (taken : s.step (.closed ec) = some t) : s.Spent := by
  cases step_cases taken with
  | closed _ positive =>
    refine ⟨once.ending.opened_of_closes positive, ?_⟩
    by_contra opening
    have blocked := once.ending.waiting (Nat.pos_of_ne_zero opening)
    have none : s.closeStarts + s.closes = 0 := (once.ending.blocked blocked).2
    omega

theorem Once.spent_of_handshaken {ec : ErrorCode} (once : s.Once) (taken : s.step (.handshaken ec) = some t) :
    t.Spent := by
  cases step_cases taken with
  | handshaken _ positive free =>
    obtain ⟨cd, rest, body, _⟩ := handshakeHandler_body ec
    have opening : 0 < s.life.opening := by
      simp only [life]
      omega
    have token : s.connects.length + s.handshakes + s.accepts + s.life.reading ≤ 1 := once.ending.token
    rw [body]
    refine ⟨once.ending.opened_of_opening opening, ?_⟩
    show s.connects.length + (s.handshakes - 1) + s.accepts = 0
    omega

theorem not_spent_of_handshaken {ec : ErrorCode} (taken : s.step (.handshaken ec) = some t) : ¬ s.Spent := by
  rintro ⟨_, none⟩
  have idle : s.connects.length + s.handshakes + s.accepts = 0 := none
  cases step_cases taken with
  | handshaken _ positive free => omega

/-- Until the handshake completes nothing takes the timer back. -/
theorem guarded_or_spent_step (once : s.Once) (first : s.OpensFirst e) (finds : s.TimerFinds e)
    (holds : s.closing.Guarded ∨ s.Spent) (taken : s.step e = some t) : t.closing.Guarded ∨ t.Spent := by
  rcases holds with guarded | spent
  · by_cases answered : ∃ ec, e = .closed ec
    · obtain ⟨ec, rfl⟩ := answered
      exact Or.inr ((once.spent_of_closed taken).step once first taken)
    · by_cases connects : ∃ url, e = .connect url
      · obtain ⟨url, rfl⟩ := connects
        have timing : s.Timing := finds
        have moved := step_closing taken
        generalize t.closing = w at moved ⊢
        cases moved with
        | connect _ => exact Or.inl (Or.inr timing)
        | other _ apart => cases apart
      · refine Or.inl (guarded.step ?_ ?_ (step_closing taken))
        · exact fun url same => connects ⟨url, same⟩
        · exact fun ec same => answered ⟨ec, same⟩
  · exact Or.inr (spent.step once first taken)

/-- A handshake for which the timer finds the connection completes on a closed socket. -/
theorem shut_of_timerFinds {ec : ErrorCode} {u : Session E M} (once : s.Once)
    (first : (machine E M).Each OpensFirst s.close es)
    (finds : (machine E M).Each TimerFinds s.close (es ++ [.handshaken ec]))
    (ran : (machine E M).run s.close es = some t) (taken : t.step (.handshaken ec) = some u) : t.socketOpen = false := by
  have both : (t.closing.Guarded ∨ t.Spent) ∧ t.Once := by
    apply Transition.System.invariant_of_run (P := fun s : Session E M => (s.closing.Guarded ∨ s.Spent) ∧ s.Once) ?_
      ⟨Or.inl s.guarded_close, ?_⟩ (first.and finds.append_left) ran
    · rintro s e t ⟨holds, once⟩ ⟨first, finds⟩ taken
      exact ⟨guarded_or_spent_step once first finds holds taken, once.step first taken⟩
    · exact once.step (e := .close) nofun rfl
  have last : t.socketOpen = false ∨ ¬ t.Timing := (finds.append_right ran).1
  rcases both.1 with shut | spent
  · rcases last with shut' | silent
    · exact shut'
    · exact shut.resolve_right silent
  · exact absurd spent (not_spent_of_handshaken taken)

/-- The completion of a handshake is what the other end makes of it. -/
theorem handshaken_success {ec : ErrorCode} (taken : s.step (.handshaken ec) = some t) :
    ∃ u, s.step (.handshaken .success) = some u := by
  cases step_cases taken with
  | handshaken _ positive free => exact ⟨_, if_pos ⟨positive, free⟩⟩

theorem opened_of_connect {url : NetUrl E} (taken : s.step (.connect url) = some t) :
    t.socketOpen = true ∧ t.closeWaits = s.closeWaits := by
  cases step_cases taken with
  | connect _ => exact ⟨rfl, rfl⟩

/-- A timer that has gone leaves the socket open. -/
theorem socketOpen_of_run (harmless : ∀ wait ∈ s.closeWaits, wait = .cancelled) (opened : s.socketOpen = true)
    (last : .close ∉ es) (ran : (machine E M).run s es = some t) : t.socketOpen = true := by
  have kept : (∀ wait ∈ t.closing.closeWaits, wait = .cancelled) ∧ t.closing.socketOpen = true := by
    apply Transition.System.invariant_of_run (P := fun s : Session E M =>
      (∀ wait ∈ s.closing.closeWaits, wait = .cancelled) ∧ s.closing.socketOpen = true)
      (Q := fun _ e => e ≠ .close) ?_ ⟨harmless, opened⟩ ?_ ran
    · rintro s e t ⟨harmless, opened⟩ once taken
      have moved := step_closing taken
      by_cases connects : ∃ url, e = .connect url
      · obtain ⟨url, rfl⟩ := connects
        generalize t.closing = w at moved ⊢
        cases moved with
        | connect _ => exact ⟨harmless, rfl⟩
        | other _ apart => cases apart
      · have next := Closing.harmless_step harmless (fun url same => connects ⟨url, same⟩) once moved
        exact ⟨next.1, next.2.trans opened⟩
    · exact Transition.System.each_of_forall fun _ e member same => last (same ▸ member)
  exact kept.2

/-- Where the timer has missed the connection, the handshake completes on an open socket. -/
theorem timerFinds_of_shut {ec : ErrorCode} {u : Session E M} (once : s.Once)
    (first : (machine E M).Each OpensFirst s es) (last : .close ∉ es) (ran : (machine E M).run s es = some t)
    (taken : t.step (.handshaken ec) = some u) (shut : t.socketOpen = false) :
    (machine E M).Each TimerFinds s (es ++ [.handshaken ec]) := by
  have now : (machine E M).Each TimerFinds t [.handshaken ec] := ⟨Or.inl shut, fun _ _ => True.intro⟩
  refine Transition.System.Each.append ?_ ran now
  apply Transition.System.each_of_split
  intro before e after v split reached
  rw [split] at ran first
  obtain ⟨_, reached', later⟩ := Transition.System.run_append_some.mp ran
  obtain rfl := Option.some.inj (reached.symm.trans reached')
  obtain ⟨w, stepped, rest⟩ := Transition.System.run_cons_some.mp later
  have onceHere : v.Once := by
    apply Transition.System.invariant_of_run (P := Once) ?_ once first.append_left reached
    exact fun s e t once first taken => once.step first taken
  have firstHere := first.append_right reached
  cases e with
  | connect url =>
    by_contra missed
    have harmless : ∀ wait ∈ v.closeWaits, wait = .cancelled := by
      intro wait member
      by_contra waiting
      exact missed ⟨wait, member, waiting⟩
    have opened := opened_of_connect stepped
    have silent : .close ∉ after := by
      intro member
      exact last (by rw [split]; exact List.mem_append_right _ (List.mem_cons_of_mem _ member))
    have still := socketOpen_of_run (opened.2 ▸ harmless) opened.1 silent rest
    rw [shut] at still
    cases still
  | handshaken ec' =>
    have spent := (onceHere.spent_of_handshaken stepped).run (onceHere.step firstHere.1 stepped) (firstHere.2 w stepped)
      rest
    exact absurd spent (not_spent_of_handshaken taken)
  | _ => exact True.intro

theorem opensFirst_of_run {role : Role} {inbox : List WsMessage} (single : es.countP opens ≤ 1) :
    (machine E M).Each OpensFirst (initial role inbox) es :=
  each_opens_once es _ (by simp [Quiet, initial]) (by simp [life, initial]) single

theorem once_of_run {role : Role} {inbox : List WsMessage} {before after : List (Event E M)}
    (single : (before ++ after).countP opens ≤ 1) (ran : (machine E M).run (initial role inbox) before = some s) :
    s.Once ∧ (machine E M).Each OpensFirst s after := by
  have first : (machine E M).Each OpensFirst (initial role inbox) (before ++ after) := opensFirst_of_run single
  refine ⟨?_, first.append_right ran⟩
  apply Transition.System.invariant_of_run (P := Once) ?_ (once_initial role inbox) first.append_left ran
  exact fun s e t once first taken => once.step first taken

/-- The last close before a handshake completes was called before the session could go online. -/
theorem handshakes_fail_of_in_time {inbox : List WsMessage} (ran : (machine E M).run (initial .client inbox) es = some t)
    (single : es.countP opens ≤ 1) (fails : (machine E M).Each ClosedSocketFails (initial .client inbox) es)
    (intime : ClosedInTime (initial .client inbox) es) : HandshakesFailAfterClose (initial .client inbox) es := by
  intro early late first split _ _ e member
  cases e with
  | handshaken ec =>
    obtain ⟨between, after, rfl⟩ := List.append_of_mem member
    obtain ⟨before, middle, closes, last⟩ :=
      Lists.append_of_mem_last (List.mem_append_right early (List.mem_cons_self (a := .close) (l := between)))
    have whole : es = before ++ .close :: (middle ++ .handshaken ec :: after) := by
      have joined : early ++ .close :: (between ++ .handshaken ec :: after) =
          (early ++ .close :: between) ++ .handshaken ec :: after := by simp
      rw [split, joined, closes]
      simp
    rw [whole] at ran single fails
    obtain ⟨closed, reached, ran⟩ := Transition.System.run_append_some.mp ran
    obtain ⟨_, called, ran⟩ := Transition.System.run_cons_some.mp ran
    cases called
    obtain ⟨u, reached', ran⟩ := Transition.System.run_append_some.mp ran
    obtain ⟨v, taken, _⟩ := Transition.System.run_cons_some.mp ran
    obtain ⟨once, firsts⟩ := once_of_run single reached
    have firsts : (machine E M).Each OpensFirst closed.close middle := (firsts.2 _ rfl).append_left
    have waiting : closed.status ≠ .online := by
      intro online
      have onceClosed : closed.close.Once := once.step (e := .close) nofun rfl
      have spent : closed.close.Spent := (once.spent_of_online online).step once (e := .close) nofun rfl
      exact not_spent_of_handshaken taken (spent.run onceClosed firsts reached')
    have shut := shut_of_timerFinds once firsts (intime before middle ec after closed whole last reached waiting)
      reached' taken
    exact (((fails.append_right reached).2 _ rfl).append_right reached').1 shut
  | _ => exact True.intro

/-- Where the last close before a handshake completes is not in time for it, the handshake may succeed. -/
theorem may_succeed_of_late {inbox : List WsMessage} (ran : (machine E M).run (initial .client inbox) es = some t)
    (single : es.countP opens ≤ 1) (fails : (machine E M).Each ClosedSocketFails (initial .client inbox) es)
    (late : ¬ ClosedInTime (initial .client inbox) es) :
    ∃ before ec after, es = before ++ .handshaken ec :: after ∧
      (∃ u, (machine E M).run (initial .client inbox) (before ++ [.handshaken .success]) = some u) ∧
      (machine E M).Each ClosedSocketFails (initial .client inbox) (before ++ [.handshaken .success]) ∧
      ¬ CloseIsFinal (initial .client inbox) (before ++ [.handshaken .success]) := by
  unfold ClosedInTime at late
  push Not at late
  obtain ⟨before, middle, ec, after, closed, split, last, reached, waiting, missed⟩ := late
  have whole : es = (before ++ .close :: middle) ++ .handshaken ec :: after := by simp [split]
  rw [split] at single
  rw [whole] at ran fails
  obtain ⟨u, reached', ran⟩ := Transition.System.run_append_some.mp ran
  obtain ⟨v, taken, _⟩ := Transition.System.run_cons_some.mp ran
  obtain ⟨_, again, closes⟩ := Transition.System.run_append_some.mp reached'
  obtain rfl := Option.some.inj (reached.symm.trans again)
  obtain ⟨_, called, later⟩ := Transition.System.run_cons_some.mp closes
  cases called
  obtain ⟨once, firsts⟩ := once_of_run single reached
  have onceClosed : closed.close.Once := once.step (e := .close) nofun rfl
  have opened : u.socketOpen = true := by
    by_contra shut
    exact missed (timerFinds_of_shut onceClosed (firsts.2 _ rfl).append_left last later taken (by simpa using shut))
  obtain ⟨w, succeeds⟩ := handshaken_success taken
  refine ⟨before ++ .close :: middle, ec, after, whole, ⟨w, ?_⟩, ?_, ?_⟩
  · exact Transition.System.run_append_some.mpr ⟨u, reached', Transition.System.run_cons_some.mpr ⟨w, succeeds, rfl⟩⟩
  · refine fails.append_left.append reached' ⟨?_, fun _ _ => True.intro⟩
    intro shut
    rw [opened] at shut
    cases shut
  · intro final
    have always := final before (middle ++ [.handshaken .success]) closed (by simp) reached waiting
    exact ((always.append_right later).2 w succeeds).1 (handshaken_online (by simp) succeeds)

/-- Closing a client session that is not online yet is final in every run in which the timer of the close finds the
    connection: `connect()` comes before the handler of the timer has run, and the handshake completes after it. In any
    other run the handshake may succeed, and the session goes online. -/
theorem close_is_final_in_time (inbox : List WsMessage) (es : List (Event E M)) (t : Session E M)
    (ran : (machine E M).run (initial .client inbox) es = some t) (single : es.countP opens ≤ 1)
    (fails : (machine E M).Each ClosedSocketFails (initial .client inbox) es) :
    (ClosedInTime (initial .client inbox) es → CloseIsFinal (initial .client inbox) es) ∧
      (¬ ClosedInTime (initial .client inbox) es → ∃ before ec after, es = before ++ .handshaken ec :: after ∧
        (∃ u, (machine E M).run (initial .client inbox) (before ++ [.handshaken .success]) = some u) ∧
        (machine E M).Each ClosedSocketFails (initial .client inbox) (before ++ [.handshaken .success]) ∧
        ¬ CloseIsFinal (initial .client inbox) (before ++ [.handshaken .success])) :=
  ⟨fun intime => closeIsFinal_of_fail (handshakes_fail_of_in_time ran single fails intime),
    may_succeed_of_late ran single fails⟩

def closedConnecting : List (Event Unit Nat) :=
  [.connect { hostname := ['h'], endpointSeq := [()] }, .close,
    .connected { hostname := ['h'], endpointSeq := [()] } .success, .closeTimerExpires, .closeTimerFires .expired,
    .handshaken ⟨125, .system⟩, .strandStep, .strandStep]

theorem closedConnecting_in_time : ClosedInTime (initial .client []) closedConnecting := by
  intro before middle ec after closed split _ reached _
  have called : before = [.connect { hostname := ['h'], endpointSeq := [()] }] ∧
      middle ++ .handshaken ec :: after = closedConnecting.drop 2 := by
    simpa [closedConnecting, List.cons_eq_append_iff] using split
  obtain ⟨rfl, later⟩ := called
  have waited : middle = (closedConnecting.drop 2).take 3 ∧ ec = ⟨125, .system⟩ ∧ after = [.strandStep, .strandStep] := by
    simpa [closedConnecting, List.cons_eq_append_iff] using later.symm
  obtain ⟨rfl, rfl, _⟩ := waited
  cases reached
  decide

theorem close_is_final_in_time_connecting : CloseIsFinal (initial .client []) closedConnecting := by
  obtain ⟨t, ran⟩ : ∃ t, (machine Unit Nat).run (initial .client []) closedConnecting = some t := ⟨_, rfl⟩
  exact (close_is_final_in_time [] closedConnecting t ran (by decide) (by decide)).1 closedConnecting_in_time

def closedResolving : List (Event Unit Nat) :=
  [.close, .closeTimerExpires, .closeTimerFires .expired, .setOnReady, .setOnRead,
    .connect { hostname := ['h'], endpointSeq := [()] },
    .connected { hostname := ['h'], endpointSeq := [()] } .success, .handshaken .success, .strandStep, .strandStep]

theorem close_is_final_fails :
    ¬ ∀ (inbox : List WsMessage) (es : List (Event Unit Nat)) (t : Session Unit Nat),
      (machine Unit Nat).run (initial .client inbox) es = some t → es.countP opens ≤ 1 →
      (machine Unit Nat).Each ClosedSocketFails (initial .client inbox) es →
      CloseIsFinal (initial .client inbox) es := by
  intro claim
  have ran : ((machine Unit Nat).run (initial .client []) closedResolving).isSome = true := by decide
  obtain ⟨t, final⟩ := Option.isSome_iff_exists.mp ran
  have finality := claim [] closedResolving t final (by decide) (by decide)
  have always := finality [] closedResolving.tail (initial .client []) rfl rfl (by decide)
  have rest : (machine Unit Nat).run (initial .client [] : Session Unit Nat).close closedResolving.tail = some t :=
    final
  have online : ((machine Unit Nat).run (initial .client []) closedResolving).map (fun s => s.status) =
      some .online := by decide
  rw [final] at online
  exact (always.final rest).1 (Option.some.inj online)

end Session

end MaxNet
