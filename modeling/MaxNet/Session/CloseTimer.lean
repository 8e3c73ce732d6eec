import MaxNet.Session.Rest
import MaxNet.Session.Unclosed

namespace MaxNet

namespace Closing

variable {E M : Type} {v w : Closing} {e : Session.Event E M}

def Guarded (v : Closing) : Prop := v.socketOpen = false ∨ ∃ wait ∈ v.closeWaits, wait ≠ .cancelled

def Timed (v : Closing) : Prop := v.closeTmt = false → v.closeStarts = 0 ∧ v.closes = 0

theorem guarded_armed (waits : List Wait) (armed : v.closeWaits = waits ++ [.armed]) : v.Guarded :=
  Or.inr ⟨.armed, by simp [armed], nofun⟩

/-- Only an answer takes the timer back. -/
theorem Guarded.step (guarded : v.Guarded) (connected : ∀ url, e ≠ .connect url) (unanswered : ∀ ec, e ≠ .closed ec)
    (taken : ClosingStep v e w) : w.Guarded := by
  cases taken with
  | connect url => exact absurd rfl (connected url)
  | close dispatched => exact guarded_armed _ rfl
  | closeStart positive => exact guarded
  | closed ec positive => exact absurd rfl (unanswered ec)
  | closeTimerExpires member => exact Or.inr ⟨.expired, List.mem_append_right _ (List.mem_singleton_self _), nofun⟩
  | closeTimerFires wait ec result member =>
    rcases guarded with shut | ⟨live, held, waiting⟩
    · exact Or.inl (by simp only [shut, Bool.false_and])
    · cases wait with
      | armed => cases result
      | expired =>
        cases result
        exact Or.inl (by simp)
      | cancelled => exact Or.inr ⟨live, (List.mem_erase_of_ne waiting).mpr held, waiting⟩
  | other => exact guarded

theorem Timed.step (timed : v.Timed) (taken : ClosingStep v e w) : w.Timed := by
  cases taken with
  | close dispatched => exact nofun
  | closeStart positive =>
    intro unset
    have none := (timed unset).1
    omega
  | closed ec positive =>
    intro unset
    have none := (timed unset).2
    omega
  | _ => exact timed

/-- A close that has been dispatched is under way until it is answered. -/
theorem underway_step (positive : 0 < v.closeStarts + v.closes) (unanswered : ∀ ec, e ≠ .closed ec)
    (taken : ClosingStep v e w) : 0 < w.closeStarts + w.closes := by
  cases taken with
  | close dispatched => simp only; omega
  | closeStart starts => simp only; omega
  | closed ec closes => exact absurd rfl (unanswered ec)
  | _ => exact positive

/-- Without a timer that is armed or has expired, none will close the socket. -/
theorem harmless_step (harmless : ∀ wait ∈ v.closeWaits, wait = .cancelled) (connected : ∀ url, e ≠ .connect url)
    (once : e ≠ .close) (taken : ClosingStep v e w) :
    (∀ wait ∈ w.closeWaits, wait = .cancelled) ∧ w.socketOpen = v.socketOpen := by
  cases taken with
  | connect url => exact absurd rfl (connected url)
  | close dispatched => exact absurd rfl once
  | closeStart positive => exact ⟨harmless, rfl⟩
  | closed ec positive =>
    refine ⟨?_, rfl⟩
    intro wait member
    split at member
    · obtain ⟨before, held, rfl⟩ := List.mem_map.mp member
      rw [harmless before held]
      rfl
    · exact harmless wait member
  | closeTimerExpires member => cases harmless _ member
  | closeTimerFires wait ec result member =>
    obtain rfl := harmless wait member
    cases result
    exact ⟨fun wait held => harmless wait (List.mem_of_mem_erase held), by simp [ErrorCode.failed]⟩
  | other => exact ⟨harmless, rfl⟩

/-- An answer in time leaves no timer that closes the socket. -/
theorem harmless_closed {ec : ErrorCode} (timed : v.Timed) (intime : .expired ∉ v.closeWaits)
    (taken : ClosingStep v (.closed ec : Session.Event E M) w) :
    (∀ wait ∈ w.closeWaits, wait = .cancelled) ∧ w.socketOpen = v.socketOpen := by
  cases taken with
  | closed _ positive =>
    have set : v.closeTmt = true := by
      by_contra unset
      have none := (timed (by simpa using unset)).2
      omega
    refine ⟨?_, rfl⟩
    intro wait member
    rw [if_pos set] at member
    obtain ⟨before, held, rfl⟩ := List.mem_map.mp member
    cases before with
    | expired => exact absurd held intime
    | _ => rfl
  | other _ apart => cases apart

end Closing

namespace Session

variable {E M : Type} [DecidableEq E] [DecidableEq M] {s t : Session E M} {es : List (Event E M)}

theorem timed_of_run {role : Role} {inbox : List WsMessage}
    (ran : (machine E M).run (initial role inbox) es = some s) : s.closing.Timed := by
  apply Transition.System.invariant_of_run (P := fun s : Session E M => s.closing.Timed) ?_ (fun _ => ⟨rfl, rfl⟩)
    Transition.System.each_true ran
  intro s e t timed _ taken
  exact timed.step (step_closing taken)

def Silent (_ : Session E M) (e : Event E M) : Prop := (∀ url, e ≠ .connect url) ∧ ∀ ec, e ≠ .closed ec

theorem guarded_of_run (guarded : s.closing.Guarded) (silent : (machine E M).Each Silent s es)
    (ran : (machine E M).run s es = some t) : t.closing.Guarded := by
  apply Transition.System.invariant_of_run (P := fun s : Session E M => s.closing.Guarded) ?_ guarded silent ran
  intro s e t guarded silent taken
  exact guarded.step silent.1 silent.2 (step_closing taken)

theorem underway_of_run (positive : 0 < s.closeStarts + s.closes) (silent : (machine E M).Each Silent s es)
    (ran : (machine E M).run s es = some t) : 0 < t.closeStarts + t.closes := by
  apply Transition.System.invariant_of_run (P := fun s : Session E M => 0 < s.closeStarts + s.closes) ?_ positive silent
    ran
  intro s e t positive silent taken
  exact Closing.underway_step (v := s.closing) positive silent.2 (step_closing taken)

omit [DecidableEq E] [DecidableEq M] in
theorem guarded_close (s : Session E M) : s.close.closing.Guarded := by
  apply Closing.guarded_armed (s.closeWaits.map Wait.cancel)
  unfold close
  simp only
  split <;> rfl

omit [DecidableEq E] [DecidableEq M] in
theorem underway_close (wsOpen : s.wsOpen = true) (online : s.status = .online) :
    0 < s.close.closeStarts + s.close.closes := by
  have asked : s.close.life.closeStarts = s.life.closeStarts + 1 := by rw [life_close, if_pos ⟨wsOpen, online⟩]
  have positive : s.close.closeStarts = s.closeStarts + 1 := asked
  omega

/-- A call of `close()` has its way without the other end. Until the close is answered, the socket is closed or a timer
    is going to close it, and a session that comes to rest without an answer was not online and has no socket any more.
    An answer in time keeps the timer from closing the socket. -/
theorem close_timer_guards (role : Role) (inbox : List WsMessage) (before : List (Event E M)) (s : Session E M)
    (ran : (machine E M).run (initial role inbox) before = some s) :
    (∀ after t, (machine E M).run s (.close :: after) = some t →
        (∀ url, .connect url ∉ after) → (∀ ec, .closed ec ∉ after) →
        t.closing.Guarded ∧ ((machine E M).AtRest Event.own t →
          t.socketOpen = false ∧ ¬ (s.wsOpen = true ∧ s.status = .online))) ∧
      ∀ ec after t, (machine E M).run s (.closed ec :: after) = some t →
        (∀ url, .connect url ∉ after) → .close ∉ after → .expired ∉ s.closeWaits → t.socketOpen = s.socketOpen := by
  constructor
  · intro after t closed connected unanswered
    obtain ⟨c, called, later⟩ := Transition.System.run_cons_some.mp closed
    cases called
    have silent : (machine E M).Each Silent s.close after := by
      apply Transition.System.each_of_forall
      intro _ e member
      exact ⟨fun url same => connected url (same ▸ member), fun ec same => unanswered ec (same ▸ member)⟩
    have guarded := guarded_of_run s.guarded_close silent later
    refine ⟨guarded, ?_⟩
    intro still
    obtain ⟨⟨_, _, _, _, _, _, _, unstarted, none⟩, waits⟩ := (atRest_iff t).mp still
    constructor
    · rcases guarded with shut | ⟨wait, member, _⟩
      · exact shut
      · have held : wait ∈ t.closeWaits := member
        rw [waits] at held
        cases held
    · rintro ⟨wsOpen, online⟩
      have positive := underway_of_run (underway_close wsOpen online) silent later
      omega
  · intro ec after t answered connected once intime
    obtain ⟨c, taken, later⟩ := Transition.System.run_cons_some.mp answered
    have harmless := Closing.harmless_closed (timed_of_run ran) intime (step_closing taken)
    have kept : (∀ wait ∈ t.closing.closeWaits, wait = .cancelled) ∧ t.closing.socketOpen = s.closing.socketOpen := by
      apply Transition.System.invariant_of_run (P := fun u : Session E M =>
        (∀ wait ∈ u.closing.closeWaits, wait = .cancelled) ∧ u.closing.socketOpen = s.closing.socketOpen)
        (Q := fun _ e => (∀ url, e ≠ .connect url) ∧ e ≠ .close) ?_ harmless ?_ later
      · rintro u e w ⟨harmless, same⟩ ⟨connected, once⟩ taken
        have next := Closing.harmless_step harmless connected once (step_closing taken)
        exact ⟨next.1, next.2.trans same⟩
      · apply Transition.System.each_of_forall
        intro _ e member
        exact ⟨fun url same => connected url (same ▸ member), fun same => once (same ▸ member)⟩
    exact kept.2

def unansweredClose : List (Event Unit Nat) :=
  [.closeTimerExpires, .closeTimerFires .expired, .closeStart]

theorem close_timer_guards_unanswered : ∃ s t : Session Unit Nat, (machine Unit Nat).run (initial .client []) opening = some s ∧
    (machine Unit Nat).run s (.close :: unansweredClose) = some t ∧ s.status = .online ∧ t.closing.Guarded := by
  have observed : ∃ s t, (machine Unit Nat).run (initial .client []) opening = some s ∧
      (machine Unit Nat).run s (.close :: unansweredClose) = some t ∧ s.status = .online := ⟨_, _, rfl, rfl, rfl⟩
  obtain ⟨s, t, ran, later, online⟩ := observed
  have guards := (close_timer_guards .client [] opening s ran).1 unansweredClose t later
    (by simp [unansweredClose]) (by simp [unansweredClose])
  exact ⟨s, t, ran, later, online, guards.1⟩

end Session

end MaxNet
