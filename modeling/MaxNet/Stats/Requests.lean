import MaxNet.Lib.Transition
import MaxNet.Stats

namespace MaxNet

structure StatsRequests where
  stats : SessionStats := {}
  requested : Bool := false
  deriving DecidableEq

namespace StatsRequests

inductive Event
  | setEnabled (enabled : Bool)
  | timerExpires
  | statCheck (wait : Wait)
  deriving DecidableEq

def step (s : StatsRequests) : Event → Option StatsRequests
  | .setEnabled enabled => some { stats := s.stats.setEnabled enabled, requested := enabled }
  | .timerExpires =>
    if .armed ∈ s.stats.waits then
      some { s with stats := { s.stats with waits := s.stats.waits.erase .armed ++ [.expired] } }
    else none
  | .statCheck wait =>
    match wait.result with
    | some ec =>
      if wait ∈ s.stats.waits then
        some { s with stats := { s.stats with waits := s.stats.waits.erase wait }.doStatCheck ec }
      else none
    | none => none

def machine : Transition.System StatsRequests Event := ⟨step⟩

def Quiet (s : StatsRequests) : Prop := ∀ wait ∈ s.stats.waits, wait = .armed

structure Follows (s : StatsRequests) : Prop where
  one_wait : s.stats.waits.length ≤ 1
  requested : s.Quiet → s.stats.isEnabled = s.requested
  armed : s.Quiet → (.armed ∈ s.stats.waits ↔ s.stats.isEnabled = true)

def Waiting (s : StatsRequests) : Prop :=
  (s.stats.isEnabled = false ∧ s.stats.waits = []) ∨ ∃ wait, s.stats.isEnabled = true ∧ s.stats.waits = [wait]

def Answers (s : StatsRequests) : Event → Prop
  | .statCheck wait => wait = .cancelled ↔ s.requested = false
  | _ => True

instance (s : StatsRequests) (e : Event) : Decidable (s.Answers e) := by
  unfold Answers
  split <;> infer_instance

variable {s t : StatsRequests} {e : Event}

theorem waiting_of_off (off : s.stats.isEnabled = false) (none : s.stats.waits = []) : s.Waiting := Or.inl ⟨off, none⟩

theorem waiting_of_on {wait : Wait} (on : s.stats.isEnabled = true) (one : s.stats.waits = [wait]) : s.Waiting :=
  Or.inr ⟨wait, on, one⟩

theorem quiet_iff {wait : Wait} (one : s.stats.waits = [wait]) : s.Quiet ↔ wait = .armed := by
  simp [Quiet, one]

theorem cancel_ne_armed (wait : Wait) : wait.cancel ≠ .armed := by
  cases wait <;> simp [Wait.cancel]

def Outcome (s t : StatsRequests) : Event → Prop
  | .setEnabled enabled => t.requested = enabled ∧ (t.Quiet → t.stats.isEnabled = enabled)
  | .timerExpires => t.requested = s.requested ∧ ¬ t.Quiet
  | .statCheck wait => t.requested = s.requested ∧ t.Quiet ∧ (t.stats.isEnabled = false ↔ wait = .cancelled)

theorem step_waiting (waiting : s.Waiting) (h : s.step e = some t) : t.Waiting ∧ s.Outcome t e := by
  rcases waiting with ⟨off, none⟩ | ⟨wait, on, one⟩
  · cases e with
    | setEnabled enabled =>
      cases h
      cases enabled with
      | true =>
        rw [SessionStats.setEnabled_true_of_off off, none]
        exact ⟨waiting_of_on rfl rfl, rfl, fun _ => rfl⟩
      | false =>
        rw [SessionStats.setEnabled_false_of_off off]
        exact ⟨waiting_of_off off none, rfl, fun _ => off⟩
    | timerExpires => simp [step, none] at h
    | statCheck wait =>
      simp only [step, none] at h
      split at h
      · simp at h
      · cases h
  · cases e with
    | setEnabled enabled =>
      cases h
      rw [SessionStats.setEnabled_of_on on, one]
      refine ⟨waiting_of_on on rfl, rfl, ?_⟩
      intro quiet
      exact absurd ((quiet_iff rfl).mp quiet) (cancel_ne_armed wait)
    | timerExpires =>
      simp only [step, one, List.mem_singleton, Option.ite_none_right_eq_some, Option.some.injEq] at h
      obtain ⟨rfl, rfl⟩ := h
      refine ⟨waiting_of_on on rfl, rfl, ?_⟩
      intro quiet
      exact absurd ((quiet_iff rfl).mp quiet) (by simp)
    | statCheck fired =>
      simp only [step, one] at h
      split at h
      · rename_i ec result
        simp only [List.mem_singleton, Option.ite_none_right_eq_some, Option.some.injEq] at h
        obtain ⟨rfl, rfl⟩ := h
        cases fired with
        | armed => cases result
        | expired =>
          cases result
          exact ⟨waiting_of_on on rfl, rfl, (quiet_iff rfl).mpr rfl, by simp [SessionStats.doStatCheck, on]⟩
        | cancelled =>
          cases result
          rw [SessionStats.doStatCheck_failed rfl]
          exact ⟨waiting_of_off rfl rfl, rfl, by simp [Quiet], by simp⟩
      · cases h

structure InOrder (s : StatsRequests) : Prop where
  waiting : s.Waiting
  requested : s.Quiet → s.stats.isEnabled = s.requested

theorem InOrder.follows (order : s.InOrder) : s.Follows where
  one_wait := by
    rcases order.waiting with ⟨_, none⟩ | ⟨wait, _, one⟩
    · simp [none]
    · simp [one]
  requested := order.requested
  armed := by
    intro quiet
    rcases order.waiting with ⟨off, none⟩ | ⟨wait, on, one⟩
    · simp [off, none]
    · simp [on, one, (quiet_iff one).mp quiet]

theorem InOrder.step (order : s.InOrder) (answers : s.Answers e) (h : s.step e = some t) : t.InOrder := by
  obtain ⟨waiting, taken⟩ := step_waiting order.waiting h
  refine ⟨waiting, ?_⟩
  intro quiet
  cases e with
  | setEnabled enabled => rw [taken.1, taken.2 quiet]
  | timerExpires => exact absurd quiet taken.2
  | statCheck wait =>
    obtain ⟨kept, _, disabled⟩ := taken
    have same : t.stats.isEnabled = false ↔ t.requested = false := by rw [disabled, kept]; exact answers
    cases requested : t.requested with
    | true => simpa [requested] using same
    | false => exact same.mpr requested

theorem InOrder.answers (order : s.InOrder) (h : s.step e = some t) (follows : t.Follows) : s.Answers e := by
  obtain ⟨_, taken⟩ := step_waiting order.waiting h
  cases e with
  | setEnabled enabled => exact True.intro
  | timerExpires => exact True.intro
  | statCheck wait =>
    obtain ⟨kept, quiet, disabled⟩ := taken
    have same := follows.requested quiet
    rw [kept] at same
    rw [Answers, ← disabled, same]

/-- The statistics follow the last request in every state of a run exactly if each handler that runs has
    been cancelled while they were to be disabled, or has expired while they were to be enabled. -/
theorem follows_iff (es : List Event) (ran : machine.run {} es = some t) :
    machine.Always Follows {} es ↔ machine.Each Answers {} es := by
  have start : InOrder {} := ⟨waiting_of_off rfl rfl, fun _ => rfl⟩
  apply Transition.System.always_iff_each (I := InOrder) (R := fun _ _ => True) ?_ ?_ ?_ start
    Transition.System.each_true ran
  · intro s order
    exact order.follows
  · intro s e t order _ answers h
    exact order.step answers h
  · intro s e t order _ h follows
    exact order.answers h follows

def enabledThenDisabled : List Event :=
  [.setEnabled true, .timerExpires, .statCheck .expired, .setEnabled false, .statCheck .cancelled]

theorem follows_iff_disabled : machine.Always Follows {} enabledThenDisabled :=
  (follows_iff enabledThenDisabled rfl).mpr (by decide)

/-- A second request to enable them disables them, and a request to disable them comes too late for a wait
    that has expired. -/
theorem request_lost :
    machine.run {} [.setEnabled true, .setEnabled true, .statCheck .cancelled] = some { requested := true } ∧
      machine.run {} [.setEnabled true, .timerExpires, .setEnabled false, .statCheck .expired] =
        some { stats := { isEnabled := true, waits := [.armed] }, requested := false } ∧
      ¬ machine.Always Follows {} [.setEnabled true, .setEnabled true, .statCheck .cancelled] ∧
      ¬ machine.Always Follows {} [.setEnabled true, .timerExpires, .setEnabled false, .statCheck .expired] := by
  refine ⟨rfl, rfl, ?_, ?_⟩
  · intro always
    have follows := always.final (t := { requested := true }) rfl
    have same := follows.requested (by simp [Quiet])
    cases same
  · intro always
    have follows := always.final (t := { stats := { isEnabled := true, waits := [.armed] }, requested := false }) rfl
    have same := follows.requested (by simp [Quiet])
    cases same

end StatsRequests

end MaxNet
