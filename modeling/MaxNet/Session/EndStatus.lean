import MaxNet.Session.Life

namespace MaxNet

namespace Session

variable {E M : Type}

def opens : Event E M → Bool
  | .connect _ | .accept => true
  | _ => false

def IsClosed : Event E M → Prop
  | .closed _ => True
  | _ => False

def Aborts : Event E M → Prop
  | .readFailed ec _ => ec ≠ .closed ∧ ec.value ≠ 89
  | _ => False

instance (e : Event E M) : Decidable (IsClosed e) := by unfold IsClosed; split <;> infer_instance

instance (e : Event E M) : Decidable (Aborts e) := by unfold Aborts; split <;> infer_instance

def Ended (cd : StatusCode) : Prop := cd = .offline ∨ cd = .aborted

end Session

open Session

structure Life.Ending (closed aborts : Prop) (v : Life) : Prop where
  token : v.opening + v.reading ≤ 1
  waiting : 0 < v.opening → v.status = .blocked
  unopened : v.opened = false → v.opening = 0 ∧ v.status = .blocked
  blocked : v.status = .blocked → v.reading = 0 ∧ v.closeStarts + v.closes = 0
  offline : v.status = .offline → 0 < v.reading → closed
  aborted : v.status = .aborted → v.reading = 0 ∧ (0 < v.closeStarts + v.closes → aborts)

namespace Life.Ending

variable {E M : Type} {closed aborts : Prop} {v w : Life} {e : Event E M}

theorem opened_of_opening (ending : v.Ending closed aborts) (positive : 0 < v.opening) : v.opened = true := by
  by_contra unopened
  have none := (ending.unopened (by simpa using unopened)).1
  omega

theorem opened_of_status (ending : v.Ending closed aborts) (other : v.status ≠ .blocked) : v.opened = true := by
  by_contra unopened
  exact other (ending.unopened (by simpa using unopened)).2

theorem opened_of_reading (ending : v.Ending closed aborts) (positive : 0 < v.reading) : v.opened = true := by
  apply ending.opened_of_status
  intro blocked
  have none := (ending.blocked blocked).1
  omega

theorem opened_of_closes (ending : v.Ending closed aborts) (positive : 0 < v.closes) : v.opened = true := by
  apply ending.opened_of_status
  intro blocked
  have none := (ending.blocked blocked).2
  omega

theorem step (ending : v.Ending closed aborts) (once : opens e = true → v.opened = false)
    (mayClose : IsClosed e → closed) (mayAbort : Aborts e → aborts) (taken : LifeStep v e w) :
    w.Ending closed aborts := by
  have token := ending.token
  cases taken with
  | other => exact ending
  | connect url =>
    obtain ⟨none, blocked⟩ := ending.unopened (once rfl)
    obtain ⟨idle, still⟩ := ending.blocked blocked
    exact
      { token := by simp only; omega
        waiting := fun _ => rfl
        unopened := by simp
        blocked := fun _ => ⟨idle, still⟩
        offline := by simp
        aborted := by simp }
  | accept =>
    obtain ⟨none, blocked⟩ := ending.unopened (once rfl)
    obtain ⟨idle, still⟩ := ending.blocked blocked
    exact
      { token := by simp only; omega
        waiting := fun _ => blocked
        unopened := by simp
        blocked := fun _ => ⟨idle, still⟩
        offline := by simp [blocked]
        aborted := by simp [blocked] }
  | refused _ positive =>
    have opened := ending.opened_of_opening positive
    obtain ⟨idle, still⟩ := ending.blocked (ending.waiting positive)
    exact
      { token := by simp only; omega
        waiting := by simp only; omega
        unopened := by simp [opened]
        blocked := by simp
        offline := by simp
        aborted := fun _ => ⟨idle, fun busy => by simp only at busy; omega⟩ }
  | established _ positive =>
    have opened := ending.opened_of_opening positive
    exact
      { token := by simp only; omega
        waiting := by simp only; omega
        unopened := by simp [opened]
        blocked := by simp
        offline := by simp
        aborted := by simp }
  | readFailed ec pieces positive =>
    have opened := ending.opened_of_reading positive
    have last : v.reading - 1 = 0 := by omega
    unfold readStatus
    by_cases fatal : ec ≠ .closed ∧ ec.value ≠ 89
    · rw [if_pos fatal]
      exact
        { token := by simp only; omega
          waiting := by simp only; omega
          unopened := by simp [opened]
          blocked := by simp
          offline := by simp
          aborted := fun _ => ⟨last, fun _ => mayAbort fatal⟩ }
    · rw [if_neg fatal]
      exact
        { token := by simp only; omega
          waiting := by simp only; omega
          unopened := by simp [opened]
          blocked := by simp
          offline := by simp only; omega
          aborted := by simp }
  | unread positive =>
    exact
      { token := by simp only; omega
        waiting := ending.waiting
        unopened := ending.unopened
        blocked := fun blocked => absurd (ending.blocked blocked).1 (by omega)
        offline := fun offline _ => ending.offline offline positive
        aborted := fun aborted => absurd (ending.aborted aborted).1 (by omega) }
  | close ready =>
    exact
      { token := token
        waiting := ending.waiting
        unopened := ending.unopened
        blocked := by simp [ready.2]
        offline := ending.offline
        aborted := by simp [ready.2] }
  | closeStart positive =>
    have same : v.closeStarts - 1 + (v.closes + 1) = v.closeStarts + v.closes := by omega
    exact
      { token := token
        waiting := ending.waiting
        unopened := ending.unopened
        blocked := by simpa only [same] using ending.blocked
        offline := ending.offline
        aborted := by simpa only [same] using ending.aborted }
  | closed ec reported once positive =>
    have opened := ending.opened_of_closes positive
    have none : v.opening = 0 := by
      by_contra opening
      have still := (ending.blocked (ending.waiting (by omega))).2
      omega
    exact
      { token := token
        waiting := by simp only; omega
        unopened := by simp [opened]
        blocked := by simp
        offline := fun _ _ => mayClose True.intro
        aborted := by simp }
  | streamCloses => exact ⟨token, ending.waiting, ending.unopened, ending.blocked, ending.offline, ending.aborted⟩

theorem status_kept (ending : v.Ending closed aborts) (apart : ¬ (closed ∧ aborts))
    (once : opens e = true → v.opened = false) (mayClose : IsClosed e → closed) (mayAbort : Aborts e → aborts)
    (taken : LifeStep v e w) (ended : Ended v.status) : w.status = v.status := by
  have busy : v.status ≠ .blocked := by
    rcases ended with offline | aborted
    · simp [offline]
    · simp [aborted]
  cases taken with
  | connect url => exact absurd (ending.unopened (once rfl)).2 busy
  | refused _ positive => exact absurd (ending.waiting positive) busy
  | established _ positive => exact absurd (ending.waiting positive) busy
  | readFailed ec pieces positive =>
    rcases ended with offline | aborted
    · have mild : ¬ (ec ≠ .closed ∧ ec.value ≠ 89) := fun fatal =>
        apart ⟨ending.offline offline positive, mayAbort fatal⟩
      show readStatus ec = v.status
      rw [offline, readStatus, if_neg mild]
    · have none := (ending.aborted aborted).1
      omega
  | closed ec reported once positive =>
    rcases ended with offline | aborted
    · exact offline.symm
    · have fatal := (ending.aborted aborted).2 (by omega)
      exact absurd ⟨mayClose True.intro, fatal⟩ apart
  | _ => rfl

end Life.Ending

namespace Session

variable {E M : Type} [DecidableEq E] [DecidableEq M]

omit [DecidableEq E] [DecidableEq M] in
theorem not_aborts_of_closed {e : Event E M} (closed : IsClosed e) (aborts : Aborts e) : False := by
  cases e with
  | closed ec => exact aborts
  | _ => exact closed

omit [DecidableEq E] [DecidableEq M] in
theorem opened_of_lifeStep {v w : Life} {e : Event E M} (taken : LifeStep v e w) (other : ¬ opens e = true) :
    w.opened = v.opened := by
  cases taken with
  | connect url => exact absurd rfl other
  | accept => exact absurd rfl other
  | _ => rfl

theorem quiet_step {s t : Session E M} {e : Event E M} (quiet : Quiet s.readStrand) (taken : s.step e = some t) :
    Quiet t.readStrand :=
  Quiet.step (v := s.readView) (w := t.readView) quiet (step_readView taken)

/-- Of one call of `connect()` or `accept()` at most, each is the first. -/
theorem each_opens_once (es : List (Event E M)) (s : Session E M) (quiet : Quiet s.readStrand)
    (before : s.life.opened = true → es.countP opens = 0) (once : es.countP opens ≤ 1) :
    (machine E M).Each (fun s e => opens e = true → s.life.opened = false) s es := by
  induction es generalizing s with
  | nil => exact True.intro
  | cons e es ih =>
    rw [List.countP_cons] at before once
    by_cases first : opens e = true
    · rw [if_pos first] at before once
      refine ⟨fun _ => ?_, fun t taken => ih t (quiet_step quiet taken) (fun _ => by omega) (by omega)⟩
      by_contra opened
      have none := before (by simpa using opened)
      omega
    · rw [if_neg first] at before once
      refine ⟨fun opening => absurd opening first, fun t taken => ?_⟩
      have same := opened_of_lifeStep (step_life taken quiet) first
      exact ih t (quiet_step quiet taken) (fun opened => before (same ▸ opened)) once

def KeepsEnd (s : Session E M) (e : Event E M) : Prop :=
  Ended s.status → ∀ t, s.step e = some t → t.status = s.status

omit [DecidableEq E] [DecidableEq M] in
theorem initial_ending (closed aborts : Prop) (role : Role) (inbox : List WsMessage) :
    (initial role inbox : Session E M).life.Ending closed aborts where
  token := by simp [life, initial]
  waiting := by simp [life, initial]
  unopened := by simp [life, initial]
  blocked := by simp [life, initial]
  offline := by simp [life, initial]
  aborted := by simp [life, initial]

theorem keeps_end_of_apart (role : Role) (inbox : List WsMessage) (es : List (Event E M))
    (once : es.countP opens ≤ 1) (apart : ¬ ((∃ e ∈ es, IsClosed e) ∧ ∃ e ∈ es, Aborts e)) :
    (machine E M).Each KeepsEnd (initial role inbox) es := by
  let closed := ∃ e ∈ es, IsClosed e
  let aborts := ∃ e ∈ es, Aborts e
  have first := each_opens_once es (initial role inbox) (by simp [Quiet, initial]) (by simp [life, initial]) once
  have allowed : (machine E M).Each (fun _ e => (IsClosed e → closed) ∧ (Aborts e → aborts))
      (initial role inbox) es :=
    Transition.System.each_of_forall fun s e member => ⟨fun is => ⟨e, member, is⟩, fun is => ⟨e, member, is⟩⟩
  apply Transition.System.each_of_invariant
    (P := fun s : Session E M => s.life.Ending closed aborts ∧ Quiet s.readStrand) ?_ ?_ ?_ (first.and allowed)
  · rintro s e t ⟨ending, quiet⟩ ⟨once, mayClose, mayAbort⟩ taken
    exact ⟨ending.step once mayClose mayAbort (step_life taken quiet), quiet_step quiet taken⟩
  · rintro s e ⟨ending, quiet⟩ ⟨once, mayClose, mayAbort⟩ ended t taken
    exact ending.status_kept apart once mayClose mayAbort (step_life taken quiet) ended
  · exact ⟨initial_ending closed aborts role inbox, by simp [Quiet, initial]⟩

theorem status_of_kept {s t : Session E M} {es : List (Event E M)} (keeps : (machine E M).Each KeepsEnd s es)
    (ended : Ended s.status) (ran : (machine E M).run s es = some t) : t.status = s.status := by
  induction es generalizing s with
  | nil =>
    cases ran
    rfl
  | cons e es ih =>
    obtain ⟨u, taken, rest⟩ := Transition.System.run_cons_some.mp ran
    have same := keeps.1 ended u taken
    exact (ih (keeps.2 u taken) (same ▸ ended) rest).trans same

theorem status_of_closed {s t : Session E M} {e : Event E M} (closed : IsClosed e) (taken : s.step e = some t) :
    t.status = .offline := by
  cases step_cases taken with
  | closed ec positive =>
    obtain ⟨reported, _, after⟩ := life_closeHandler ec { s with closes := s.closes - 1 }
    exact congrArg Life.status after
  | _ => exact closed.elim

theorem status_of_aborts {s t : Session E M} {e : Event E M} (aborts : Aborts e) (taken : s.step e = some t) :
    t.status = .aborted := by
  cases step_cases taken with
  | readFailed ec pieces positive free failed =>
    obtain ⟨rest, _, body, _⟩ := readHandler_body ec pieces.flatten.length failed
    have fatal : ec ≠ .closed ∧ ec.value ≠ 89 := aborts
    rw [body, readStatus, if_pos fatal]
    rfl
  | _ => exact aborts.elim

/-- Two events that set different end statuses, one after the other, change the first. -/
theorem changes_of_both {s t : Session E M} {before after : List (Event E M)} {first second : Event E M}
    {one other : StatusCode} (ran : (machine E M).run s (before ++ first :: after) = some t)
    (keeps : (machine E M).Each KeepsEnd s (before ++ first :: after)) (later : second ∈ after)
    (sets : ∀ u v : Session E M, u.step first = some v → v.status = one) (ended : Ended one)
    (resets : ∀ u v : Session E M, u.step second = some v → v.status = other) : other = one := by
  obtain ⟨between, rest, rfl⟩ := List.append_of_mem later
  obtain ⟨u, ranBefore, ran⟩ := Transition.System.run_append_some.mp ran
  obtain ⟨v, taken, ran⟩ := Transition.System.run_cons_some.mp ran
  obtain ⟨w, ranBetween, ran⟩ := Transition.System.run_append_some.mp ran
  obtain ⟨x, changed, _⟩ := Transition.System.run_cons_some.mp ran
  have own := sets u v taken
  have inner := (keeps.append_right ranBefore).2 v taken
  have still : w.status = one := (status_of_kept inner.append_left (own ▸ ended) ranBetween).trans own
  have last := (inner.append_right ranBetween).1 (still ▸ ended) x changed
  exact (resets w x changed).symm.trans (last.trans still)

/-- The end status of a session is stable exactly when its run does not contain both the completion of a
    close and a read that aborts. -/
theorem end_status_stable_iff (role : Role) (inbox : List WsMessage) (es : List (Event E M)) (t : Session E M)
    (ran : (machine E M).run (initial role inbox) es = some t) (once : es.countP opens ≤ 1) :
    (machine E M).Each KeepsEnd (initial role inbox) es ↔
      ¬ ((∃ e ∈ es, IsClosed e) ∧ ∃ e ∈ es, Aborts e) := by
  constructor
  · rintro keeps ⟨⟨closing, closes, closed⟩, aborting, member, aborts⟩
    obtain ⟨before, after, rfl⟩ := List.append_of_mem closes
    rcases List.mem_append.mp member with earlier | later
    · obtain ⟨start, between, rfl⟩ := List.append_of_mem earlier
      rw [List.append_assoc, List.cons_append] at ran keeps
      have later : closing ∈ between ++ closing :: after := by simp
      have same := changes_of_both ran keeps later (fun _ _ => status_of_aborts aborts) (Or.inr rfl)
        (fun _ _ => status_of_closed closed)
      cases same
    · rcases List.mem_cons.mp later with rfl | later
      · exact not_aborts_of_closed closed aborts
      · have same := changes_of_both ran keeps later (fun _ _ => status_of_closed closed) (Or.inl rfl)
          (fun _ _ => status_of_aborts aborts)
        cases same
  · exact keeps_end_of_apart role inbox es once

def closesInOrder : List (Event Unit Nat) :=
  opening ++ [.close, .closeStart, .closed .success, .readFailed .closed [], .strandStep]

theorem end_status_stable_iff_closes_in_order :
    ((machine Unit Nat).run (initial .client []) closesInOrder).map (fun s => s.status) = some .offline ∧
      (machine Unit Nat).Each KeepsEnd (initial .client []) closesInOrder := by
  have ran : ((machine Unit Nat).run (initial .client []) closesInOrder).map (fun s => s.status) = some .offline := by
    decide
  obtain ⟨t, final, _⟩ := Option.map_eq_some_iff.mp ran
  exact ⟨ran, (end_status_stable_iff .client [] closesInOrder t final (by decide)).mpr (by decide)⟩

def resetWhileClosing : List (Event Unit Nat) :=
  (opening ++ [.close, .closeStart]) ++ .readFailed ⟨104, .system⟩ [] :: [.strandStep, .strandStep, .closed .success]

def closedBeforeReset : List (Event Unit Nat) :=
  opening ++ [.close, .closeStart, .closed .success, .readFailed ⟨104, .system⟩ []]

theorem end_status_changes :
    ((machine Unit Nat).run (initial .client []) resetWhileClosing).map (fun s => s.status) = some .offline ∧
      ((machine Unit Nat).run (initial .client []) closedBeforeReset).map (fun s => s.status) = some .aborted ∧
      resetWhileClosing.countP opens = 1 ∧
      ¬ (machine Unit Nat).Each KeepsEnd (initial .client []) resetWhileClosing := by
  refine ⟨by decide, by decide, by decide, fun keeps => ?_⟩
  have ran : ((machine Unit Nat).run (initial .client []) resetWhileClosing).isSome = true := by decide
  obtain ⟨t, final⟩ := Option.isSome_iff_exists.mp ran
  have later : Event.closed .success ∈ ([.strandStep, .strandStep, .closed .success] : List (Event Unit Nat)) := by
    simp
  have fatal : (⟨104, .system⟩ : ErrorCode) ≠ .closed ∧ (104 : Int) ≠ 89 := by decide
  have aborts : Aborts (.readFailed ⟨104, .system⟩ [] : Event Unit Nat) := fatal
  have same := changes_of_both final keeps later (fun _ _ => status_of_aborts aborts) (Or.inr rfl)
    (fun _ _ => status_of_closed True.intro)
  cases same

end Session

end MaxNet
