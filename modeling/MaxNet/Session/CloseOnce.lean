import MaxNet.Session.EndStatus

namespace MaxNet

open Session

structure Life.ClosesOnce (v : Life) : Prop where
  once : v.closeStarts + v.started ≤ 1
  reported : v.closes + v.reported ≤ v.started

def Life.ClosesTwice (v : Life) : Prop := 2 ≤ v.closeStarts + v.started

namespace Session

variable {E M : Type}

def ClosesFirst (s : Session E M) : Event E M → Prop
  | .close => s.wsOpen = true → s.status = .online → s.closeStarts = 0 ∧ s.trace.countP Action.isAsyncClose = 0
  | _ => True

instance (s : Session E M) (e : Event E M) : Decidable (s.ClosesFirst e) := by
  induction e using Event.casesOn
  case close =>
    show Decidable (_ → _)
    infer_instance
  all_goals exact isTrue True.intro

def ClosedOnce (s : Session E M) : Prop :=
  s.trace.countP Action.isAsyncClose ≤ 1 ∧ s.trace.countP Action.isOnClose ≤ 1

theorem closedOnce_of_life {s : Session E M} (once : s.life.ClosesOnce) : s.ClosedOnce := by
  have dispatched := once.once
  have reported := once.reported
  simp only [life] at dispatched reported
  constructor
  · omega
  · omega

theorem closesOnce_step {v w : Life} {e : Event E M} (once : v.ClosesOnce) (taken : LifeStep v e w)
    (first : e = .close → v.wsOpen = true → v.status = .online → v.closeStarts = 0 ∧ v.started = 0) :
    w.ClosesOnce := by
  have dispatched := once.once
  have reported := once.reported
  cases taken with
  | close ready =>
    obtain ⟨unstarted, none⟩ := first rfl ready.1 ready.2
    exact ⟨by simp only; omega, reported⟩
  | closeStart positive => exact ⟨by simp only; omega, by simp only; omega⟩
  | closed ec now once positive => exact ⟨dispatched, by simp only; omega⟩
  | _ => exact ⟨dispatched, reported⟩

theorem closesTwice_step {v w : Life} {e : Event E M} (twice : v.ClosesTwice) (taken : LifeStep v e w) :
    w.ClosesTwice := by
  unfold Life.ClosesTwice at twice ⊢
  cases taken with
  | close ready => simp only; omega
  | closeStart positive => simp only; omega
  | _ => exact twice

variable [DecidableEq E] [DecidableEq M]

theorem closesTwice_of_not_first {s t : Session E M} {e : Event E M} (late : ¬ s.ClosesFirst e)
    (taken : s.step e = some t) : t.life.ClosesTwice := by
  cases e with
  | close =>
    simp only [ClosesFirst, Classical.not_imp] at late
    rcases late with ⟨wsOpen, online, again⟩
    cases taken
    rw [life_close, if_pos ⟨wsOpen, online⟩]
    show 2 ≤ s.closeStarts + 1 + s.trace.countP Action.isAsyncClose
    omega
  | _ => exact absurd True.intro late

/-- Every run closes once whose calls of `close()` come first, and where all that was dispatched has run,
    no other run does. -/
theorem closed_once_iff (role : Role) (inbox : List WsMessage) (es : List (Event E M)) (t : Session E M)
    (ran : (machine E M).run (initial role inbox) es = some t) :
    ((machine E M).Each ClosesFirst (initial role inbox) es →
        (machine E M).Always ClosedOnce (initial role inbox) es) ∧
      (t.closeStarts = 0 → (machine E M).Always ClosedOnce (initial role inbox) es →
        (machine E M).Each ClosesFirst (initial role inbox) es) := by
  have start : (initial role inbox : Session E M).life.ClosesOnce ∧
      Quiet (initial role inbox : Session E M).readStrand :=
    ⟨⟨by simp [life, initial], by simp [life, initial]⟩, by simp [Quiet, initial]⟩
  have keep : ∀ (s : Session E M) e u, (s.life.ClosesOnce ∧ Quiet s.readStrand) → s.ClosesFirst e →
      (machine E M).step s e = some u → u.life.ClosesOnce ∧ Quiet u.readStrand := by
    rintro s e u ⟨once, quiet⟩ first taken
    refine ⟨closesOnce_step once (step_life taken quiet) ?_, quiet_step quiet taken⟩
    rintro rfl
    exact first
  constructor
  · intro first
    have kept := Transition.System.always_of_invariant keep start first
    exact kept.mono fun s inv => closedOnce_of_life inv.1
  · intro idle always
    have enter : ∀ (s : Session E M) e u, (s.life.ClosesOnce ∧ Quiet s.readStrand) → True → ¬ s.ClosesFirst e →
        (machine E M).step s e = some u → u.life.ClosesTwice ∧ Quiet u.readStrand :=
      fun s e u inv _ late taken => ⟨closesTwice_of_not_first late taken, quiet_step inv.2 taken⟩
    have stay : ∀ (s : Session E M) e u, (s.life.ClosesTwice ∧ Quiet s.readStrand) →
        (machine E M).step s e = some u → u.life.ClosesTwice ∧ Quiet u.readStrand :=
      fun s e u bad taken => ⟨closesTwice_step bad.1 (step_life taken bad.2), quiet_step bad.2 taken⟩
    rcases Transition.System.each_or_bad (fun s e u inv _ => keep s e u inv) enter stay start
      Transition.System.each_true ran with ⟨first, _⟩ | ⟨_, twice, _⟩
    · exact first
    · have started : 2 ≤ t.closeStarts + t.trace.countP Action.isAsyncClose := twice
      have single := (always.final ran).1
      omega

def closesAgain : List (Event Unit Nat) :=
  opening ++ [.setOnClose, .close, .closeStart, .closed .success, .close]

theorem closed_once_iff_again : ∃ t : Session Unit Nat,
    (machine Unit Nat).run (initial .client []) closesAgain = some t ∧ t.closeStarts = 0 ∧
      (machine Unit Nat).Always ClosedOnce (initial .client []) closesAgain := by
  have ran : ((machine Unit Nat).run (initial .client []) closesAgain).map (fun s => s.closeStarts) = some 0 := by
    decide
  obtain ⟨t, final, idle⟩ := Option.map_eq_some_iff.mp ran
  exact ⟨t, final, idle, (closed_once_iff .client [] closesAgain t final).1 (by decide)⟩

def closesTwice : List (Event Unit Nat) :=
  opening ++ [.setOnClose, .close, .close, .closeStart, .closeStart, .closed .success, .closed .success]

theorem closes_twice :
    ((machine Unit Nat).run (initial .client []) closesTwice).map
        (fun s => (s.trace.countP Action.isAsyncClose, s.trace.countP Action.isOnClose)) = some (2, 2) ∧
      ¬ (machine Unit Nat).Always ClosedOnce (initial .client []) closesTwice := by
  have counts : ((machine Unit Nat).run (initial .client []) closesTwice).map
      (fun s => (s.trace.countP Action.isAsyncClose, s.trace.countP Action.isOnClose)) = some (2, 2) := by decide
  refine ⟨counts, fun always => ?_⟩
  obtain ⟨t, final, both⟩ := Option.map_eq_some_iff.mp counts
  have single := (always.final final).1
  have started : t.trace.countP Action.isAsyncClose = 2 := congrArg Prod.fst both
  omega

end Session

end MaxNet
