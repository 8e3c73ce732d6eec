import Mathlib.Data.List.Basic

namespace Transition

variable {σ ε : Type*}

/-- A machine driven by events. `step s e` is the state after `e`, or `none` where `e`
    cannot happen in `s`. -/
structure System (σ ε : Type*) where
  step : σ → ε → Option σ

namespace System

variable (M : System σ ε)

def run : σ → List ε → Option σ
  | s, [] => some s
  | s, e :: es => (M.step s e).bind fun t => run t es

/-- Every step the run takes is taken in a state and with an event that satisfy `Q`. -/
def Each (Q : σ → ε → Prop) : σ → List ε → Prop
  | _, [] => True
  | s, e :: es => Q s e ∧ ∀ t, M.step s e = some t → Each Q t es

/-- Every state the run visits, the first and the last included, satisfies `P`. -/
def Always (P : σ → Prop) : σ → List ε → Prop
  | s, [] => P s
  | s, e :: es => P s ∧ ∀ t, M.step s e = some t → Always P t es

variable {M} {P P' : σ → Prop} {Q R : σ → ε → Prop} {s t u : σ} {e : ε} {es fs : List ε}

@[simp] theorem run_nil : M.run s [] = some s := rfl

theorem run_cons_some : M.run s (e :: es) = some u ↔ ∃ t, M.step s e = some t ∧ M.run t es = some u := by
  simp [run, Option.bind_eq_some_iff]

theorem run_append_some : M.run s (es ++ fs) = some u ↔ ∃ t, M.run s es = some t ∧ M.run t fs = some u := by
  induction es generalizing s with
  | nil => simp
  | cons e es ih =>
    simp only [List.cons_append, run_cons_some, ih]
    constructor
    · rintro ⟨t, hs, v, hv, hu⟩
      exact ⟨v, ⟨t, hs, hv⟩, hu⟩
    · rintro ⟨v, ⟨t, hs, hv⟩, hu⟩
      exact ⟨t, hs, v, hv, hu⟩

theorem Each.mono (sub : ∀ s e, Q s e → R s e) (each : M.Each Q s es) : M.Each R s es := by
  induction es generalizing s with
  | nil => exact True.intro
  | cons e es ih => exact ⟨sub s e each.1, fun t step => ih (each.2 t step)⟩

theorem Each.and (left : M.Each Q s es) (right : M.Each R s es) :
    M.Each (fun s e => Q s e ∧ R s e) s es := by
  induction es generalizing s with
  | nil => exact True.intro
  | cons e es ih =>
    exact ⟨⟨left.1, right.1⟩, fun t step => ih (left.2 t step) (right.2 t step)⟩

theorem Each.append_left (each : M.Each Q s (es ++ fs)) : M.Each Q s es := by
  induction es generalizing s with
  | nil => exact True.intro
  | cons e es ih => exact ⟨each.1, fun t step => ih (each.2 t step)⟩

theorem Each.append_right (each : M.Each Q s (es ++ fs)) (ran : M.run s es = some t) :
    M.Each Q t fs := by
  induction es generalizing s with
  | nil => cases ran; exact each
  | cons e es ih =>
    obtain ⟨v, step, rest⟩ := run_cons_some.mp ran
    exact ih (each.2 v step) rest

theorem Each.append (each : M.Each Q s es) (ran : M.run s es = some t) (rest : M.Each Q t fs) :
    M.Each Q s (es ++ fs) := by
  induction es generalizing s with
  | nil => cases ran; exact rest
  | cons e es ih =>
    obtain ⟨v, step, later⟩ := run_cons_some.mp ran
    refine ⟨each.1, fun w step' => ?_⟩
    obtain rfl : v = w := Option.some.inj (step.symm.trans step')
    exact ih (each.2 v step) later

theorem each_of_forall (all : ∀ s, ∀ e ∈ es, Q s e) : M.Each Q s es := by
  induction es generalizing s with
  | nil => exact True.intro
  | cons e es ih =>
    exact ⟨all s e (List.mem_cons_self ..), fun t _ => ih fun s e member => all s e (List.mem_cons_of_mem _ member)⟩

theorem each_of_split (all : ∀ before e after t, es = before ++ e :: after → M.run s before = some t → Q t e) :
    M.Each Q s es := by
  induction es generalizing s with
  | nil => exact True.intro
  | cons e es ih =>
    refine ⟨all [] e es s rfl rfl, fun t step => ih fun before f after u split ran => ?_⟩
    exact all (e :: before) f after u (by rw [split, List.cons_append]) (run_cons_some.mpr ⟨t, step, ran⟩)

theorem each_true : M.Each (fun _ _ => True) s es := each_of_forall fun _ _ _ => True.intro

theorem Always.append_right (always : M.Always P s (es ++ fs)) (ran : M.run s es = some t) :
    M.Always P t fs := by
  induction es generalizing s with
  | nil => cases ran; exact always
  | cons e es ih =>
    obtain ⟨v, step, rest⟩ := run_cons_some.mp ran
    exact ih (always.2 v step) rest

theorem Always.start (always : M.Always P s es) : P s := by
  cases es with
  | nil => exact always
  | cons e es => exact always.1

theorem Always.final (always : M.Always P s es) (ran : M.run s es = some t) : P t := by
  induction es generalizing s with
  | nil => cases ran; exact always
  | cons e es ih =>
    obtain ⟨v, step, rest⟩ := run_cons_some.mp ran
    exact ih (always.2 v step) rest

theorem always_of_invariant (keep : ∀ s e t, P s → Q s e → M.step s e = some t → P t)
    (start : P s) (each : M.Each Q s es) : M.Always P s es := by
  induction es generalizing s with
  | nil => exact start
  | cons e es ih =>
    exact ⟨start, fun t step => ih (keep s e t start each.1 step) (each.2 t step)⟩

theorem each_of_invariant (keep : ∀ s e t, P s → Q s e → M.step s e = some t → P t)
    (gives : ∀ s e, P s → Q s e → R s e) (start : P s) (each : M.Each Q s es) : M.Each R s es := by
  induction es generalizing s with
  | nil => exact True.intro
  | cons e es ih =>
    exact ⟨gives s e start each.1, fun t step => ih (keep s e t start each.1 step) (each.2 t step)⟩

theorem invariant_of_run (keep : ∀ s e t, P s → Q s e → M.step s e = some t → P t)
    (start : P s) (each : M.Each Q s es) (ran : M.run s es = some t) : P t :=
  (always_of_invariant keep start each).final ran

theorem history_invariant {I : List ε → σ → Prop}
    (keep : ∀ past s e t, I past s → Q s e → M.step s e = some t → I (past ++ [e]) t)
    (past : List ε) (start : I past s) (each : M.Each Q s es) (ran : M.run s es = some t) :
    I (past ++ es) t := by
  induction es generalizing s past with
  | nil =>
    cases ran
    simpa using start
  | cons e es ih =>
    obtain ⟨v, step, rest⟩ := run_cons_some.mp ran
    have next := ih _ (keep past s e v start each.1 step) (each.2 v step) rest
    rwa [List.append_assoc, List.singleton_append] at next

theorem Always.mono (sub : ∀ s, P s → P' s) (always : M.Always P s es) : M.Always P' s es := by
  induction es generalizing s with
  | nil => exact sub s always
  | cons e es ih => exact ⟨sub s always.1, fun t step => ih (always.2 t step)⟩

/-- The exact condition for a safety property. Where `Q` keeps an invariant `I` that gives `P`, and a
    step that leads from `I` to a state with `P` satisfied `Q`, a run keeps `P` throughout if and only
    if each of its steps satisfies `Q`. -/
theorem always_iff_each {I : σ → Prop} (gives : ∀ s, I s → P s)
    (keep : ∀ s e t, I s → R s e → Q s e → M.step s e = some t → I t)
    (only : ∀ s e t, I s → R s e → M.step s e = some t → P t → Q s e)
    (start : I s) (each : M.Each R s es) (ran : M.run s es = some t) :
    M.Always P s es ↔ M.Each Q s es := by
  constructor
  · intro always
    induction es generalizing s with
    | nil => exact True.intro
    | cons e es ih =>
      obtain ⟨v, step, rest⟩ := run_cons_some.mp ran
      have good : Q s e := only s e v start each.1 step (always.2 v step).start
      refine ⟨good, fun w step' => ?_⟩
      obtain rfl : v = w := Option.some.inj (step.symm.trans step')
      exact ih (keep s e v start each.1 good step) (each.2 v step) rest (always.2 v step)
  · intro good
    refine (always_of_invariant (P := I) (Q := fun s e => R s e ∧ Q s e) ?_ start (each.and good)).mono gives
    intro s e t inv both step
    exact keep s e t inv both.1 both.2 step

/-- Where a step that breaks `Q` leads to a state with `B`, and `B` is never left again, a run either
    keeps `Q`, and with it the invariant `I`, all the way, or it breaks `Q` and ends in `B`. -/
theorem each_or_bad {I B : σ → Prop}
    (keep : ∀ s e t, I s → R s e → Q s e → M.step s e = some t → I t)
    (enter : ∀ s e t, I s → R s e → ¬ Q s e → M.step s e = some t → B t)
    (stay : ∀ s e t, B s → M.step s e = some t → B t)
    (start : I s) (each : M.Each R s es) (ran : M.run s es = some t) :
    (M.Each Q s es ∧ I t) ∨ (¬ M.Each Q s es ∧ B t) := by
  induction es generalizing s with
  | nil =>
    cases ran
    exact Or.inl ⟨True.intro, start⟩
  | cons e es ih =>
    obtain ⟨v, step, rest⟩ := run_cons_some.mp ran
    by_cases good : Q s e
    · rcases ih (keep s e v start each.1 good step) (each.2 v step) rest with ⟨all, final⟩ | ⟨broken, bad⟩
      · refine Or.inl ⟨⟨good, fun w step' => ?_⟩, final⟩
        obtain rfl : v = w := Option.some.inj (step.symm.trans step')
        exact all
      · exact Or.inr ⟨fun all => broken (all.2 v step), bad⟩
    · refine Or.inr ⟨fun all => good all.1, ?_⟩
      have bad : B v := enter s e v start each.1 good step
      exact invariant_of_run (fun s e t bad _ step => stay s e t bad step) bad each_true rest

instance decidableEach [∀ s e, Decidable (Q s e)] : ∀ s es, Decidable (M.Each Q s es)
  | _, [] => isTrue True.intro
  | s, e :: es =>
    match h : M.step s e with
    | none => decidable_of_iff (Q s e) ⟨fun q => ⟨q, fun _ step => by rw [h] at step; cases step⟩, And.left⟩
    | some t =>
      have := decidableEach t es
      decidable_of_iff (Q s e ∧ M.Each Q t es)
        ⟨fun both => ⟨both.1, fun _ step => by rw [h] at step; cases step; exact both.2⟩,
          fun each => ⟨each.1, each.2 t h⟩⟩

end System

end Transition
