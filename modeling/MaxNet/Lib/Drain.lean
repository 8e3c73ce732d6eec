import MaxNet.Lib.Transition
import MaxNet.Lib.Lists

/-! Machines that come to rest by themselves. `own` are the events that a machine brings about itself, and `work` is
what it has left to do: each event may add its cost, and each of the machine's own takes away one. -/

namespace Transition

namespace System

variable {σ ε : Type*} (M : System σ ε) (own : ε → Bool)

def AtRest (s : σ) : Prop := ∀ e t, own e = true → M.step s e ≠ some t

structure Drains (work : σ → Nat) (cost : ε → Nat) : Prop where
  step : ∀ s e t, M.step s e = some t → work t + (if own e then 1 else 0) ≤ work s + cost e
  free : ∀ e, own e = true → cost e = 0

namespace Drains

variable {M own} {work : σ → Nat} {cost : ε → Nat} {s t : σ} {es : List ε}

theorem run (drains : M.Drains own work cost) (ran : M.run s es = some t) :
    work t + es.countP own ≤ work s + (es.map cost).sum := by
  induction es generalizing s with
  | nil =>
    cases ran
    exact Nat.le_refl _
  | cons e es ih =>
    obtain ⟨u, taken, rest⟩ := run_cons_some.mp ran
    have first := drains.step s e u taken
    have later := ih rest
    rw [List.countP_cons, List.map_cons, List.sum_cons]
    omega

theorem own_run (drains : M.Drains own work cost) (ran : M.run s es = some t) (all : ∀ e ∈ es, own e = true) :
    work t + es.length ≤ work s := by
  have bound := drains.run ran
  have count : es.countP own = es.length := List.countP_eq_length.mpr all
  have free : (es.map cost).sum = 0 := by
    rw [List.sum_eq_zero_iff_forall_eq_nat]
    intro n member
    obtain ⟨e, inside, rfl⟩ := List.mem_map.mp member
    exact drains.free e (all e inside)
  omega

/-- Left to itself, the machine comes to rest. -/
theorem exists_rest (drains : M.Drains own work cost) (s : σ) :
    ∃ es t, M.run s es = some t ∧ (∀ e ∈ es, own e = true) ∧ M.AtRest own t := by
  induction n : work s using Nat.strongRecOn generalizing s with
  | ind n ih =>
    by_cases rest : M.AtRest own s
    · exact ⟨[], s, rfl, by simp, rest⟩
    · simp only [AtRest, not_forall, not_not] at rest
      obtain ⟨e, t, self, taken⟩ := rest
      have less := drains.step s e t taken
      rw [drains.free e self, if_pos self] at less
      obtain ⟨es, u, ran, all, still⟩ := ih (work t) (by omega) t rfl
      exact ⟨e :: es, u, run_cons_some.mpr ⟨t, taken, ran⟩, List.forall_mem_cons.mpr ⟨self, all⟩, still⟩

end Drains

end System

end Transition
