import MaxNet.Lib.Transition
import Mathlib.Logic.Relation

namespace Locks

variable {K L C : Type*}

inductive Op (L C : Type*)
  | acquire (m : L)
  | release (m : L)
  | call (c : C)
  deriving DecidableEq

structure Thread (K L C : Type*) where
  kind : K
  held : List L := []
  rest : List (Op L C)
  deriving DecidableEq

/-- A mutex is taken while any thread holds it, the one that asks for it included. -/
def Free (m : L) (ts : List (Thread K L C)) : Prop := ∀ t ∈ ts, m ∉ t.held

instance [DecidableEq L] (m : L) (ts : List (Thread K L C)) : Decidable (Free m ts) := by
  unfold Free
  infer_instance

def advance [DecidableEq L] (i : Nat) (ts : List (Thread K L C)) : Option (List (Thread K L C)) :=
  match ts[i]? with
  | none => none
  | some t =>
    match t.rest with
    | [] => none
    | .acquire m :: rest => if Free m ts then some (ts.set i { t with held := m :: t.held, rest }) else none
    | .release m :: rest => some (ts.set i { t with held := t.held.erase m, rest })
    | .call _ :: rest => some (ts.set i { t with rest })

def Wants (ts : List (Thread K L C)) (i : Nat) (m : L) : Prop :=
  ∃ t, ts[i]? = some t ∧ t.rest.head? = some (.acquire m)

def Holds (ts : List (Thread K L C)) (i : Nat) (m : L) : Prop := ∃ t, ts[i]? = some t ∧ m ∈ t.held

def WaitsFor (ts : List (Thread K L C)) (i j : Nat) : Prop := ∃ m, Wants ts i m ∧ Holds ts j m

def MutualWait (ts : List (Thread K L C)) : Prop := ∃ i j, i ≠ j ∧ WaitsFor ts i j ∧ WaitsFor ts j i

def InOrder [DecidableEq L] (rank : L → Nat) : List L → List (Op L C) → Prop
  | _, [] => True
  | held, .acquire m :: rest => (∀ h ∈ held, rank h < rank m) ∧ InOrder rank (m :: held) rest
  | held, .release m :: rest => InOrder rank (held.erase m) rest
  | held, .call _ :: rest => InOrder rank held rest

theorem wants_unique {ts : List (Thread K L C)} {i : Nat} {m n : L} (wm : Wants ts i m) (wn : Wants ts i n) :
    m = n := by
  rcases wm with ⟨t, found, head⟩
  rcases wn with ⟨u, found', head'⟩
  obtain rfl := Option.some.inj (found.symm.trans found')
  rw [head] at head'
  cases head'
  rfl

variable [DecidableEq L] {rank : L → Nat} {ts us : List (Thread K L C)}

theorem in_order_advance {i : Nat} (ordered : ∀ t ∈ ts, InOrder rank t.held t.rest)
    (h : advance i ts = some us) : ∀ t ∈ us, InOrder rank t.held t.rest := by
  unfold advance at h
  split at h
  · cases h
  · rename_i t found
    have own := ordered t (List.mem_of_getElem? found)
    have replaced : ∀ u : Thread K L C, InOrder rank u.held u.rest → ts.set i u = us →
        ∀ t ∈ us, InOrder rank t.held t.rest := by
      rintro u next rfl w member
      rcases List.mem_or_eq_of_mem_set member with old | rfl
      · exact ordered w old
      · exact next
    split at h
    · cases h
    · rename_i m rest shape
      rw [shape] at own
      split at h
      · exact replaced _ own.2 (Option.some.inj h)
      · cases h
    · rename_i m rest shape
      rw [shape] at own
      exact replaced _ own (Option.some.inj h)
    · rename_i c rest shape
      rw [shape] at own
      exact replaced _ own (Option.some.inj h)

theorem rank_lt_of_holds (ordered : ∀ t ∈ ts, InOrder rank t.held t.rest) {i : Nat} {m n : L}
    (holds : Holds ts i m) (wants : Wants ts i n) : rank m < rank n := by
  rcases holds with ⟨t, found, member⟩
  rcases wants with ⟨u, found', head⟩
  obtain rfl := Option.some.inj (found.symm.trans found')
  have own := ordered t (List.mem_of_getElem? found)
  cases hr : t.rest with
  | nil => simp [hr] at head
  | cons op rest =>
    rw [hr] at head own
    cases head
    exact own.1 m member

theorem rank_lt_of_chain (ordered : ∀ t ∈ ts, InOrder rank t.held t.rest) {i j : Nat}
    (chain : Relation.TransGen (WaitsFor ts) i j) {m n : L} (first : Wants ts i m) (last : Wants ts j n) :
    rank m < rank n := by
  induction chain generalizing n with
  | single edge =>
    rcases edge with ⟨k, wants, holds⟩
    obtain rfl := wants_unique first wants
    exact rank_lt_of_holds ordered holds last
  | tail _ edge ih =>
    rcases edge with ⟨k, wants, holds⟩
    exact Nat.lt_trans (ih wants) (rank_lt_of_holds ordered holds last)

/-- Threads that take their mutexes in one order never wait for each other in a circle. -/
theorem no_circular_wait (ordered : ∀ t ∈ ts, InOrder rank t.held t.rest) (i : Nat) :
    ¬ Relation.TransGen (WaitsFor ts) i i := by
  intro chain
  obtain ⟨m, wants⟩ : ∃ m, Wants ts i m := by
    rcases Relation.TransGen.head'_iff.mp chain with ⟨j, ⟨m, wants, _⟩, _⟩
    exact ⟨m, wants⟩
  exact absurd (rank_lt_of_chain ordered chain wants wants) (Nat.lt_irrefl _)

end Locks
