import MaxNet.Movement.Model

namespace MaxNet

open ParameterGroup

section Containment

variable (getDouble : Atom → Except String Binary64)

structure Contained (g : ParameterGroup) (args : List Atom) (o : MovementObject) : Prop where
  returns : ∃ out, (g.handler getDouble args o).1 = .ok out
  unchanged : ∀ ex, arrayFromAtoms getDouble g.size args = .error ex →
    (g.handler getDouble args o).2.movementState = o.movementState

variable {getDouble}

namespace MovementObject

variable {clause : CatchClause} {size : Nat} {set : Vector Binary64 size → Movement → Movement} {args : List Atom}
  {o : MovementObject}

theorem handle_returns_iff : (∃ out, (o.handle getDouble clause size set args).1 = .ok out) ↔
    ∀ ex, arrayFromAtoms getDouble size args = .error ex → clause.catches ex = true := by
  unfold handle
  cases arrayFromAtoms getDouble size args with
  | ok values => simp
  | error ex =>
    cases caught : clause.catches ex with
    | true => simp [caught]
    | false => simp [caught]

theorem handle_error {ex : ArgumentException} (thrown : arrayFromAtoms getDouble size args = .error ex) :
    (o.handle getDouble clause size set args).2.movementState = o.movementState := by
  rw [handle, thrown]
  cases caught : clause.catches ex with
  | true => simp [caught]
  | false => simp [caught]

end MovementObject

/-- Every exception is caught, or only that of a wrong atom, which is not the one of a short list. -/
theorem caught_iff (clause : CatchClause) (size : Nat) (args : List Atom) :
    (∀ ex, arrayFromAtoms getDouble size args = .error ex → clause.catches ex = true) ↔
      clause = .stdException ∨ size ≤ args.length := by
  cases clause with
  | stdException => simp [CatchClause.catches]
  | badAtomAccess =>
    constructor
    · intro caught
      by_contra neither
      have short : args.length < size := by omega
      have escapes := caught _ (arrayFromAtoms_short short)
      cases escapes
    · intro enough ex thrown
      obtain ⟨what, rfl⟩ := arrayFromAtoms_access (by simpa using enough) thrown
      rfl

/-- The handler of the joints contains every malformed message, each of the others exactly those that have
    arguments enough. -/
theorem contained_iff (g : ParameterGroup) (args : List Atom) (o : MovementObject) :
    Contained getDouble g args o ↔ g = .joints ∨ g.size ≤ args.length := by
  have all : g.clause = .stdException ↔ g = .joints := by cases g <;> simp [clause]
  have returns : (∃ out, (g.handler getDouble args o).1 = .ok out) ↔ g = .joints ∨ g.size ≤ args.length := by
    rw [handler_eq, MovementObject.handle_returns_iff, caught_iff, all]
  rw [← returns]
  constructor
  · intro contained
    exact contained.returns
  · intro returned
    refine ⟨returned, ?_⟩
    intro ex thrown
    rw [handler_eq]
    exact MovementObject.handle_error thrown

/-- Too few arguments for the parameters of the filter, or of the joints. -/
theorem runtime_error_escapes :
    (IiwaMovementMessage.handleFilterParams ownDouble [] {}).1 =
        .error (.runtimeError "not enough arguments provided") ∧
      (IiwaMovementMessage.handleJointParams ownDouble [] {}).1 =
        .error (.runtimeError "not enough arguments provided") ∧
      ¬ Contained ownDouble .filterParams [] {} ∧ ¬ Contained ownDouble .jointParams [] {} := by
  refine ⟨rfl, rfl, ?_, ?_⟩
  · intro contained
    obtain ⟨out, returned⟩ := contained.returns
    cases returned
  · intro contained
    obtain ⟨out, returned⟩ := contained.returns
    cases returned

end Containment

end MaxNet
