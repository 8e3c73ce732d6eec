import MaxNet.Console
import MaxNet.Message.MaxMessage

namespace MaxNet

structure MovementType where
  number : Int32
  deriving DecidableEq

namespace MovementType

def joint : MovementType := ⟨0⟩

def pip : MovementType := ⟨1⟩

def lin : MovementType := ⟨2⟩

def circle : MovementType := ⟨3⟩

def bezier : MovementType := ⟨4⟩

def batch : MovementType := ⟨5⟩

end MovementType

def Binary64.zero : Binary64 := .finite false 0 (-1074) (by decide)

/-! The messages of `Movement.proto` and `globals.proto`. A sub-message that is not set is `none`. -/

structure JointPosition where
  joints : List Binary64 := []
  deriving DecidableEq

structure PositionVector where
  x : Binary64 := .zero
  y : Binary64 := .zero
  z : Binary64 := .zero
  deriving DecidableEq

structure CartesianPosition where
  position : Option PositionVector := none
  rotation : Option PositionVector := none
  deriving DecidableEq

structure CartesianParameter where
  cartVelocity : Binary64 := .zero
  cartAcceleration : Binary64 := .zero
  cartJerk : Binary64 := .zero
  blendingCart : Binary64 := .zero
  deriving DecidableEq

structure JointParameter where
  jointVelocity : Binary64 := .zero
  jointAccelerationRel : Binary64 := .zero
  jointJerkRel : Binary64 := .zero
  blendingRel : Binary64 := .zero
  deriving DecidableEq

structure FilterParameter where
  stepSize : Binary64 := .zero
  friction : Binary64 := .zero
  epsilon : Binary64 := .zero
  deriving DecidableEq

structure Movement where
  moveType : MovementType := .joint
  jointPositions : Option JointPosition := none
  cartesianPosition : Option CartesianPosition := none
  cartesianParameter : Option CartesianParameter := none
  jointParameter : Option JointParameter := none
  filterParameter : Option FilterParameter := none
  deriving DecidableEq

namespace Movement

def clearJointpositions (m : Movement) : Movement := { m with jointPositions := none }

def clearFilterparameter (m : Movement) : Movement := { m with filterParameter := none }

def addJoints (m : Movement) (joint : Binary64) : Movement :=
  { m with jointPositions := some { joints := (m.jointPositions.getD {}).joints ++ [joint] } }

end Movement

inductive ArgumentException
  | runtimeError (what : String)
  | badAtomAccess (what : String)
  deriving DecidableEq

namespace ArgumentException

def what : ArgumentException → String
  | runtimeError what => what
  | badAtomAccess what => what

end ArgumentException

inductive CatchClause
  | stdException
  | badAtomAccess
  deriving DecidableEq

def CatchClause.catches : CatchClause → ArgumentException → Bool
  | stdException, _ => true
  | badAtomAccess, .badAtomAccess _ => true
  | badAtomAccess, .runtimeError _ => false

structure MovementObject where
  movementState : Movement := {}
  posts : List Post := []
  deriving DecidableEq

namespace Movement

def setJoints (joints : Vector Binary64 7) (m : Movement) : Movement :=
  joints.toList.foldl addJoints m.clearJointpositions

def setFilterParams (filterParams : Vector Binary64 3) (m : Movement) : Movement :=
  let m := m.clearFilterparameter
  let filterp := m.filterParameter.getD {}
  let filterp := { filterp with
    stepSize := filterParams[0], friction := filterParams[1], epsilon := filterParams[2] }
  { m with filterParameter := some filterp }

def setJointParams (jointParams : Vector Binary64 4) (m : Movement) : Movement :=
  let m := m.clearFilterparameter
  let filterp := m.jointParameter.getD {}
  let filterp := { filterp with
    jointVelocity := jointParams[0], jointAccelerationRel := jointParams[1]
    jointJerkRel := jointParams[2], blendingRel := jointParams[3] }
  { m with jointParameter := some filterp }

end Movement

def JointParameter.ofValues (values : Vector Binary64 4) : JointParameter :=
  { jointVelocity := values[0], jointAccelerationRel := values[1]
    jointJerkRel := values[2], blendingRel := values[3] }

def FilterParameter.ofValues (values : Vector Binary64 3) : FilterParameter :=
  { stepSize := values[0], friction := values[1], epsilon := values[2] }

section Handlers

/-! `atom::get< double >()` and `atom::get< symbol >()` throw `bad_atom_access` with a text. -/

variable (getDouble : Atom → Except String Binary64) (getSymbol : Atom → Except String String)

def arrayFromAtoms (size : Nat) (args : List Atom) : Except ArgumentException (Vector Binary64 size) :=
  if short : args.length < size then .error (.runtimeError "not enough arguments provided")
  else (Vector.ofFnM fun i => getDouble (args.get ⟨i, by omega⟩)).mapError .badAtomAccess

def MovementObject.handle (clause : CatchClause) (size : Nat) (set : Vector Binary64 size → Movement → Movement)
    (args : List Atom) (o : MovementObject) : Except ArgumentException (List Atom) × MovementObject :=
  match arrayFromAtoms getDouble size args with
  | .ok values => (.ok args, { o with movementState := set values o.movementState })
  | .error ex =>
    if clause.catches ex then (.ok args, { o with posts := o.posts ++ [.cerr ex.what.toList] })
    else (.error ex, o)

namespace IiwaMovementMessage

def handleJointsMessage : List Atom → MovementObject → Except ArgumentException (List Atom) × MovementObject :=
  MovementObject.handle getDouble .stdException 7 Movement.setJoints

def handleFilterParams : List Atom → MovementObject → Except ArgumentException (List Atom) × MovementObject :=
  MovementObject.handle getDouble .badAtomAccess 3 Movement.setFilterParams

def handleJointParams : List Atom → MovementObject → Except ArgumentException (List Atom) × MovementObject :=
  MovementObject.handle getDouble .badAtomAccess 4 Movement.setJointParams

def moveTypeFromSym (tySym : String) (o : MovementObject) : (MovementType × Bool) × MovementObject :=
  if tySym = "JOINT" then ((.joint, true), o)
  else if tySym = "PIP" then ((.pip, true), o)
  else if tySym = "LIN" then ((.lin, true), o)
  else if tySym = "CIRCLE" then ((.circle, true), o)
  else if tySym = "BEZIER" then ((.bezier, true), o)
  else if tySym = "BATCH" then ((.batch, true), o)
  else ((.joint, false), { o with posts := o.posts ++ [.cerr "unrecognized movement type".toList] })

def setMoveType (tySym : String) (o : MovementObject) : MovementObject :=
  let ((moveT, succ), o) := moveTypeFromSym tySym o
  if succ then { o with movementState := { o.movementState with moveType := moveT } } else o

def construct : List Atom → MovementObject
  | [] => {}
  | arg :: _ =>
    match getSymbol arg with
    | .ok typeSym => setMoveType typeSym {}
    | .error what => { posts := [.cout what.toList] }

end IiwaMovementMessage

namespace IiwaJoints

def handleJointsMessage : List Atom → MovementObject → Except ArgumentException (List Atom) × MovementObject :=
  MovementObject.handle getDouble .stdException 7 Movement.setJoints

def handleJointParams : List Atom → MovementObject → Except ArgumentException (List Atom) × MovementObject :=
  MovementObject.handle getDouble .badAtomAccess 4 Movement.setJointParams

end IiwaJoints

inductive ParameterGroup
  | joints
  | jointParams
  | filterParams
  deriving DecidableEq

namespace ParameterGroup

def size : ParameterGroup → Nat
  | joints => 7
  | jointParams => 4
  | filterParams => 3

def handler (g : ParameterGroup) :
    List Atom → MovementObject → Except ArgumentException (List Atom) × MovementObject :=
  match g with
  | joints => IiwaMovementMessage.handleJointsMessage getDouble
  | jointParams => IiwaMovementMessage.handleJointParams getDouble
  | filterParams => IiwaMovementMessage.handleFilterParams getDouble

def clause : ParameterGroup → CatchClause
  | joints => .stdException
  | jointParams => .badAtomAccess
  | filterParams => .badAtomAccess

def set : (g : ParameterGroup) → Vector Binary64 g.size → Movement → Movement
  | joints => Movement.setJoints
  | jointParams => Movement.setJointParams
  | filterParams => Movement.setFilterParams

theorem handler_eq (g : ParameterGroup) (args : List Atom) (o : MovementObject) :
    g.handler getDouble args o = o.handle getDouble g.clause g.size g.set args := by
  cases g <;> rfl

end ParameterGroup

variable {getDouble} {size : Nat} {args : List Atom}

theorem arrayFromAtoms_short (short : args.length < size) :
    arrayFromAtoms getDouble size args = .error (.runtimeError "not enough arguments provided") :=
  dif_pos short

theorem arrayFromAtoms_access (enough : size ≤ args.length) {ex : ArgumentException}
    (thrown : arrayFromAtoms getDouble size args = .error ex) : ∃ what, ex = .badAtomAccess what := by
  rw [arrayFromAtoms, dif_neg (Nat.not_lt.mpr enough)] at thrown
  cases filled : Vector.ofFnM fun i : Fin size => getDouble (args.get ⟨i, by omega⟩) with
  | ok values => rw [filled] at thrown; cases thrown
  | error what =>
    rw [filled] at thrown
    cases thrown
    exact ⟨what, rfl⟩

theorem arrayFromAtoms_ok (value : Fin args.length → Binary64) (converts : ∀ i, getDouble (args.get i) = .ok (value i))
    (enough : size ≤ args.length) :
    arrayFromAtoms getDouble size args = .ok (Vector.ofFn fun i => value (i.castLE enough)) := by
  have each : (fun i : Fin size => getDouble (args.get ⟨i, by omega⟩)) =
      fun i => pure (value (i.castLE enough)) := funext fun i => converts (i.castLE enough)
  rw [arrayFromAtoms, dif_neg (Nat.not_lt.mpr enough), each, Vector.ofFnM_pure]
  rfl

end Handlers

def ownDouble : Atom → Except String Binary64
  | .float x => .ok x
  | _ => .error "atom is not of type float"

def ownSymbol : Atom → Except String String
  | .sym s => .ok s
  | _ => .error "atom is not of type symbol"

end MaxNet
