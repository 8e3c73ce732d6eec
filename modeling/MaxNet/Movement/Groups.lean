import MaxNet.Lib.Lists
import MaxNet.Movement.Model

namespace MaxNet

open ParameterGroup

structure ParameterMessage where
  group : ParameterGroup
  args : List Atom
  deriving DecidableEq

section Groups

variable (getDouble : Atom → Except String Binary64)

def IiwaMovementMessage.receive (o : MovementObject) (msg : ParameterMessage) : MovementObject :=
  (msg.group.handler getDouble msg.args o).2

def IiwaJoints.receive (o : MovementObject) (msg : ParameterMessage) : MovementObject :=
  match msg.group with
  | .joints => (handleJointsMessage getDouble msg.args o).2
  | .jointParams => (handleJointParams getDouble msg.args o).2
  | .filterParams => o

namespace ParameterMessage

def WellFormed (msg : ParameterMessage) : Prop :=
  ∃ values, arrayFromAtoms getDouble msg.group.size msg.args = .ok values

def jointPosition (msg : ParameterMessage) : Option JointPosition :=
  (arrayFromAtoms getDouble 7 msg.args).toOption.map fun values => { joints := values.toList }

def jointParameter (msg : ParameterMessage) : Option JointParameter :=
  (arrayFromAtoms getDouble 4 msg.args).toOption.map JointParameter.ofValues

def filterParameter (msg : ParameterMessage) : Option FilterParameter :=
  (arrayFromAtoms getDouble 3 msg.args).toOption.map FilterParameter.ofValues

/-- What becomes of the movement state. The parameters of the joints take those of the filter away. -/
def effect (msg : ParameterMessage) (m : Movement) : Movement :=
  match msg.group with
  | .joints => { m with jointPositions := msg.jointPosition getDouble }
  | .jointParams => { m with jointParameter := msg.jointParameter getDouble, filterParameter := none }
  | .filterParams => { m with filterParameter := msg.filterParameter getDouble }

def lastOf (g : ParameterGroup) (messages : List ParameterMessage) : Option ParameterMessage :=
  (messages.filter fun msg => msg.group = g).getLast?

/-- Where there are FilterParams messages, the last message that is not a Joints message is one. -/
def FilterParamsLast (messages : List ParameterMessage) : Prop :=
  (∃ msg ∈ messages, msg.group = .filterParams) →
    ∃ msg, (messages.filter fun msg => msg.group ≠ .joints).getLast? = some msg ∧ msg.group = .filterParams

end ParameterMessage

open ParameterMessage

structure Independent (messages : List ParameterMessage) (start final : Movement) : Prop where
  jointPositions : final.jointPositions = (lastOf .joints messages).bind (jointPosition getDouble)
  jointParameter : final.jointParameter = (lastOf .jointParams messages).bind (jointParameter getDouble)
  filterParameter : final.filterParameter = (lastOf .filterParams messages).bind (filterParameter getDouble)
  moveType : final.moveType = start.moveType
  cartesianPosition : final.cartesianPosition = start.cartesianPosition
  cartesianParameter : final.cartesianParameter = start.cartesianParameter

variable {getDouble}

/-- There are arguments enough, and each of them is a number. -/
theorem wellFormed_of_converts {msg : ParameterMessage} (enough : msg.group.size ≤ msg.args.length)
    (converts : ∀ a ∈ msg.args, ∃ x, getDouble a = .ok x) : msg.WellFormed getDouble := by
  choose value converted using fun i : Fin msg.args.length => converts (msg.args.get i) (List.get_mem msg.args i)
  exact ⟨_, arrayFromAtoms_ok value converted enough⟩

theorem Movement.foldl_addJoints (joints held : List Binary64) (m : Movement) :
    joints.foldl addJoints { m with jointPositions := some { joints := held } } =
      { m with jointPositions := some { joints := held ++ joints } } := by
  induction joints generalizing held with
  | nil => simp
  | cons joint joints ih =>
    have rest := ih (held ++ [joint])
    rw [List.append_assoc, List.singleton_append] at rest
    exact rest

theorem Movement.setJoints_eq (joints : Vector Binary64 7) (m : Movement) :
    m.setJoints joints = { m with jointPositions := some { joints := joints.toList } } := by
  have length : joints.toList.length = 7 := joints.length_toList
  unfold setJoints
  cases all : joints.toList with
  | nil => simp [all] at length
  | cons joint rest => exact foldl_addJoints rest [joint] m

theorem jointPosition_ok {msg : ParameterMessage} {values : Vector Binary64 7}
    (converted : arrayFromAtoms getDouble 7 msg.args = .ok values) :
    msg.jointPosition getDouble = some { joints := values.toList } := by
  rw [jointPosition, converted]
  rfl

theorem jointParameter_ok {msg : ParameterMessage} {values : Vector Binary64 4}
    (converted : arrayFromAtoms getDouble 4 msg.args = .ok values) :
    msg.jointParameter getDouble = some (.ofValues values) := by
  rw [jointParameter, converted]
  rfl

theorem filterParameter_ok {msg : ParameterMessage} {values : Vector Binary64 3}
    (converted : arrayFromAtoms getDouble 3 msg.args = .ok values) :
    msg.filterParameter getDouble = some (.ofValues values) := by
  rw [filterParameter, converted]
  rfl

theorem filterParameter_ne_none {msg : ParameterMessage} (wellFormed : msg.WellFormed getDouble)
    (filter : msg.group = .filterParams) : msg.filterParameter getDouble ≠ none := by
  obtain ⟨values, converted⟩ := wellFormed
  rcases msg with ⟨g, args⟩
  subst filter
  have read : filterParameter getDouble ⟨.filterParams, args⟩ = _ := filterParameter_ok converted
  simp [read]

theorem receive_eq {msg : ParameterMessage} (wellFormed : msg.WellFormed getDouble) (o : MovementObject) :
    IiwaMovementMessage.receive getDouble o msg = { o with movementState := msg.effect getDouble o.movementState } := by
  rcases msg with ⟨g, args⟩
  obtain ⟨values, converted⟩ := wellFormed
  have handled : IiwaMovementMessage.receive getDouble o ⟨g, args⟩ =
      { o with movementState := g.set values o.movementState } := by
    rw [IiwaMovementMessage.receive, handler_eq, MovementObject.handle, converted]
  rw [handled]
  cases g with
  | joints =>
    have read : jointPosition getDouble ⟨.joints, args⟩ = _ := jointPosition_ok converted
    simp only [effect, read]
    exact congrArg (fun m => ({ o with movementState := m } : MovementObject))
      (Movement.setJoints_eq values o.movementState)
  | jointParams =>
    have read : jointParameter getDouble ⟨.jointParams, args⟩ = _ := jointParameter_ok converted
    simp only [effect, read]
    rfl
  | filterParams =>
    have read : filterParameter getDouble ⟨.filterParams, args⟩ = _ := filterParameter_ok converted
    simp only [effect, read]
    rfl

/-- `iiwa_joints` does the same with the messages it knows. -/
theorem joints_receive_eq {msg : ParameterMessage} (known : msg.group ≠ .filterParams) (o : MovementObject) :
    IiwaJoints.receive getDouble o msg = IiwaMovementMessage.receive getDouble o msg := by
  rcases msg with ⟨g, args⟩
  cases g with
  | joints => rfl
  | jointParams => rfl
  | filterParams => exact absurd rfl known

/-- The parameters of the joints and those of the filter are the only ones that do not commute. -/
theorem effect_comm_iff {m n : ParameterMessage} (differ : m.group ≠ n.group) (left : m.WellFormed getDouble)
    (right : n.WellFormed getDouble) (state : Movement) :
    n.effect getDouble (m.effect getDouble state) = m.effect getDouble (n.effect getDouble state) ↔
      m.group = .joints ∨ n.group = .joints := by
  have kept (h : m.group = .filterParams) := filterParameter_ne_none left h
  have kept' (h : n.group = .filterParams) := filterParameter_ne_none right h
  rcases m with ⟨g, args⟩
  rcases n with ⟨h, args'⟩
  cases g with
  | joints =>
    cases h with
    | joints => exact absurd rfl differ
    | jointParams => simp [effect]
    | filterParams => simp [effect]
  | jointParams =>
    cases h with
    | joints => simp [effect]
    | jointParams => exact absurd rfl differ
    | filterParams => simp [effect, kept' rfl]
  | filterParams =>
    cases h with
    | joints => simp [effect]
    | jointParams => simp [effect, (kept rfl).symm]
    | filterParams => exact absurd rfl differ

theorem foldl_receive {messages : List ParameterMessage} (wellFormed : ∀ msg ∈ messages, msg.WellFormed getDouble)
    (o : MovementObject) :
    (messages.foldl (IiwaMovementMessage.receive getDouble) o).movementState =
      messages.foldl (fun state msg => msg.effect getDouble state) o.movementState := by
  induction messages generalizing o with
  | nil => rfl
  | cons msg messages ih =>
    have later : ∀ msg ∈ messages, msg.WellFormed getDouble :=
      fun n member => wellFormed n (List.mem_cons_of_mem msg member)
    rw [List.foldl_cons, List.foldl_cons, ih later, receive_eq (wellFormed msg (List.mem_cons_self ..))]

theorem lastOf_filterParams (messages : List ParameterMessage) :
    lastOf .filterParams messages =
      ((messages.filter fun msg => msg.group ≠ .joints).filter fun msg => msg.group = .filterParams).getLast? := by
  rw [lastOf, List.filter_filter]
  congr 2
  funext msg
  cases msg.group <;> rfl

variable (getDouble)

theorem effect_jointPositions (m : Movement) (msg : ParameterMessage) :
    (msg.effect getDouble m).jointPositions =
      if msg.group = .joints then msg.jointPosition getDouble else m.jointPositions := by
  unfold effect
  cases msg.group <;> rfl

theorem effect_jointParameter (m : Movement) (msg : ParameterMessage) :
    (msg.effect getDouble m).jointParameter =
      if msg.group = .jointParams then msg.jointParameter getDouble else m.jointParameter := by
  unfold effect
  cases msg.group <;> rfl

theorem effect_filterParameter (m : Movement) (msg : ParameterMessage) :
    (msg.effect getDouble m).filterParameter =
      if msg.group ≠ .joints then if msg.group = .filterParams then msg.filterParameter getDouble else none
      else m.filterParameter := by
  unfold effect
  cases msg.group <;> rfl

/-- The rest of the state is out of reach of the messages. -/
theorem foldl_effect_other (messages : List ParameterMessage) (m : Movement) :
    (messages.foldl (fun m msg => msg.effect getDouble m) m).moveType = m.moveType ∧
      (messages.foldl (fun m msg => msg.effect getDouble m) m).cartesianPosition = m.cartesianPosition ∧
      (messages.foldl (fun m msg => msg.effect getDouble m) m).cartesianParameter = m.cartesianParameter := by
  induction messages generalizing m with
  | nil => exact ⟨rfl, rfl, rfl⟩
  | cons msg messages ih =>
    have kept : (msg.effect getDouble m).moveType = m.moveType ∧
        (msg.effect getDouble m).cartesianPosition = m.cartesianPosition ∧
        (msg.effect getDouble m).cartesianParameter = m.cartesianParameter := by
      unfold effect
      cases msg.group <;> exact ⟨rfl, rfl, rfl⟩
    have rest := ih (msg.effect getDouble m)
    rw [kept.1, kept.2.1, kept.2.2] at rest
    exact rest

variable {getDouble}

/-- The groups of a fresh object are independent exactly if the parameters of the filter come last. -/
theorem independent_effect_iff {messages : List ParameterMessage}
    (wellFormed : ∀ msg ∈ messages, msg.WellFormed getDouble) {start : Movement}
    (noJoints : start.jointPositions = none) (noJointParams : start.jointParameter = none)
    (noFilterParams : start.filterParameter = none) :
    Independent getDouble messages start (messages.foldl (fun m msg => msg.effect getDouble m) start) ↔
      FilterParamsLast messages := by
  have value : ∀ msg ∈ messages.filter fun msg => msg.group ≠ .joints, msg.group = .filterParams →
      msg.filterParameter getDouble ≠ none := by
    intro msg member
    exact filterParameter_ne_none (wellFormed msg (List.mem_of_mem_filter member))
  have positions := Lists.foldl_overwrites_unset (effect_jointPositions getDouble) messages noJoints
  have parameters := Lists.foldl_overwrites_unset (effect_jointParameter getDouble) messages noJointParams
  have filter := Lists.foldl_overwrites_unset (effect_filterParameter getDouble) messages noFilterParams
  obtain ⟨moveType, cartesianPosition, cartesianParameter⟩ := foldl_effect_other getDouble messages start
  have latest := Lists.getLast?_masked_iff value
  rw [← lastOf_filterParams] at latest
  have among : (∃ msg ∈ messages.filter fun msg => msg.group ≠ .joints, msg.group = .filterParams) ↔
      ∃ msg ∈ messages, msg.group = .filterParams := by
    constructor
    · intro found
      obtain ⟨msg, member, group⟩ := found
      exact ⟨msg, List.mem_of_mem_filter member, group⟩
    · intro found
      obtain ⟨msg, member, group⟩ := found
      exact ⟨msg, List.mem_filter.mpr ⟨member, by simp [group]⟩, group⟩
  rw [FilterParamsLast, ← among, ← latest, ← filter]
  constructor
  · intro independent
    exact independent.filterParameter
  · intro same
    exact
      { jointPositions := positions
        jointParameter := parameters
        filterParameter := same
        moveType := moveType
        cartesianPosition := cartesianPosition
        cartesianParameter := cartesianParameter }

/-- The constructor sets the type of the movement at most. -/
theorem construct_fresh (getSymbol : Atom → Except String String) (args : List Atom) :
    (IiwaMovementMessage.construct getSymbol args).movementState.jointPositions = none ∧
      (IiwaMovementMessage.construct getSymbol args).movementState.jointParameter = none ∧
      (IiwaMovementMessage.construct getSymbol args).movementState.filterParameter = none := by
  unfold IiwaMovementMessage.construct
  cases args with
  | nil => exact ⟨rfl, rfl, rfl⟩
  | cons arg rest =>
    simp only
    split
    · rename_i typeSym read
      unfold IiwaMovementMessage.setMoveType IiwaMovementMessage.moveTypeFromSym
      split_ifs <;> exact ⟨rfl, rfl, rfl⟩
    · exact ⟨rfl, rfl, rfl⟩

/-- The groups of `iiwa_move` are independent in a run of messages exactly if the parameters of the filter
    come after those of the joints, and only these two do not commute. `iiwa_joints` has no filter to lose. -/
theorem groups_independent_iff (getDouble : Atom → Except String Binary64) (getSymbol : Atom → Except String String) :
    (∀ args messages, (∀ msg ∈ messages, msg.WellFormed getDouble) →
      (Independent getDouble messages (IiwaMovementMessage.construct getSymbol args).movementState
          (messages.foldl (IiwaMovementMessage.receive getDouble)
            (IiwaMovementMessage.construct getSymbol args)).movementState ↔ FilterParamsLast messages)) ∧
    (∀ o m n, m.WellFormed getDouble → n.WellFormed getDouble → m.group ≠ n.group →
      (IiwaMovementMessage.receive getDouble (IiwaMovementMessage.receive getDouble o m) n =
          IiwaMovementMessage.receive getDouble (IiwaMovementMessage.receive getDouble o n) m ↔
        m.group = .joints ∨ n.group = .joints)) ∧
    (∀ messages, (∀ msg ∈ messages, msg.WellFormed getDouble ∧ msg.group ≠ .filterParams) →
      Independent getDouble messages {} (messages.foldl (IiwaJoints.receive getDouble) {}).movementState) := by
  refine ⟨?_, ?_, ?_⟩
  · intro args messages wellFormed
    obtain ⟨noJoints, noJointParams, noFilterParams⟩ := construct_fresh getSymbol args
    rw [foldl_receive wellFormed]
    exact independent_effect_iff wellFormed noJoints noJointParams noFilterParams
  · intro o m n left right differ
    rw [receive_eq left, receive_eq right, receive_eq left, receive_eq right, ← effect_comm_iff differ left right]
    exact ⟨congrArg MovementObject.movementState, congrArg fun m => { o with movementState := m }⟩
  · intro messages known
    have same : messages.foldl (IiwaJoints.receive getDouble) {} =
        messages.foldl (IiwaMovementMessage.receive getDouble) {} :=
      List.foldl_ext _ _ _ fun o msg member => joints_receive_eq (known msg member).2 o
    rw [same, foldl_receive fun msg member => (known msg member).1]
    apply (independent_effect_iff (fun msg member => (known msg member).1) rfl rfl rfl).mpr
    intro found
    obtain ⟨msg, member, group⟩ := found
    exact absurd group (known msg member).2

def zeroFilter : ParameterMessage := ⟨.filterParams, [.float .zero, .float .zero, .float .zero]⟩

def zeroJoints : ParameterMessage := ⟨.jointParams, [.float .zero, .float .zero, .float .zero, .float .zero]⟩

theorem ownDouble_zero : ∃ x, ownDouble (.float .zero) = .ok x := ⟨.zero, rfl⟩

theorem zeroFilter_wellFormed : zeroFilter.WellFormed ownDouble := by
  apply wellFormed_of_converts
  · decide
  · simp [zeroFilter, ownDouble_zero]

theorem zeroJoints_wellFormed : zeroJoints.WellFormed ownDouble := by
  apply wellFormed_of_converts
  · decide
  · simp [zeroJoints, ownDouble_zero]

theorem groups_independent_filter_last :
    Independent ownDouble [zeroJoints, zeroFilter] (IiwaMovementMessage.construct ownSymbol [.sym "LIN"]).movementState
      ([zeroJoints, zeroFilter].foldl (IiwaMovementMessage.receive ownDouble)
        (IiwaMovementMessage.construct ownSymbol [.sym "LIN"])).movementState := by
  have wellFormed : ∀ msg ∈ [zeroJoints, zeroFilter], msg.WellFormed ownDouble := by
    simp [zeroJoints_wellFormed, zeroFilter_wellFormed]
  apply ((groups_independent_iff ownDouble ownSymbol).1 [.sym "LIN"] [zeroJoints, zeroFilter] wellFormed).mpr
  intro _
  exact ⟨zeroFilter, rfl, rfl⟩

/-- The parameters of the joints erase those of the filter. -/
theorem joint_params_clear_filter :
    zeroFilter.WellFormed ownDouble ∧ zeroJoints.WellFormed ownDouble ∧
      zeroFilter.filterParameter ownDouble = some {} ∧
      ([zeroFilter, zeroJoints].foldl (IiwaMovementMessage.receive ownDouble) {}).movementState.filterParameter = none ∧
      ¬ Independent ownDouble [zeroFilter, zeroJoints] {}
        ([zeroFilter, zeroJoints].foldl (IiwaMovementMessage.receive ownDouble) {}).movementState := by
  have cleared : ([zeroFilter, zeroJoints].foldl (IiwaMovementMessage.receive ownDouble)
      {}).movementState.filterParameter = none := by decide +kernel
  have sent : zeroFilter.filterParameter ownDouble = some {} := by decide +kernel
  refine ⟨zeroFilter_wellFormed, zeroJoints_wellFormed, sent, cleared, ?_⟩
  intro independent
  have kept := independent.filterParameter
  rw [cleared] at kept
  have last : lastOf .filterParams [zeroFilter, zeroJoints] = some zeroFilter := rfl
  rw [last, Option.bind_some, sent] at kept
  cases kept

end Groups

end MaxNet
