import MaxNet.Movement.Groups
import MaxNet.Movement.Pipeline
import MaxNet.Movement.WireFormat

namespace MaxNet

open Wire

namespace Movement

structure Commanded (m : Movement) : Prop where
  moveType : m.moveType ∈ [MovementType.joint, .pip, .lin, .circle, .bezier, .batch]
  seven : ∀ p, m.jointPositions = some p → p.joints.length = 7
  cartesianPosition : m.cartesianPosition = none
  cartesianParameter : m.cartesianParameter = none

theorem commanded_type {t : MovementType} (known : t ∈ [MovementType.joint, .pip, .lin, .circle, .bezier, .batch]) :
    Commanded { moveType := t } where
  moveType := known
  seven := nofun
  cartesianPosition := rfl
  cartesianParameter := rfl

theorem Commanded.setJoints {m : Movement} (commanded : m.Commanded) (joints : Vector Binary64 7) :
    (m.setJoints joints).Commanded := by
  rw [setJoints_eq]
  refine ⟨commanded.moveType, ?_, commanded.cartesianPosition, commanded.cartesianParameter⟩
  intro p found
  obtain rfl := Option.some.inj found
  exact joints.length_toList

theorem Commanded.set {m : Movement} (commanded : m.Commanded) (g : ParameterGroup) (values : Vector Binary64 g.size) :
    (g.set values m).Commanded := by
  cases g with
  | joints => exact commanded.setJoints values
  | jointParams => exact ⟨commanded.moveType, commanded.seven, commanded.cartesianPosition, commanded.cartesianParameter⟩
  | filterParams => exact ⟨commanded.moveType, commanded.seven, commanded.cartesianPosition, commanded.cartesianParameter⟩

theorem commanded_construct (getSymbol : Atom → Except String String) (args : List Atom) :
    (IiwaMovementMessage.construct getSymbol args).movementState.Commanded := by
  unfold IiwaMovementMessage.construct
  cases args with
  | nil => exact commanded_type (by simp)
  | cons arg rest =>
    simp only
    split
    · unfold IiwaMovementMessage.setMoveType IiwaMovementMessage.moveTypeFromSym
      split_ifs <;> exact commanded_type (by simp)
    · exact commanded_type (by simp)

theorem Commanded.handler {getDouble : Atom → Except String Binary64} {o : MovementObject}
    (commanded : o.movementState.Commanded) (g : ParameterGroup) (args : List Atom) :
    (g.handler getDouble args o).2.movementState.Commanded := by
  rw [ParameterGroup.handler_eq, MovementObject.handle]
  cases arrayFromAtoms getDouble g.size args with
  | ok values => exact commanded.set g values
  | error ex =>
    simp only
    split <;> exact commanded

theorem length_moveType {t : MovementType} (known : t ∈ [MovementType.joint, .pip, .lin, .circle, .bezier, .batch])
    {v : Value} (written : writeMoveType t = some v) : v.write.length < 2 := by
  obtain rfl := writeMoveType_eq written
  have small : int64Bits t.number.toInt64 < 128 := by
    simp only [List.mem_cons, List.not_mem_nil, or_false] at known
    rcases known with rfl | rfl | rfl | rfl | rfl | rfl <;> decide
  exact Nat.lt_succ_of_le (length_varint small).le

/-- A type, seven joints, and the parameters of the joints and of the filter. -/
theorem Commanded.length_serialize {m : Movement} (commanded : m.Commanded) : (record.serialize m).length ≤ 129 := by
  have moveType : ∀ v, writeMoveType m.moveType = some v → v.write.length < 2 :=
    fun _ => length_moveType commanded.moveType
  have jointPositions : ∀ v, JointPosition.record.writeMessage m.jointPositions = some v → v.write.length < 60 := by
    intro v written
    apply length_message written (by decide)
    intro p found
    have seven := commanded.seven p found
    have length := JointPosition.length_serialize p (by omega)
    omega
  have jointParameter : ∀ v, JointParameter.record.writeMessage m.jointParameter = some v → v.write.length < 38 :=
    fun _ written => length_message written (by decide) fun p _ => JointParameter.length_serialize p
  have filterParameter : ∀ v, FilterParameter.record.writeMessage m.filterParameter = some v → v.write.length < 29 :=
    fun _ written => length_message written (by decide) fun p _ => FilterParameter.length_serialize p
  have cartesianPosition : ∀ v, CartesianPosition.record.writeMessage m.cartesianPosition = some v →
      v.write.length < 0 := by
    simp [commanded.cartesianPosition, Record.writeMessage]
  have cartesianParameter : ∀ v, CartesianParameter.record.writeMessage m.cartesianParameter = some v →
      v.write.length < 0 := by
    simp [commanded.cartesianParameter, Record.writeMessage]
  have total : (record.serialize m).length ≤ 2 + (60 + (0 + (0 + (38 + (29 + 0))))) :=
    length_slots (by decide) moveType <| length_slots (by decide) jointPositions <|
      length_slots (by decide) cartesianPosition <| length_slots (by decide) cartesianParameter <|
      length_slots (by decide) jointParameter <| length_slots (by decide) filterParameter <| Nat.le_refl 0
  exact total

theorem Commanded.length_serializeToArray {m : Movement} (commanded : m.Commanded) :
    m.serializeToArray.length ≤ 129 := by
  have length := commanded.length_serialize
  rw [serializeToArray, if_pos (by omega)]
  exact length

end Movement

namespace MovementPatch

variable {E : Type} [DecidableEq E] {getDouble : Atom → Except String Binary64} {getSymbol : Atom → Except String String}
  {lib : MovementLibrary} {accepts : String → UInt64 → Bool}

structure Compact (p : MovementPatch E) : Prop where
  states : ∀ move ∈ p.moves, move.2.movementState.Commanded
  snapshots : ∀ mv ∈ p.client.snapshots, mv.Commanded
  frames : ∀ bytes ∈ p.client.storage, bytes.length ≤ 129

omit [DecidableEq E] in
theorem lookup_commanded {p : MovementPatch E} (compact : p.Compact) {address : Int64} {o : MovementObject}
    (found : p.moves.lookup address = some o) : o.movementState.Commanded := by
  have member : (address, o) ∈ p.moves := by
    obtain ⟨before, after, split, -⟩ := List.lookup_eq_some_iff.mp found
    rw [split]
    exact List.mem_append_right before List.mem_cons_self
  exact compact.states _ member

theorem compact_step {p q : MovementPatch E} {e : Event E} (lawful : lib.Lawful accepts)
    (written : lib.serializeToArray = Movement.serializeToArray) (compact : p.Compact) (own : e.foreign = false)
    (h : (machine getDouble getSymbol lib).step p e = some q) : q.Compact := by
  have taken : step getDouble getSymbol lib p e = some q := h
  unfold step at taken
  split at taken
  · cases taken
  · cases e with
    | construct address args =>
      obtain ⟨_, same⟩ := Option.ite_none_right_eq_some.mp taken
      cases same
      refine ⟨?_, compact.snapshots, compact.frames⟩
      intro move member
      rcases List.mem_append.mp member with held | made
      · exact compact.states move held
      · obtain rfl := List.mem_singleton.mp made
        exact Movement.commanded_construct getSymbol args
    | group address g args =>
      obtain ⟨o, found, rfl⟩ := Option.map_eq_some_iff.mp taken
      refine ⟨?_, compact.snapshots, compact.frames⟩
      intro move member
      obtain ⟨held, before, rfl⟩ := List.mem_map.mp member
      split
      · exact (lookup_commanded compact found).handler g args
      · exact compact.states held before
    | bang address =>
      obtain ⟨o, found, sent⟩ := Option.bind_eq_some_iff.mp taken
      obtain ⟨client, made, rfl⟩ := Option.map_eq_some_iff.mp sent
      have commanded := lookup_commanded compact found
      obtain ⟨snapshots, last, storage, content⟩ := newMvMsg_bang lawful found made
      refine ⟨compact.states, ?_, ?_⟩
      · intro mv member
        rcases List.mem_append.mp (snapshots ▸ member) with held | now
        · exact compact.snapshots mv held
        · exact List.mem_singleton.mp (MovementLibrary.mem_of_passed now) ▸ commanded
      · intro bytes member
        rcases List.mem_append.mp (storage ▸ member) with held | now
        · exact compact.frames bytes held
        · obtain rfl := List.mem_singleton.mp now
          rcases content with rfl | rfl
          · exact Nat.zero_le _
          · rw [written]
            exact commanded.length_serializeToArray
    | iiwaMove args => cases own
    | client e =>
      obtain ⟨_, moved⟩ := Option.ite_none_right_eq_some.mp taken
      obtain ⟨client, _, rfl⟩ := Option.map_eq_some_iff.mp moved
      exact ⟨compact.states, compact.snapshots, compact.frames⟩

theorem compact_start (url : NetUrl E) (inbox : List WsMessage) : (start url inbox).Compact where
  states := by simp [start]
  snapshots := by simp [start]
  frames := by simp [start]

omit [DecidableEq E] in
theorem Compact.read_back {p : MovementPatch E} (compact : p.Compact)
    (written : lib.serializeToArray = Movement.serializeToArray) :
    (p.client.snapshots.map fun mv => some (lib.serializeToArray mv)).map
      (fun frame => frame.bind Movement.parseFromArray) = p.client.snapshots.map some := by
  rw [List.map_map, written]
  apply List.map_congr_left
  intro mv member
  have length := (compact.snapshots mv member).length_serialize
  exact Movement.parse_serialize (by omega)

/-- What the websocket gets from the objects of a patch are frames of 129 bytes at most. Each is read back as the state
    of its object at a bang, in the order of the bangs. There are none if the tag of the objects is refused. -/
theorem frames_read_back (lawful : lib.Lawful accepts) (written : lib.serializeToArray = Movement.serializeToArray)
    (url : NetUrl E) (inbox : List WsMessage) (es : List (Event E)) (p : MovementPatch E)
    (ran : (machine getDouble getSymbol lib).run (start url inbox) es = some p)
    (own : ∀ e ∈ es, e.foreign = false) :
    (∀ bytes ∈ p.client.storage, bytes.length ≤ 129) ∧ ∃ s, p.client.client.sessions = [s] ∧
      List.Sublist (s.view.handed.map fun msg => (p.client.storage[msg]?).bind Movement.parseFromArray)
        ((lib.passed accepts (banged getDouble getSymbol lib (start url inbox) es)).map some) := by
  have compact : p.Compact := by
    apply Transition.System.invariant_of_run (P := Compact) (Q := fun _ e => e.foreign = false) ?_
      (compact_start url inbox) (Transition.System.each_of_forall fun _ e member => own e member) ran
    intro p e q compact own h
    exact compact_step lawful written compact own h
  obtain ⟨s, single, accounted⟩ := accounted_of_run ran
  have snapshots := snapshots_banged lawful ran own
  refine ⟨compact.frames, s, single, ?_⟩
  have order := accounted.in_order.map fun frame => frame.bind Movement.parseFromArray
  rw [List.map_map, compact.read_back written, snapshots] at order
  exact order

def ownLibrary (accepts : String → UInt64 → Bool) : MovementLibrary :=
  { typesOnly accepts with serializeToArray := Movement.serializeToArray }

theorem ownLibrary_lawful (accepts : String → UInt64 → Bool) : (ownLibrary accepts).Lawful accepts where
  getLong_long := (typesOnly_lawful accepts).getLong_long
  accepted := (typesOnly_lawful accepts).accepted
  refused := (typesOnly_lawful accepts).refused

def filterThenBang : List (Event Unit) :=
  [.construct 64 [.sym "LIN"], .group 64 .filterParams [.float .zero, .float (.infinite false), .float .zero], .bang 64,
    .group 64 .filterParams [.float .zero, .float .zero, .float .zero], .client (.session 0 (.writeStart 0))]

/-- The parameters that were set after the bang are not in the frame. -/
theorem frames_read_back_filter :
    (∃ p s, (machine ownDouble ownSymbol (ownLibrary anyTag)).run
        (start { hostname := ['h'], endpointSeq := [()] } []) filterThenBang = some p ∧
      p.client.client.sessions = [s] ∧ p.client.storage = [[8, 2, 50, 9, 17, 0, 0, 0, 0, 0, 0, 240, 127]] ∧
      List.Sublist (s.view.handed.map fun msg => (p.client.storage[msg]?).bind Movement.parseFromArray)
        [some { moveType := .lin, filterParameter := some { friction := .infinite false } }]) ∧
    ∃ p s, (machine ownDouble ownSymbol (ownLibrary sameName)).run
        (start { hostname := ['h'], endpointSeq := [()] } []) (filterThenBang.take 4) = some p ∧
      p.client.client.sessions = [s] ∧ p.client.storage = [[]] ∧ s.view.handed = [] := by
  constructor
  · have observed : ((machine ownDouble ownSymbol (ownLibrary anyTag)).run
        (start { hostname := ['h'], endpointSeq := [()] } []) filterThenBang).map (fun p => p.client.storage) =
        some [[8, 2, 50, 9, 17, 0, 0, 0, 0, 0, 0, 240, 127]] := by decide +kernel
    have passed : (ownLibrary anyTag).passed anyTag (banged ownDouble ownSymbol (ownLibrary anyTag)
        (start { hostname := ['h'], endpointSeq := [()] } []) filterThenBang) =
        [{ moveType := .lin, filterParameter := some { friction := .infinite false } }] := by decide +kernel
    obtain ⟨p, final, storage⟩ := Option.map_eq_some_iff.mp observed
    obtain ⟨_, s, single, order⟩ := frames_read_back (ownLibrary_lawful anyTag) rfl
      { hostname := ['h'], endpointSeq := [()] } [] filterThenBang p final (by decide)
    rw [passed] at order
    exact ⟨p, s, final, single, storage, order⟩
  · have observed : ((machine ownDouble ownSymbol (ownLibrary sameName)).run
        (start { hostname := ['h'], endpointSeq := [()] } []) (filterThenBang.take 4)).map (fun p => p.client.storage) =
        some [[]] := by decide +kernel
    have passed : (ownLibrary sameName).passed sameName (banged ownDouble ownSymbol (ownLibrary sameName)
        (start { hostname := ['h'], endpointSeq := [()] } []) (filterThenBang.take 4)) = [] := by decide +kernel
    obtain ⟨p, final, storage⟩ := Option.map_eq_some_iff.mp observed
    obtain ⟨_, s, single, order⟩ := frames_read_back (ownLibrary_lawful sameName) rfl
      { hostname := ['h'], endpointSeq := [()] } [] (filterThenBang.take 4) p final (by decide)
    rw [passed] at order
    exact ⟨p, s, final, single, storage, List.map_eq_nil_iff.mp (List.sublist_nil.mp order)⟩

end MovementPatch

end MaxNet
