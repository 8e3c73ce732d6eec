import MaxNet.Lib.Record
import MaxNet.Message.WireFormat
import MaxNet.Movement.Model

/-! The encoding of `Movement.proto` and `globals.proto`. -/

namespace MaxNet

open Wire

/-! ### Values -/

def writeDouble (x : Binary64) : Option Value := if x = .zero then none else some (.fixed64 x.toBits)

def mergeDouble (x : Binary64) : Value → Binary64 × Bool
  | .fixed64 n => (Binary.ofBits .binary64 n, true)
  | _ => (x, true)

def writeDoubles (xs : List Binary64) : Option Value :=
  if xs = [] then none else some (.len (writeFixed64s (xs.map Binary.toBits)))

def mergeDoubles (xs : List Binary64) : Value → List Binary64 × Bool
  | .len bytes =>
    match readFixed64s bytes with
    | some ns => (xs ++ ns.map (Binary.ofBits .binary64), true)
    | none => (xs, false)
  | .fixed64 n => (xs ++ [Binary.ofBits .binary64 n], true)
  | _ => (xs, true)

def writeMoveType (t : MovementType) : Option Value :=
  if t = .joint then none else some (.varint (int64Bits t.number.toInt64))

def mergeMoveType (t : MovementType) : Value → MovementType × Bool
  | .varint n => (⟨(int64OfBits n).toInt32⟩, true)
  | _ => (t, true)

theorem binary64_toBits_lt (x : Binary64) : x.toBits < 2 ^ 64 := x.toBits_lt

theorem eq_zero_of_unwritten {x : Binary64} (unwritten : writeDouble x = none) : x = .zero := by
  by_contra other
  simp [writeDouble, other] at unwritten

theorem writeDouble_eq {x : Binary64} {v : Value} (written : writeDouble x = some v) : v = .fixed64 x.toBits := by
  unfold writeDouble at written
  split at written
  · cases written
  · exact (Option.some.inj written).symm

theorem writeDouble_plain {x : Binary64} {v : Value} (written : writeDouble x = some v) :
    (∃ bytes, v = .len bytes) ∨ v.Fits := by
  obtain rfl := writeDouble_eq written
  exact Or.inr (binary64_toBits_lt x)

theorem mergeDouble_written {x : Binary64} {v : Value} (written : writeDouble x = some v) (_ : v.Fits) :
    mergeDouble .zero v = (x, true) := by
  obtain rfl := writeDouble_eq written
  rw [mergeDouble, Binary.ofBits_toBits]

def double : Codec Binary64 :=
  ⟨.zero, writeDouble, mergeDouble, eq_zero_of_unwritten, writeDouble_plain, mergeDouble_written⟩

theorem eq_nil_of_unwritten {xs : List Binary64} (unwritten : writeDoubles xs = none) : xs = [] := by
  by_contra other
  simp [writeDoubles, other] at unwritten

theorem writeDoubles_eq {xs : List Binary64} {v : Value} (written : writeDoubles xs = some v) :
    v = .len (writeFixed64s (xs.map Binary.toBits)) := by
  unfold writeDoubles at written
  split at written
  · cases written
  · exact (Option.some.inj written).symm

theorem writeDoubles_plain {xs : List Binary64} {v : Value} (written : writeDoubles xs = some v) :
    (∃ bytes, v = .len bytes) ∨ v.Fits :=
  Or.inl ⟨_, writeDoubles_eq written⟩

theorem mergeDoubles_written {xs : List Binary64} {v : Value} (written : writeDoubles xs = some v) (_ : v.Fits) :
    mergeDoubles [] v = (xs, true) := by
  have small : ∀ n ∈ xs.map Binary.toBits, n < 2 ^ 64 := by
    intro n member
    obtain ⟨x, -, rfl⟩ := List.mem_map.mp member
    exact binary64_toBits_lt x
  have values : (xs.map Binary.toBits).map (Binary.ofBits .binary64) = xs := by
    rw [List.map_map]
    have back : Binary.ofBits .binary64 ∘ Binary.toBits = id := by
      funext x
      exact Binary.ofBits_toBits x
    rw [back, List.map_id]
  rw [writeDoubles_eq written]
  simp only [mergeDoubles, readFixed64s_writeFixed64s _ small, List.nil_append, values]

def doubles : Codec (List Binary64) :=
  ⟨[], writeDoubles, mergeDoubles, eq_nil_of_unwritten, writeDoubles_plain, mergeDoubles_written⟩

theorem eq_joint_of_unwritten {t : MovementType} (unwritten : writeMoveType t = none) : t = .joint := by
  by_contra other
  simp [writeMoveType, other] at unwritten

theorem writeMoveType_eq {t : MovementType} {v : Value} (written : writeMoveType t = some v) :
    v = .varint (int64Bits t.number.toInt64) := by
  unfold writeMoveType at written
  split at written
  · cases written
  · exact (Option.some.inj written).symm

theorem writeMoveType_plain {t : MovementType} {v : Value} (written : writeMoveType t = some v) :
    (∃ bytes, v = .len bytes) ∨ v.Fits := by
  obtain rfl := writeMoveType_eq written
  exact Or.inr (int64Bits_lt _)

theorem mergeMoveType_written {t : MovementType} {v : Value} (written : writeMoveType t = some v) (_ : v.Fits) :
    mergeMoveType .joint v = (t, true) := by
  obtain rfl := writeMoveType_eq written
  rw [mergeMoveType, int64OfBits_int64Bits, Int32.toInt32_toInt64]

def moveTypeCodec : Codec MovementType :=
  ⟨.joint, writeMoveType, mergeMoveType, eq_joint_of_unwritten, writeMoveType_plain, mergeMoveType_written⟩

/-! ### Messages -/

def doubleSlot {α : Type} (number : Nat) (get : α → Binary64) (set : Binary64 → α → α) : Slot α :=
  ⟨number, Binary64, double, get, set⟩

def messageSlot {α β : Type} (number : Nat) (r : Record β) (get : α → Option β) (set : Option β → α → α) : Slot α :=
  ⟨number, Option β, r.message, get, set⟩

namespace JointPosition

def slots : List (Slot JointPosition) := [⟨1, List Binary64, doubles, joints, fun xs p => { p with joints := xs }⟩]

theorem slots_lawful : ∀ s ∈ slots, s.Lawful {} := by
  simp only [slots, List.forall_mem_singleton]
  exact ⟨by decide, by decide, rfl, fun _ => rfl⟩

def record : Record JointPosition := ⟨{}, slots, slots_lawful, List.pairwise_singleton _ _, fun _ => rfl⟩

end JointPosition

namespace PositionVector

def slots : List (Slot PositionVector) :=
  [ doubleSlot 1 x fun v p => { p with x := v },
    doubleSlot 2 y fun x p => { p with y := x },
    doubleSlot 3 z fun x p => { p with z := x } ]

theorem slots_lawful : ∀ s ∈ slots, s.Lawful {} := by
  simp only [slots, List.forall_mem_cons]
  refine ⟨?_, ?_, ?_, by simp⟩
  all_goals exact ⟨by decide, by decide, rfl, fun _ => rfl⟩

theorem slots_apart : slots.Pairwise Slot.Apart := by
  simp only [slots, List.pairwise_cons, List.forall_mem_cons, List.not_mem_nil, false_implies, implies_true,
    List.Pairwise.nil, and_true]
  refine ⟨⟨?_, ?_⟩, ?_⟩
  all_goals exact ⟨by decide, fun _ _ => rfl⟩

def record : Record PositionVector := ⟨{}, slots, slots_lawful, slots_apart, fun _ => rfl⟩

end PositionVector

namespace CartesianPosition

def slots : List (Slot CartesianPosition) :=
  [ messageSlot 1 PositionVector.record position fun v p => { p with position := v },
    messageSlot 2 PositionVector.record rotation fun v p => { p with rotation := v } ]

theorem slots_lawful : ∀ s ∈ slots, s.Lawful {} := by
  simp only [slots, List.forall_mem_cons]
  refine ⟨?_, ?_, by simp⟩
  all_goals exact ⟨by decide, by decide, rfl, fun _ => rfl⟩

theorem slots_apart : slots.Pairwise Slot.Apart := by
  simp only [slots, List.pairwise_cons, List.forall_mem_cons, List.not_mem_nil, false_implies, implies_true,
    List.Pairwise.nil, and_true]
  exact ⟨by decide, fun _ _ => rfl⟩

def record : Record CartesianPosition := ⟨{}, slots, slots_lawful, slots_apart, fun _ => rfl⟩

end CartesianPosition

namespace CartesianParameter

def slots : List (Slot CartesianParameter) :=
  [ doubleSlot 3 cartVelocity fun x p => { p with cartVelocity := x },
    doubleSlot 4 cartAcceleration fun x p => { p with cartAcceleration := x },
    doubleSlot 5 cartJerk fun x p => { p with cartJerk := x },
    doubleSlot 6 blendingCart fun x p => { p with blendingCart := x } ]

theorem slots_lawful : ∀ s ∈ slots, s.Lawful {} := by
  simp only [slots, List.forall_mem_cons]
  refine ⟨?_, ?_, ?_, ?_, by simp⟩
  all_goals exact ⟨by decide, by decide, rfl, fun _ => rfl⟩

theorem slots_apart : slots.Pairwise Slot.Apart := by
  simp only [slots, List.pairwise_cons, List.forall_mem_cons, List.not_mem_nil, false_implies, implies_true,
    List.Pairwise.nil, and_true]
  refine ⟨⟨?_, ?_, ?_⟩, ⟨?_, ?_⟩, ?_⟩
  all_goals exact ⟨by decide, fun _ _ => rfl⟩

def record : Record CartesianParameter := ⟨{}, slots, slots_lawful, slots_apart, fun _ => rfl⟩

end CartesianParameter

namespace JointParameter

def slots : List (Slot JointParameter) :=
  [ doubleSlot 1 jointVelocity fun x p => { p with jointVelocity := x },
    doubleSlot 2 jointAccelerationRel fun x p => { p with jointAccelerationRel := x },
    doubleSlot 3 jointJerkRel fun x p => { p with jointJerkRel := x },
    doubleSlot 4 blendingRel fun x p => { p with blendingRel := x } ]

theorem slots_lawful : ∀ s ∈ slots, s.Lawful {} := by
  simp only [slots, List.forall_mem_cons]
  refine ⟨?_, ?_, ?_, ?_, by simp⟩
  all_goals exact ⟨by decide, by decide, rfl, fun _ => rfl⟩

theorem slots_apart : slots.Pairwise Slot.Apart := by
  simp only [slots, List.pairwise_cons, List.forall_mem_cons, List.not_mem_nil, false_implies, implies_true,
    List.Pairwise.nil, and_true]
  refine ⟨⟨?_, ?_, ?_⟩, ⟨?_, ?_⟩, ?_⟩
  all_goals exact ⟨by decide, fun _ _ => rfl⟩

def record : Record JointParameter := ⟨{}, slots, slots_lawful, slots_apart, fun _ => rfl⟩

end JointParameter

namespace FilterParameter

def slots : List (Slot FilterParameter) :=
  [ doubleSlot 1 stepSize fun x p => { p with stepSize := x },
    doubleSlot 2 friction fun x p => { p with friction := x },
    doubleSlot 3 epsilon fun x p => { p with epsilon := x } ]

theorem slots_lawful : ∀ s ∈ slots, s.Lawful {} := by
  simp only [slots, List.forall_mem_cons]
  refine ⟨?_, ?_, ?_, by simp⟩
  all_goals exact ⟨by decide, by decide, rfl, fun _ => rfl⟩

theorem slots_apart : slots.Pairwise Slot.Apart := by
  simp only [slots, List.pairwise_cons, List.forall_mem_cons, List.not_mem_nil, false_implies, implies_true,
    List.Pairwise.nil, and_true]
  refine ⟨⟨?_, ?_⟩, ?_⟩
  all_goals exact ⟨by decide, fun _ _ => rfl⟩

def record : Record FilterParameter := ⟨{}, slots, slots_lawful, slots_apart, fun _ => rfl⟩

end FilterParameter

namespace Movement

def slots : List (Slot Movement) :=
  [ ⟨1, MovementType, moveTypeCodec, moveType, fun t m => { m with moveType := t }⟩,
    messageSlot 2 JointPosition.record jointPositions fun p m => { m with jointPositions := p },
    messageSlot 3 CartesianPosition.record cartesianPosition fun p m => { m with cartesianPosition := p },
    messageSlot 4 CartesianParameter.record cartesianParameter fun p m => { m with cartesianParameter := p },
    messageSlot 5 JointParameter.record jointParameter fun p m => { m with jointParameter := p },
    messageSlot 6 FilterParameter.record filterParameter fun p m => { m with filterParameter := p } ]

theorem slots_lawful : ∀ s ∈ slots, s.Lawful {} := by
  simp only [slots, List.forall_mem_cons]
  refine ⟨?_, ?_, ?_, ?_, ?_, ?_, by simp⟩
  all_goals exact ⟨by decide, by decide, rfl, fun _ => rfl⟩

theorem slots_apart : slots.Pairwise Slot.Apart := by
  simp only [slots, List.pairwise_cons, List.forall_mem_cons, List.not_mem_nil, false_implies, implies_true,
    List.Pairwise.nil, and_true]
  refine ⟨⟨?_, ?_, ?_, ?_, ?_⟩, ⟨?_, ?_, ?_, ?_⟩, ⟨?_, ?_, ?_⟩, ⟨?_, ?_⟩, ?_⟩
  all_goals exact ⟨by decide, fun _ _ => rfl⟩

def record : Record Movement := ⟨{}, slots, slots_lawful, slots_apart, fun _ => rfl⟩

end Movement

namespace Movement

/-- The bytes that are written into a storage of their length, which holds zeros. Beyond `INT_MAX` bytes the library
    refuses to write. -/
def serializeToArray (m : Movement) : List UInt8 :=
  if (record.serialize m).length ≤ 2147483647 then record.serialize m
  else List.replicate (record.serialize m).length 0

def parseFromArray (bytes : List UInt8) : Option Movement :=
  if (record.mergeFrom {} bytes).2 then some (record.mergeFrom {} bytes).1 else none

theorem parse_serialize {m : Movement} (bounded : (record.serialize m).length ≤ 2147483647) :
    parseFromArray m.serializeToArray = some m := by
  have read : record.mergeFrom {} (record.serialize m) = (m, true) := Record.mergeFrom_serialize m (by omega)
  rw [serializeToArray, if_pos bounded, parseFromArray, read]
  rfl

end Movement

/-! ### Lengths -/

theorem length_double {x : Binary64} {v : Value} (written : writeDouble x = some v) : v.write.length < 9 := by
  obtain rfl := writeDouble_eq written
  exact Nat.lt_succ_of_le (length_littleEndian 8 _).le

theorem length_doubles {xs : List Binary64} {v : Value} (written : writeDoubles xs = some v) (few : xs.length ≤ 15) :
    v.write.length < 8 * xs.length + 2 := by
  obtain rfl := writeDoubles_eq written
  have length : (writeFixed64s (xs.map Binary.toBits)).length = 8 * xs.length := by
    rw [length_writeFixed64s, List.length_map]
  rw [length_len (by omega), length]
  omega

/-- A message that is short enough is as long as its fields and one byte for their length. -/
theorem length_message {β : Type} {r : Record β} {o : Option β} {v : Value} (written : r.writeMessage o = some v)
    {n : Nat} (short : n < 128) (bound : ∀ b, o = some b → (r.serialize b).length ≤ n) : v.write.length < n + 2 := by
  obtain ⟨b, found, rfl⟩ := Option.map_eq_some_iff.mp written
  have length := bound b found
  rw [length_len (by omega)]
  omega

theorem JointPosition.length_serialize (p : JointPosition) (few : p.joints.length ≤ 15) :
    (record.serialize p).length ≤ 8 * p.joints.length + 2 :=
  length_slots (k := 0) (by decide) (fun _ written => length_doubles written few) (Nat.le_refl 0)

theorem JointParameter.length_serialize (p : JointParameter) : (record.serialize p).length ≤ 36 := by
  apply length_slots_le (n := 9) (by decide)
  simp only [record, slots, List.forall_mem_cons, List.not_mem_nil, false_implies, implies_true, and_true]
  exact ⟨fun _ => length_double, fun _ => length_double, fun _ => length_double, fun _ => length_double⟩

theorem FilterParameter.length_serialize (p : FilterParameter) : (record.serialize p).length ≤ 27 := by
  apply length_slots_le (n := 9) (by decide)
  simp only [record, slots, List.forall_mem_cons, List.not_mem_nil, false_implies, implies_true, and_true]
  exact ⟨fun _ => length_double, fun _ => length_double, fun _ => length_double⟩

end MaxNet
