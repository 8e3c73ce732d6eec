import MaxNet.Lib.Wire

/-! Messages that are described by a table of their fields. -/

namespace Wire

/-- How the values of a field are written, the default as no field at all, and how a value that was read is merged
    into the one that is there. A value that is written is plain and is read back where nothing is there yet. -/
structure Codec (β : Type) where
  empty : β
  write : β → Option Value
  merge : β → Value → β × Bool
  unwritten : ∀ {b}, write b = none → b = empty
  plain : ∀ {b v}, write b = some v → (∃ bytes, v = .len bytes) ∨ v.Fits
  merged : ∀ {b v}, write b = some v → v.Fits → merge empty v = (b, true)

structure Slot (α : Type) where
  number : Nat
  Kind : Type
  codec : Codec Kind
  get : α → Kind
  set : Kind → α → α

namespace Slot

variable {α : Type}

def field? (a : α) (s : Slot α) : Option Field := (s.codec.write (s.get a)).map (⟨s.number, ·⟩)

def copy (a : α) (d : α) (s : Slot α) : α := s.set (s.get a) d

def merge (s : Slot α) (d : α) (v : Value) : α × Bool :=
  (s.set (s.codec.merge (s.get d) v).1 d, (s.codec.merge (s.get d) v).2)

structure Apart (s t : Slot α) : Prop where
  number : s.number ≠ t.number
  get_set : ∀ b a, t.get (s.set b a) = t.get a

structure Lawful (start : α) (s : Slot α) : Prop where
  positive : 0 < s.number
  small : s.number < 2 ^ 29
  empty : s.get start = s.codec.empty
  set_get : ∀ a, s.set (s.get a) a = a

theorem field?_eq_some {a : α} {s : Slot α} {f : Field} (written : s.field? a = some f) :
    s.codec.write (s.get a) = some f.value ∧ f.number = s.number := by
  obtain ⟨v, write, rfl⟩ := Option.map_eq_some_iff.mp written
  exact ⟨write, rfl⟩

theorem merge_written {a d : α} {s : Slot α} {f : Field} (absent : s.get d = s.codec.empty)
    (written : s.field? a = some f) (fits : f.value.Fits) : s.merge d f.value = (s.copy a d, true) := by
  have back := s.codec.merged (field?_eq_some written).1 fits
  rw [merge, absent, back]
  rfl

theorem copy_unwritten {start a d : α} {s : Slot α} (lawful : s.Lawful start) (absent : s.get d = s.codec.empty)
    (unwritten : s.field? a = none) : s.copy a d = d := by
  have empty : s.get a = s.codec.empty := s.codec.unwritten (Option.map_eq_none_iff.mp unwritten)
  have same : s.get a = s.get d := by rw [empty, absent]
  rw [copy, same]
  exact lawful.set_get d

end Slot

structure Record (α : Type) where
  start : α
  slots : List (Slot α)
  lawful : ∀ s ∈ slots, s.Lawful start
  apart : slots.Pairwise Slot.Apart
  copied : ∀ a, slots.foldl (Slot.copy a) start = a

namespace Record

variable {α : Type} (r : Record α)

def fields (a : α) : List Field := r.slots.filterMap (Slot.field? a)

def merge (d : α) (f : Field) : α × Bool :=
  match r.slots.find? (fun s => s.number == f.number) with
  | some s => s.merge d f.value
  | none => (d, true)

def serialize (a : α) : List UInt8 := writeFields (r.fields a)

def mergeFrom (d : α) (bytes : List UInt8) : α × Bool := parseInto r.merge d bytes

variable {r}

theorem fields_plain (a : α) : ∀ f ∈ r.fields a, f.Plain := by
  intro f member
  obtain ⟨s, slot, written⟩ := List.mem_filterMap.mp member
  obtain ⟨write, number⟩ := Slot.field?_eq_some written
  have lawful := r.lawful s slot
  exact ⟨number ▸ lawful.positive, number ▸ lawful.small, s.codec.plain write⟩

theorem find_slot {slots : List (Slot α)} (apart : slots.Pairwise Slot.Apart) {s : Slot α} (member : s ∈ slots) :
    slots.find? (fun t => t.number == s.number) = some s := by
  induction slots with
  | nil => cases member
  | cons t slots ih =>
    obtain ⟨head, tail⟩ := List.pairwise_cons.mp apart
    rcases List.mem_cons.mp member with rfl | later
    · simp
    · have other : (t.number == s.number) = false := beq_false_of_ne (head s later).number
      rw [List.find?_cons_of_neg (by simp [other])]
      exact ih tail later

theorem merge_slot {d : α} {s : Slot α} {f : Field} (member : s ∈ r.slots) (number : f.number = s.number) :
    r.merge d f = s.merge d f.value := by
  rw [merge, number, find_slot r.apart member]

/-- What the remaining slots have written is read into a message in which they are still empty. -/
theorem mergeFields_rest {a d : α} (rest : List (Slot α)) (part : ∀ s ∈ rest, s ∈ r.slots)
    (apart : rest.Pairwise Slot.Apart) (absent : ∀ s ∈ rest, s.get d = s.codec.empty)
    (fits : ∀ f ∈ rest.filterMap (Slot.field? a), f.value.Fits) :
    mergeFields r.merge d (rest.filterMap (Slot.field? a)) = (rest.foldl (Slot.copy a) d, true) := by
  induction rest generalizing d with
  | nil => rfl
  | cons s rest ih =>
    obtain ⟨head, tail⟩ := List.pairwise_cons.mp apart
    have slot := part s List.mem_cons_self
    have none := absent s List.mem_cons_self
    have others : ∀ t ∈ rest, t ∈ r.slots := fun t member => part t (List.mem_cons_of_mem s member)
    have kept : ∀ t ∈ rest, t.get (s.copy a d) = t.codec.empty := by
      intro t member
      rw [Slot.copy, (head t member).get_set]
      exact absent t (List.mem_cons_of_mem s member)
    cases written : s.field? a with
    | none =>
      rw [List.filterMap_cons_none written] at fits ⊢
      have same := Slot.copy_unwritten (r.lawful s slot) none written
      rw [same] at kept
      rw [List.foldl_cons, same]
      exact ih others tail kept fits
    | some f =>
      rw [List.filterMap_cons_some written] at fits ⊢
      have read : r.merge d f = (s.copy a d, true) := by
        rw [merge_slot slot (Slot.field?_eq_some written).2]
        exact Slot.merge_written none written (fits f List.mem_cons_self)
      rw [mergeFields, read, List.foldl_cons]
      exact ih others tail kept fun g member => fits g (List.mem_cons_of_mem f member)

/-- A message is read back from its bytes. -/
theorem mergeFrom_serialize (a : α) (short : (r.serialize a).length < 2 ^ 64) :
    r.mergeFrom r.start (r.serialize a) = (a, true) := by
  have sound := sound_of_short short (fields_plain a)
  have read := mergeFields_rest (r := r) (a := a) r.slots (fun _ member => member) r.apart
    (fun s member => (r.lawful s member).empty) fun f member => (sound f member).fits
  rw [mergeFrom, serialize, parseInto_writeFields r.merge r.start _ sound]
  rw [fields, read, r.copied]

variable (r)

/-! A message as a field of another one. -/

def writeMessage (o : Option α) : Option Value := o.map fun a => .len (r.serialize a)

def mergeMessage (o : Option α) : Value → Option α × Bool
  | .len bytes => (some (r.mergeFrom (o.getD r.start) bytes).1, (r.mergeFrom (o.getD r.start) bytes).2)
  | _ => (o, true)

variable {r}

theorem eq_none_of_unwritten {o : Option α} (unwritten : r.writeMessage o = none) : o = none :=
  Option.map_eq_none_iff.mp unwritten

theorem writeMessage_plain {o : Option α} {v : Value} (written : r.writeMessage o = some v) :
    (∃ bytes, v = .len bytes) ∨ v.Fits := by
  obtain ⟨a, -, rfl⟩ := Option.map_eq_some_iff.mp written
  exact Or.inl ⟨_, rfl⟩

theorem mergeMessage_written {o : Option α} {v : Value} (written : r.writeMessage o = some v) (fits : v.Fits) :
    r.mergeMessage none v = (o, true) := by
  obtain ⟨a, rfl, rfl⟩ := Option.map_eq_some_iff.mp written
  have read := mergeFrom_serialize (r := r) a fits
  simp only [mergeMessage, Option.getD_none, read]

variable (r)

def message : Codec (Option α) :=
  ⟨none, r.writeMessage, r.mergeMessage, eq_none_of_unwritten, writeMessage_plain, mergeMessage_written⟩

end Record

/-! ### Lengths -/

theorem length_varint {n : Nat} (small : n < 128) : (varint n).length = 1 := by
  rw [varint, writeVarint, if_pos small]
  rfl

theorem length_len {bytes : List UInt8} (small : bytes.length < 128) : (Value.len bytes).write.length = bytes.length + 1 := by
  rw [Value.write, List.length_append, length_varint small, Nat.add_comm]

theorem length_writeField {f : Field} (small : f.number < 16) : (writeField f).length = f.value.write.length + 1 := by
  have type := wireType_lt f.value
  rw [writeField, List.length_append, length_varint (by omega), Nat.add_comm]

/-- What a table of fields writes is as long as what its first field writes, and the others. -/
theorem length_slots {α : Type} {a : α} {s : Slot α} {slots : List (Slot α)} {n k : Nat} (small : s.number < 16)
    (first : ∀ v, s.codec.write (s.get a) = some v → v.write.length < n)
    (others : (writeFields (slots.filterMap (Slot.field? a))).length ≤ k) :
    (writeFields ((s :: slots).filterMap (Slot.field? a))).length ≤ n + k := by
  cases written : s.field? a with
  | none =>
    rw [List.filterMap_cons_none written]
    omega
  | some f =>
    obtain ⟨write, number⟩ := Slot.field?_eq_some written
    have length := length_writeField (f := f) (number ▸ small)
    have value := first f.value write
    rw [List.filterMap_cons_some written, writeFields, List.flatMap_cons, List.length_append, length]
    exact Nat.add_le_add value others

theorem length_slots_le {α : Type} {a : α} {slots : List (Slot α)} {n : Nat} (small : ∀ s ∈ slots, s.number < 16)
    (bound : ∀ s ∈ slots, ∀ v, s.codec.write (s.get a) = some v → v.write.length < n) :
    (writeFields (slots.filterMap (Slot.field? a))).length ≤ n * slots.length := by
  induction slots with
  | nil => exact Nat.zero_le _
  | cons s slots ih =>
    have rest := ih (fun t member => small t (List.mem_cons_of_mem s member))
      fun t member => bound t (List.mem_cons_of_mem s member)
    have whole := length_slots (small s List.mem_cons_self) (bound s List.mem_cons_self) rest
    rwa [List.length_cons, Nat.mul_succ, Nat.add_comm]

end Wire
