import MaxNet.Message.GenericMax

namespace MaxNet

inductive Atom
  | long (n : Int64)
  | float (x : Binary64)
  | sym (s : String)
  | other (type : Nat)
  deriving DecidableEq

inductive ArrayType
  | long
  | float
  | other
  deriving DecidableEq

structure AtomConversions where
  toLong : Atom → Int64
  toFloat : Atom → Binary32
  toString : Atom → String

structure AtomConversions.Lawful (c : AtomConversions) : Prop where
  toLong_long : ∀ n, c.toLong (.long n) = n
  toFloat_float : ∀ x, c.toFloat (.float x) = x.convert .binary32
  toString_sym : ∀ s, c.toString (.sym s) = s

def ownConversions : AtomConversions where
  toLong
    | .long n => n
    | _ => 0
  toFloat
    | .float x => x.convert .binary32
    | _ => .finite false 0 (-149) (BinaryFormat.canonical_zero .binary32)
  toString
    | .sym s => s
    | _ => ""

theorem ownConversions_lawful : ownConversions.Lawful := ⟨fun _ => rfl, fun _ => rfl, fun _ => rfl⟩

structure MaxMessage where
  mess : GenericMax := {}
  data : List UInt8 := []
  deriving DecidableEq

namespace MaxMessage

def addAtom (a : AtomT) (msg : MaxMessage) : MaxMessage :=
  { msg with mess := { atom := msg.mess.atom ++ [a] } }

def pushAtom (c : AtomConversions) (atomIn : Atom) (msg : MaxMessage) : MaxMessage :=
  match atomIn with
  | .long _ => msg.addAtom { type := .long, data := .int (c.toLong atomIn).toInt32 }
  | .float _ => msg.addAtom { type := .float, data := .float (c.toFloat atomIn) }
  | .sym _ => msg.addAtom { type := .symbol, data := .string (c.toString atomIn) }
  | .other _ => msg.addAtom {}

def pushAtoms (c : AtomConversions) (atms : List Atom) (msg : MaxMessage) : MaxMessage :=
  atms.foldl (fun msg atm => msg.pushAtom c atm) msg

def pushAtomarray (c : AtomConversions) (atms : List Atom) (type : ArrayType) (msg : MaxMessage) :
    Option MaxMessage :=
  match type with
  | .long => some (msg.addAtom { type := .arrLong, data := .intArray (atms.map c.toLong) })
  | .float => some (msg.addAtom { type := .arrFloat, data := .floatArray (atms.map c.toFloat) })
  | .other => none

def atomsOf (a : AtomT) : List Atom :=
  if a.type = .long then [.long a.int.toInt64]
  else if a.type = .float then [.float (a.float.convert .binary64)]
  else if a.type = .symbol then [.sym a.string]
  else if a.type = .arrLong then a.intArray.map .long
  else if a.type = .arrFloat then a.floatArray.map fun x => .float (x.convert .binary64)
  else []

def getAtoms (msg : MaxMessage) : List Atom :=
  msg.mess.atom.foldl (fun outAtoms a => outAtoms ++ atomsOf a) []

def serialize (p : Protobuf) (msg : MaxMessage) : Bool × MaxMessage :=
  match p.serializeToString msg.mess with
  | some bytes => (true, { msg with data := bytes })
  | none => (false, { msg with data := [] })

def intSize (msg : MaxMessage) : Int := Int.bmod msg.data.length (2 ^ 32)

def deserialize (p : Protobuf) (msg : MaxMessage) : Bool × MaxMessage :=
  let (parsed, mess) := p.parsePartialFromArray msg.data msg.intSize
  (parsed, { msg with mess })

def tryDeserialize {X : Type} (parser : Parser X) (msg : MaxMessage) : Except X Bool × MaxMessage :=
  let (parsed, mess) := parser msg.data msg.intSize
  (parsed, { msg with mess })

def fromConstBuffers (buffers : List (List UInt8)) (text : Bool) (msg : MaxMessage) : MaxMessage :=
  { msg with data := MaxNet.fromConstBuffers buffers msg.data text }

@[simp] theorem addAtom_atom (a : AtomT) (msg : MaxMessage) :
    (msg.addAtom a).mess.atom = msg.mess.atom ++ [a] := rfl

theorem getAtoms_eq_flatMap (msg : MaxMessage) : msg.getAtoms = msg.mess.atom.flatMap atomsOf := by
  have general : ∀ (atoms : List AtomT) (out : List Atom),
      atoms.foldl (fun outAtoms a => outAtoms ++ atomsOf a) out = out ++ atoms.flatMap atomsOf := by
    intro atoms
    induction atoms with
    | nil => simp
    | cons a atoms ih =>
      intro out
      rw [List.foldl_cons, ih, List.flatMap_cons, List.append_assoc]
  rw [getAtoms, general, List.nil_append]

theorem getAtoms_addAtom (a : AtomT) (msg : MaxMessage) :
    (msg.addAtom a).getAtoms = msg.getAtoms ++ atomsOf a := by
  simp [getAtoms_eq_flatMap]

theorem intSize_of_bounded (msg : MaxMessage) (bounded : msg.data.length ≤ 2147483647) :
    msg.intSize = msg.data.length := by
  unfold intSize
  apply Int.bmod_eq_of_le <;> omega

/-- A message that is serialized, taken apart into buffers and put together again is the same. -/
theorem deserialize_fromConstBuffers {p : Protobuf} (lawful : p.Lawful) {msg sent : MaxMessage}
    (serialized : msg.serialize p = (true, sent)) {buffers : List (List UInt8)}
    (split : buffers.flatten = sent.data) :
    (({} : MaxMessage).fromConstBuffers buffers false).deserialize p =
      (true, { mess := msg.mess, data := sent.data }) := by
  have collected : ({} : MaxMessage).fromConstBuffers buffers false = { data := sent.data } := by
    simp only [fromConstBuffers, fromConstBuffers_binary, List.nil_append, split]
  unfold serialize at serialized
  split at serialized
  · rename_i bytes written
    obtain rfl := (Prod.mk.inj serialized).2
    have size := intSize_of_bounded { data := bytes } (lawful.bounded msg.mess bytes written)
    simp only [collected, deserialize, size, lawful.parse_serialize msg.mess bytes written]
  · cases serialized

end MaxMessage

structure MaxMessageAllocator where
  allocMsgCount : UInt64 := 0
  deriving DecidableEq

namespace MaxMessageAllocator

def allocate (a : MaxMessageAllocator) : MaxMessage × MaxMessageAllocator :=
  ({}, { a with allocMsgCount := a.allocMsgCount + 1 })

def deallocate (a : MaxMessageAllocator) : MaxMessageAllocator := { a with allocMsgCount := a.allocMsgCount - 1 }

def destroy (a : MaxMessageAllocator) : Option Unit := if a.allocMsgCount = 0 then some () else none

def allocateAll {M : Type} (messages : List M) (a : MaxMessageAllocator) : MaxMessageAllocator :=
  messages.foldl (fun a _ => a.allocate.2) a

def deallocateAll {M : Type} (messages : List M) (a : MaxMessageAllocator) : MaxMessageAllocator :=
  messages.foldl (fun a _ => a.deallocate) a

theorem deallocate_allocate (a : MaxMessageAllocator) : a.allocate.2.deallocate = a := by
  simp [allocate, deallocate]

theorem deallocate_deallocateAll {M : Type} (messages : List M) (a : MaxMessageAllocator) :
    a.deallocate.deallocateAll messages = (a.deallocateAll messages).deallocate := by
  induction messages generalizing a with
  | nil => rfl
  | cons m messages ih => exact ih a.deallocate

/-- The count is back where it was once as many messages are deallocated as were allocated. -/
theorem deallocateAll_allocateAll {M : Type} (messages freed : List M) (a : MaxMessageAllocator)
    (same : freed.length = messages.length) : (a.allocateAll messages).deallocateAll freed = a := by
  induction messages generalizing freed a with
  | nil =>
    obtain rfl := List.eq_nil_of_length_eq_zero same
    rfl
  | cons m messages ih =>
    cases freed with
    | nil => cases same
    | cons n freed =>
      have rest := ih freed a.allocate.2 (Nat.succ.inj same)
      calc
        (a.allocateAll (m :: messages)).deallocateAll (n :: freed)
          = ((a.allocate.2.allocateAll messages).deallocateAll freed).deallocate :=
            deallocate_deallocateAll freed (a.allocate.2.allocateAll messages)
        _ = a.allocate.2.deallocate := by rw [rest]
        _ = a := deallocate_allocate a

end MaxMessageAllocator

end MaxNet
