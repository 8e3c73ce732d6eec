import MaxNet.Lib.BinaryFloat
import MaxNet.Message.Base

namespace MaxNet

abbrev Binary32 := Binary .binary32

abbrev Binary64 := Binary .binary64

structure AtomType where
  number : Int32
  deriving DecidableEq

namespace AtomType

def long : AtomType := ⟨0⟩

def float : AtomType := ⟨1⟩

def symbol : AtomType := ⟨2⟩

def arrLong : AtomType := ⟨3⟩

def arrFloat : AtomType := ⟨4⟩

end AtomType

inductive AtomData
  | unset
  | int (v : Int32)
  | float (x : Binary32)
  | string (s : String)
  | intArray (vs : List Int64)
  | floatArray (xs : List Binary32)
  deriving DecidableEq

structure AtomT where
  type : AtomType := .long
  data : AtomData := .unset
  deriving DecidableEq

namespace AtomT

/-! The accessors of the fields of a `oneof` return a default while another field is set. -/

def int (a : AtomT) : Int32 :=
  match a.data with
  | .int v => v
  | _ => 0

def float (a : AtomT) : Binary32 :=
  match a.data with
  | .float x => x
  | _ => .finite false 0 (-149) (by decide)

def string (a : AtomT) : String :=
  match a.data with
  | .string s => s
  | _ => ""

def intArray (a : AtomT) : List Int64 :=
  match a.data with
  | .intArray vs => vs
  | _ => []

def floatArray (a : AtomT) : List Binary32 :=
  match a.data with
  | .floatArray xs => xs
  | _ => []

end AtomT

structure GenericMax where
  atom : List AtomT := []
  deriving DecidableEq

/-- The functions of the protobuf library that `proto_message_base` calls. A parse may leave entries in
    the message also where it fails. -/
structure Protobuf where
  serializeToString : GenericMax → Option (List UInt8)
  parsePartialFromArray : List UInt8 → Int → Bool × GenericMax

/-- Messages of more than `INT_MAX` bytes are not serialized, and parsing undoes serializing. -/
structure Protobuf.Lawful (p : Protobuf) : Prop where
  bounded : ∀ m bytes, p.serializeToString m = some bytes → bytes.length ≤ 2147483647
  parse_serialize : ∀ m bytes, p.serializeToString m = some bytes →
    p.parsePartialFromArray bytes bytes.length = (true, m)

abbrev Parser (X : Type) := List UInt8 → Int → Except X Bool × GenericMax

def Protobuf.parser (p : Protobuf) (X : Type) : Parser X := fun bytes size =>
  let (parsed, mess) := p.parsePartialFromArray bytes size
  (.ok parsed, mess)

end MaxNet
