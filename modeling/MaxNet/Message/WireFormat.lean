import MaxNet.Lib.Wire
import MaxNet.Message.GenericMax

/-! The encoding of `generic_max.proto`. -/

namespace MaxNet

open Wire

def zigzag (v : Int32) : Nat :=
  if 0 ≤ v.toInt then (2 * v.toInt).toNat else (-2 * v.toInt - 1).toNat

def unzigzag (n : Nat) : Int32 :=
  .ofInt (if n % 2 = 0 then ((n / 2 : Nat) : Int) else -((n / 2 : Nat) : Int) - 1)

def int64Bits (v : Int64) : Nat := v.toUInt64.toNat

def int64OfBits (n : Nat) : Int64 := (UInt64.ofNat n).toInt64

def utf8Bytes (s : String) : List UInt8 := s.toByteArray.data.toList

def utf8OfBytes (bytes : List UInt8) : Option String := String.fromUTF8? ⟨bytes.toArray⟩

def packedValues (packed : List UInt8) : List Field := if packed = [] then [] else [⟨1, .len packed⟩]

namespace AtomData

def fields : AtomData → List Field
  | unset => []
  | int v => [⟨2, .varint (zigzag v)⟩]
  | float x => [⟨3, .fixed32 x.toBits⟩]
  | string s => [⟨4, .len (utf8Bytes s)⟩]
  | intArray vs => [⟨5, .len (writeFields (packedValues (writePacked (vs.map int64Bits))))⟩]
  | floatArray xs => [⟨6, .len (writeFields (packedValues (writeFixed32s (xs.map Binary.toBits))))⟩]

end AtomData

namespace AtomT

def fields (a : AtomT) : List Field :=
  (if a.type = .long then [] else [⟨1, .varint (int64Bits a.type.number.toInt64)⟩]) ++ a.data.fields

def mergeInts (vs : List Int64) (f : Field) : List Int64 × Bool :=
  match f.number, f.value with
  | 1, .len bytes =>
    match readPacked bytes with
    | some ns => (vs ++ ns.map int64OfBits, true)
    | none => (vs, false)
  | 1, .varint n => (vs ++ [int64OfBits n], true)
  | _, _ => (vs, true)

def mergeFloats (xs : List Binary32) (f : Field) : List Binary32 × Bool :=
  match f.number, f.value with
  | 1, .len bytes =>
    match readFixed32s bytes with
    | some ns => (xs ++ ns.map (Binary.ofBits .binary32), true)
    | none => (xs, false)
  | 1, .fixed32 n => (xs ++ [Binary.ofBits .binary32 n], true)
  | _, _ => (xs, true)

def merge (a : AtomT) (f : Field) : AtomT × Bool :=
  match f.number, f.value with
  | 1, .varint n => ({ a with type := ⟨(int64OfBits n).toInt32⟩ }, true)
  | 2, .varint n => ({ a with data := .int (unzigzag (n % 2 ^ 32)) }, true)
  | 3, .fixed32 n => ({ a with data := .float (Binary.ofBits .binary32 n) }, true)
  | 4, .len bytes =>
    match utf8OfBytes bytes with
    | some s => ({ a with data := .string s }, true)
    | none => (a, false)
  | 5, .len bytes =>
    let (vs, parsed) := parseInto mergeInts a.intArray bytes
    ({ a with data := .intArray vs }, parsed)
  | 6, .len bytes =>
    let (xs, parsed) := parseInto mergeFloats a.floatArray bytes
    ({ a with data := .floatArray xs }, parsed)
  | _, _ => (a, true)

end AtomT

namespace GenericMax

def fields (m : GenericMax) : List Field := m.atom.map fun a => ⟨1, .len (writeFields a.fields)⟩

def merge (m : GenericMax) (f : Field) : GenericMax × Bool :=
  match f.number, f.value with
  | 1, .len bytes =>
    let (a, parsed) := parseInto AtomT.merge {} bytes
    ({ atom := m.atom ++ [a] }, parsed)
  | _, _ => (m, true)

end GenericMax

def wireFormat : Protobuf where
  serializeToString m :=
    if (writeFields m.fields).length ≤ 2147483647 then some (writeFields m.fields) else none
  parsePartialFromArray bytes size :=
    if size < 0 then (false, {})
    else
      let (m, parsed) := parseInto GenericMax.merge {} (bytes.take size.toNat)
      (parsed, m)

theorem zigzag_lt (v : Int32) : zigzag v < 2 ^ 32 := by
  have low := v.le_toInt
  have high := v.toInt_lt
  unfold zigzag
  split <;> omega

theorem unzigzag_zigzag (v : Int32) : unzigzag (zigzag v) = v := by
  have value : (if zigzag v % 2 = 0 then ((zigzag v / 2 : Nat) : Int) else -((zigzag v / 2 : Nat) : Int) - 1) =
      v.toInt := by
    unfold zigzag
    split <;> split <;> omega
  unfold unzigzag
  rw [value, Int32.ofInt_toInt]

theorem int64Bits_lt (v : Int64) : int64Bits v < 2 ^ 64 := v.toUInt64.toNat_lt

theorem int64OfBits_int64Bits (v : Int64) : int64OfBits (int64Bits v) = v := by
  simp [int64OfBits, int64Bits]

theorem binary32_toBits_lt (x : Binary32) : x.toBits < 2 ^ 32 := x.toBits_lt

theorem utf8OfBytes_utf8Bytes (s : String) : utf8OfBytes (utf8Bytes s) = some s := by
  have bytes : (⟨(utf8Bytes s).toArray⟩ : ByteArray) = s.toByteArray := rfl
  have valid := s.isValidUTF8
  simp only [utf8OfBytes, bytes, String.fromUTF8?, dif_pos valid]
  rfl

theorem readPacked_ints (vs : List Int64) :
    readPacked (writePacked (vs.map int64Bits)) = some (vs.map int64Bits) := by
  apply readPacked_writePacked
  intro n member
  obtain ⟨v, -, rfl⟩ := List.mem_map.mp member
  have bound := int64Bits_lt v
  omega

theorem readFixed32s_floats (xs : List Binary32) :
    readFixed32s (writeFixed32s (xs.map Binary.toBits)) = some (xs.map Binary.toBits) := by
  apply readFixed32s_writeFixed32s
  intro n member
  obtain ⟨x, -, rfl⟩ := List.mem_map.mp member
  exact binary32_toBits_lt x

theorem packedValues_plain {packed : List UInt8} : ∀ f ∈ packedValues packed, f.Plain := by
  intro f member
  unfold packedValues at member
  split at member
  · cases member
  · obtain rfl := List.mem_singleton.mp member
    exact Field.plain_len packed (by decide) (by decide)

theorem parseInto_packedValues {β : Type} {merge : List β → Field → List β × Bool} {packed : List UInt8}
    {values : List β} (short : (writeFields (packedValues packed)).length < 2 ^ 64)
    (empty : packed = [] → values = []) (merged : merge [] ⟨1, .len packed⟩ = (values, true)) :
    parseInto merge [] (writeFields (packedValues packed)) = (values, true) := by
  rw [parseInto_writeFields merge [] _ (sound_of_short short packedValues_plain)]
  unfold packedValues
  split
  · rename_i nothing
    rw [empty nothing]
    rfl
  · simp only [mergeFields, merged, if_true]

theorem AtomData.fields_plain (d : AtomData) : ∀ f ∈ d.fields, f.Plain := by
  intro f member
  cases d with
  | unset => cases member
  | int v =>
    obtain rfl := List.mem_singleton.mp member
    have bound := zigzag_lt v
    exact ⟨Nat.two_pos, show 2 < 2 ^ 29 by decide, Or.inr (show zigzag v < 2 ^ 64 by omega)⟩
  | float x =>
    obtain rfl := List.mem_singleton.mp member
    exact ⟨show 0 < 3 by decide, show 3 < 2 ^ 29 by decide, Or.inr (binary32_toBits_lt x)⟩
  | string s =>
    obtain rfl := List.mem_singleton.mp member
    exact Field.plain_len _ (by decide) (by decide)
  | intArray vs =>
    obtain rfl := List.mem_singleton.mp member
    exact Field.plain_len _ (by decide) (by decide)
  | floatArray xs =>
    obtain rfl := List.mem_singleton.mp member
    exact Field.plain_len _ (by decide) (by decide)

namespace AtomT

theorem mergeInts_packed (vs : List Int64) :
    mergeInts [] ⟨1, .len (writePacked (vs.map int64Bits))⟩ = (vs, true) := by
  have values : (vs.map int64Bits).map int64OfBits = vs := by
    simp [Function.comp_def, int64OfBits_int64Bits]
  simp only [mergeInts, readPacked_ints, List.nil_append, values]

theorem mergeFloats_packed (xs : List Binary32) :
    mergeFloats [] ⟨1, .len (writeFixed32s (xs.map Binary.toBits))⟩ = (xs, true) := by
  have values : (xs.map Binary.toBits).map (Binary.ofBits .binary32) = xs := by
    simp [Function.comp_def, Binary.ofBits_toBits]
  simp only [mergeFloats, readFixed32s_floats, List.nil_append, values]

theorem fields_plain (a : AtomT) : ∀ f ∈ a.fields, f.Plain := by
  intro f member
  rcases List.mem_append.mp member with typed | carried
  · split at typed
    · cases typed
    · obtain rfl := List.mem_singleton.mp typed
      exact ⟨Nat.one_pos, show 1 < 2 ^ 29 by decide, Or.inr (int64Bits_lt _)⟩
  · exact a.data.fields_plain f carried

theorem mergeFields_data (a : AtomT) (short : (writeFields a.fields).length < 2 ^ 64) :
    mergeFields merge { type := a.type } a.data.fields = (a, true) := by
  rcases a with ⟨type, data⟩
  have inside {number : Nat} {bytes : List UInt8} (carried : (⟨number, .len bytes⟩ : Field) ∈ data.fields) :
      bytes.length < 2 ^ 64 := by
    have member : (⟨number, .len bytes⟩ : Field) ∈ fields ⟨type, data⟩ := List.mem_append_right _ carried
    have length := length_le_of_mem member
    omega
  cases data with
  | unset => rfl
  | int v =>
    have bound := zigzag_lt v
    simp only [AtomData.fields, mergeFields, merge, Nat.mod_eq_of_lt bound, unzigzag_zigzag, if_true]
  | float x => simp only [AtomData.fields, mergeFields, merge, Binary.ofBits_toBits, if_true]
  | string s => simp only [AtomData.fields, mergeFields, merge, utf8OfBytes_utf8Bytes, if_true]
  | intArray vs =>
    have parsed := parseInto_packedValues (inside (List.mem_singleton_self _))
      (fun empty => List.map_eq_nil_iff.mp (eq_nil_of_writePacked empty)) (mergeInts_packed vs)
    simp only [AtomData.fields, mergeFields, merge, intArray, parsed, if_true]
  | floatArray xs =>
    have parsed := parseInto_packedValues (inside (List.mem_singleton_self _))
      (fun empty => List.map_eq_nil_iff.mp (eq_nil_of_writeFixed32s empty)) (mergeFloats_packed xs)
    simp only [AtomData.fields, mergeFields, merge, floatArray, parsed, if_true]

theorem mergeFields_fields (a : AtomT) (short : (writeFields a.fields).length < 2 ^ 64) :
    mergeFields merge {} a.fields = (a, true) := by
  have data := mergeFields_data a short
  by_cases long : a.type = .long
  · rw [long] at data
    simp only [fields, if_pos long, List.nil_append]
    exact data
  · have type : (⟨(int64OfBits (int64Bits a.type.number.toInt64)).toInt32⟩ : AtomType) = a.type := by
      rw [int64OfBits_int64Bits, Int32.toInt32_toInt64]
    simp only [fields, if_neg long, List.singleton_append, mergeFields, merge, type, if_true]
    exact data

end AtomT

namespace GenericMax

theorem fields_plain (m : GenericMax) : ∀ f ∈ m.fields, f.Plain := by
  intro f member
  obtain ⟨a, -, rfl⟩ := List.mem_map.mp member
  exact Field.plain_len _ (by decide) (by decide)

theorem mergeFields_atoms (atoms : List AtomT) (m : GenericMax)
    (short : ∀ a ∈ atoms, (writeFields a.fields).length < 2 ^ 64) :
    mergeFields merge m (fields ⟨atoms⟩) = (⟨m.atom ++ atoms⟩, true) := by
  induction atoms generalizing m with
  | nil => simp [fields, mergeFields]
  | cons a atoms ih =>
    have head := short a (List.mem_cons_self ..)
    have parsed : parseInto AtomT.merge {} (writeFields a.fields) = (a, true) := by
      rw [parseInto_writeFields _ _ _ (sound_of_short head a.fields_plain), AtomT.mergeFields_fields a head]
    have rest := ih ⟨m.atom ++ [a]⟩ fun b member => short b (List.mem_cons_of_mem a member)
    simp only [fields, List.map_cons, mergeFields, merge, parsed, if_true] at rest ⊢
    rw [rest, List.append_assoc, List.singleton_append]

end GenericMax

theorem wireFormat_lawful : wireFormat.Lawful where
  bounded := by
    intro m bytes written
    simp only [wireFormat] at written
    split at written
    · obtain rfl := Option.some.inj written
      assumption
    · cases written
  parse_serialize := by
    intro m bytes written
    simp only [wireFormat] at written
    split at written
    · rename_i bounded
      obtain rfl := Option.some.inj written
      have short : (writeFields m.fields).length < 2 ^ 64 := by omega
      have inside : ∀ a ∈ m.atom, (writeFields a.fields).length < 2 ^ 64 := by
        intro a member
        have carried : (⟨1, .len (writeFields a.fields)⟩ : Field) ∈ m.fields := List.mem_map.mpr ⟨a, member, rfl⟩
        have length := length_le_of_mem carried
        omega
      have merged := GenericMax.mergeFields_atoms m.atom {} inside
      have parsed : parseInto GenericMax.merge {} (writeFields m.fields) = (m, true) := by
        rw [parseInto_writeFields _ _ _ (sound_of_short short m.fields_plain), merged]
        rfl
      simp only [wireFormat, Int.toNat_natCast, List.take_length, parsed]
      rw [if_neg (by omega)]
    · cases written

end MaxNet
