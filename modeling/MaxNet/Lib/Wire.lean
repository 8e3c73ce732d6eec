import Mathlib.Algebra.Order.Ring.Nat
import Mathlib.Data.List.Basic
import Mathlib.Tactic.Ring

/-! Tagged fields as protocol buffers write them. -/

namespace Wire

def writeVarint : Nat → Nat → List UInt8
  | 0, n => [UInt8.ofNat n]
  | k + 1, n =>
    if n < 128 then [UInt8.ofNat n] else UInt8.ofNat (n % 128 + 128) :: writeVarint k (n / 128)

def readVarint : Nat → List UInt8 → Option (Nat × List UInt8)
  | 0, _ => none
  | _, [] => none
  | k + 1, b :: rest =>
    if b.toNat < 128 then some (b.toNat, rest)
    else (readVarint k rest).map fun (n, rest) => (b.toNat - 128 + 128 * n, rest)

def varint (n : Nat) : List UInt8 := writeVarint 9 n

def littleEndian : Nat → Nat → List UInt8
  | 0, _ => []
  | k + 1, n => UInt8.ofNat (n % 256) :: littleEndian k (n / 256)

def ofLittleEndian (bytes : List UInt8) : Nat := bytes.foldr (fun b n => b.toNat + 256 * n) 0

def readBytes (n : Nat) (bytes : List UInt8) : Option (List UInt8 × List UInt8) :=
  if n ≤ bytes.length then some (bytes.take n, bytes.drop n) else none

inductive Value
  | varint (n : Nat)
  | fixed64 (n : Nat)
  | len (bytes : List UInt8)
  | fixed32 (n : Nat)
  deriving DecidableEq

structure Field where
  number : Nat
  value : Value
  deriving DecidableEq

namespace Value

def wireType : Value → Nat
  | varint _ => 0
  | fixed64 _ => 1
  | len _ => 2
  | fixed32 _ => 5

def write : Value → List UInt8
  | varint n => Wire.varint n
  | fixed64 n => littleEndian 8 n
  | len bytes => Wire.varint bytes.length ++ bytes
  | fixed32 n => littleEndian 4 n

def read (wireType : Nat) (bytes : List UInt8) : Option (Value × List UInt8) :=
  match wireType with
  | 0 => (readVarint 10 bytes).map fun (n, rest) => (varint n, rest)
  | 1 => (readBytes 8 bytes).map fun (b, rest) => (fixed64 (ofLittleEndian b), rest)
  | 2 => (readVarint 10 bytes).bind fun (n, rest) => (readBytes n rest).map fun (b, rest) => (len b, rest)
  | 5 => (readBytes 4 bytes).map fun (b, rest) => (fixed32 (ofLittleEndian b), rest)
  | _ => none

def Fits : Value → Prop
  | varint n => n < 2 ^ 64
  | fixed64 n => n < 2 ^ 64
  | len bytes => bytes.length < 2 ^ 64
  | fixed32 n => n < 2 ^ 32

end Value

def writeField (f : Field) : List UInt8 := varint (f.number * 8 + f.value.wireType) ++ f.value.write

def readField (bytes : List UInt8) : Option (Field × List UInt8) :=
  (readVarint 10 bytes).bind fun (tag, rest) =>
    if tag / 8 = 0 then none
    else (Value.read (tag % 8) rest).map fun (value, rest) => (⟨tag / 8, value⟩, rest)

def writeFields (fs : List Field) : List UInt8 := fs.flatMap writeField

def readFieldsWith : Nat → List UInt8 → List Field × Bool
  | _, [] => ([], true)
  | 0, _ :: _ => ([], false)
  | k + 1, bytes =>
    match readField bytes with
    | none => ([], false)
    | some (f, rest) => (f :: (readFieldsWith k rest).1, (readFieldsWith k rest).2)

def readFields (bytes : List UInt8) : List Field × Bool := readFieldsWith bytes.length bytes

theorem toNat_ofNat {n : Nat} (small : n < 256) : (UInt8.ofNat n).toNat = n := by
  rw [UInt8.toNat_ofNat']
  omega

theorem readVarint_writeVarint (k n : Nat) (rest : List UInt8) (small : n < 128 ^ (k + 1)) :
    readVarint (k + 1) (writeVarint k n ++ rest) = some (n, rest) := by
  induction k generalizing n with
  | zero =>
    have byte : (UInt8.ofNat n).toNat = n := toNat_ofNat (by omega)
    simp only [writeVarint, List.singleton_append, readVarint, byte]
    rw [if_pos (by omega)]
  | succ k ih =>
    unfold writeVarint
    split
    · rename_i short
      have byte : (UInt8.ofNat n).toNat = n := toNat_ofNat (by omega)
      simp only [List.singleton_append, readVarint, byte, if_pos short]
    · have byte : (UInt8.ofNat (n % 128 + 128)).toNat = n % 128 + 128 := toNat_ofNat (by omega)
      have quotient : n / 128 < 128 ^ (k + 1) := by
        rw [Nat.pow_succ] at small
        omega
      simp only [List.cons_append, readVarint, byte]
      rw [if_neg (by omega), ih (n / 128) quotient, Option.map_some]
      congr 2
      omega

theorem readVarint_varint (n : Nat) (rest : List UInt8) (small : n < 2 ^ 70) :
    readVarint 10 (varint n ++ rest) = some (n, rest) :=
  readVarint_writeVarint 9 n rest (by norm_num; omega)

theorem length_littleEndian (k n : Nat) : (littleEndian k n).length = k := by
  induction k generalizing n with
  | zero => rfl
  | succ k ih => simp [littleEndian, ih]

theorem ofLittleEndian_littleEndian (k n : Nat) (small : n < 256 ^ k) :
    ofLittleEndian (littleEndian k n) = n := by
  induction k generalizing n with
  | zero =>
    have zero : n = 0 := by omega
    exact zero.symm
  | succ k ih =>
    have byte : (UInt8.ofNat (n % 256)).toNat = n % 256 := toNat_ofNat (by omega)
    have quotient : n / 256 < 256 ^ k := by
      rw [Nat.pow_succ] at small
      omega
    have rest : ofLittleEndian (littleEndian k (n / 256)) = n / 256 := ih (n / 256) quotient
    change (UInt8.ofNat (n % 256)).toNat + 256 * ofLittleEndian (littleEndian k (n / 256)) = n
    rw [byte, rest]
    omega

theorem readBytes_append (bytes rest : List UInt8) :
    readBytes bytes.length (bytes ++ rest) = some (bytes, rest) := by
  simp [readBytes]

theorem read_write (v : Value) (rest : List UInt8) (fits : v.Fits) :
    Value.read v.wireType (v.write ++ rest) = some (v, rest) := by
  have bound : (2 : Nat) ^ 64 < 2 ^ 70 := by decide
  cases v with
  | varint n =>
    change n < 2 ^ 64 at fits
    simp only [Value.read, Value.wireType, Value.write, readVarint_varint n rest (by omega), Option.map_some]
  | fixed64 n =>
    have length := readBytes_append (littleEndian 8 n) rest
    rw [length_littleEndian] at length
    have value := ofLittleEndian_littleEndian 8 n (by change n < 2 ^ 64 at fits; norm_num; omega)
    simp only [Value.read, Value.wireType, Value.write, length, Option.map_some, value]
  | len bytes =>
    change bytes.length < 2 ^ 64 at fits
    simp only [Value.read, Value.wireType, Value.write, List.append_assoc,
      readVarint_varint bytes.length (bytes ++ rest) (by omega), Option.bind_some, readBytes_append,
      Option.map_some]
  | fixed32 n =>
    have length := readBytes_append (littleEndian 4 n) rest
    rw [length_littleEndian] at length
    have value := ofLittleEndian_littleEndian 4 n (by change n < 2 ^ 32 at fits; norm_num; omega)
    simp only [Value.read, Value.wireType, Value.write, length, Option.map_some, value]

theorem wireType_lt (v : Value) : v.wireType < 8 := by cases v <;> simp [Value.wireType]

structure Field.Sound (f : Field) : Prop where
  positive : 0 < f.number
  small : f.number < 2 ^ 29
  fits : f.value.Fits

theorem readField_writeField (f : Field) (rest : List UInt8) (sound : f.Sound) :
    readField (writeField f ++ rest) = some (f, rest) := by
  have type := wireType_lt f.value
  have positive := sound.positive
  have small := sound.small
  have number : (f.number * 8 + f.value.wireType) / 8 = f.number := by omega
  have wireType : (f.number * 8 + f.value.wireType) % 8 = f.value.wireType := by omega
  unfold readField writeField
  rw [List.append_assoc, readVarint_varint _ _ (by omega), Option.bind_some]
  simp only [number, wireType]
  rw [if_neg (by omega), read_write f.value rest sound.fits]
  rfl

theorem writeVarint_ne_nil (k n : Nat) : writeVarint k n ≠ [] := by
  cases k with
  | zero => simp [writeVarint]
  | succ k =>
    unfold writeVarint
    split <;> simp

theorem writeField_ne_nil (f : Field) : writeField f ≠ [] := by
  simp [writeField, varint, writeVarint_ne_nil]

theorem readFieldsWith_writeFields (fs : List Field) (k : Nat) (enough : fs.length ≤ k)
    (sound : ∀ f ∈ fs, f.Sound) : readFieldsWith k (writeFields fs) = (fs, true) := by
  induction fs generalizing k with
  | nil => cases k <;> rfl
  | cons f fs ih =>
    cases k with
    | zero => simp at enough
    | succ k =>
      have read := readField_writeField f (writeFields fs) (sound f (List.mem_cons_self ..))
      have rest := ih k (Nat.le_of_succ_le_succ enough) fun g member => sound g (List.mem_cons_of_mem f member)
      change readFieldsWith (k + 1) (writeField f ++ writeFields fs) = _
      cases hb : writeField f ++ writeFields fs with
      | nil => simp [writeField_ne_nil] at hb
      | cons b bytes =>
        rw [hb] at read
        simp only [readFieldsWith, read, rest]

theorem length_le_writeFields (fs : List Field) : fs.length ≤ (writeFields fs).length := by
  induction fs with
  | nil => simp
  | cons f fs ih =>
    have positive := List.length_pos_iff.mpr (writeField_ne_nil f)
    change fs.length + 1 ≤ (writeField f ++ writeFields fs).length
    rw [List.length_append]
    omega

theorem readFields_writeFields (fs : List Field) (sound : ∀ f ∈ fs, f.Sound) :
    readFields (writeFields fs) = (fs, true) :=
  readFieldsWith_writeFields fs _ (length_le_writeFields fs) sound

theorem length_le_of_mem {fs : List Field} {number : Nat} {bytes : List UInt8}
    (member : ⟨number, .len bytes⟩ ∈ fs) : bytes.length ≤ (writeFields fs).length := by
  obtain ⟨before, after, rfl⟩ := List.append_of_mem member
  simp only [writeFields, List.flatMap_append, List.flatMap_cons, writeField, Value.write, List.length_append]
  omega

structure Field.Plain (f : Field) : Prop where
  positive : 0 < f.number
  small : f.number < 2 ^ 29
  fits : (∃ bytes, f.value = .len bytes) ∨ f.value.Fits

theorem Field.plain_len {number : Nat} (bytes : List UInt8) (positive : 0 < number) (small : number < 2 ^ 29) :
    Field.Plain ⟨number, .len bytes⟩ :=
  ⟨positive, small, Or.inl ⟨bytes, rfl⟩⟩

theorem sound_of_short {fs : List Field} (short : (writeFields fs).length < 2 ^ 64)
    (plain : ∀ f ∈ fs, f.Plain) : ∀ f ∈ fs, f.Sound := by
  intro f member
  obtain ⟨positive, small, fits⟩ := plain f member
  refine ⟨positive, small, ?_⟩
  rcases fits with ⟨bytes, carried⟩ | fits
  · have inner : (⟨f.number, .len bytes⟩ : Field) ∈ fs := carried ▸ member
    have length := length_le_of_mem inner
    rw [carried]
    change bytes.length < 2 ^ 64
    omega
  · exact fits

/-! ### Messages -/

section Messages

variable {α : Type} (merge : α → Field → α × Bool)

def mergeFields : α → List Field → α × Bool
  | a, [] => (a, true)
  | a, f :: fs => if (merge a f).2 then mergeFields (merge a f).1 fs else ((merge a f).1, false)

def parseInto (a : α) (bytes : List UInt8) : α × Bool :=
  ((mergeFields merge a (readFields bytes).1).1,
    (mergeFields merge a (readFields bytes).1).2 && (readFields bytes).2)

theorem parseInto_writeFields (a : α) (fs : List Field) (sound : ∀ f ∈ fs, f.Sound) :
    parseInto merge a (writeFields fs) = mergeFields merge a fs := by
  simp only [parseInto, readFields_writeFields fs sound, Bool.and_true]

end Messages

/-! ### Packed varints -/

def writePacked (ns : List Nat) : List UInt8 := ns.flatMap varint

theorem eq_nil_of_writePacked {ns : List Nat} (empty : writePacked ns = []) : ns = [] := by
  cases ns with
  | nil => rfl
  | cons n ns => simp [writePacked, varint, writeVarint_ne_nil] at empty

def readPackedWith : Nat → List UInt8 → Option (List Nat)
  | _, [] => some []
  | 0, _ :: _ => none
  | k + 1, bytes => (readVarint 10 bytes).bind fun (n, rest) => (readPackedWith k rest).map (n :: ·)

def readPacked (bytes : List UInt8) : Option (List Nat) := readPackedWith bytes.length bytes

theorem readPackedWith_writePacked (ns : List Nat) (k : Nat) (enough : ns.length ≤ k)
    (small : ∀ n ∈ ns, n < 2 ^ 70) : readPackedWith k (writePacked ns) = some ns := by
  induction ns generalizing k with
  | nil => cases k <;> rfl
  | cons n ns ih =>
    cases k with
    | zero => simp at enough
    | succ k =>
      have read := readVarint_varint n (writePacked ns) (small n (List.mem_cons_self ..))
      have rest := ih k (Nat.le_of_succ_le_succ enough) fun m member => small m (List.mem_cons_of_mem n member)
      change readPackedWith (k + 1) (varint n ++ writePacked ns) = _
      cases hb : varint n ++ writePacked ns with
      | nil => simp [varint, writeVarint_ne_nil] at hb
      | cons b bytes =>
        rw [hb] at read
        simp only [readPackedWith, read, Option.bind_some, rest, Option.map_some]

theorem readPacked_writePacked (ns : List Nat) (small : ∀ n ∈ ns, n < 2 ^ 70) :
    readPacked (writePacked ns) = some ns := by
  apply readPackedWith_writePacked ns _ ?_ small
  clear small
  induction ns with
  | nil => simp
  | cons n ns ih =>
    have positive : 0 < (varint n).length := List.length_pos_iff.mpr (writeVarint_ne_nil 9 n)
    change ns.length + 1 ≤ (varint n ++ writePacked ns).length
    rw [List.length_append]
    omega

/-! ### Packed fixed values -/

def writeFixed32s (ns : List Nat) : List UInt8 := ns.flatMap (littleEndian 4)

theorem eq_nil_of_writeFixed32s {ns : List Nat} (empty : writeFixed32s ns = []) : ns = [] := by
  cases ns with
  | nil => rfl
  | cons n ns => simp [writeFixed32s, littleEndian] at empty

def readFixed32s : List UInt8 → Option (List Nat)
  | [] => some []
  | a :: b :: c :: d :: rest => (readFixed32s rest).map (ofLittleEndian [a, b, c, d] :: ·)
  | _ => none

theorem readFixed32s_writeFixed32s (ns : List Nat) (small : ∀ n ∈ ns, n < 2 ^ 32) :
    readFixed32s (writeFixed32s ns) = some ns := by
  induction ns with
  | nil => rfl
  | cons n ns ih =>
    have rest := ih fun m member => small m (List.mem_cons_of_mem n member)
    have value := ofLittleEndian_littleEndian 4 n (by
      have bound := small n (List.mem_cons_self ..)
      norm_num
      omega)
    change readFixed32s (littleEndian 4 n ++ writeFixed32s ns) = _
    simp only [littleEndian, List.cons_append, List.nil_append, readFixed32s, rest, Option.map_some] at value ⊢
    rw [value]

def writeFixed64s (ns : List Nat) : List UInt8 := ns.flatMap (littleEndian 8)

theorem length_writeFixed64s (ns : List Nat) : (writeFixed64s ns).length = 8 * ns.length := by
  induction ns with
  | nil => rfl
  | cons n ns ih =>
    rw [writeFixed64s, List.flatMap_cons, List.length_append, length_littleEndian, List.length_cons]
    change 8 + (writeFixed64s ns).length = 8 * (ns.length + 1)
    omega

def readFixed64s : List UInt8 → Option (List Nat)
  | [] => some []
  | a :: b :: c :: d :: e :: f :: g :: h :: rest =>
    (readFixed64s rest).map (ofLittleEndian [a, b, c, d, e, f, g, h] :: ·)
  | _ => none

theorem readFixed64s_writeFixed64s (ns : List Nat) (small : ∀ n ∈ ns, n < 2 ^ 64) :
    readFixed64s (writeFixed64s ns) = some ns := by
  induction ns with
  | nil => rfl
  | cons n ns ih =>
    have rest := ih fun m member => small m (List.mem_cons_of_mem n member)
    have value := ofLittleEndian_littleEndian 8 n (by
      have bound := small n (List.mem_cons_self ..)
      norm_num
      omega)
    change readFixed64s (littleEndian 8 n ++ writeFixed64s ns) = _
    simp only [littleEndian, List.cons_append, List.nil_append, readFixed64s, rest, Option.map_some] at value ⊢
    rw [value]

end Wire
