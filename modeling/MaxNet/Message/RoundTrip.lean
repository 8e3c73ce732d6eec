import MaxNet.Lib.Lists
import MaxNet.Message.MaxMessage
import MaxNet.Message.WireFormat

namespace MaxNet

namespace Atom

def Admissible : Atom → Prop
  | long _ => True
  | float x => ∃ y : Binary32, x = y.convert .binary64
  | sym _ => True
  | other _ => False

def Fits : Atom → Prop
  | long n => -2 ^ 31 ≤ n.toInt ∧ n.toInt < 2 ^ 31
  | _ => True

def kept : Atom → Atom
  | long n => long n.toInt32.toInt64
  | float x => float ((x.convert .binary32).convert .binary64)
  | sym s => sym s
  | other _ => long 0

theorem toInt64_toInt32_eq_iff (n : Int64) :
    n.toInt32.toInt64 = n ↔ -2 ^ 31 ≤ n.toInt ∧ n.toInt < 2 ^ 31 := by
  rw [← Int64.toInt_inj, Int32.toInt_toInt64, Int64.toInt_toInt32]
  constructor
  · intro same
    have low : -2 ^ 31 ≤ n.toInt.bmod (2 ^ 32) := Int.le_bmod (by decide)
    have high : n.toInt.bmod (2 ^ 32) < 2 ^ 31 := Int.bmod_lt (by decide)
    rw [same] at low high
    exact ⟨low, high⟩
  · rintro ⟨low, high⟩
    apply Int.bmod_eq_of_le <;> omega

theorem kept_eq_iff {a : Atom} (admissible : a.Admissible) : a.kept = a ↔ a.Fits := by
  cases a with
  | long n => simp only [kept, Fits, long.injEq, toInt64_toInt32_eq_iff]
  | float x =>
    rcases admissible with ⟨y, rfl⟩
    have narrowed := Binary.convert_convert BinaryFormat.binary32_within_binary64 y
    simp only [kept, Fits, narrowed]
  | sym s => simp only [kept, Fits]
  | other type => exact admissible.elim

end Atom

inductive Push
  | atom (a : Atom)
  | atoms (as : List Atom)
  | atomarray (as : List Atom) (type : ArrayType)
  deriving DecidableEq

namespace Push

def run (c : AtomConversions) (msg : MaxMessage) : Push → Option MaxMessage
  | atom a => some (msg.pushAtom c a)
  | atoms as => some (msg.pushAtoms c as)
  | atomarray as type => msg.pushAtomarray c as type

def runAll (c : AtomConversions) (pushes : List Push) (msg : MaxMessage) : Option MaxMessage :=
  pushes.foldlM (run c) msg

def pushed : Push → List Atom
  | atom a => [a]
  | atoms as => as
  | atomarray as _ => as

def Admissible : Push → Prop
  | atom a => a.Admissible
  | atoms as => ∀ a ∈ as, a.Admissible
  | atomarray as .long => ∀ a ∈ as, ∃ n, a = .long n
  | atomarray as .float => ∀ a ∈ as, ∃ y : Binary32, a = .float (y.convert .binary64)
  | atomarray _ .other => False

def Fits : Push → Prop
  | atom a => a.Fits
  | atoms as => ∀ a ∈ as, a.Fits
  | atomarray _ _ => True

def kept : Push → List Atom
  | atom a => [a.kept]
  | atoms as => as.map Atom.kept
  | atomarray as _ => as

theorem length_kept (q : Push) : q.kept.length = q.pushed.length := by
  cases q <;> simp [kept, pushed]

theorem kept_eq_iff {q : Push} (admissible : q.Admissible) : q.kept = q.pushed ↔ q.Fits := by
  cases q with
  | atom a => simp only [kept, pushed, Fits, List.cons.injEq, and_true, Atom.kept_eq_iff admissible]
  | atoms as =>
    simp only [kept, pushed, Fits, Lists.map_eq_self_iff]
    exact forall₂_congr fun a member => Atom.kept_eq_iff (admissible a member)
  | atomarray as type => simp only [kept, pushed, Fits]

end Push

namespace MaxMessage

variable {c : AtomConversions}

theorem getAtoms_pushAtom (lawful : c.Lawful) (a : Atom) (msg : MaxMessage) :
    (msg.pushAtom c a).getAtoms = msg.getAtoms ++ [a.kept] := by
  cases a with
  | long n =>
    simp only [pushAtom, getAtoms_addAtom, lawful.toLong_long]
    rfl
  | float x =>
    simp only [pushAtom, getAtoms_addAtom, lawful.toFloat_float]
    rfl
  | sym s =>
    simp only [pushAtom, getAtoms_addAtom, lawful.toString_sym]
    rfl
  | other type =>
    simp only [pushAtom, getAtoms_addAtom]
    rfl

theorem getAtoms_pushAtoms (lawful : c.Lawful) (as : List Atom) (msg : MaxMessage) :
    (msg.pushAtoms c as).getAtoms = msg.getAtoms ++ as.map Atom.kept := by
  induction as generalizing msg with
  | nil => simp [pushAtoms]
  | cons a as ih =>
    have rest := ih (msg.pushAtom c a)
    simp only [pushAtoms, List.foldl_cons, List.map_cons] at rest ⊢
    rw [rest, getAtoms_pushAtom lawful, List.append_assoc, List.singleton_append]

theorem getAtoms_pushAtomarray (lawful : c.Lawful) {as : List Atom} {type : ArrayType}
    (admissible : (Push.atomarray as type).Admissible) (msg : MaxMessage) :
    ∃ next, msg.pushAtomarray c as type = some next ∧ next.getAtoms = msg.getAtoms ++ as := by
  have back {β : Type} {convert : Atom → β} {value : β → Atom} (same : ∀ a ∈ as, value (convert a) = a) :
      (as.map convert).map value = as := by
    rw [List.map_map]
    exact (List.map_congr_left same).trans (List.map_id as)
  cases type with
  | long =>
    have values : (as.map c.toLong).map Atom.long = as := by
      apply back
      intro a member
      obtain ⟨n, rfl⟩ := admissible a member
      rw [lawful.toLong_long]
    refine ⟨_, rfl, ?_⟩
    rw [getAtoms_addAtom]
    exact congrArg (msg.getAtoms ++ ·) values
  | float =>
    have values : (as.map c.toFloat).map (fun x => Atom.float (x.convert .binary64)) = as := by
      apply back
      intro a member
      obtain ⟨y, rfl⟩ := admissible a member
      rw [lawful.toFloat_float, Binary.convert_convert BinaryFormat.binary32_within_binary64]
    refine ⟨_, rfl, ?_⟩
    rw [getAtoms_addAtom]
    exact congrArg (msg.getAtoms ++ ·) values
  | other => exact admissible.elim

theorem getAtoms_run (lawful : c.Lawful) {q : Push} (admissible : q.Admissible) (msg : MaxMessage) :
    ∃ next, q.run c msg = some next ∧ next.getAtoms = msg.getAtoms ++ q.kept := by
  cases q with
  | atom a => exact ⟨_, rfl, getAtoms_pushAtom lawful a msg⟩
  | atoms as => exact ⟨_, rfl, getAtoms_pushAtoms lawful as msg⟩
  | atomarray as type => exact getAtoms_pushAtomarray lawful admissible msg

theorem getAtoms_runAll (lawful : c.Lawful) (pushes : List Push) (admissible : ∀ q ∈ pushes, q.Admissible)
    (msg : MaxMessage) :
    ∃ built, Push.runAll c pushes msg = some built ∧
      built.getAtoms = msg.getAtoms ++ pushes.flatMap Push.kept := by
  induction pushes generalizing msg with
  | nil => exact ⟨msg, rfl, by simp⟩
  | cons q pushes ih =>
    obtain ⟨next, run, added⟩ := getAtoms_run lawful (admissible q (List.mem_cons_self ..)) msg
    obtain ⟨built, rest, held⟩ := ih (fun r member => admissible r (List.mem_cons_of_mem q member)) next
    refine ⟨built, ?_, ?_⟩
    · simp only [Push.runAll, List.foldlM_cons, run] at rest ⊢
      exact rest
    · rw [held, added, List.flatMap_cons, List.append_assoc]

end MaxMessage

/-- What was pushed comes back, in order, exactly where every single integer fits 32 bits. -/
theorem round_trip_iff {p : Protobuf} {c : AtomConversions} (lawful : p.Lawful) (conversions : c.Lawful)
    {pushes : List Push} (admissible : ∀ q ∈ pushes, q.Admissible) {built sent : MaxMessage}
    (pushed : Push.runAll c pushes {} = some built) (serialized : built.serialize p = (true, sent))
    {buffers : List (List UInt8)} (split : buffers.flatten = sent.data) :
    (∃ received, (({} : MaxMessage).fromConstBuffers buffers false).deserialize p = (true, received) ∧
        received.getAtoms = pushes.flatMap Push.pushed) ↔
      ∀ q ∈ pushes, q.Fits := by
  have arrived := MaxMessage.deserialize_fromConstBuffers lawful serialized split
  obtain ⟨message, run, held⟩ := MaxMessage.getAtoms_runAll conversions pushes admissible {}
  obtain rfl := Option.some.inj (run.symm.trans pushed)
  have kept : ({ mess := message.mess, data := sent.data } : MaxMessage).getAtoms = pushes.flatMap Push.kept := held
  have blocks := Lists.flatMap_eq_iff Push.length_kept pushes
  have fits : (∀ q ∈ pushes, q.kept = q.pushed) ↔ ∀ q ∈ pushes, q.Fits :=
    forall₂_congr fun q member => Push.kept_eq_iff (admissible q member)
  rw [arrived, ← fits, ← blocks, ← kept]
  constructor
  · rintro ⟨received, same, atoms⟩
    obtain rfl := (Prod.mk.inj same).2
    exact atoms
  · intro atoms
    exact ⟨_, rfl, atoms⟩

/-- A single integer of 32 bits comes back as the negative one of the same bits. -/
theorem round_trip_fails :
    ∃ built sent received : MaxMessage,
      Push.runAll ownConversions [.atom (.long 2147483648)] {} = some built ∧
      built.serialize wireFormat = (true, sent) ∧
      (({} : MaxMessage).fromConstBuffers [sent.data] false).deserialize wireFormat = (true, received) ∧
      received.getAtoms = [.long (-2147483648)] ∧ received.getAtoms ≠ [.long 2147483648] := by
  refine ⟨{ mess := ⟨[⟨.long, .int (-2147483648)⟩]⟩ },
    { mess := ⟨[⟨.long, .int (-2147483648)⟩]⟩, data := [10, 6, 16, 255, 255, 255, 255, 15] },
    { mess := ⟨[⟨.long, .int (-2147483648)⟩]⟩, data := [10, 6, 16, 255, 255, 255, 255, 15] }, ?_⟩
  decide +kernel

theorem round_trip_iff_mixed :
    ∃ built sent received : MaxMessage,
      Push.runAll ownConversions [.atoms [.sym "hi", .float (.infinite true)],
        .atomarray [.long 4294967296, .long (-1)] .long, .atom (.long (-5))] {} = some built ∧
      built.serialize wireFormat = (true, sent) ∧
      (({} : MaxMessage).fromConstBuffers [sent.data.take 3, sent.data.drop 3] false).deserialize wireFormat =
        (true, received) ∧
      received.getAtoms =
        [.sym "hi", .float (.infinite true), .long 4294967296, .long (-1), .long (-5)] := by
  have admissible : ∀ q ∈ [Push.atoms [.sym "hi", .float (.infinite true)],
      .atomarray [.long 4294967296, .long (-1)] .long, .atom (.long (-5))], q.Admissible := by
    simp only [List.forall_mem_cons, Push.Admissible, Atom.Admissible]
    exact ⟨⟨trivial, ⟨.infinite true, rfl⟩, by simp⟩, ⟨⟨_, rfl⟩, ⟨_, rfl⟩, by simp⟩, trivial, by simp⟩
  have fits : ∀ q ∈ [Push.atoms [.sym "hi", .float (.infinite true)],
      .atomarray [.long 4294967296, .long (-1)] .long, .atom (.long (-5))], q.Fits := by
    simp only [List.forall_mem_cons, Push.Fits, Atom.Fits]
    exact ⟨⟨trivial, trivial, by simp⟩, trivial, by decide, by simp⟩
  let built : MaxMessage := { mess := ⟨[⟨.symbol, .string "hi"⟩, ⟨.float, .float (.infinite true)⟩,
    ⟨.arrLong, .intArray [4294967296, -1]⟩, ⟨.long, .int (-5)⟩]⟩ }
  let sent := (built.serialize wireFormat).2
  have pushed : Push.runAll ownConversions [.atoms [.sym "hi", .float (.infinite true)],
      .atomarray [.long 4294967296, .long (-1)] .long, .atom (.long (-5))] {} = some built := rfl
  have serialized : built.serialize wireFormat = (true, sent) := by decide +kernel
  have split : [sent.data.take 3, sent.data.drop 3].flatten = sent.data := by simp
  obtain ⟨received, parsed, atoms⟩ :=
    (round_trip_iff wireFormat_lawful ownConversions_lawful admissible pushed serialized split).mpr fits
  exact ⟨built, sent, received, pushed, serialized, parsed, atoms⟩

end MaxNet
