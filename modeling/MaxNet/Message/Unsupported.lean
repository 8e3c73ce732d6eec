import MaxNet.Message.RoundTrip

namespace MaxNet

namespace Atom

def supported : Atom → Bool
  | other _ => false
  | _ => true

def Narrow : Atom → Prop
  | float x => ∃ y : Binary32, x = y.convert .binary64
  | _ => True

theorem admissible_iff (a : Atom) : a.Admissible ↔ a.supported = true ∧ a.Narrow := by
  cases a with
  | long n => simp [Admissible, supported, Narrow]
  | float x => simp [Admissible, supported, Narrow]
  | sym s => simp [Admissible, supported, Narrow]
  | other type => simp [Admissible, supported]

theorem narrow_of_kept {a : Atom} (kept : a.kept = a) : a.Narrow := by
  cases a with
  | float x => exact ⟨x.convert .binary32, (float.inj kept).symm⟩
  | _ => exact True.intro

/-- Every atom becomes exactly one, so nothing is dropped and nothing may change. -/
theorem map_kept_eq_filter_iff {as : List Atom} (fits : ∀ a ∈ as, a.Fits) :
    as.map kept = as.filter supported ↔ ∀ a ∈ as, a.supported = true ∧ a.Narrow := by
  constructor
  · intro same
    have length : (as.filter supported).length = as.length := by
      rw [← same, List.length_map]
    have all : as.filter supported = as := List.filter_sublist.eq_of_length length
    have each : ∀ a ∈ as, a.kept = a := by
      rw [all] at same
      exact Lists.map_eq_self_iff.mp same
    intro a member
    exact ⟨List.filter_eq_self.mp all a member, narrow_of_kept (each a member)⟩
  · intro clean
    have all : as.filter supported = as := List.filter_eq_self.mpr fun a member => (clean a member).1
    rw [all]
    apply Lists.map_eq_self_iff.mpr
    intro a member
    exact (kept_eq_iff ((admissible_iff a).mpr (clean a member))).mpr (fits a member)

end Atom

namespace MaxMessage

structure LeavesNoTrace (p : Protobuf) (c : AtomConversions) (as : List Atom) : Prop where
  direct : (({} : MaxMessage).pushAtoms c as).getAtoms = as.filter Atom.supported
  wire : ∀ sent buffers, (({} : MaxMessage).pushAtoms c as).serialize p = (true, sent) →
    buffers.flatten = sent.data → ∃ received,
      (({} : MaxMessage).fromConstBuffers buffers false).deserialize p = (true, received) ∧
        received.getAtoms = as.filter Atom.supported
  pushed : ∀ a ∈ (({} : MaxMessage).pushAtoms c as).getAtoms, a ∈ as

/-- Atoms of other types leave no trace exactly where there are none, and no float is wider than those
    of the message. -/
theorem leaves_no_trace_iff {p : Protobuf} {c : AtomConversions} (lawful : p.Lawful) (conversions : c.Lawful)
    {as : List Atom} (fits : ∀ a ∈ as, a.Fits) :
    LeavesNoTrace p c as ↔ ∀ a ∈ as, a.supported = true ∧ a.Narrow := by
  have read : (({} : MaxMessage).pushAtoms c as).getAtoms = as.map Atom.kept := by
    rw [getAtoms_pushAtoms conversions as {}]
    rfl
  rw [← Atom.map_kept_eq_filter_iff fits]
  constructor
  · intro traceless
    rw [← read]
    exact traceless.direct
  · intro same
    have direct := read.trans same
    refine ⟨direct, ?_, ?_⟩
    · intro sent buffers serialized split
      exact ⟨_, deserialize_fromConstBuffers lawful serialized split, direct⟩
    · intro a member
      rw [direct] at member
      exact (List.mem_filter.mp member).1

theorem leaves_no_trace_iff_mixed :
    LeavesNoTrace wireFormat ownConversions [.sym "hi", .long (-5), .float (.infinite true)] := by
  apply (leaves_no_trace_iff wireFormat_lawful ownConversions_lawful ?_).mpr
  · simp only [List.forall_mem_cons, Atom.supported, Atom.Narrow]
    exact ⟨⟨trivial, trivial⟩, ⟨trivial, trivial⟩, ⟨trivial, .infinite true, rfl⟩, by simp⟩
  · simp only [List.forall_mem_cons, Atom.Fits]
    exact ⟨trivial, by decide, trivial, by simp⟩

/-- An atom of another type is read as a zero. -/
theorem unsupported_read_as_zero :
    (({} : MaxMessage).pushAtoms ownConversions [.sym "hi", .other 9]).getAtoms = [.sym "hi", .long 0] ∧
      (({} : MaxMessage).fromConstBuffers
          [((({} : MaxMessage).pushAtoms ownConversions [.sym "hi", .other 9]).serialize wireFormat).2.data]
        false).deserialize wireFormat =
          (true, { mess := ⟨[⟨.symbol, .string "hi"⟩, {}]⟩, data := [10, 6, 8, 2, 34, 2, 104, 105, 10, 0] }) ∧
      ¬ LeavesNoTrace wireFormat ownConversions [.sym "hi", .other 9] := by
  have read : (({} : MaxMessage).pushAtoms ownConversions [.sym "hi", .other 9]).getAtoms =
      [.sym "hi", .long 0] := by decide +kernel
  refine ⟨read, by decide +kernel, ?_⟩
  intro traceless
  have same := read.symm.trans traceless.direct
  cases same

end MaxMessage

end MaxNet
