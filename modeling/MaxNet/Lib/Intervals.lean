import Mathlib.Data.List.Basic

structure Intervals (A : Type*) where
  past : List (List A) := []
  present : List A := []

namespace Intervals

variable {A : Type*}

def record (a : A) (v : Intervals A) : Intervals A := { v with present := v.present ++ [a] }

def cut (v : Intervals A) : Intervals A := { past := v.past ++ [v.present], present := [] }

def latest (v : Intervals A) : List A := v.past.getLast?.getD []

def all (v : Intervals A) : List A := v.past.flatten ++ v.present

@[simp] theorem record_present (a : A) (v : Intervals A) : (v.record a).present = v.present ++ [a] := rfl

@[simp] theorem cut_latest (v : Intervals A) : v.cut.latest = v.present := by
  simp [cut, latest]

@[simp] theorem record_all (a : A) (v : Intervals A) : (v.record a).all = v.all ++ [a] :=
  (List.append_assoc v.past.flatten v.present [a]).symm

/-- Cutting loses nothing. -/
@[simp] theorem cut_all (v : Intervals A) : v.cut.all = v.all := by
  simp [cut, all]

end Intervals
