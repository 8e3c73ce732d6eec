import Mathlib.Data.List.Nodup
import Mathlib.Data.List.Sublists

/-- A server that works on one job at a time, in the order of arrival. The head of `waiting` is the
    job in service. Jobs leave at the front only, served or abandoned. -/
structure SerialQueue (α : Type*) where
  submitted : List α
  started : List α
  waiting : List α
  finished : List α
  order : submitted = finished ++ waiting
  started_order : List.Sublist started (finished ++ waiting.take 1)

namespace SerialQueue

variable {α : Type*}

def empty : SerialQueue α where
  submitted := []
  started := []
  waiting := []
  finished := []
  order := rfl
  started_order := List.Sublist.refl []

def submit (q : SerialQueue α) (a : α) : SerialQueue α where
  submitted := q.submitted ++ [a]
  started := if q.waiting = [] then q.started ++ [a] else q.started
  waiting := q.waiting ++ [a]
  finished := q.finished
  order := by rw [q.order, List.append_assoc]
  started_order := by
    have old := q.started_order
    cases hw : q.waiting with
    | nil =>
      rw [hw] at old
      simpa using old.append_right [a]
    | cons b rest =>
      rw [hw] at old
      simpa using old

def finish (q : SerialQueue α) : SerialQueue α where
  submitted := q.submitted
  started := q.started ++ q.waiting.tail.take 1
  waiting := q.waiting.tail
  finished := q.finished ++ q.waiting.take 1
  order := by
    rw [q.order, List.append_assoc]
    cases q.waiting <;> rfl
  started_order := q.started_order.append_right _

def abandon (q : SerialQueue α) : SerialQueue α where
  submitted := q.submitted
  started := q.started
  waiting := []
  finished := q.finished ++ q.waiting
  order := by rw [q.order, List.append_nil]
  started_order := by
    have all : List.Sublist (q.finished ++ q.waiting.take 1) (q.finished ++ q.waiting) :=
      (List.Sublist.refl q.finished).append (List.take_sublist 1 q.waiting)
    simpa using q.started_order.trans all

theorem started_sublist (q : SerialQueue α) : List.Sublist q.started q.submitted := by
  have all : List.Sublist (q.finished ++ q.waiting.take 1) (q.finished ++ q.waiting) :=
    (List.Sublist.refl q.finished).append (List.take_sublist 1 q.waiting)
  rw [q.order]
  exact q.started_order.trans all

theorem finished_prefix (q : SerialQueue α) : q.finished <+: q.submitted :=
  ⟨q.waiting, q.order.symm⟩

theorem finished_nodup (q : SerialQueue α) (distinct : q.submitted.Nodup) : q.finished.Nodup := by
  rw [q.order] at distinct
  exact distinct.of_append_left

theorem waiting_not_finished (q : SerialQueue α) (distinct : q.submitted.Nodup) {a : α}
    (member : a ∈ q.waiting) : a ∉ q.finished := by
  rw [q.order] at distinct
  exact fun done => (List.nodup_append.mp distinct).2.2 a done a member rfl

theorem idle_iff (q : SerialQueue α) : q.waiting = [] ↔ q.finished = q.submitted := by
  rw [q.order]
  constructor
  · intro idle
    rw [idle, List.append_nil]
  · intro same
    exact List.self_eq_append_right.mp same

end SerialQueue
