import MaxNet.Message.MaxMessage
import MaxNet.Session.WriteView

namespace MaxNet

def WriteView.Balanced {M : Type} (v : WriteView M) : Prop :=
  v.handled = false → v.freed.length + v.queue.length = v.written.length

namespace WriteView.Balanced

variable {M : Type} {v : WriteView M}

theorem perform (balanced : v.Balanced) (inIoThread : Bool) (m : M) : (v.perform inIoThread m).Balanced := by
  intro unhandled
  rw [perform_handled] at unhandled
  simpa using balanced unhandled

theorem release (balanced : v.Balanced) {gone rest : List M} (same : gone.length + rest.length = v.queue.length) :
    ({ v.release gone with queue := rest } : WriteView M).Balanced := by
  intro unhandled
  simp only [release_handled] at unhandled
  have before := balanced unhandled
  have freed : (v.release gone).freed = v.freed ++ gone := by simp [WriteView.release, unhandled]
  simp only [release_written, freed, List.length_append]
  omega

theorem done {m : M} {w : WriteView M} (balanced : v.Balanced) (done : Session.WriteDone m v w) : w.Balanced := by
  cases done with
  | nothing empty => exact balanced
  | last front queue => exact balanced.release (by simp [queue])
  | next front second rest queue =>
    apply WriteView.Balanced.perform
    apply balanced.release
    simp only [queue, List.length_cons, List.length_nil]
    omega
  | clear front second rest queue => exact balanced.release (by simp [queue])

end WriteView.Balanced

namespace Session

variable {E M : Type}

/-- The io context is destroyed: what it holds for the session is dropped without running. -/
def dropPending (s : Session E M) : Session E M :=
  { s with
    connects := []
    handshakes := 0
    accepts := 0
    writeStarts := []
    writes := []
    reads := 0
    closeStarts := 0
    closes := 0
    closeWaits := []
    readStrand := []
    stats := { s.stats with waits := [] } }

structure Cleared (s t : Session E M) (calls : List (Action M)) : Prop where
  trace : t.trace = s.trace ++ calls
  deallocated : (calls.filterMap Action.freed?).Perm s.msgQueue
  none_left : ∀ factory : MaxMessageAllocator, factory.allocMsgCount = 0 →
    ((factory.allocateAll s.msgQueue).deallocateAll (calls.filterMap Action.freed?)).destroy = some ()

def TearsDown (s : Session E M) : Prop := ∃ t calls, s.dropPending.destroy = some t ∧ Cleared s t calls

/-- The factory asserts no more than that each message is deallocated. -/
theorem cleared_of_perm {s t : Session E M} {calls : List (Action M)} (trace : t.trace = s.trace ++ calls)
    (deallocated : (calls.filterMap Action.freed?).Perm s.msgQueue) : Cleared s t calls where
  trace := trace
  deallocated := deallocated
  none_left := by
    intro factory balanced
    rw [MaxMessageAllocator.deallocateAll_allocateAll s.msgQueue _ factory deallocated.length_eq]
    exact if_pos balanced

theorem tearsDown_iff_empty {s : Session E M} (unhandled : s.onWriteDone = false) :
    s.TearsDown ↔ s.msgQueue = [] := by
  have dropped : s.dropPending.destroy = if s.msgQueue = [] then some s.dropPending else none := by
    simp [destroy, dropPending, unhandled]
  constructor
  · intro down
    obtain ⟨t, calls, gone, _⟩ := down
    by_contra busy
    rw [dropped, if_neg busy] at gone
    cases gone
  · intro empty
    have gone : s.dropPending.destroy = some s.dropPending := by rw [dropped, if_pos empty]
    have nothing : ([] : List (Action M)).filterMap Action.freed? = s.msgQueue := by rw [empty]; rfl
    exact ⟨s.dropPending, [], gone, cleared_of_perm (List.append_nil _).symm (List.Perm.of_eq nothing)⟩

variable [DecidableEq E] [DecidableEq M]

theorem step_balanced {s t : Session E M} {e : Event E M} (balanced : s.view.Balanced) (h : s.step e = some t) :
    t.view.Balanced := by
  rcases step_view h with step | ⟨flushes, same⟩
  · generalize t.view = w at step
    cases step with
    | other => exact balanced
    | install => intro unhandled; cases unhandled
    | submit inIoThread m idle =>
      apply WriteView.Balanced.perform
      intro unhandled
      have before := balanced unhandled
      rw [idle] at before
      simpa using before
    | enqueue inIoThread m busy =>
      intro unhandled
      have before := balanced unhandled
      simp only [List.length_append, List.length_singleton]
      omega
    | start m member => exact balanced
    | done m ec bytes w member done =>
      have popped : ({ s.view with outstanding := s.view.outstanding.erase m } : WriteView M).Balanced := balanced
      exact popped.done done
  · rw [same]
    intro unhandled
    have handled : s.onWriteDone = true := by
      cases e with
      | strandStep => exact flushes.2
      | _ => exact flushes.elim
    have kept : s.view.flush.handled = s.onWriteDone := WriteView.release_handled s.msgQueue s.view
    rw [kept, handled] at unhandled
    cases unhandled

/-- A session without a handler can be torn down exactly where its queue is empty: as many messages have been
    deallocated after their writes as were handed to `write()`. -/
theorem tears_down_iff (role : Role) (inbox : List WsMessage) (es : List (Event E M)) (s : Session E M)
    (ran : (machine E M).run (initial role inbox) es = some s) (unhandled : s.onWriteDone = false) :
    (s.TearsDown ↔ s.msgQueue = []) ∧ (s.msgQueue = [] ↔ s.view.freed.length = s.view.written.length) := by
  have balanced : s.view.Balanced := by
    apply Transition.System.invariant_of_run (M := machine E M) (P := fun s => s.view.Balanced)
      (Q := fun _ _ => True) ?_ ?_ Transition.System.each_true ran
    · intro s e t balanced _ h
      exact step_balanced balanced h
    · intro _
      rfl
  have count : s.view.freed.length + s.msgQueue.length = s.view.written.length := balanced unhandled
  have empty : s.msgQueue = [] ↔ s.view.freed.length = s.view.written.length := by
    rw [← List.length_eq_zero_iff]
    omega
  exact ⟨tearsDown_iff_empty unhandled, empty⟩

def writtenTwice : List (Event Unit Nat) :=
  opening ++ [.write true 1, .write true 2, .written 1 .success 4, .written 2 .success 4]

theorem tears_down_written_twice :
    ∃ s : Session Unit Nat, (machine Unit Nat).run (initial .client []) writtenTwice = some s ∧ s.TearsDown := by
  have observed : ((machine Unit Nat).run (initial .client []) writtenTwice).map
      (fun s => (s.onWriteDone, s.msgQueue)) = some (false, []) := by decide
  obtain ⟨s, ran, seen⟩ := Option.map_eq_some_iff.mp observed
  obtain ⟨unhandled, empty⟩ := Prod.mk.inj seen
  exact ⟨s, ran, (tears_down_iff .client [] writtenTwice s ran unhandled).1.mpr empty⟩

/-- The destructor calls the handler that is not there. -/
theorem destructor_throws :
    ∃ s : Session Unit Nat, (machine Unit Nat).run (initial .client []) [.write true 1] = some s ∧
      s.onWriteDone = false ∧ s.msgQueue = [1] ∧ s.dropPending.destroy = none ∧ ¬ s.TearsDown := by
  refine ⟨_, rfl, rfl, rfl, rfl, ?_⟩
  intro down
  obtain ⟨t, calls, gone, _⟩ := down
  cases gone

end Session

end MaxNet
