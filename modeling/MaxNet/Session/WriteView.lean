import Mathlib.Tactic.Tauto
import MaxNet.Session.Frames

namespace MaxNet

namespace Action

variable {M : Type}

def written? : Action M → Option M
  | write m => some m
  | _ => none

def handed? : Action M → Option M
  | asyncWrite m => some m
  | _ => none

def passedOn? : Action M → Option M
  | onWriteDone m => some m
  | _ => none

def freed? : Action M → Option M
  | deallocate m => some m
  | _ => none

end Action

/-- The write side of a session: the queue, the writes dispatched to `write_strand_` and those
    outstanding on the stream, and the messages of the calls made so far, in their order. -/
structure WriteView (M : Type) where
  queue : List M
  dispatched : List M
  outstanding : List M
  handled : Bool
  written : List M
  handed : List M
  passedOn : List M
  freed : List M

namespace WriteView

variable {M : Type}

def inFlight (v : WriteView M) : List M := v.dispatched ++ v.outstanding

/-- No handler is ever taken out again, so what was freed was freed before anything was passed on. -/
def released (v : WriteView M) : List M := v.freed ++ v.passedOn

def release (messages : List M) (v : WriteView M) : WriteView M :=
  if v.handled then { v with passedOn := v.passedOn ++ messages }
  else { v with freed := v.freed ++ messages }

def perform (inIoThread : Bool) (m : M) (v : WriteView M) : WriteView M :=
  if inIoThread then { v with outstanding := v.outstanding ++ [m], handed := v.handed ++ [m] }
  else { v with dispatched := v.dispatched ++ [m] }

def flush (v : WriteView M) : WriteView M := { v.release v.queue with queue := [] }

@[simp] theorem release_queue (ms : List M) (v : WriteView M) : (v.release ms).queue = v.queue := by
  unfold release; split <;> rfl

@[simp] theorem release_dispatched (ms : List M) (v : WriteView M) :
    (v.release ms).dispatched = v.dispatched := by
  unfold release; split <;> rfl

@[simp] theorem release_outstanding (ms : List M) (v : WriteView M) :
    (v.release ms).outstanding = v.outstanding := by
  unfold release; split <;> rfl

@[simp] theorem release_handled (ms : List M) (v : WriteView M) :
    (v.release ms).handled = v.handled := by
  unfold release; split <;> rfl

@[simp] theorem release_written (ms : List M) (v : WriteView M) :
    (v.release ms).written = v.written := by
  unfold release; split <;> rfl

@[simp] theorem release_handed (ms : List M) (v : WriteView M) :
    (v.release ms).handed = v.handed := by
  unfold release; split <;> rfl

@[simp] theorem release_nil (v : WriteView M) : v.release [] = v := by
  unfold release; split <;> simp

@[simp] theorem perform_queue (inIoThread : Bool) (m : M) (v : WriteView M) :
    (v.perform inIoThread m).queue = v.queue := by
  cases inIoThread <;> rfl

@[simp] theorem perform_written (inIoThread : Bool) (m : M) (v : WriteView M) :
    (v.perform inIoThread m).written = v.written := by
  cases inIoThread <;> rfl

@[simp] theorem perform_passedOn (inIoThread : Bool) (m : M) (v : WriteView M) :
    (v.perform inIoThread m).passedOn = v.passedOn := by
  cases inIoThread <;> rfl

@[simp] theorem perform_freed (inIoThread : Bool) (m : M) (v : WriteView M) :
    (v.perform inIoThread m).freed = v.freed := by
  cases inIoThread <;> rfl

@[simp] theorem perform_handled (inIoThread : Bool) (m : M) (v : WriteView M) :
    (v.perform inIoThread m).handled = v.handled := by
  cases inIoThread <;> rfl

theorem mem_inFlight_perform (inIoThread : Bool) (m x : M) (v : WriteView M) :
    x ∈ (v.perform inIoThread m).inFlight ↔ x ∈ v.inFlight ∨ x = m := by
  cases inIoThread <;> simp [perform, inFlight] <;> tauto

theorem release_released (ms : List M) (v : WriteView M) (late : v.handled = false → v.passedOn = []) :
    (v.release ms).released = v.released ++ ms := by
  cases hh : v.handled with
  | true => simp [release, released, hh]
  | false => simp [release, released, hh, late hh]

theorem flush_of_empty (v : WriteView M) (empty : v.queue = []) : v.flush = v := by
  unfold flush
  rw [empty, release_nil, ← empty]

end WriteView

namespace Session

variable {E M : Type}

def view (s : Session E M) : WriteView M where
  queue := s.msgQueue
  dispatched := s.writeStarts
  outstanding := s.writes
  handled := s.onWriteDone
  written := s.trace.filterMap Action.written?
  handed := s.trace.filterMap Action.handed?
  passedOn := s.trace.filterMap Action.passedOn?
  freed := s.trace.filterMap Action.freed?

theorem view_log (a : Action M) (s : Session E M) : (s.log a).view = { s.view with
    written := s.view.written ++ a.written?.toList
    handed := s.view.handed ++ a.handed?.toList
    passedOn := s.view.passedOn ++ a.passedOn?.toList
    freed := s.view.freed ++ a.freed?.toList } := by
  cases a <;> simp only [view, log, List.filterMap_append] <;> rfl

theorem view_log_other (a : Action M) (s : Session E M) (other : ¬ a.Writing) :
    (s.log a).view = s.view := by
  rw [view_log]
  cases a <;> simp [Action.Writing] at other <;>
    simp [Action.written?, Action.handed?, Action.passedOn?, Action.freed?]

theorem view_performWrite (inIoThread : Bool) (m : M) (s : Session E M) :
    (s.performWrite inIoThread m).view = s.view.perform inIoThread m := by
  cases inIoThread with
  | false => rfl
  | true =>
    simp only [performWrite, if_true, view_log]
    simp [WriteView.perform, view, Action.written?, Action.handed?, Action.passedOn?, Action.freed?]

theorem view_release (m : M) (s : Session E M) : (s.release m).view = s.view.release [m] := by
  unfold release WriteView.release
  change _ = if s.onWriteDone then _ else _
  split <;> rw [view_log] <;>
    simp [Action.written?, Action.handed?, Action.passedOn?, Action.freed?]

theorem view_releaseAll (ms : List M) (s : Session E M) (same : s.msgQueue = ms) :
    (releaseAll ms s).view = { s.view.release ms with queue := [] } := by
  induction ms generalizing s with
  | nil => simp [releaseAll, view, same]
  | cons m rest ih =>
    have popped : ({ s.release m with msgQueue := rest } : Session E M).view =
        { s.view.release [m] with queue := rest } := by
      rw [← view_release]
      rfl
    rw [releaseAll, ih _ rfl, popped]
    cases hh : s.onWriteDone <;> simp [WriteView.release, view, hh]

theorem view_exec (s : Session E M) (stmt : Stmt) (other : stmt ≠ .flushQueue) :
    (s.exec stmt).view = s.view := by
  cases stmt with
  | statusSet cd => rfl
  | disableStats => rfl
  | callOnReady ec =>
    simp only [exec, callOnReady]
    split
    · exact view_log_other _ _ (by simp [Action.Writing])
    · rfl
  | performRead =>
    simp only [exec, performRead]
    split
    · exact view_log_other _ _ (by simp [Action.Writing])
    · rfl
  | deliver bytes =>
    simp only [exec, callOnRead]
    split
    · exact view_log_other _ _ (by simp [Action.Writing])
    · rfl
  | consume bytes => rfl
  | flushQueue => exact absurd rfl other
  | callOnRead ec bytes =>
    simp only [exec, callOnRead]
    split
    · exact view_log_other _ _ (by simp [Action.Writing])
    · rfl

theorem view_exec_flush (s : Session E M) :
    (s.exec .flushQueue).view = if s.onWriteDone then s.view.flush else s.view := by
  simp only [exec]
  split
  · exact view_releaseAll s.msgQueue s rfl
  · rfl

theorem view_enter (s : Session E M) (stmt : Stmt) (rest : List Stmt) (other : stmt ≠ .flushQueue) :
    (s.enter (stmt :: rest)).view = s.view :=
  view_exec s stmt other

theorem view_handshakeHandler (s : Session E M) (ec : ErrorCode) :
    (s.enter (handshakeHandler ec)).view = s.view := by
  unfold handshakeHandler
  split <;> exact view_enter _ _ _ (by simp)

theorem view_acceptedHandler (s : Session E M) (ec : ErrorCode) :
    (s.enter (acceptedHandler ec)).view = s.view := by
  unfold acceptedHandler
  split <;> exact view_enter _ _ _ (by simp)

theorem view_readHandler (s : Session E M) (ec : ErrorCode) (bytes : Nat) :
    (s.enter (readHandler ec bytes)).view = s.view := by
  unfold readHandler
  split
  · exact view_enter _ _ _ (by simp)
  · split <;> exact view_enter _ _ _ (by simp)

inductive WriteDone (m : M) (v : WriteView M) : WriteView M → Prop
  | nothing (empty : v.queue = []) : WriteDone m v v
  | last (front : M) (queue : v.queue = [front]) :
    WriteDone m v { v.release [m] with queue := [] }
  | next (front second : M) (rest : List M) (queue : v.queue = front :: second :: rest) :
    WriteDone m v ({ v.release [m] with queue := second :: rest }.perform true second)
  | clear (front second : M) (rest : List M) (queue : v.queue = front :: second :: rest) :
    WriteDone m v { v.release (m :: second :: rest) with queue := [] }

theorem view_writeCompleteHandler (bytes : Nat) (m : M) (s : Session E M) :
    WriteDone m s.view (s.writeCompleteHandler bytes m).view := by
  let t := s.countOutbound bytes
  have counted : t.view = s.view := rfl
  have pop (u : Session E M) (rest : List M) :
      ({ u with msgQueue := rest } : Session E M).view = { u.view with queue := rest } := rfl
  have released (rest : List M) :
      ({ t with msgQueue := rest }.release m).view = { t.view.release [m] with queue := rest } := by
    rw [view_release, pop]
    cases hh : t.onWriteDone <;> simp [WriteView.release, view, hh]
  rw [← counted]
  cases hq : t.msgQueue with
  | nil =>
    have unchanged : s.writeCompleteHandler bytes m = t := by
      simp only [writeCompleteHandler, t, hq]
    rw [unchanged]
    exact .nothing hq
  | cons front rest =>
    cases rest with
    | nil =>
      have empty : s.writeCompleteHandler bytes m = { t with msgQueue := [] }.release m := by
        simp only [writeCompleteHandler, t, hq]
      rw [empty, released]
      exact .last front hq
    | cons second rest =>
      let u := { t with msgQueue := second :: rest }.release m
      have released : u.view = { t.view.release [m] with queue := second :: rest } := released (second :: rest)
      have waiting : s.writeCompleteHandler bytes m =
          if u.wsOpen then u.performWrite true second else releaseAll (second :: rest) u := by
        simp only [writeCompleteHandler, t, u, hq]
      rw [waiting]
      split
      · rw [view_performWrite, released]
        exact .next front second rest hq
      · have same : u.msgQueue = second :: rest := congrArg WriteView.queue released
        rw [view_releaseAll _ _ same, released]
        have clear := WriteDone.clear (m := m) (v := t.view) front second rest hq
        cases hh : t.onWriteDone <;> simpa [WriteView.release, view, hh] using clear

def Event.Quiet : Event E M → Prop
  | .write _ _ | .writeStart _ | .written _ _ _ => False
  | _ => True

inductive WriteStep [DecidableEq M] (v : WriteView M) : Event E M → WriteView M → Prop
  | other (e : Event E M) (quiet : e.Quiet) : WriteStep v e v
  | install : WriteStep v .setOnWriteDone { v with handled := true }
  | submit (inIoThread : Bool) (m : M) (idle : v.queue = []) :
    WriteStep v (.write inIoThread m)
      ({ v with queue := [m], written := v.written ++ [m] }.perform inIoThread m)
  | enqueue (inIoThread : Bool) (m : M) (busy : v.queue ≠ []) :
    WriteStep v (.write inIoThread m) { v with queue := v.queue ++ [m], written := v.written ++ [m] }
  | start (m : M) (member : m ∈ v.dispatched) :
    WriteStep v (.writeStart m) { v with
      dispatched := v.dispatched.erase m
      outstanding := v.outstanding ++ [m]
      handed := v.handed ++ [m] }
  | done (m : M) (ec : ErrorCode) (bytes : Nat) (w : WriteView M) (member : m ∈ v.outstanding)
    (done : WriteDone m { v with outstanding := v.outstanding.erase m } w) :
    WriteStep v (.written m ec bytes) w

def Flushes (s : Session E M) : Event E M → Prop
  | .strandStep => s.readStrand.head? = some .flushQueue ∧ s.onWriteDone = true
  | _ => False

theorem view_write [DecidableEq M] (inIoThread : Bool) (m : M) (s : Session E M) :
    WriteStep s.view (Event.write (E := E) inIoThread m) (s.write inIoThread m).view := by
  let t := { s with msgQueue := s.msgQueue ++ [m] }.log (.write m)
  have logged : t.view =
      { s.view with queue := s.msgQueue ++ [m], written := s.view.written ++ [m] } := by
    rw [view_log]
    simp [view, Action.written?, Action.handed?, Action.passedOn?, Action.freed?]
  have queue : t.msgQueue = s.msgQueue ++ [m] := rfl
  change WriteStep s.view _
    (if t.msgQueue.length < 2 then t.performWrite inIoThread m else t).view
  by_cases idle : s.msgQueue = []
  · have short : t.msgQueue.length < 2 := by simp [queue, idle]
    rw [if_pos short, view_performWrite, logged, idle]
    exact .submit inIoThread m idle
  · have long : ¬ t.msgQueue.length < 2 := by
      have positive := List.length_pos_iff.mpr idle
      simp only [queue, List.length_append, List.length_singleton]
      omega
    rw [if_neg long, logged]
    exact .enqueue inIoThread m idle

theorem view_closeHandler (ec : ErrorCode) (s : Session E M) : (s.closeHandler ec).view = s.view := by
  unfold closeHandler
  simp only
  split <;> split <;>
    first
    | rfl
    | exact view_log_other _ _ (by simp [Action.Writing])

theorem view_connectHandler (ec : ErrorCode) (url : NetUrl E) (s : Session E M) :
    (s.connectHandler ec url).view = s.view := by
  unfold connectHandler
  split
  · exact view_log_other _ _ (by simp [Action.Writing])
  · unfold callOnReady
    split
    · exact view_log_other _ _ (by simp [Action.Writing])
    · rfl

theorem view_close (s : Session E M) : s.close.view = s.view := by
  unfold close
  simp only
  split <;> rfl

theorem step_view [DecidableEq E] [DecidableEq M] {s t : Session E M} {e : Event E M}
    (h : s.step e = some t) :
    WriteStep s.view e t.view ∨ (s.Flushes e ∧ t.view = s.view.flush) := by
  have same {e : Event E M} (quiet : e.Quiet) (kept : t.view = s.view) :
      WriteStep s.view e t.view ∨ (s.Flushes e ∧ t.view = s.view.flush) :=
    Or.inl (kept ▸ WriteStep.other e quiet)
  cases step_cases h with
  | setOnReady => exact same True.intro rfl
  | setOnRead => exact same True.intro rfl
  | setOnClose => exact same True.intro rfl
  | setOnWriteDone => exact Or.inl .install
  | connect url => exact same True.intro (view_log_other _ _ (by simp [Action.Writing]))
  | accept => exact same True.intro (view_log_other _ _ (by simp [Action.Writing]))
  | write inIoThread m => exact Or.inl (view_write inIoThread m s)
  | close => exact same True.intro (view_close s)
  | connected url ec => exact same True.intro (view_connectHandler ec url _)
  | handshaken ec => exact same True.intro (view_handshakeHandler _ ec)
  | accepted ec => exact same True.intro (view_acceptedHandler _ ec)
  | writeStart m member =>
    have start := WriteStep.start (E := E) (v := s.view) m member
    rw [view_log]
    apply Or.inl ?_
    simpa [view, Action.written?, Action.handed?, Action.passedOn?, Action.freed?] using start
  | written m ec bytes member =>
    exact Or.inl (.done m ec bytes _ member
      (view_writeCompleteHandler bytes m { s with writes := s.writes.erase m }))
  | received pieces => exact same True.intro (view_readHandler _ _ _)
  | readFailed ec pieces => exact same True.intro (view_readHandler _ _ _)
  | strandStep stmt rest busy =>
    by_cases flush : stmt = .flushQueue
    · subst flush
      rw [view_exec_flush]
      by_cases handled : s.onWriteDone = true
      · right
        exact ⟨⟨by rw [busy]; rfl, handled⟩, if_pos handled⟩
      · left
        rw [if_neg handled]
        exact WriteStep.other _ True.intro
    · exact same True.intro (view_exec _ stmt flush)
  | closeStart => exact same True.intro (view_log_other _ _ (by simp [Action.Writing]))
  | closed ec => exact same True.intro (view_closeHandler ec _)
  | closeTimerExpires => exact same True.intro rfl
  | closeTimerFires wait ec =>
    refine same True.intro ?_
    unfold closeTimeout
    split <;> rfl
  | streamCloses => exact same True.intro rfl

end Session

end MaxNet
