import MaxNet.Lib.Drain
import MaxNet.Session.Life
import MaxNet.Session.WriteOrder

namespace MaxNet

def Stmt.work : Stmt → Nat
  | performRead => 5
  | _ => 1

def Wait.work : Wait → Nat
  | armed => 2
  | _ => 1

def WriteView.work {M : Type} (v : WriteView M) : Nat := 2 * v.dispatched.length + v.outstanding.length + v.queue.length

namespace Session

variable {E M : Type}

def pending (s : Session E M) : Nat :=
  8 * s.connects.length + 7 * s.handshakes + 7 * s.accepts + 4 * s.reads + 3 * s.inbox.length +
    2 * s.closeStarts + s.closes + (s.closeWaits.map Wait.work).sum

def strandWork (strand : List Stmt) : Nat := (strand.map Stmt.work).sum

def work (s : Session E M) : Nat := s.pending + strandWork s.readStrand + s.view.work

def Event.own : Event E M → Bool
  | .setOnReady | .setOnRead | .setOnClose | .setOnWriteDone | .connect _ | .accept | .write _ _ | .close
  | .streamCloses => false
  | _ => true

def Event.cost : Event E M → Nat
  | .connect _ => 8
  | .accept => 7
  | .write _ _ => 3
  | .close => 4
  | _ => 0

theorem writeBlind_pending : WriteBlind (pending : Session E M → Nat) where
  log := fun _ _ _ => rfl
  msgQueue := fun _ _ => rfl
  writeStarts := fun _ _ => rfl
  writes := fun _ _ => rfl
  stats := fun _ _ => rfl

theorem readStrand_exec (s : Session E M) (stmt : Stmt) : (s.exec stmt).readStrand = s.readStrand := by
  have same := congrArg ReadView.strand (readView_exec s stmt)
  rwa [strand_exec] at same

theorem pending_call (c : Prop) [Decidable c] (a : Action M) (s : Session E M) :
    (if c then s.log a else s).pending = s.pending := by
  split <;> rfl

theorem pending_exec (s : Session E M) (stmt : Stmt) : (s.exec stmt).pending + 1 ≤ s.pending + stmt.work := by
  cases stmt with
  | callOnReady ec => exact Nat.le_of_eq (congrArg (· + 1) (pending_call _ _ s))
  | performRead =>
    show s.performRead.pending + 1 ≤ s.pending + 5
    unfold performRead
    split
    · simp only [pending, log]
      omega
    · omega
  | deliver bytes => exact Nat.le_of_eq (congrArg (· + 1) (pending_call _ _ (s.countInbound bytes)))
  | callOnRead ec bytes => exact Nat.le_of_eq (congrArg (· + 1) (pending_call _ _ s))
  | flushQueue =>
    simp only [exec]
    split
    · exact Nat.le_of_eq (congrArg (· + 1) (writeBlind_pending.releaseAll _ s))
    · exact Nat.le_refl _
  | _ => exact Nat.le_refl _

theorem strandWork_cons (stmt : Stmt) (rest : List Stmt) : strandWork (stmt :: rest) = stmt.work + strandWork rest := by
  simp [strandWork]

/-- What is left of a handler after its first statement. -/
theorem enter_work (stmt : Stmt) (rest : List Stmt) (s : Session E M) :
    (s.enter (stmt :: rest)).pending + strandWork (s.enter (stmt :: rest)).readStrand + 1 ≤
      s.pending + strandWork (stmt :: rest) := by
  have first := pending_exec s stmt
  have strand : (s.enter (stmt :: rest)).readStrand = rest := rfl
  have kept : (s.enter (stmt :: rest)).pending = (s.exec stmt).pending := rfl
  rw [strand, kept, strandWork_cons]
  omega

theorem strandWork_handshakeHandler (ec : ErrorCode) :
    ∃ stmt rest, handshakeHandler ec = stmt :: rest ∧ strandWork (stmt :: rest) ≤ 7 := by
  unfold handshakeHandler
  split <;> exact ⟨_, _, rfl, by simp [strandWork, Stmt.work]⟩

theorem strandWork_acceptedHandler (ec : ErrorCode) :
    ∃ stmt rest, acceptedHandler ec = stmt :: rest ∧ strandWork (stmt :: rest) ≤ 7 := by
  unfold acceptedHandler
  split <;> exact ⟨_, _, rfl, by simp [strandWork, Stmt.work]⟩

theorem strandWork_readHandler (ec : ErrorCode) (bytes : Nat) :
    ∃ stmt rest, readHandler ec bytes = stmt :: rest ∧ strandWork (stmt :: rest) ≤ if ec.failed then 4 else 7 := by
  unfold readHandler
  cases failed : ec.failed with
  | true =>
    simp only [Bool.not_true, Bool.false_eq_true, if_false]
    split <;> exact ⟨_, _, rfl, by simp [strandWork, Stmt.work]⟩
  | false => exact ⟨_, _, rfl, by simp [strandWork, Stmt.work]⟩

/-- A handler that starts on `read_strand_` is paid for by the operation that has completed. -/
theorem enter_le {body : List Stmt} {cost : Nat} {s u : Session E M}
    (bound : ∃ stmt rest, body = stmt :: rest ∧ strandWork (stmt :: rest) ≤ cost) (free : s.readStrand = [])
    (paid : u.pending + cost ≤ s.pending) :
    (u.enter body).pending + strandWork (u.enter body).readStrand + 1 ≤ s.pending + strandWork s.readStrand := by
  obtain ⟨stmt, rest, rfl, bound⟩ := bound
  have entered := enter_work stmt rest u
  rw [free]
  omega

theorem work_cancel (waits : List Wait) : ((waits.map Wait.cancel).map Wait.work).sum ≤ (waits.map Wait.work).sum := by
  induction waits with
  | nil => exact Nat.le_refl _
  | cons wait waits ih =>
    have one : wait.cancel.work ≤ wait.work := by cases wait <;> decide
    simp only [List.map_cons, List.sum_cons]
    omega

theorem work_erase {wait : Wait} {waits : List Wait} (member : wait ∈ waits) :
    (waits.map Wait.work).sum = wait.work + ((waits.erase wait).map Wait.work).sum := by
  have moved := ((List.perm_cons_erase member).map Wait.work).sum_nat
  simpa using moved

theorem pending_close (s : Session E M) : s.close.pending ≤ s.pending + 4 := by
  have cancelled := work_cancel s.closeWaits
  unfold close
  simp only
  split <;> simp only [pending, disableStats, List.map_append, List.map_cons, List.map_nil, List.sum_append, List.sum_cons,
    List.sum_nil, Wait.work] <;> omega

theorem pending_closeHandler (ec : ErrorCode) (s : Session E M) : (s.closeHandler ec).pending ≤ s.pending := by
  have cancelled := work_cancel s.closeWaits
  unfold closeHandler
  simp only [pending_call]
  split <;> simp only [pending] <;> omega

theorem pending_connectHandler (ec : ErrorCode) (url : NetUrl E) (s : Session E M) :
    (s.connectHandler ec url).pending ≤ s.pending + 7 := by
  unfold connectHandler
  split
  · simp only [pending, log]
    omega
  · unfold callOnReady
    rw [pending_call]
    exact Nat.le_add_right _ _

variable [DecidableEq E] [DecidableEq M] {s t : Session E M} {e : Event E M}

theorem view_work_quiet (quiet : e.Quiet) (h : s.step e = some t) : t.view.work ≤ s.view.work := by
  rcases step_view h with step | ⟨_, same⟩
  · generalize t.view = w at step
    cases step with
    | other => exact Nat.le_refl _
    | install => exact Nat.le_refl _
    | submit | enqueue | start | done => exact quiet.elim
  · rw [same]
    simp [WriteView.work, WriteView.flush]

omit [DecidableEq E] in
theorem view_work_write (inIoThread : Bool) (m : M) (s : Session E M) :
    (s.write inIoThread m).view.work ≤ s.view.work + 3 := by
  have step := view_write inIoThread m s
  generalize (s.write inIoThread m).view = w at step
  cases step with
  | other e quiet => exact quiet.elim
  | submit inIoThread m idle =>
    cases inIoThread <;> simp [WriteView.work, WriteView.perform, idle] <;> omega
  | enqueue inIoThread m busy =>
    simp only [WriteView.work, List.length_append, List.length_singleton]
    omega

omit [DecidableEq E] in
theorem view_work_written {m : M} (member : m ∈ s.writes) (bytes : Nat) :
    (({ s with writes := s.writes.erase m } : Session E M).writeCompleteHandler bytes m).view.work + 1 ≤ s.view.work := by
  have done := view_writeCompleteHandler bytes m { s with writes := s.writes.erase m }
  have length : (s.writes.erase m).length + 1 = s.writes.length := by
    have positive := List.length_pos_of_mem member
    rw [List.length_erase_of_mem member]
    omega
  generalize (({ s with writes := s.writes.erase m } : Session E M).writeCompleteHandler bytes m).view = w at done
  have before : s.view.work = 2 * s.writeStarts.length + s.writes.length + s.msgQueue.length := rfl
  rw [before]
  cases done with
  | nothing empty => simp only [WriteView.work, view]; omega
  | last front queue => simp [WriteView.work, view]; omega
  | next front second rest queue =>
    have waiting : s.msgQueue = front :: second :: rest := queue
    simp [WriteView.work, WriteView.perform, view, waiting]
    omega
  | clear front second rest queue => simp [WriteView.work, view]; omega

/-- A handler that is not one of writes leaves less to do for those that are not. -/
theorem pending_step (silent : e.Quiet) (h : s.step e = some t) :
    t.pending + strandWork t.readStrand + (if e.own then 1 else 0) ≤ s.pending + strandWork s.readStrand + e.cost := by
  cases step_cases h with
  | write | writeStart | written => exact silent.elim
  | setOnReady | setOnRead | setOnClose | setOnWriteDone | streamCloses => exact Nat.le_refl _
  | connect url =>
    simp only [pending, log, List.length_append, List.length_singleton, Event.own, Event.cost, Bool.false_eq_true, if_false]
    omega
  | accept =>
    simp only [accept, pending, log, Event.own, Event.cost, Bool.false_eq_true, if_false]
    omega
  | close =>
    have more := pending_close s
    have strand : s.close.readStrand = s.readStrand := congrArg ReadView.strand (readView_close s)
    simp only [strand, Event.own, Event.cost, Bool.false_eq_true, if_false]
    omega
  | connected url ec member =>
    let u : Session E M := { s with connects := s.connects.erase url }
    have more := pending_connectHandler ec url u
    have less : u.pending + 8 = s.pending := by
      have positive := List.length_pos_of_mem member
      simp only [u, pending, List.length_erase_of_mem member]
      omega
    have strand : (u.connectHandler ec url).readStrand = s.readStrand := by
      have same := congrArg ReadView.strand (readView_connectHandler ec url u)
      split at same
      · exact same.trans (strand_call _ _ _)
      · exact same
    show (u.connectHandler ec url).pending + strandWork (u.connectHandler ec url).readStrand + 1 ≤ _
    rw [strand]
    omega
  | handshaken ec positive free =>
    apply enter_le (strandWork_handshakeHandler ec) free
    simp only [pending]
    omega
  | accepted ec positive free =>
    apply enter_le (strandWork_acceptedHandler ec) free
    simp only [pending]
    omega
  | received pieces message rest next positive free whole =>
    apply enter_le (strandWork_readHandler .success message.payload.length) free
    simp only [pending, next, List.length_cons, ErrorCode.success_not_failed, Bool.false_eq_true, if_false]
    omega
  | readFailed ec pieces positive free failed =>
    apply enter_le (strandWork_readHandler ec pieces.flatten.length) free
    simp only [pending, failed, if_true]
    omega
  | strandStep stmt rest busy =>
    have first := pending_exec ({ s with readStrand := rest } : Session E M) stmt
    have strand := readStrand_exec ({ s with readStrand := rest } : Session E M) stmt
    have kept : ({ s with readStrand := rest } : Session E M).pending = s.pending := rfl
    rw [strand, busy, strandWork_cons]
    simp only [Event.own, Event.cost, if_true]
    omega
  | closeStart positive =>
    simp only [pending, log, Event.own, Event.cost, if_true]
    omega
  | closed ec positive =>
    let u : Session E M := { s with closes := s.closes - 1 }
    have kept := pending_closeHandler ec u
    have less : u.pending + 1 = s.pending := by
      simp only [u, pending]
      omega
    have strand : (u.closeHandler ec).readStrand = s.readStrand := congrArg ReadView.strand (readView_closeHandler ec u)
    show (u.closeHandler ec).pending + strandWork (u.closeHandler ec).readStrand + 1 ≤ _
    rw [strand]
    omega
  | closeTimerExpires member =>
    have moved := work_erase member
    simp only [pending, List.map_append, List.map_cons, List.map_nil, List.sum_append, List.sum_cons, List.sum_nil,
      Wait.work, Event.own, Event.cost, if_true] at moved ⊢
    omega
  | closeTimerFires wait ec result member =>
    have moved := work_erase member
    have positive : 1 ≤ wait.work := by cases wait <;> decide
    let u : Session E M := { s with closeWaits := s.closeWaits.erase wait }
    have kept : (u.closeTimeout ec).pending = u.pending ∧ (u.closeTimeout ec).readStrand = s.readStrand := by
      unfold closeTimeout
      split <;> exact ⟨rfl, rfl⟩
    show (u.closeTimeout ec).pending + strandWork (u.closeTimeout ec).readStrand + 1 ≤ _
    rw [kept.1, kept.2]
    simp only [u, pending, Event.cost]
    omega

/-- Every handler that runs leaves less to do. -/
theorem step_work (h : s.step e = some t) : t.work + (if e.own then 1 else 0) ≤ s.work + e.cost := by
  by_cases silent : e.Quiet
  · have view := view_work_quiet silent h
    have rest := pending_step silent h
    unfold work
    omega
  cases step_cases h with
  | write inIoThread m =>
    have view := view_work_write inIoThread m s
    have kept : (s.write inIoThread m).pending = s.pending := writeBlind_pending.write inIoThread m s
    have strand : (s.write inIoThread m).readStrand = s.readStrand :=
      congrArg ReadView.strand (writeBlind_readView.write inIoThread m s)
    simp only [work, kept, strand, Event.own, Event.cost, Bool.false_eq_true, if_false]
    omega
  | writeStart m member =>
    have positive := List.length_pos_of_mem member
    show s.pending + strandWork s.readStrand +
      (2 * (s.writeStarts.erase m).length + (s.writes ++ [m]).length + s.msgQueue.length) + 1 ≤
      s.pending + strandWork s.readStrand + (2 * s.writeStarts.length + s.writes.length + s.msgQueue.length) + 0
    rw [List.length_erase_of_mem member, List.length_append, List.length_singleton]
    omega
  | written m ec bytes member =>
    let u : Session E M := { s with writes := s.writes.erase m }
    have view : (u.writeCompleteHandler bytes m).view.work + 1 ≤ s.view.work := view_work_written member bytes
    have kept : (u.writeCompleteHandler bytes m).pending = s.pending :=
      writeBlind_pending.writeCompleteHandler bytes m u
    have strand : (u.writeCompleteHandler bytes m).readStrand = s.readStrand :=
      congrArg ReadView.strand (writeBlind_readView.writeCompleteHandler bytes m u)
    show (u.writeCompleteHandler bytes m).work + 1 ≤ s.work + 0
    simp only [work, kept, strand]
    omega
  | _ => exact absurd True.intro silent

theorem drains : (machine E M).Drains Event.own work Event.cost where
  step := fun _ _ _ h => step_work h
  free := fun e self => by cases e <;> first | rfl | cases self

/-- The io context has run out of work exactly where no operation and no wait is left. -/
theorem atRest_iff (s : Session E M) : (machine E M).AtRest Event.own s ↔ s.Idle ∧ s.closeWaits = [] := by
  constructor
  · intro rest
    have never {e : Event E M} {t : Session E M} (self : e.own = true) : s.step e ≠ some t := rest e t self
    have strand : s.readStrand = [] := by
      cases busy : s.readStrand with
      | nil => rfl
      | cons stmt later => exact absurd (by simp only [step, busy]; rfl) (never (e := .strandStep) rfl)
    have none {α : Type} {operations : List α} (some : ∀ a ∈ operations, False) : operations = [] :=
      List.eq_nil_iff_forall_not_mem.mpr some
    have zero {n : Nat} (some : 0 < n → False) : n = 0 := by
      by_contra positive
      exact some (Nat.pos_of_ne_zero positive)
    refine ⟨⟨?_, ?_, ?_, ?_, ?_, ?_, strand, ?_, ?_⟩, ?_⟩
    · exact none fun url member => never (e := .connected url .success) rfl (if_pos member)
    · exact zero fun positive => never (e := .handshaken .success) rfl (if_pos ⟨positive, strand⟩)
    · exact zero fun positive => never (e := .accepted .success) rfl (if_pos ⟨positive, strand⟩)
    · exact none fun m member => never (e := .writeStart m) rfl (if_pos member)
    · exact none fun m member => never (e := .written m .success 0) rfl (if_pos member)
    · exact zero fun positive => never (e := .readFailed .closed []) rfl (if_pos ⟨positive, strand, rfl⟩)
    · exact zero fun positive => never (e := .closeStart) rfl (if_pos positive)
    · exact zero fun positive => never (e := .closed .success) rfl (if_pos positive)
    · apply none
      intro wait member
      cases wait with
      | armed => exact never (e := .closeTimerExpires) rfl (if_pos member)
      | expired => exact never (e := .closeTimerFires .expired) rfl (if_pos member)
      | cancelled => exact never (e := .closeTimerFires .cancelled) rfl (if_pos member)
  · rintro ⟨⟨connects, handshakes, accepts, writeStarts, writes, reads, strand, closeStarts, closes⟩, waits⟩ e t self h
    cases step_cases h with
    | connected url ec member => simp [connects] at member
    | handshaken ec positive => omega
    | accepted ec positive => omega
    | writeStart m member => simp [writeStarts] at member
    | written m ec bytes member => simp [writes] at member
    | received pieces message rest next positive => omega
    | readFailed ec pieces positive => omega
    | strandStep stmt rest busy => simp [strand] at busy
    | closeStart positive => omega
    | closed ec positive => omega
    | closeTimerExpires member => simp [waits] at member
    | closeTimerFires wait ec result member => simp [waits] at member
    | _ => cases self

structure Settled (s : Session E M) : Prop where
  idle : s.Idle
  no_waits : s.closeWaits = []
  empty : s.msgQueue = []
  freed : ∀ m ∈ s.view.written, s.view.freed.count m = 1

theorem settled_of_rest {q : SerialQueue M} (refines : s.view.Refines q) (unhandled : s.onWriteDone = false)
    (still : (machine E M).AtRest Event.own s) : s.Settled := by
  obtain ⟨idle, waits⟩ := (atRest_iff s).mp still
  obtain ⟨empty, freed⟩ := (writes_in_order_of_refines refines unhandled).drained idle
  exact ⟨idle, waits, empty, freed⟩

omit [DecidableEq E] [DecidableEq M] in
theorem plain_of_own {es : List (Event E M)} (all : ∀ e ∈ es, e.own = true) : ∀ s : Session E M, ∀ e ∈ es, s.PlainWrites e := by
  intro s e member
  have self := all e member
  cases e with
  | setOnWriteDone => cases self
  | write inIoThread m => cases self
  | _ => exact True.intro

/-- The io context cannot be kept busy by a session alone. What runs is bounded by what was asked for and what
    came in; without further calls the session comes to rest, by whatever way, and is settled then. An operation that was
    started completes: a read to which nothing more arrives completes with an error. -/
theorem runs_dry (role : Role) (inbox : List WsMessage) (es : List (Event E M)) (s : Session E M)
    (ran : (machine E M).run (initial role inbox) es = some s)
    (plain : (machine E M).Each PlainWrites (initial role inbox) es) :
    es.countP Event.own ≤ 3 * inbox.length + (es.map Event.cost).sum ∧
      (∃ rest t, (machine E M).run s rest = some t ∧ (∀ e ∈ rest, e.own = true) ∧ (machine E M).AtRest Event.own t) ∧
      ∀ rest t, (machine E M).run s rest = some t → (∀ e ∈ rest, e.own = true) →
        rest.length ≤ s.work ∧ ((machine E M).AtRest Event.own t → t.Settled) := by
  have start : (initial role inbox : Session E M).work = 3 * inbox.length := by
    simp [work, pending, strandWork, WriteView.work, view, initial]
  refine ⟨?_, drains.exists_rest s, ?_⟩
  · have bound := drains.run ran
    omega
  · intro rest t later all
    have bound := drains.own_run later all
    refine ⟨by omega, ?_⟩
    intro still
    have whole : (machine E M).run (initial role inbox) (es ++ rest) = some t :=
      Transition.System.run_append_some.mpr ⟨s, ran, later⟩
    have each : (machine E M).Each PlainWrites (initial role inbox) (es ++ rest) :=
      plain.append ran (Transition.System.each_of_forall (plain_of_own all))
    obtain ⟨⟨q, refines⟩, unhandled⟩ := plain_run role inbox (es ++ rest) t whole each
    exact settled_of_rest refines unhandled still

def closesEarly : List (Event Unit Nat) :=
  opening ++ [.write false 1, .write true 2, .close]

theorem runs_dry_closesEarly : ∃ s rest t, (machine Unit Nat).run (initial .client []) closesEarly = some s ∧
    (machine Unit Nat).run s rest = some t ∧ t.Settled := by
  have ran : ((machine Unit Nat).run (initial .client []) closesEarly).isSome = true := by decide
  obtain ⟨s, final⟩ := Option.isSome_iff_exists.mp ran
  obtain ⟨-, ⟨rest, t, later, all, still⟩, settled⟩ := runs_dry .client [] closesEarly s final (by decide)
  exact ⟨s, rest, t, final, later, (settled rest t later all).2 still⟩

end Session

end MaxNet
