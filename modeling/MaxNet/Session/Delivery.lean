import MaxNet.Session.Life
import MaxNet.Session.Link

namespace MaxNet

def WriteView.entered {M : Type} (v : WriteView M) : List M := v.released ++ v.outstanding

theorem WriteView.Refines.entered_first {M : Type} {v : WriteView M} {q : SerialQueue M} (r : v.Refines q) :
    v.entered <+: v.written := by
  have order : v.released ++ v.queue = v.written := by rw [← r.finished, ← r.waiting, ← q.order, r.submitted]
  rw [← order]
  apply (List.prefix_append_right_inj v.released).mpr
  cases hd : v.dispatched with
  | nil =>
    have flight := r.flight
    rw [inFlight, hd, List.nil_append] at flight
    exact flight ▸ List.take_prefix 1 v.queue
  | cons m rest =>
    obtain ⟨_, none, _⟩ := r.singleton_of_dispatched (m := m) (by rw [hd]; exact List.mem_cons_self)
    exact none ▸ List.nil_prefix

namespace Session

variable {E M : Type} [DecidableEq E] [DecidableEq M] {s t : Session E M} {e : Event E M} {q : SerialQueue M}

omit [DecidableEq E] [DecidableEq M] in
theorem release_fields (m : M) (s : Session E M) :
    (s.release m).wsOpen = s.wsOpen ∧ (s.release m).msgQueue = s.msgQueue := by
  unfold release
  split <;> exact ⟨rfl, rfl⟩

omit [DecidableEq E] [DecidableEq M] in
/-- The queue is not cleared while the stream is open. -/
theorem msgQueue_writeCompleteHandler (bytes : Nat) (m : M) (s : Session E M) (isOpen : s.wsOpen = true) :
    (s.writeCompleteHandler bytes m).msgQueue = s.msgQueue.tail := by
  have queue : (s.countOutbound bytes).msgQueue = s.msgQueue := rfl
  simp only [writeCompleteHandler, queue]
  cases hq : s.msgQueue with
  | nil => exact hq
  | cons front rest =>
    obtain ⟨stream, popped⟩ := release_fields m { s.countOutbound bytes with msgQueue := rest }
    cases rest with
    | nil => exact popped
    | cons next rest =>
      simp only
      rw [if_pos (stream.trans isOpen)]
      exact popped

omit [DecidableEq E] [DecidableEq M] in
theorem sends_of_handed {sent : List M} (isOpen : s.wsOpen = true)
    (handed : t.view.handed = s.view.handed ++ sent) : s.sends t = sent := by
  rw [sends, if_pos isOpen, handed, List.drop_left]

omit [DecidableEq E] [DecidableEq M] in
theorem sends_closed (closed : s.wsOpen = false) : s.sends t = [] := by
  rw [sends, closed]
  rfl

theorem queue_written {m : M} {ec : ErrorCode} {bytes : Nat} (isOpen : s.wsOpen = true)
    (h : s.step (.written m ec bytes) = some t) : t.view.queue = s.view.queue.tail := by
  cases step_cases h with
  | written m ec bytes member => exact msgQueue_writeCompleteHandler bytes m _ isOpen

theorem entered_done {m : M} {ec : ErrorCode} {bytes : Nat} (r : s.view.Refines q) (isOpen : s.wsOpen = true)
    (h : s.step (.written m ec bytes) = some t) (member : m ∈ s.view.outstanding)
    (done : WriteDone m { s.view with outstanding := s.view.outstanding.erase m } t.view) :
    t.view.entered = s.view.entered ++ s.sends t := by
  obtain ⟨none, single, tail, hq⟩ := r.singleton_of_outstanding member
  have popped := queue_written isOpen h
  have released := WriteView.release_released [m] { s.view with outstanding := s.view.outstanding.erase m } r.late
  generalize ht : t.view = w at done popped
  cases done with
  | nothing empty => simp [hq] at empty
  | last front queue =>
    have sent : s.sends t = [] := sends_of_handed isOpen (by simp [ht])
    rw [sent, WriteView.entered, WriteView.entered, single, List.append_nil]
    simpa [WriteView.released, single] using released
  | next front second rest queue =>
    have sent : s.sends t = [second] := sends_of_handed isOpen (by simp [ht, WriteView.perform])
    rw [sent, WriteView.entered, WriteView.entered, single]
    have begun := congrArg (· ++ [second]) released
    simpa [WriteView.released, WriteView.perform, single] using begun
  | clear front second rest queue =>
    have waiting : s.view.queue = front :: second :: rest := queue
    rw [waiting] at popped
    cases popped

/-- While the stream is open, the messages whose write begins are those that are put on the wire. -/
theorem entered_step (r : s.view.Refines q) (plain : s.PlainWrites e) (unhandled : s.onWriteDone = false)
    (isOpen : s.wsOpen = true) (h : s.step e = some t) : t.view.entered = s.view.entered ++ s.sends t := by
  rcases step_view h with step | ⟨flushes, _⟩
  · generalize ht : t.view = w at step
    cases step with
    | other =>
      have sent : s.sends t = [] := sends_of_handed isOpen (by rw [ht, List.append_nil])
      rw [sent, List.append_nil]
    | install => exact plain.elim
    | submit inIoThread m idle =>
      cases inIoThread with
      | true =>
        have sent : s.sends t = [m] := sends_of_handed isOpen (by rw [ht]; rfl)
        rw [sent, WriteView.entered, WriteView.entered, List.append_assoc]
        rfl
      | false =>
        have sent : s.sends t = [] := sends_of_handed isOpen (by rw [ht, List.append_nil]; rfl)
        rw [sent, List.append_nil]
        rfl
    | enqueue inIoThread m busy =>
      have sent : s.sends t = [] := sends_of_handed isOpen (by rw [ht, List.append_nil])
      rw [sent, List.append_nil]
      rfl
    | start m member =>
      have sent : s.sends t = [m] := sends_of_handed isOpen (by rw [ht])
      rw [sent, WriteView.entered, WriteView.entered, List.append_assoc]
      rfl
    | done m ec bytes w member done =>
      rw [← ht] at done ⊢
      exact entered_done r isOpen h member done
  · cases e with
    | strandStep => exact absurd (flushes.2.symm.trans unhandled) (by simp)
    | _ => exact flushes.elim

theorem written_step (h : s.step e = some t) :
    t.view.written = s.view.written ∨ ∃ inIoThread m, e = .write inIoThread m ∧ t.view.written = s.view.written ++ [m] := by
  rcases step_view h with step | ⟨_, same⟩
  · generalize t.view = w at step
    cases step with
    | submit inIoThread m => exact Or.inr ⟨inIoThread, m, rfl, WriteView.perform_written inIoThread m _⟩
    | enqueue inIoThread m => exact Or.inr ⟨inIoThread, m, rfl, rfl⟩
    | done m ec bytes w member done => cases done <;> simp
    | _ => exact Or.inl rfl
  · exact Or.inl (by simp [same, WriteView.flush])

omit [DecidableEq E] in
theorem written_write (inIoThread : Bool) (m : M) (s : Session E M) :
    (s.write inIoThread m).view.written = s.view.written ++ [m] := by
  have step := view_write inIoThread m s
  generalize (s.write inIoThread m).view = w at step
  cases step with
  | other e quiet => exact quiet.elim
  | submit => exact WriteView.perform_written inIoThread m _
  | enqueue => rfl

theorem written_grows (h : s.step e = some t) : s.view.written <+: t.view.written := by
  rcases written_step h with same | ⟨_, m, _, more⟩
  · exact same ▸ List.prefix_refl _
  · exact more ▸ List.prefix_append _ _

structure Sending (sent : List M) (s : Session E M) : Prop where
  unopened : s.life.opened = false ∨ 0 < s.life.opening → s.wsOpen = false ∧ sent = []
  unbroken : s.wsOpen = true → sent <:+ s.view.entered
  segment : sent <:+: s.view.written

structure Linked (sent : List M) (incoming : List WsMessage) (s : Session E M) : Prop where
  receiving : s.readView.Receiving incoming
  quiet : Quiet s.readStrand
  refines : ∃ q, s.view.Refines q
  unhandled : s.onWriteDone = false
  sending : Sending sent s

namespace Linked

variable {sent : List M} {incoming : List WsMessage}

omit [DecidableEq E] [DecidableEq M] in
theorem opening_le (linked : Linked sent incoming s) : s.life.opening ≤ 1 := by
  have token := linked.receiving.token
  show s.readView.opening ≤ 1
  omega

omit [DecidableEq E] [DecidableEq M] in
theorem opening_of_unopened (linked : Linked sent incoming s) (unopened : s.life.opened = false) : s.life.opening = 0 :=
  (linked.receiving.unopened unopened).1

/-- The stream is open after a step only where it was before, or where the one opening ends. -/
theorem open_before (linked : Linked sent incoming s) (h : s.step e = some t) (isOpen : t.wsOpen = true) :
    s.wsOpen = true ∨ 0 < s.life.opening := by
  have taken := step_life h linked.quiet
  change t.life.wsOpen = true at isOpen
  generalize t.life = w at taken isOpen
  cases taken with
  | established e positive => exact Or.inr positive
  | streamCloses => cases isOpen
  | _ => exact Or.inl isOpen

theorem unopened_before (linked : Linked sent incoming s) (once : s.OpensOnce e) (h : s.step e = some t)
    (unopened : t.life.opened = false ∨ 0 < t.life.opening) :
    (s.life.opened = false ∨ 0 < s.life.opening) ∧ (s.wsOpen = false → t.wsOpen = false) := by
  have single := linked.opening_le
  have early := linked.opening_of_unopened
  have taken := step_life h linked.quiet
  show _ ∧ (s.life.wsOpen = false → t.life.wsOpen = false)
  generalize t.life = w at taken unopened
  cases taken with
  | connect url => exact ⟨Or.inl once.1, id⟩
  | accept => exact ⟨Or.inl once.1, id⟩
  | refused e positive => exact ⟨Or.inr positive, id⟩
  | established e positive =>
    rcases unopened with unopened | again
    · have none := early unopened
      omega
    · have two : 0 < s.life.opening - 1 := again
      omega
  | streamCloses => exact ⟨unopened, fun _ => rfl⟩
  | _ => exact ⟨unopened, id⟩

omit [DecidableEq E] [DecidableEq M] in
theorem unready (linked : Linked sent incoming s) (unopened : s.life.opened = false ∨ 0 < s.life.opening) :
    s.trace.countP Action.isReady = 0 := by
  have called : s.readView.calls.countP Action.isReady = s.trace.countP Action.isReady :=
    countP_callback (fun _ => isCallback_of_isReady) s.trace
  have announce := linked.receiving.announce
  rcases unopened with first | opening
  · rw [← called, (linked.receiving.unopened first).2.2.2]
    rfl
  · change 0 < s.readView.opening at opening
    omega

theorem sending_step (linked : Linked sent incoming s) (plain : s.PlainWrites e) (once : s.OpensOnce e)
    (h : s.step e = some t) {q : SerialQueue M} (r : t.view.Refines q) : Sending (sent ++ s.sends t) t := by
  obtain ⟨p, before⟩ := linked.refines
  have sending := linked.sending
  have onward (isOpen : s.wsOpen = true) : sent ++ s.sends t <:+ t.view.entered := by
    obtain ⟨earlier, whole⟩ := sending.unbroken isOpen
    rw [entered_step before plain linked.unhandled isOpen h, ← whole, List.append_assoc]
    exact List.suffix_append _ _
  refine ⟨?_, ?_, ?_⟩
  · intro unopened
    obtain ⟨still, kept⟩ := linked.unopened_before once h unopened
    obtain ⟨closed, none⟩ := sending.unopened still
    exact ⟨kept closed, by rw [none, sends_closed closed]; rfl⟩
  · intro isOpen
    rcases linked.open_before h isOpen with already | opening
    · exact onward already
    · obtain ⟨closed, none⟩ := sending.unopened (Or.inr opening)
      rw [none, sends_closed closed]
      exact List.nil_suffix
  · cases stream : s.wsOpen with
    | true => exact (onward stream).isInfix.trans r.entered_first.isInfix
    | false =>
      rw [sends_closed stream, List.append_nil]
      exact sending.segment.trans (written_grows h).isInfix

theorem step (linked : Linked sent incoming s) (plain : s.PlainWrites e) (once : s.OpensOnce e)
    (h : s.step e = some t) : Linked (sent ++ s.sends t) incoming t := by
  obtain ⟨p, before⟩ := linked.refines
  have nothing : s.FlushesNothing e := by
    intro flushes
    cases e with
    | strandStep => exact absurd (flushes.2.symm.trans linked.unhandled) (by simp)
    | _ => exact flushes.elim
  obtain ⟨q, after⟩ := step_refines before plain.fresh nothing h
  exact
    { receiving := linked.receiving.step rfl once (step_readView h)
      quiet := linked.quiet.step (step_readView h)
      refines := ⟨q, after⟩
      unhandled := plain_step_unhandled plain linked.unhandled h
      sending := linked.sending_step plain once h after }

omit [DecidableEq E] [DecidableEq M] in
theorem arrive (linked : Linked sent incoming s) (later : List WsMessage) :
    Linked sent (incoming ++ later) (s.arrive later) where
  receiving := by
    have r := linked.receiving
    exact
      { r with
        order :=
          { r.order with
            delivered := by
              have order := r.order.delivered
              show s.readView.calls.filterMap Action.delivered? ++ (s.inbox ++ later).map _ = _
              rw [List.map_append, List.map_append, ← List.append_assoc]
              exact congrArg (· ++ later.map fun m => some m.data) order } }
  quiet := linked.quiet
  refines := linked.refines
  unhandled := linked.unhandled
  sending := { linked.sending with }

end Linked

def WaitsForReady (s : Session E M) : Event E M → Prop
  | .write _ _ => 0 < s.trace.countP Action.isReady
  | _ => True

instance decidableWaitsForReady (s : Session E M) (e : Event E M) : Decidable (s.WaitsForReady e) := by
  induction e using Event.casesOn
  case write =>
    show Decidable (_ < _)
    infer_instance
  all_goals exact isTrue True.intro

structure Prompt (sent : List M) (s : Session E M) : Prop where
  unopened : s.life.opened = false ∨ 0 < s.life.opening → s.view.written = []
  unbroken : s.wsOpen = true → sent = s.view.entered
  segment : sent <+: s.view.written

theorem Prompt.step {sent : List M} {incoming : List WsMessage} (prompt : Prompt sent s)
    (linked : Linked sent incoming s) (plain : s.PlainWrites e) (once : s.OpensOnce e) (waits : s.WaitsForReady e)
    (h : s.step e = some t) : Prompt (sent ++ s.sends t) t := by
  obtain ⟨p, before⟩ := linked.refines
  obtain ⟨q, after⟩ := (linked.step plain once h).refines
  have closed_before (unopened : s.life.opened = false ∨ 0 < s.life.opening) : t.view.written = [] := by
    rcases written_step h with same | ⟨_, _, rfl, _⟩
    · exact same.trans (prompt.unopened unopened)
    · exact absurd waits (Nat.not_lt.mpr (Nat.le_zero.mpr (linked.unready unopened)))
  have onward (isOpen : s.wsOpen = true) : sent ++ s.sends t = t.view.entered := by
    rw [entered_step before plain linked.unhandled isOpen h, prompt.unbroken isOpen]
  refine ⟨?_, ?_, ?_⟩
  · intro unopened
    exact closed_before (linked.unopened_before once h unopened).1
  · intro isOpen
    rcases linked.open_before h isOpen with already | opening
    · exact onward already
    · obtain ⟨closed, none⟩ := linked.sending.unopened (Or.inr opening)
      have nothing := after.entered_first
      rw [closed_before (Or.inr opening), List.prefix_nil] at nothing
      rw [none, sends_closed closed, nothing]
      rfl
  · cases stream : s.wsOpen with
    | true =>
      rw [onward stream]
      exact after.entered_first
    | false =>
      rw [sends_closed stream, List.append_nil]
      exact prompt.segment.trans (written_grows h)

end Session

namespace Link

variable {E M : Type}

/-- What an end of a link is asked to keep to: the handlers are installed before the one `connect()` or
    `accept()`, none for finished writes, and no message is written twice. -/
def Ordinary (l : Link E M) (e : Role × Session.Event E M) : Prop :=
  (l.ends e.1).PlainWrites e.2 ∧ (l.ends e.1).OpensOnce e.2

instance decidableOrdinary [DecidableEq M] (l : Link E M) (e : Role × Session.Event E M) : Decidable (l.Ordinary e) := by
  unfold Ordinary
  infer_instance

/-- What one end has written, and the other one has been given. Nothing is lost, repeated or overtaken between
    the first and the last message that arrives; while the stream is open, all that has been written since it
    was opened arrives. -/
structure Delivers (frame : Role → M → WsMessage) (l : Link E M) (r : Role) : Prop where
  contiguous : l.sent r <:+: (l.ends r).view.written
  in_order : (l.ends r.other).trace.filterMap Action.delivered? <+: (l.sent r).map fun m => some (frame r m).data
  complete : (l.ends r).wsOpen = true → (l.ends r).msgQueue = [] → (l.ends r.other).inbox = [] →
    l.sent r <:+ (l.ends r).view.written ∧
      (l.ends r.other).trace.filterMap Action.delivered? = (l.sent r).map fun m => some (frame r m).data

variable [DecidableEq E] [DecidableEq M] {frame : Role → M → WsMessage}

theorem linked_step {l k : Link E M} {e : Role × Session.Event E M}
    (linked : ∀ r, Session.Linked (l.sent r) (l.incoming frame r) (l.ends r)) (ordinary : l.Ordinary e)
    (h : (machine frame).step l e = some k) (r : Role) : Session.Linked (k.sent r) (k.incoming frame r) (k.ends r) := by
  rcases e with ⟨q, e⟩
  obtain ⟨t, taken, stepped, added, arrived, kept⟩ := step_cases h
  rcases Role.eq_or_other r q with rfl | rfl
  · have own := (linked r).step ordinary.1 ordinary.2 taken
    rw [stepped, added, incoming, kept]
    exact own
  · have other := (linked q.other).arrive (((l.ends q).sends t).map (frame q))
    rw [arrived, kept]
    simp only [incoming, Role.other_other, added, List.map_append] at other ⊢
    exact other

omit [DecidableEq E] [DecidableEq M] in
theorem linked_start (r : Role) :
    Session.Linked ((start : Link E M).sent r) ((start : Link E M).incoming frame r) ((start : Link E M).ends r) where
  receiving := Session.initial_receiving r []
  quiet := by simp [Session.Quiet, start, Session.initial]
  refines := ⟨_, Session.initial_refines r []⟩
  unhandled := rfl
  sending := ⟨fun _ => ⟨rfl, rfl⟩, fun _ => List.nil_suffix, List.nil_infix⟩

theorem linked_of_run {es : List (Role × Session.Event E M)} {l : Link E M}
    (ran : (machine frame).run start es = some l) (ordinary : (machine frame).Each Ordinary start es) (r : Role) :
    Session.Linked (l.sent r) (l.incoming frame r) (l.ends r) := by
  apply Transition.System.invariant_of_run
    (P := fun l => ∀ r, Session.Linked (l.sent r) (l.incoming frame r) (l.ends r)) ?_ linked_start ordinary ran
  intro l e k linked ordinary taken
  exact linked_step linked ordinary taken

omit [DecidableEq E] [DecidableEq M] in
theorem delivered_append {l : Link E M} {r : Role}
    (linked : Session.Linked (l.sent r.other) (l.incoming frame r.other) (l.ends r.other)) :
    (l.ends r.other).trace.filterMap Action.delivered? ++ (l.ends r.other).inbox.map (fun m => some m.data) =
      (l.sent r).map fun m => some (frame r m).data := by
  have order := linked.receiving.order.delivered
  rw [Session.readView_delivered] at order
  simp only [incoming, Role.other_other, List.map_map] at order
  exact order

omit [DecidableEq E] [DecidableEq M] in
theorem entered_of_empty {sent : List M} {incoming : List WsMessage} {s : Session E M}
    (linked : Session.Linked sent incoming s) (empty : s.msgQueue = []) : s.view.entered = s.view.written := by
  obtain ⟨q, refines⟩ := linked.refines
  have flight := refines.flight
  have none : s.view.queue = [] := empty
  rw [none, List.take_nil, WriteView.inFlight, List.append_eq_nil_iff] at flight
  have all := q.idle_iff.mp (refines.waiting.trans empty)
  rw [WriteView.entered, flight.2, List.append_nil, ← refines.finished, all, refines.submitted]

theorem delivers (frame : Role → M → WsMessage) (es : List (Role × Session.Event E M)) (l : Link E M)
    (ran : (machine frame).run start es = some l) (ordinary : (machine frame).Each Ordinary start es) (r : Role) :
    l.Delivers frame r := by
  have own := linked_of_run ran ordinary r
  have order := delivered_append (linked_of_run ran ordinary r.other)
  refine ⟨own.sending.segment, ⟨_, order⟩, ?_⟩
  intro isOpen empty read
  rw [read, List.map_nil, List.append_nil] at order
  exact ⟨entered_of_empty own empty ▸ own.sending.unbroken isOpen, order⟩

theorem delivers_exchange : ∃ l, (machine byteFrame).run start exchange = some l ∧ l.Delivers byteFrame .client := by
  have ran : ((machine byteFrame).run start exchange).isSome = true := by decide
  obtain ⟨l, final⟩ := Option.isSome_iff_exists.mp ran
  exact ⟨l, final, delivers byteFrame exchange l final (by decide) .client⟩

/-! ### Ends that wait for `on_ready_` -/

def Patient (l : Link E M) (e : Role × Session.Event E M) : Prop := l.Ordinary e ∧ (l.ends e.1).WaitsForReady e.2

instance decidablePatient (l : Link E M) (e : Role × Session.Event E M) : Decidable (l.Patient e) := by
  unfold Patient
  infer_instance

theorem prompt_of_run {es : List (Role × Session.Event E M)} {l : Link E M}
    (ran : (machine frame).run start es = some l) (patient : (machine frame).Each Patient start es) :
    (∀ r, Session.Linked (l.sent r) (l.incoming frame r) (l.ends r)) ∧ ∀ r, Session.Prompt (l.sent r) (l.ends r) := by
  apply Transition.System.invariant_of_run
    (P := fun l => (∀ r, Session.Linked (l.sent r) (l.incoming frame r) (l.ends r)) ∧
      ∀ r, Session.Prompt (l.sent r) (l.ends r)) ?_ ?_ patient ran
  · rintro l ⟨q, e⟩ k ⟨linked, prompt⟩ ⟨ordinary, waits⟩ taken
    refine ⟨linked_step linked ordinary taken, fun r => ?_⟩
    obtain ⟨t, step, stepped, added, arrived, kept⟩ := step_cases taken
    rcases Role.eq_or_other r q with rfl | rfl
    · rw [stepped, added]
      exact (prompt r).step (linked r) ordinary.1 ordinary.2 waits step
    · rw [arrived, kept]
      exact { prompt q.other with }
  · exact ⟨linked_start, fun r => ⟨fun _ => rfl, by simp [start, Session.initial], List.nil_prefix⟩⟩

theorem delivered_in_order {es : List (Role × Session.Event E M)} {l : Link E M}
    (ran : (machine frame).run start es = some l) (patient : (machine frame).Each Patient start es) (r : Role) :
    (l.ends r.other).trace.filterMap Action.delivered? <+:
      (l.ends r).view.written.map fun m => some (frame r m).data := by
  obtain ⟨linked, prompt⟩ := prompt_of_run ran patient
  have arrived : (l.ends r.other).trace.filterMap Action.delivered? <+: (l.sent r).map fun m => some (frame r m).data :=
    ⟨_, delivered_append (linked r.other)⟩
  exact arrived.trans ((prompt r).segment.map fun m => some (frame r m).data)

theorem delivered_whole {es : List (Role × Session.Event E M)} {l : Link E M}
    (ran : (machine frame).run start es = some l) (patient : (machine frame).Each Patient start es) {r : Role}
    (isOpen : (l.ends r).wsOpen = true) (empty : (l.ends r).msgQueue = []) (read : (l.ends r.other).inbox = []) :
    (l.ends r.other).trace.filterMap Action.delivered? =
      (l.ends r).view.written.map fun m => some (frame r m).data := by
  obtain ⟨linked, prompt⟩ := prompt_of_run ran patient
  have order := delivered_append (linked r.other)
  rw [read, List.map_nil, List.append_nil, (prompt r).unbroken isOpen, entered_of_empty (linked r) empty] at order
  exact order

/-- An end that waits for `on_ready_` loses nothing: what arrives is a prefix of what it has written, and all
    of it once the queue and the connection are empty. -/
theorem delivers_all (frame : Role → M → WsMessage) (es : List (Role × Session.Event E M)) (l : Link E M)
    (ran : (machine frame).run start es = some l) (patient : (machine frame).Each Patient start es) (r : Role) :
    (l.ends r.other).trace.filterMap Action.delivered? <+:
        (l.ends r).view.written.map (fun m => some (frame r m).data) ∧
      ((l.ends r).wsOpen = true → (l.ends r).msgQueue = [] → (l.ends r.other).inbox = [] →
        (l.ends r.other).trace.filterMap Action.delivered? =
          (l.ends r).view.written.map fun m => some (frame r m).data) :=
  ⟨delivered_in_order ran patient r, delivered_whole ran patient⟩

/-- The server has been given all that the client has written. -/
theorem delivers_all_exchange : ∃ l, (machine byteFrame).run start exchange = some l ∧
    (l.ends .server).trace.filterMap Action.delivered? =
      (l.ends .client).view.written.map fun m => some (byteFrame .client m).data := by
  have observed : ((machine byteFrame).run start exchange).map (fun l =>
      ((l.ends .client).wsOpen, (l.ends .client).msgQueue, (l.ends .server).inbox)) = some (true, [], []) := by decide
  obtain ⟨l, final, seen⟩ := Option.map_eq_some_iff.mp observed
  simp only [Prod.mk.injEq] at seen
  obtain ⟨isOpen, empty, read⟩ := seen
  exact ⟨l, final, (delivers_all byteFrame exchange l final (by decide) .client).2 isOpen empty read⟩

end Link

end MaxNet
