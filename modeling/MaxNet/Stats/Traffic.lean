import MaxNet.Lib.Intervals
import MaxNet.Lib.Lists
import MaxNet.Session.EndStatus
import MaxNet.Session.WriteView
import MaxNet.Stats.Requests

namespace MaxNet

structure StatsCategory.Shows (c : StatsCategory) (v : Intervals Nat) : Prop where
  bytes : c.data.total.toNat = v.present.sum % 2 ^ 64
  messages : c.msgs.total.toNat = v.present.length % 2 ^ 64
  lastBytes : c.data.last.toNat = v.latest.sum % 2 ^ 64
  lastMessages : c.msgs.last.toNat = v.latest.length % 2 ^ 64

namespace StatsCategory.Shows

variable {c : StatsCategory} {v : Intervals Nat}

theorem record (shows : c.Shows v) (bytes : Nat) : (c.record bytes).Shows (v.record bytes) where
  bytes := by
    have before := shows.bytes
    have wraps : (UInt64.ofNat bytes).toNat = bytes % 2 ^ 64 := rfl
    simp only [StatsCategory.record, Stat.add, UInt64.toNat_add, wraps, Intervals.record_present, List.sum_append,
      List.sum_singleton]
    omega
  messages := by
    have before := shows.messages
    have one : (1 : UInt64).toNat = 1 := rfl
    simp only [StatsCategory.record, Stat.increment, UInt64.toNat_add, one, Intervals.record_present, List.length_append,
      List.length_singleton]
    omega
  lastBytes := shows.lastBytes
  lastMessages := shows.lastMessages

theorem diffCallback (shows : c.Shows v) : c.diffCallback.Shows v.cut where
  bytes := rfl
  messages := rfl
  lastBytes := by rw [Intervals.cut_latest]; exact shows.bytes
  lastMessages := by rw [Intervals.cut_latest]; exact shows.messages

theorem reset (c : StatsCategory) : c.reset.Shows {} := ⟨rfl, rfl, rfl, rfl⟩

end StatsCategory.Shows

namespace Session

variable {E M : Type}

def Event.inboundSize? : Event E M → Option Nat
  | .received pieces => some pieces.flatten.length
  | _ => none

def Event.outboundSize? : Event E M → Option Nat
  | .written _ _ bytes => some bytes
  | _ => none

def counts (s : Session E M) : StatsCategory × StatsCategory := (s.stats.inbound, s.stats.outbound)

def recordSome (size? : Option Nat) (c : StatsCategory) : StatsCategory :=
  match size? with
  | none => c
  | some bytes => c.record bytes

def DeliversFirst (strand : List Stmt) : Prop := ∀ bytes, .deliver bytes ∉ strand

theorem counts_call (c : Prop) [Decidable c] (a : Action M) (s : Session E M) :
    (if c then s.log a else s).counts = s.counts := by
  split <;> rfl

theorem counts_disableStats (s : Session E M) : s.disableStats.counts = s.counts := by
  have kept : (s.stats.setEnabled false).inbound = s.stats.inbound ∧
      (s.stats.setEnabled false).outbound = s.stats.outbound := by
    cases on : s.stats.isEnabled with
    | true =>
      rw [SessionStats.setEnabled_of_on on]
      exact ⟨rfl, rfl⟩
    | false =>
      rw [SessionStats.setEnabled_false_of_off on]
      exact ⟨rfl, rfl⟩
  exact Prod.ext kept.1 kept.2

theorem counts_performWrite (inIoThread : Bool) (m : M) (s : Session E M) :
    (s.performWrite inIoThread m).counts = s.counts := by
  cases inIoThread <;> rfl

theorem counts_release (m : M) (s : Session E M) : (s.release m).counts = s.counts := by
  unfold release
  split <;> rfl

theorem counts_releaseAll (ms : List M) (s : Session E M) : (releaseAll ms s).counts = s.counts := by
  induction ms generalizing s with
  | nil => rfl
  | cons m rest ih =>
    rw [releaseAll, ih]
    exact counts_release m s

theorem counts_write (inIoThread : Bool) (m : M) (s : Session E M) : (s.write inIoThread m).counts = s.counts := by
  unfold write
  simp only
  split
  · exact counts_performWrite _ _ _
  · rfl

theorem counts_writeCompleteHandler (bytes : Nat) (m : M) (s : Session E M) :
    (s.writeCompleteHandler bytes m).counts = (s.counts.1, s.counts.2.record bytes) := by
  have counted : (s.countOutbound bytes).counts = (s.counts.1, s.counts.2.record bytes) := rfl
  unfold writeCompleteHandler
  simp only
  split
  · exact counted
  · split
    · exact (counts_release m _).trans counted
    · split
      · exact ((counts_performWrite _ _ _).trans (counts_release m _)).trans counted
      · exact ((counts_releaseAll _ _).trans (counts_release m _)).trans counted

theorem counts_exec (s : Session E M) (stmt : Stmt) (other : ∀ bytes, stmt ≠ .deliver bytes) :
    (s.exec stmt).counts = s.counts := by
  cases stmt with
  | statusSet cd => rfl
  | disableStats => exact counts_disableStats s
  | callOnReady ec => exact counts_call _ _ s
  | performRead =>
    show s.performRead.counts = s.counts
    unfold performRead
    split <;> rfl
  | deliver bytes => exact absurd rfl (other bytes)
  | consume bytes => rfl
  | flushQueue =>
    simp only [exec]
    split
    · exact counts_releaseAll _ s
    · rfl
  | callOnRead ec bytes => exact counts_call _ _ s

theorem counts_enter_statusSet (cd : StatusCode) (rest : List Stmt) (s : Session E M) :
    (s.enter (.statusSet cd :: rest)).counts = s.counts := rfl

theorem counts_enter_deliver (bytes : Nat) (rest : List Stmt) (s : Session E M) :
    (s.enter (.deliver bytes :: rest)).counts = (s.counts.1.record bytes, s.counts.2) :=
  counts_call _ _ (s.countInbound bytes)

theorem counts_close (s : Session E M) : s.close.counts = s.counts := by
  have kept := counts_disableStats s
  unfold close
  simp only
  split <;> exact kept

theorem counts_closeHandler (ec : ErrorCode) (s : Session E M) : (s.closeHandler ec).counts = s.counts := by
  unfold closeHandler
  simp only [counts_call]
  split <;> rfl

theorem counts_connectHandler (ec : ErrorCode) (url : NetUrl E) (s : Session E M) :
    (s.connectHandler ec url).counts = s.counts := by
  unfold connectHandler
  split
  · rfl
  · exact (counts_call _ _ _).trans (counts_disableStats _)

variable [DecidableEq E] [DecidableEq M] {s t : Session E M} {e : Event E M}

/-- Each message is counted once, when it has been received or written. -/
theorem step_counts (strand : DeliversFirst s.readStrand) (taken : s.step e = some t) :
    t.counts = (recordSome e.inboundSize? s.counts.1, recordSome e.outboundSize? s.counts.2) := by
  cases step_cases taken with
  | setOnReady | setOnRead | setOnClose | setOnWriteDone | connect | accept | writeStart => rfl
  | closeStart | closeTimerExpires | streamCloses => rfl
  | write inIoThread m => exact counts_write inIoThread m s
  | close => exact counts_close s
  | connected url ec member => exact counts_connectHandler ec url _
  | handshaken ec positive free =>
    obtain ⟨cd, rest, body, _⟩ := handshakeHandler_body ec
    rw [body]
    exact counts_enter_statusSet cd rest _
  | accepted ec positive free =>
    obtain ⟨cd, rest, body, _⟩ := acceptedHandler_body ec
    rw [body]
    exact counts_enter_statusSet cd rest _
  | written m ec bytes member => exact counts_writeCompleteHandler bytes m _
  | received pieces message rest next positive free whole =>
    have body : readHandler .success message.payload.length =
        [.deliver message.payload.length, .consume message.payload.length, .performRead] := rfl
    have size : (Event.received pieces : Event E M).inboundSize? = some message.payload.length := by rw [← whole]; rfl
    rw [body, size]
    exact counts_enter_deliver message.payload.length _ _
  | readFailed ec pieces positive free failed =>
    obtain ⟨rest, _, body, _⟩ := readHandler_body ec pieces.flatten.length failed
    rw [body]
    exact counts_enter_statusSet _ rest _
  | strandStep stmt rest busy =>
    apply counts_exec
    rintro bytes rfl
    exact strand bytes (busy ▸ List.mem_cons_self)
  | closed ec positive => exact counts_closeHandler ec _
  | closeTimerFires wait ec result member =>
    unfold closeTimeout
    split <;> rfl

omit [DecidableEq E] [DecidableEq M] in
theorem deliversFirst_step {v w : ReadView M} (strand : DeliversFirst v.strand) (taken : ReadStep v e w) :
    DeliversFirst w.strand := by
  cases taken with
  | refused url ec positive =>
    rw [strand_call]
    exact strand
  | handshaken ec stmt rest body =>
    unfold handshakeHandler at body
    split at body <;> cases body <;> simp [DeliversFirst]
  | accepted ec stmt rest body =>
    unfold acceptedHandler at body
    split at body <;> cases body <;> simp [DeliversFirst]
  | received =>
    rw [strand_call]
    simp [DeliversFirst]
  | readFailed ec pieces stmt rest body failed =>
    simp only [readHandler, failed, Bool.not_true, Bool.false_eq_true, if_false] at body
    split at body <;> cases body <;> simp [DeliversFirst]
  | strandStep stmt rest online text busy =>
    rw [strand_exec]
    exact fun bytes member => strand bytes (busy ▸ List.mem_cons_of_mem stmt member)
  | _ => exact strand

end Session

/-- A session whose statistics are switched on and off and checked while it runs. What has been received and written
    is cut into intervals where the statistics are checked, and forgotten where they are enabled. -/
structure Metered (E M : Type) where
  session : Session E M
  inbound : Intervals Nat := {}
  outbound : Intervals Nat := {}

namespace Metered

variable {E M : Type}

inductive Event (E M : Type)
  | session (e : Session.Event E M)
  | stats (e : StatsRequests.Event)

def recordSome (size? : Option Nat) (v : Intervals Nat) : Intervals Nat :=
  match size? with
  | none => v
  | some bytes => v.record bytes

def mark (stats : SessionStats) (v : Intervals Nat) : StatsRequests.Event → Intervals Nat
  | .setEnabled enabled => if enabled && !stats.isEnabled then {} else v
  | .timerExpires => v
  | .statCheck wait => if wait = .expired then v.cut else v

def step [DecidableEq E] [DecidableEq M] (m : Metered E M) : Event E M → Option (Metered E M)
  | .session e => (m.session.step e).map fun session =>
    { session, inbound := recordSome e.inboundSize? m.inbound, outbound := recordSome e.outboundSize? m.outbound }
  | .stats e => (StatsRequests.step { stats := m.session.stats } e).map fun requests =>
    { session := { m.session with stats := requests.stats }
      inbound := mark m.session.stats m.inbound e
      outbound := mark m.session.stats m.outbound e }

def machine (E M : Type) [DecidableEq E] [DecidableEq M] : Transition.System (Metered E M) (Event E M) := ⟨step⟩

def Event.inboundSize? : Event E M → Option Nat
  | session e => e.inboundSize?
  | stats _ => none

def Event.outboundSize? : Event E M → Option Nat
  | session e => e.outboundSize?
  | stats _ => none

/-- What the statistics show after `past`. Since they were last enabled each message is in one interval, in the order
    of the messages: the incoming ones that have been read, and as many as the writes that are complete. -/
structure Counted (inbox : List WsMessage) (past : List (Event E M)) (m : Metered E M) : Prop where
  inbound : m.session.stats.inbound.Shows m.inbound
  outbound : m.session.stats.outbound.Shows m.outbound
  since_in : m.inbound.all <:+ past.filterMap Event.inboundSize?
  since_out : m.outbound.all <:+ past.filterMap Event.outboundSize?
  received : past.filterMap Event.inboundSize? ++ m.session.inbox.map (fun message => message.payload.length) =
    inbox.map fun message => message.payload.length
  written : (past.filterMap Event.outboundSize?).length + m.session.writes.length =
    (m.session.trace.filterMap Action.handed?).length

variable {inbox : List WsMessage} {past : List (Event E M)} {m n : Metered E M}

theorem shows_recordSome {c : StatsCategory} {v : Intervals Nat} (shows : c.Shows v) (size? : Option Nat) :
    (Session.recordSome size? c).Shows (recordSome size? v) := by
  cases size? with
  | none => exact shows
  | some bytes => exact shows.record bytes

theorem all_recordSome (size? : Option Nat) (v : Intervals Nat) : (recordSome size? v).all = v.all ++ size?.toList := by
  cases size? with
  | none => exact (List.append_nil v.all).symm
  | some bytes => exact v.record_all bytes

theorem suffix_append {l k : List Nat} (since : l <:+ k) (more : List Nat) : l ++ more <:+ k ++ more := by
  obtain ⟨front, rfl⟩ := since
  exact ⟨front, (List.append_assoc front l more).symm⟩

/-- Cutting forgets nothing, and enabling everything. -/
theorem mark_all (stats : SessionStats) (v : Intervals Nat) (e : StatsRequests.Event) : (mark stats v e).all <:+ v.all := by
  cases e with
  | setEnabled enabled =>
    simp only [mark]
    split
    · exact List.nil_suffix
    · exact List.suffix_refl _
  | timerExpires => exact List.suffix_refl _
  | statCheck wait =>
    simp only [mark]
    split
    · exact ⟨[], Intervals.cut_all v⟩
    · exact List.suffix_refl _

theorem shows_mark {stats : SessionStats} {requests : StatsRequests} {v w : Intervals Nat} {e : StatsRequests.Event}
    (inbound : stats.inbound.Shows v) (outbound : stats.outbound.Shows w)
    (taken : StatsRequests.step { stats } e = some requests) :
    requests.stats.inbound.Shows (mark stats v e) ∧ requests.stats.outbound.Shows (mark stats w e) := by
  cases e with
  | setEnabled enabled =>
    cases taken
    cases on : stats.isEnabled with
    | true => simpa [mark, SessionStats.setEnabled, on] using And.intro inbound outbound
    | false =>
      cases enabled with
      | true =>
        have fresh := And.intro (StatsCategory.Shows.reset stats.inbound) (StatsCategory.Shows.reset stats.outbound)
        simpa [mark, SessionStats.setEnabled, on] using fresh
      | false => simpa [mark, SessionStats.setEnabled, on] using And.intro inbound outbound
  | timerExpires =>
    simp only [StatsRequests.step, Option.ite_none_right_eq_some, Option.some.injEq] at taken
    obtain ⟨_, rfl⟩ := taken
    exact ⟨inbound, outbound⟩
  | statCheck wait =>
    cases wait with
    | armed => cases taken
    | expired =>
      simp only [StatsRequests.step, Wait.result, Option.ite_none_right_eq_some, Option.some.injEq] at taken
      obtain ⟨_, rfl⟩ := taken
      exact ⟨inbound.diffCallback, outbound.diffCallback⟩
    | cancelled =>
      simp only [StatsRequests.step, Wait.result, Option.ite_none_right_eq_some, Option.some.injEq] at taken
      obtain ⟨_, rfl⟩ := taken
      exact ⟨inbound, outbound⟩

/-- The statistics are all that they touch of a session. -/
theorem counted_stats {e : StatsRequests.Event} {requests : StatsRequests} (counted : m.Counted inbox past)
    (taken : StatsRequests.step { stats := m.session.stats } e = some requests) :
    Counted inbox (past ++ [.stats e])
      { session := { m.session with stats := requests.stats }
        inbound := mark m.session.stats m.inbound e
        outbound := mark m.session.stats m.outbound e } := by
  obtain ⟨inbound, outbound⟩ := shows_mark counted.inbound counted.outbound taken
  have sizes : (past ++ [Event.stats (E := E) (M := M) e]).filterMap Event.inboundSize? =
      past.filterMap Event.inboundSize? ∧
      (past ++ [Event.stats (E := E) (M := M) e]).filterMap Event.outboundSize? =
      past.filterMap Event.outboundSize? := by
    simp [List.filterMap_append, Event.inboundSize?, Event.outboundSize?]
  exact
    { inbound := inbound
      outbound := outbound
      since_in := by rw [sizes.1]; exact (mark_all _ _ e).trans counted.since_in
      since_out := by rw [sizes.2]; exact (mark_all _ _ e).trans counted.since_out
      received := by rw [sizes.1]; exact counted.received
      written := by rw [sizes.2]; exact counted.written }

variable [DecidableEq E] [DecidableEq M] {s t : Session E M} {e : Session.Event E M}

omit [DecidableEq E] [DecidableEq M] in
theorem inbox_call (installed : Bool) (a : Action M) (v : ReadView M) : (v.call installed a).inbox = v.inbox := by
  cases installed <;> rfl

omit [DecidableEq E] [DecidableEq M] in
theorem inbox_exec (online text : Bool) (v : ReadView M) (stmt : Stmt) : (v.exec online text stmt).inbox = v.inbox := by
  cases stmt with
  | callOnReady ec => exact inbox_call _ _ v
  | deliver bytes => exact inbox_call _ _ v
  | callOnRead ec bytes => exact inbox_call _ _ v
  | performRead => cases online <;> rfl
  | _ => rfl

def sizes (messages : List WsMessage) : List Nat := messages.map fun message => message.payload.length

omit [DecidableEq E] [DecidableEq M] in
theorem inbox_readStep {v w : ReadView M} (taken : Session.ReadStep v e w) (size : e.inboundSize? = none) :
    w.inbox = v.inbox := by
  cases taken with
  | refused url ec positive => exact inbox_call _ _ _
  | received => cases size
  | strandStep stmt rest online text busy => exact inbox_exec _ _ _ _
  | _ => rfl

/-- The messages that are counted are the incoming ones in their order. -/
theorem inbox_step (taken : s.step e = some t) : e.inboundSize?.toList ++ sizes t.inbox = sizes s.inbox := by
  cases size : e.inboundSize? with
  | none => exact congrArg sizes (inbox_readStep (Session.step_readView taken) size)
  | some bytes =>
    cases Session.step_cases taken with
    | received pieces message rest next positive free whole =>
      obtain rfl : message.payload.length = bytes := by
        rw [← whole]
        exact Option.some.inj size
      have kept : (({ s with
          reads := s.reads - 1, inbox := rest, gotText := message.text, buffer := s.buffer ++ pieces } :
          Session E M).enter (Session.readHandler .success message.payload.length)).readView.inbox = rest := by
        have body : Session.readHandler .success message.payload.length =
            [.deliver message.payload.length, .consume message.payload.length, .performRead] := rfl
        rw [body, Session.enter_deliver]
        exact inbox_call _ _ _
      have counted : [message.payload.length] ++ sizes rest = sizes s.inbox := by rw [next]; rfl
      exact (congrArg (fun left => [message.payload.length] ++ sizes left) kept).trans counted
    | _ => cases size

omit [DecidableEq E] [DecidableEq M] in
theorem written_done {v w : WriteView M} {x : M} (done : Session.WriteDone x v w) :
    w.outstanding.length + v.handed.length = v.outstanding.length + w.handed.length := by
  cases done with
  | nothing empty => rfl
  | last front queue => simp
  | next front second rest queue =>
    simp [WriteView.perform]
    omega
  | clear front second rest queue => simp

theorem written_step (taken : s.step e = some t) :
    e.outboundSize?.toList.length + t.view.outstanding.length + s.view.handed.length =
      s.view.outstanding.length + t.view.handed.length := by
  rcases Session.step_view taken with moved | ⟨flushes, flushed⟩
  · generalize t.view = w at moved
    cases moved with
    | other e quiet =>
      cases e <;> first | exact quiet.elim | simp [Session.Event.outboundSize?]
    | install => simp [Session.Event.outboundSize?]
    | submit inIoThread x idle =>
      cases inIoThread with
      | true =>
        simp only [WriteView.perform, if_true, List.length_append, List.length_singleton]
        simp [Session.Event.outboundSize?]
        omega
      | false => simp [Session.Event.outboundSize?, WriteView.perform]
    | enqueue inIoThread x busy => simp [Session.Event.outboundSize?]
    | start x member =>
      simp [Session.Event.outboundSize?]
      omega
    | done x ec bytes w member done =>
      have same := written_done done
      have less := List.length_erase_of_mem member
      have positive := List.length_pos_of_mem member
      simp only at same
      simp only [Session.Event.outboundSize?, Option.toList_some, List.length_singleton]
      omega
  · have none : e.outboundSize? = none := by
      cases e <;> first | rfl | exact flushes.elim
    rw [flushed, none]
    simp [WriteView.flush]

theorem counted_session (counted : m.Counted inbox past) (strand : Session.DeliversFirst m.session.readStrand)
    (taken : m.session.step e = some t) :
    Counted inbox (past ++ [.session e])
      { session := t
        inbound := recordSome e.inboundSize? m.inbound
        outbound := recordSome e.outboundSize? m.outbound } := by
  have counts := Session.step_counts strand taken
  have inbound : t.stats.inbound = Session.recordSome e.inboundSize? m.session.stats.inbound := congrArg Prod.fst counts
  have outbound : t.stats.outbound = Session.recordSome e.outboundSize? m.session.stats.outbound :=
    congrArg Prod.snd counts
  have sizesIn : (past ++ [Event.session e]).filterMap Event.inboundSize? =
      past.filterMap Event.inboundSize? ++ e.inboundSize?.toList := by
    rw [List.filterMap_append]
    cases size : e.inboundSize? with
    | none => simp [Event.inboundSize?, size]
    | some bytes => simp [Event.inboundSize?, size]
  have sizesOut : (past ++ [Event.session e]).filterMap Event.outboundSize? =
      past.filterMap Event.outboundSize? ++ e.outboundSize?.toList := by
    rw [List.filterMap_append]
    cases size : e.outboundSize? with
    | none => simp [Event.outboundSize?, size]
    | some bytes => simp [Event.outboundSize?, size]
  exact
    { inbound := inbound ▸ shows_recordSome counted.inbound e.inboundSize?
      outbound := outbound ▸ shows_recordSome counted.outbound e.outboundSize?
      since_in := by
        rw [sizesIn, all_recordSome]
        exact suffix_append counted.since_in _
      since_out := by
        rw [sizesOut, all_recordSome]
        exact suffix_append counted.since_out _
      received := by
        have moved := inbox_step taken
        have before := counted.received
        rw [sizesIn, List.append_assoc]
        exact (congrArg (past.filterMap Event.inboundSize? ++ ·) moved).trans before
      written := by
        have moved := written_step taken
        have before := counted.written
        have after : (past.filterMap Event.outboundSize?).length + e.outboundSize?.toList.length + t.writes.length =
            (t.trace.filterMap Action.handed?).length := by
          simp only [Session.view] at moved
          omega
        rw [sizesOut, List.length_append]
        exact after }

/-- Whatever the session does and whenever the statistics are switched and checked, each message is counted once. -/
theorem counts_traffic (role : Role) (inbox : List WsMessage) (es : List (Event E M)) (m : Metered E M)
    (ran : (machine E M).run { session := .initial role inbox } es = some m) : m.Counted inbox es := by
  let start : Metered E M := { session := .initial role inbox }
  have fresh : start.Counted inbox [] ∧ Session.DeliversFirst start.session.readStrand :=
    ⟨{ inbound := ⟨rfl, rfl, rfl, rfl⟩
       outbound := ⟨rfl, rfl, rfl, rfl⟩
       since_in := List.suffix_refl []
       since_out := List.suffix_refl []
       received := rfl
       written := rfl }, by simp [start, Session.initial, Session.DeliversFirst]⟩
  have kept : m.Counted inbox ([] ++ es) ∧ Session.DeliversFirst m.session.readStrand := by
    refine Transition.System.history_invariant
      (I := fun past (m : Metered E M) => m.Counted inbox past ∧ Session.DeliversFirst m.session.readStrand) ?_ []
      fresh Transition.System.each_true ran
    rintro past m e n ⟨counted, strand⟩ _ h
    cases e with
    | session e =>
      obtain ⟨t, taken, rfl⟩ := Option.map_eq_some_iff.mp h
      exact ⟨counted_session counted strand taken,
        Session.deliversFirst_step (v := m.session.readView) (w := t.readView) strand (Session.step_readView taken)⟩
    | stats e =>
      obtain ⟨requests, taken, rfl⟩ := Option.map_eq_some_iff.mp h
      exact ⟨counted_stats counted taken, strand⟩
  exact kept.1

def checkedBetween : List (Event Unit Nat) :=
  .stats (.setEnabled true) :: Session.opening.map .session ++
    [.session (.received [[1, 2, 3]]), .stats .timerExpires, .stats (.statCheck .expired), .session .strandStep,
      .session .strandStep, .session (.received [[4], [5]])]

theorem counts_traffic_checked : ∃ m : Metered Unit Nat,
    (machine Unit Nat).run { session := .initial .client [⟨[1, 2, 3], false⟩, ⟨[4, 5], false⟩] } checkedBetween =
      some m ∧ m.inbound.latest = [3] ∧ m.inbound.present = [2] ∧
      m.Counted [⟨[1, 2, 3], false⟩, ⟨[4, 5], false⟩] checkedBetween := by
  have ran : ∃ m : Metered Unit Nat,
      (machine Unit Nat).run { session := .initial .client [⟨[1, 2, 3], false⟩, ⟨[4, 5], false⟩] } checkedBetween =
        some m ∧ m.inbound.latest = [3] ∧ m.inbound.present = [2] := ⟨_, rfl, rfl, rfl⟩
  obtain ⟨m, final, latest, present⟩ := ran
  exact ⟨m, final, latest, present, counts_traffic .client _ checkedBetween m final⟩

end Metered

end MaxNet
