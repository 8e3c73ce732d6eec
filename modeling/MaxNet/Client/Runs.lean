import MaxNet.Lib.Lists
import MaxNet.Client.Model
import MaxNet.Session.Close
import MaxNet.Session.WriteOrder

namespace MaxNet

variable {E M : Type} [DecidableEq E] [DecidableEq M] {Q : Session E M → Session.Event E M → Prop}

namespace Session

def Reached (Q : Session E M → Event E M → Prop) (s : Session E M) : Prop :=
  ∃ inbox es, (machine E M).run (initial .client inbox) es = some s ∧
    (machine E M).Each Q (initial .client inbox) es

structure Unasked (Q : Session E M → Event E M → Prop) : Prop where
  setOnReady : ∀ s, Q s .setOnReady
  setOnClose : ∀ s, Q s .setOnClose
  setOnRead : ∀ s, Q s .setOnRead
  connect : ∀ s url, Q s (.connect url)
  close : ∀ s, Q s .close

namespace Reached

variable {s t : Session E M} {e : Event E M}

theorem initial (inbox : List WsMessage) : (Session.initial .client inbox : Session E M).Reached Q :=
  ⟨inbox, [], rfl, True.intro⟩

theorem step (reached : s.Reached Q) (asked : Q s e) (h : s.step e = some t) : t.Reached Q := by
  rcases reached with ⟨inbox, es, ran, each⟩
  refine ⟨inbox, es ++ [e], ?_, each.append ran ⟨asked, fun _ _ => True.intro⟩⟩
  exact Transition.System.run_append_some.mpr ⟨s, ran, Transition.System.run_cons_some.mpr ⟨t, h, rfl⟩⟩

theorem role (reached : s.Reached Q) : s.role = .client := by
  rcases reached with ⟨inbox, es, ran, _⟩
  exact (steady_of_run inbox es s ran).client

theorem installHandlers (unasked : Unasked Q) (reached : s.Reached Q) : s.installHandlers.Reached Q := by
  have first := reached.step (unasked.setOnReady s) rfl
  have second := first.step (unasked.setOnClose _) rfl
  exact second.step (unasked.setOnRead _) rfl

theorem connect (unasked : Unasked Q) (reached : s.Reached Q) {url : NetUrl E} (h : s.connect url = some t) :
    t.Reached Q := by
  apply reached.step (unasked.connect s url)
  exact (if_pos reached.role).trans h

theorem close (unasked : Unasked Q) (reached : s.Reached Q) : s.close.Reached Q :=
  reached.step (unasked.close s) rfl

theorem write {inIoThread : Bool} {m : M} (asked : Q s (.write inIoThread m)) (reached : s.Reached Q) :
    (s.write inIoThread m).Reached Q :=
  reached.step asked rfl

end Reached

end Session

namespace Client

def Passes (Q : Session E M → Session.Event E M → Prop) (c : Client E M) : Event E M → Prop
  | .send inIoThread m => ∀ i ∈ c.session, ∀ s ∈ c.sessions[i]?, Q s (.write inIoThread m)
  | .session i e => ∀ s ∈ c.sessions[i]?, Q s e
  | _ => True

def AllReached (Q : Session E M → Session.Event E M → Prop) (c : Client E M) : Prop :=
  ∀ s ∈ c.sessions, s.Reached Q

theorem AllReached.doSessionConnect {c : Client E M} (unasked : Session.Unasked Q) (reached : c.AllReached Q)
    (call : Nat) (url : NetUrl E) : (c.doSessionConnect call url).AllReached Q := by
  unfold Client.doSessionConnect
  split
  · exact reached
  · rename_i i current
    have installed : ∀ s ∈ c.sessions.modify i Session.installHandlers, s.Reached Q :=
      Lists.forall_mem_modify reached fun s found => (reached s (List.mem_of_getElem? found)).installHandlers unasked
    simp only
    split
    · rename_i t connected
      obtain ⟨s, found, connected⟩ := Option.bind_eq_some_iff.mp connected
      exact Lists.forall_mem_set installed ((installed s (List.mem_of_getElem? found)).connect unasked connected)
    · exact installed

theorem AllReached.sessionCreate {c : Client E M} (unasked : Session.Unasked Q) (reached : c.AllReached Q)
    (url : NetUrl E) (inbox : List WsMessage) : (c.sessionCreate url inbox).AllReached Q := by
  let created : Client E M := { c with
    sessions := c.sessions ++ [Session.initial .client inbox]
    session := some c.sessions.length
    requested := c.requested ++ [url] }
  have both : created.AllReached Q :=
    List.forall_mem_append.mpr ⟨reached, List.forall_mem_singleton.mpr (Session.Reached.initial inbox)⟩
  unfold Client.sessionCreate
  split
  · exact both
  · exact both.doSessionConnect unasked c.sessions.length url

theorem AllReached.sessionClose {c : Client E M} (unasked : Session.Unasked Q) (reached : c.AllReached Q) :
    c.sessionClose.AllReached Q := by
  unfold Client.sessionClose
  split
  · exact reached
  · exact Lists.forall_mem_modify reached fun s found => (reached s (List.mem_of_getElem? found)).close unasked

theorem AllReached.send {c : Client E M} (reached : c.AllReached Q) {inIoThread : Bool} {m : M}
    (asked : c.Passes Q (.send inIoThread m)) : (c.send inIoThread m).AllReached Q := by
  unfold Client.send
  split
  · exact reached
  · rename_i i current
    apply Lists.forall_mem_modify reached
    intro s found
    exact (reached s (List.mem_of_getElem? found)).write (asked i current s found)

theorem AllReached.resolved {c : Client E M} (unasked : Session.Unasked Q) (reached : c.AllReached Q)
    (op : ResolveOp E Nat) (ec : ErrorCode) (results : List E) : (c.resolved op ec results).AllReached Q := by
  unfold Client.resolved
  split
  · rename_i resolver call _ url _
    have kept : ({ c with resolver } : Client E M).AllReached Q := reached
    exact kept.doSessionConnect unasked call url
  · exact reached

theorem AllReached.session {c d : Client E M} (reached : c.AllReached Q) {i : Nat} {e : Session.Event E M}
    (asked : ∀ s ∈ c.sessions[i]?, Q s e)
    (h : (c.sessions[i]?.bind (Session.step · e)).map (fun s => { c with sessions := c.sessions.set i s }) = some d) :
    d.AllReached Q := by
  obtain ⟨t, taken, rfl⟩ := Option.map_eq_some_iff.mp h
  obtain ⟨s, found, taken⟩ := Option.bind_eq_some_iff.mp taken
  exact Lists.forall_mem_set reached ((reached s (List.mem_of_getElem? found)).step (asked s found) taken)

theorem AllReached.step {c d : Client E M} {e : Event E M} (unasked : Session.Unasked Q) (reached : c.AllReached Q)
    (asked : c.Passes Q e) (h : c.step e = some d) : d.AllReached Q := by
  unfold Client.step at h
  split at h
  · cases h
  · cases e with
    | sessionCreate url inbox =>
      cases h
      exact reached.sessionCreate unasked url inbox
    | sessionClose =>
      cases h
      exact reached.sessionClose unasked
    | send inIoThread m =>
      cases h
      exact reached.send asked
    | resolved op ec results =>
      simp only [Option.ite_none_right_eq_some, Option.some.injEq] at h
      rcases h with ⟨_, rfl⟩
      exact reached.resolved unasked op ec results
    | session i e =>
      cases e with
      | connect url => cases h
      | _ => exact reached.session asked h

theorem sessions_reached (unasked : Session.Unasked Q) (es : List (Event E M)) (c : Client E M)
    (ran : (machine E M).run {} es = some c) (asked : (machine E M).Each (Passes Q) {} es) : c.AllReached Q := by
  apply Transition.System.invariant_of_run (P := AllReached Q) ?_ (by simp [AllReached]) asked ran
  intro c e d reached asked step
  exact reached.step unasked asked step

omit [DecidableEq E] [DecidableEq M] in
theorem unasked_plainWrites : Session.Unasked (Session.PlainWrites : Session E M → Session.Event E M → Prop) :=
  ⟨fun _ => True.intro, fun _ => True.intro, fun _ => True.intro, fun _ _ => True.intro, fun _ => True.intro⟩

/-- Every session of a client writes its messages one at a time and in order, however the calls of the
    client and the completions of its sessions interleave. -/
theorem sessions_write_in_order (es : List (Event E M)) (c : Client E M) (ran : (machine E M).run {} es = some c)
    (plain : (machine E M).Each (Passes Session.PlainWrites) {} es) : ∀ s ∈ c.sessions, s.WritesInOrder := by
  intro s member
  obtain ⟨inbox, fs, own, each⟩ := sessions_reached unasked_plainWrites es c ran plain s member
  obtain ⟨⟨q, refines⟩, unhandled⟩ := Session.plain_run .client inbox fs s own each
  exact Session.writes_in_order_of_refines refines unhandled

end Client

end MaxNet
