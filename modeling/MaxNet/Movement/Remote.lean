import MaxNet.Movement.Frames
import MaxNet.Client.Ready

namespace MaxNet

namespace Client

variable {E : Type} [DecidableEq E] {c d : Client E Nat} {s t : Session E Nat} {e : Event E Nat}

theorem Single.doSessionConnect_moved (single : c.Single s) (call : Nat) (url : NetUrl E)
    (unopened : s.trace.any Action.isOpening = false) : ∃ t, (c.doSessionConnect call url).Single t ∧ s.Moved t := by
  obtain ⟨t, next, rfl | connected⟩ := single.doSessionConnect call url
  · exact ⟨_, next, .installed⟩
  · exact ⟨t, next, .connected url t unopened connected⟩

structure Unhurried (c : Client E Nat) (s : Session E Nat) : Prop where
  single : c.Single s
  ordered : c.book.Ordered
  one : c.resolver.wsQueue.length ≤ 1
  unopened : c.resolver.wsQueue ≠ [] → s.trace.any Action.isOpening = false

namespace Unhurried

theorem session (unhurried : c.Unhurried s) {i : Nat} {e : Session.Event E Nat}
    (silent : e.own = true ∨ e = .close ∨ e = .streamCloses) (h : c.step (.session i e) = some d) :
    ∃ t, d.Unhurried t ∧ s.Moved t := by
  have next := (ordered_step unhurried.ordered h).2
  obtain ⟨u, t, found, taken, rfl⟩ := step_session h
  obtain ⟨rfl, rfl⟩ := unhurried.single.of_getElem? found
  obtain ⟨-, connects, accepts⟩ := Session.unasked_of_silent (s := u) silent
  have kept : t.trace.any Action.isOpening = u.trace.any Action.isOpening :=
    Session.opened_step (Session.step_readView taken) connects accepts
  have single : ({ c with sessions := c.sessions.set 0 t } : Client E Nat).Single t :=
    ⟨by simp only [unhurried.single.sessions]; rfl, unhurried.single.session⟩
  exact ⟨t, ⟨single, next, unhurried.one, fun waiting => kept.trans (unhurried.unopened waiting)⟩, .own e t silent taken⟩

theorem sessionClose (unhurried : c.Unhurried s) (h : c.step .sessionClose = some d) :
    ∃ t, d.Unhurried t ∧ s.Moved t := by
  have next := (ordered_step unhurried.ordered h).2
  have closed : s.step .close = some s.close := rfl
  have kept : s.close.trace.any Action.isOpening = s.trace.any Action.isOpening :=
    Session.opened_step (Session.step_readView closed) (by simp) (by simp)
  unfold Client.step at h
  split at h
  · cases h
  · cases h
    unfold Client.sessionClose at next ⊢
    rw [unhurried.single.session] at next ⊢
    exact ⟨s.close, ⟨⟨by simp only [unhurried.single.sessions]; rfl, rfl⟩, next, unhurried.one,
      fun waiting => kept.trans (unhurried.unopened waiting)⟩, .own .close s.close (Or.inr (Or.inl rfl)) closed⟩

/-- The request that is answered is the only one. -/
theorem answered (unhurried : c.Unhurried s) {op : ResolveOp E Nat} {ec : ErrorCode} {results : List E}
    (h : c.step (.resolved op ec results) = some d) :
    s.trace.any Action.isOpening = false ∧ d.book.Ordered ∧ d.resolver.wsQueue = [] := by
  obtain ⟨taken, next⟩ := ordered_step unhurried.ordered h
  have one := unhurried.one
  have last (member : op ∈ c.resolver.resolving) : c.resolver.wsQueue ≠ [] ∧ c.resolver.wsQueue.tail = [] := by
    obtain ⟨rest, queue, _⟩ := unhurried.ordered.front.front_of_mem member
    change c.resolver.wsQueue = op.qelem :: rest at queue
    rw [queue, List.length_cons] at one
    have none : rest = [] := List.eq_nil_of_length_eq_zero (by omega)
    exact ⟨by simp [queue], by rw [queue, none]; rfl⟩
  have ends : d.resolver.wsQueue = c.resolver.wsQueue.tail ∧ op ∈ c.resolver.resolving := by
    change d.book.resolver.wsQueue = _ ∧ _
    generalize d.book = b at taken
    cases taken with
    | other _ quiet => exact absurd rfl (quiet op ec results)
    | answered _ _ _ i calls member current => exact ⟨rfl, member⟩
    | thrown _ _ _ member throws => exact ⟨rfl, member⟩
  obtain ⟨waiting, none⟩ := last ends.2
  exact ⟨unhurried.unopened waiting, next, ends.1.trans none⟩

theorem resolved (unhurried : c.Unhurried s) {op : ResolveOp E Nat} {ec : ErrorCode} {results : List E}
    (h : c.step (.resolved op ec results) = some d) : ∃ t, d.Unhurried t ∧ s.Moved t := by
  obtain ⟨unopened, ordered, none⟩ := unhurried.answered h
  have finished {t : Session E Nat} (single : d.Single t) : d.Unhurried t :=
    ⟨single, ordered, by simp [none], fun waiting => absurd none waiting⟩
  unfold Client.step at h
  split at h
  · cases h
  · obtain ⟨_, same⟩ := Option.ite_none_right_eq_some.mp h
    cases same
    unfold Client.resolved at finished ⊢
    split at finished
    · rename_i resolver call _ url _
      have kept : ({ c with resolver } : Client E Nat).Single s := ⟨unhurried.single.sessions, unhurried.single.session⟩
      obtain ⟨t, single, moved⟩ := kept.doSessionConnect_moved call url unopened
      exact ⟨t, finished single, moved⟩
    · exact ⟨s, finished ⟨unhurried.single.sessions, unhurried.single.session⟩, .same⟩

theorem send (unhurried : c.Unhurried s) (running : ¬ c.aborted = true) (msg : Nat) :
    (c.send false msg).Unhurried (s.write false msg) := by
  have taken : c.step (.send false msg) = some (c.send false msg) := if_neg running
  have wrote : s.step (.write false msg) = some (s.write false msg) := rfl
  have kept : (s.write false msg).trace.any Action.isOpening = s.trace.any Action.isOpening :=
    Session.opened_step (Session.step_readView wrote) (by simp) (by simp)
  have same : (c.send false msg).resolver = c.resolver := by
    unfold Client.send
    rw [unhurried.single.session]
  refine ⟨unhurried.single.send false msg, (ordered_step unhurried.ordered taken).2, ?_, ?_⟩
  · rw [same]
    exact unhurried.one
  · rw [same]
    exact fun waiting => kept.trans (unhurried.unopened waiting)

theorem background (unhurried : c.Unhurried s) (allowed : MovementPatch.background e = true) (h : c.step e = some d) :
    ∃ t, d.Unhurried t ∧ s.Moved t := by
  cases e with
  | sessionCreate => cases allowed
  | send => cases allowed
  | sessionClose => exact unhurried.sessionClose h
  | resolved op ec results => exact unhurried.resolved h
  | session i e =>
    apply unhurried.session ?_ h
    cases e with
    | streamCloses => exact Or.inr (Or.inr rfl)
    | _ => exact Or.inl allowed

end Unhurried

theorem unhurried_create (url : NetUrl E) (inbox : List WsMessage) :
    ∃ s, (({} : Client E Nat).sessionCreate url inbox).Unhurried s ∧
      (Session.initial .client inbox : Session E Nat).Moved s := by
  have created : ({} : Client E Nat).step (.sessionCreate url inbox) = some (({} : Client E Nat).sessionCreate url inbox) :=
    rfl
  have ordered := (ordered_step initial_ordered created).2
  let made : Client E Nat := { sessions := [Session.initial .client inbox], session := some 0, requested := [url] }
  have single : made.Single (Session.initial .client inbox) := ⟨rfl, rfl⟩
  unfold Client.sessionCreate at ordered ⊢
  by_cases unresolved : (!url.isResolved) = true
  · rw [if_pos unresolved] at ordered ⊢
    refine ⟨Session.initial .client inbox, ⟨⟨rfl, rfl⟩, ordered, ?_, fun _ => rfl⟩, .same⟩
    have queue := congrArg (fun r => r.wsQueue.length) (MultiResolver.resolve_state url 0 ({} : MultiResolver E Nat) rfl)
    exact Nat.le_of_eq queue
  · rw [if_neg unresolved] at ordered ⊢
    obtain ⟨t, next, moved⟩ := single.doSessionConnect_moved 0 url rfl
    have queue := congrArg (fun b : Book E => b.resolver.wsQueue) (book_doSessionConnect 0 0 url made rfl)
    change (made.doSessionConnect 0 url).resolver.wsQueue = [] at queue
    have none : (made.doSessionConnect 0 url).resolver.wsQueue.length ≤ 1 := by simp [queue]
    exact ⟨t, ⟨next, ordered, none, fun waiting => absurd queue waiting⟩, moved⟩

end Client

namespace MovementPatch

variable {E : Type}

def session (p : MovementPatch E) : Option (Session E Nat) :=
  p.client.client.session.bind fun i => p.client.client.sessions[i]?

/-- `on_ready()` has been called, which turns the stream to binary messages. -/
def binary (p : MovementPatch E) : Bool := p.session.any fun s => 0 < s.trace.countP Action.isReady

def frame (binary : Bool) (p : MovementPatch E) (msg : Nat) : WsMessage := ⟨(p.client.storage[msg]?).getD [], !binary⟩

def sends (p q : MovementPatch E) : List WsMessage :=
  match p.session, q.session with
  | some s, some t => (s.sends t).map (q.frame p.binary)
  | _, _ => []

def arrive (later : List WsMessage) (p : MovementPatch E) : MovementPatch E :=
  { p with client := { p.client with client := { p.client.client with
      sessions := p.client.client.sessions.map (Session.arrive later) } } }

section Steps

variable [DecidableEq E] {getDouble : Atom → Except String Binary64} {getSymbol : Atom → Except String String}
  {lib : MovementLibrary} {p q : MovementPatch E} {e : Event E} {s t : Session E Nat}

omit [DecidableEq E] in
theorem session_of_single (single : p.client.client.Single s) : p.session = some s := by
  simp [session, single.session, single.sessions]

omit [DecidableEq E] in
theorem binary_of_single (single : p.client.client.Single s) : p.binary = decide (0 < s.trace.countP Action.isReady) := by
  rw [binary, session_of_single single]
  rfl

omit [DecidableEq E] in
theorem storage_newMvMsg {moves : List (Int64 × MovementObject)} {args : List Atom} {c d : WebsocketClientIiwa E}
    (made : c.newMvMsg lib moves args = some d) : c.storage <+: d.storage := by
  cases args with
  | nil => cases made
  | cons arg args =>
    simp only [WebsocketClientIiwa.newMvMsg] at made
    split at made <;> cases made <;> exact List.prefix_append _ _

/-- The messages are not changed once they are there. -/
theorem storage_step (taken : step getDouble getSymbol lib p e = some q) : p.client.storage <+: q.client.storage := by
  unfold step at taken
  split at taken
  · cases taken
  · cases e with
    | construct address args =>
      obtain ⟨_, same⟩ := Option.ite_none_right_eq_some.mp taken
      cases same
      exact List.prefix_refl _
    | group address g args =>
      obtain ⟨o, _, rfl⟩ := Option.map_eq_some_iff.mp taken
      exact List.prefix_refl _
    | bang address =>
      obtain ⟨o, _, sent⟩ := Option.bind_eq_some_iff.mp taken
      obtain ⟨client, made, rfl⟩ := Option.map_eq_some_iff.mp sent
      exact storage_newMvMsg made
    | iiwaMove args =>
      obtain ⟨client, made, rfl⟩ := Option.map_eq_some_iff.mp taken
      exact storage_newMvMsg made
    | client e =>
      obtain ⟨_, moved⟩ := Option.ite_none_right_eq_some.mp taken
      obtain ⟨client, _, rfl⟩ := Option.map_eq_some_iff.mp moved
      exact List.prefix_refl _

/-- What a step of the patch does to its session. -/
theorem step_moved (unhurried : p.client.client.Unhurried s) (own : e.foreign = false)
    (taken : step getDouble getSymbol lib p e = some q) :
    ∃ t, q.client.client.Unhurried t ∧
      (s.Moved t ∨ (∃ address, e = .bang address) ∧ t = s.write false p.client.storage.length) := by
  unfold step at taken
  split at taken
  · cases taken
  · rename_i running
    cases e with
    | construct address args =>
      obtain ⟨_, same⟩ := Option.ite_none_right_eq_some.mp taken
      cases same
      exact ⟨s, unhurried, Or.inl .same⟩
    | group address g args =>
      obtain ⟨o, _, rfl⟩ := Option.map_eq_some_iff.mp taken
      exact ⟨s, unhurried, Or.inl .same⟩
    | bang address =>
      obtain ⟨o, _, sent⟩ := Option.bind_eq_some_iff.mp taken
      obtain ⟨client, made, rfl⟩ := Option.map_eq_some_iff.mp sent
      simp only [WebsocketClientIiwa.newMvMsg] at made
      split at made
      · cases made
        exact ⟨_, unhurried.send running p.client.storage.length, Or.inr ⟨⟨address, rfl⟩, rfl⟩⟩
      · cases made
        exact ⟨s, unhurried, Or.inl .same⟩
    | iiwaMove args => cases own
    | client e =>
      obtain ⟨allowed, moved⟩ := Option.ite_none_right_eq_some.mp taken
      obtain ⟨client, stepped, rfl⟩ := Option.map_eq_some_iff.mp moved
      obtain ⟨t, next, moved⟩ := unhurried.background allowed stepped
      exact ⟨t, next, Or.inl moved⟩

omit [DecidableEq E] in
theorem single_arrive (single : p.client.client.Single s) (later : List WsMessage) :
    (p.arrive later).client.client.Single (s.arrive later) :=
  ⟨by simp [arrive, single.sessions], single.session⟩

omit [DecidableEq E] in
theorem unhurried_arrive (unhurried : p.client.client.Unhurried s) (later : List WsMessage) :
    (p.arrive later).client.client.Unhurried (s.arrive later) := by
  have book : (p.arrive later).client.client.book = p.client.client.book := by simp [Client.book, arrive]
  exact ⟨single_arrive unhurried.single later, book ▸ unhurried.ordered, unhurried.one, unhurried.unopened⟩

theorem carries_arrive (carries : p.client.Carries lib s) (later : List WsMessage) :
    (p.arrive later).client.Carries lib (s.arrive later) := by
  obtain ⟨inbox, es, ran, plain⟩ := carries.reached
  have blind : ∀ (u : Session E Nat) e, u.PlainWrites e → (u.arrive later).PlainWrites e :=
    fun _ e plain => by cases e <;> exact plain
  refine ⟨single_arrive carries.single later, ⟨inbox ++ later, es, ?_, ?_⟩, carries.contents, carries.numbers⟩
  · rw [← Session.initial_arrive]
    exact Session.run_arrive later ran
  · rw [← Session.initial_arrive]
    exact Session.each_arrive later blind ran plain

theorem frame_of_prefix (carries : p.client.Carries lib s) (kept : p.client.storage <+: q.client.storage) {msg : Nat}
    (member : msg ∈ s.view.written) : q.frame true msg = p.frame true msg := by
  have bound := carries.lt_length member
  obtain ⟨more, whole⟩ := kept
  rw [frame, frame, ← whole, List.getElem?_append_left bound]

end Steps

end MovementPatch

/-- A patch, and the session at the other end of its connection. `wire` and `answers` are what the streams of the two
    have sent, and `banged` are the states of the objects at their bangs. -/
structure MovementLink (E : Type) where
  patch : MovementPatch E
  remote : Session E Nat
  wire : List WsMessage := []
  answers : List WsMessage := []
  banged : List Movement := []

namespace MovementLink

inductive Event (E : Type)
  | patch (e : MovementPatch.Event E)
  | remote (e : Session.Event E Nat)

section Machine

variable {E : Type} [DecidableEq E] (getDouble : Atom → Except String Binary64)
  (getSymbol : Atom → Except String String) (lib : MovementLibrary) (answer : Nat → WsMessage)

def step (c : MovementLink E) : Event E → Option (MovementLink E)
  | .patch e => (MovementPatch.step getDouble getSymbol lib c.patch e).map fun patch =>
      let frames := c.patch.sends patch
      { c with patch, remote := c.remote.arrive frames, wire := c.wire ++ frames, banged := c.banged ++ c.patch.bangs e }
  | .remote e => (c.remote.step e).map fun remote =>
      let frames := (c.remote.sends remote).map answer
      { c with patch := c.patch.arrive frames, remote, answers := c.answers ++ frames }

def machine : Transition.System (MovementLink E) (Event E) := ⟨step getDouble getSymbol lib answer⟩

def start (url : NetUrl E) : MovementLink E :=
  { patch := MovementPatch.start url [], remote := Session.initial .server [] }

end Machine

variable {E : Type}

def received (c : MovementLink E) : List (Option Movement) :=
  (c.remote.trace.filterMap Action.delivered?).map fun data => data.bind Movement.parseFromArray

/-- There are no bangs before `on_ready()`, and no messages but those of the objects. The other end installs its handlers
    before it accepts the connection, and writes no message twice. -/
def Patient (c : MovementLink E) : Event E → Prop
  | .patch (.bang _) => c.patch.binary = true
  | .patch (.iiwaMove _) => False
  | .patch _ => True
  | .remote e => c.remote.PlainWrites e ∧ c.remote.OpensOnce e

instance decidablePatient (c : MovementLink E) (e : Event E) : Decidable (c.Patient e) := by
  unfold Patient
  split <;> infer_instance

section Runs

variable [DecidableEq E] {getDouble : Atom → Except String Binary64} {getSymbol : Atom → Except String String}
  {lib : MovementLibrary} {accepts : String → UInt64 → Bool} {answer : Nat → WsMessage} {c d : MovementLink E}

structure Holds (lib : MovementLibrary) (accepts : String → UInt64 → Bool) (c : MovementLink E) (s : Session E Nat)
    (sent : List Nat) : Prop where
  carries : c.patch.client.Carries lib s
  unhurried : c.patch.client.client.Unhurried s
  sender : Session.ReadyEnd sent c.answers s
  receiver : ∃ back, Session.Linked back c.wire c.remote
  wire : c.wire = sent.map (c.patch.frame true)
  snapshots : c.patch.client.snapshots = lib.passed accepts c.banged
  compact : c.patch.Compact

namespace Holds

variable {s : Session E Nat} {sent : List Nat}

theorem client (holds : c.Holds lib accepts s sent) : s.role = .client := holds.carries.reached.role

/-- The messages of a step are binary, and what has been sent is not changed by it. -/
theorem wire_patch {q : MovementPatch E} {t : Session E Nat} (holds : c.Holds lib accepts s sent)
    (single : q.client.client.Single t) (kept : c.patch.client.storage <+: q.client.storage)
    (ready : s.sends t ≠ [] → 0 < s.trace.countP Action.isReady) :
    c.wire ++ c.patch.sends q = (sent ++ s.sends t).map (q.frame true) := by
  have old : sent.map (q.frame true) = c.wire := by
    rw [holds.wire]
    apply List.map_congr_left
    intro msg member
    exact MovementPatch.frame_of_prefix holds.carries kept (holds.sender.prompt.segment.subset member)
  have new : c.patch.sends q = (s.sends t).map (q.frame true) := by
    simp only [MovementPatch.sends, MovementPatch.session_of_single holds.carries.single,
      MovementPatch.session_of_single single, MovementPatch.binary_of_single holds.carries.single]
    by_cases none : s.sends t = []
    · simp [none]
    · simp [ready none]
  rw [List.map_append, old, new]

theorem patch {e : MovementPatch.Event E} {q : MovementPatch E} (holds : c.Holds lib accepts s sent)
    (lawful : lib.Lawful accepts) (written : lib.serializeToArray = Movement.serializeToArray)
    (patient : c.Patient (.patch e))
    (taken : MovementPatch.step getDouble getSymbol lib c.patch e = some q) :
    ∃ t sent, Holds lib accepts
      { c with
        patch := q
        remote := c.remote.arrive (c.patch.sends q)
        wire := c.wire ++ c.patch.sends q
        banged := c.banged ++ c.patch.bangs e } t sent := by
  have own : e.foreign = false := by
    cases e with
    | iiwaMove args => exact patient.elim
    | _ => rfl
  obtain ⟨t, unhurried, moved⟩ := MovementPatch.step_moved holds.unhurried own taken
  obtain ⟨u, carries⟩ := MovementPatch.step_carries ⟨s, holds.carries⟩ taken
  obtain rfl : u = t := List.singleton_inj.mp (carries.single.sessions.symm.trans unhurried.single.sessions)
  have next : Session.ReadyEnd (sent ++ s.sends u) c.answers u ∧ (s.sends u ≠ [] → 0 < s.trace.countP Action.isReady) := by
    rcases moved with moved | ⟨⟨address, rfl⟩, rfl⟩
    · exact holds.sender.moved holds.client moved
    · have ready : 0 < s.trace.countP Action.isReady := by
        have binary : c.patch.binary = true := patient
        rw [MovementPatch.binary_of_single holds.carries.single] at binary
        exact of_decide_eq_true binary
      have fresh : c.patch.client.storage.length ∉ s.view.written :=
        fun member => Nat.lt_irrefl _ (holds.carries.lt_length member)
      exact ⟨holds.sender.step (e := .write false c.patch.client.storage.length) fresh True.intro ready rfl, fun _ => ready⟩
  obtain ⟨back, receiver⟩ := holds.receiver
  refine ⟨u, sent ++ s.sends u, carries, unhurried, next.1, ⟨back, receiver.arrive _⟩, ?_, ?_, ?_⟩
  · exact holds.wire_patch carries.single (MovementPatch.storage_step taken) next.2
  · rw [MovementPatch.snapshots_step lawful own taken, holds.snapshots, MovementLibrary.passed_append]
  · exact MovementPatch.compact_step lawful written holds.compact own taken

theorem remote {e : Session.Event E Nat} {u : Session E Nat} (holds : c.Holds lib accepts s sent)
    (patient : c.Patient (.remote e)) (taken : c.remote.step e = some u) (frames : List WsMessage) :
    ∃ t sent, Holds lib accepts
      { c with patch := c.patch.arrive frames, remote := u, answers := c.answers ++ frames } t sent := by
  obtain ⟨back, receiver⟩ := holds.receiver
  exact ⟨s.arrive frames, sent,
    { carries := MovementPatch.carries_arrive holds.carries frames
      unhurried := MovementPatch.unhurried_arrive holds.unhurried frames
      sender := holds.sender.arrive frames
      receiver := ⟨_, receiver.step patient.1 patient.2 taken⟩
      wire := holds.wire
      snapshots := holds.snapshots
      compact := ⟨holds.compact.states, holds.compact.snapshots, holds.compact.frames⟩ }⟩

end Holds

theorem holds_start (url : NetUrl E) : ∃ s sent, (start url).Holds lib accepts s sent := by
  obtain ⟨s, carries⟩ : ∃ s, (MovementPatch.start url []).client.Carries lib s := MovementPatch.start_carries url []
  obtain ⟨t, unhurried, moved⟩ := Client.unhurried_create url []
  obtain rfl : s = t := List.singleton_inj.mp (carries.single.sessions.symm.trans unhurried.single.sessions)
  have linked (r : Role) : Session.Linked [] [] (Session.initial r [] : Session E Nat) :=
    @Link.linked_start E Nat Link.byteFrame r
  have fresh : Session.ReadyEnd [] [] (Session.initial .client [] : Session E Nat) :=
    ⟨linked .client, ⟨fun _ => rfl, by simp [Session.initial], List.nil_prefix⟩, fun some => absurd rfl some⟩
  have opened := (fresh.moved rfl moved).1
  have none : (Session.initial .client [] : Session E Nat).sends s = [] := Session.sends_closed rfl
  rw [none, List.append_nil] at opened
  exact ⟨s, [],
    { carries, unhurried
      sender := opened
      receiver := ⟨[], linked .server⟩
      wire := rfl
      snapshots := MovementLibrary.passed_nil.symm
      compact := MovementPatch.compact_start url [] }⟩

theorem holds_of_run {url : NetUrl E} {es : List (Event E)} (lawful : lib.Lawful accepts)
    (written : lib.serializeToArray = Movement.serializeToArray)
    (ran : (machine getDouble getSymbol lib answer).run (start url) es = some c)
    (patient : (machine getDouble getSymbol lib answer).Each Patient (start url) es) :
    ∃ s sent, c.Holds lib accepts s sent := by
  apply Transition.System.invariant_of_run (P := fun c : MovementLink E => ∃ s sent, c.Holds lib accepts s sent) ?_
    (holds_start url) patient ran
  rintro c e d ⟨s, sent, holds⟩ patient taken
  cases e with
  | patch e =>
    obtain ⟨q, stepped, rfl⟩ := Option.map_eq_some_iff.mp taken
    exact holds.patch lawful written patient stepped
  | remote e =>
    obtain ⟨u, stepped, rfl⟩ := Option.map_eq_some_iff.mp taken
    exact holds.remote patient stepped _

/-- What has been read and what is on its way are the movements of the messages that were sent. -/
theorem Holds.read {s : Session E Nat} {sent : List Nat} (holds : c.Holds lib accepts s sent) :
    c.received ++ c.remote.inbox.map (fun message => Movement.parseFromArray message.data) =
      sent.map fun msg => (c.patch.client.storage[msg]?).bind Movement.parseFromArray := by
  obtain ⟨back, receiver⟩ := holds.receiver
  have order := receiver.receiving.order.delivered
  rw [Session.readView_delivered] at order
  have parsed := congrArg (List.map fun data : Option (List UInt8) => data.bind Movement.parseFromArray) order
  rw [List.map_append, List.map_map, List.map_map, holds.wire, List.map_map] at parsed
  refine parsed.trans (List.map_congr_left fun msg member => ?_)
  have bound := holds.carries.lt_length (holds.sender.prompt.segment.subset member)
  simp [MovementPatch.frame, WsMessage.data, bound]

/-- Where no object is sent a bang before the session is ready, and its tag is accepted: whatever the patch, the two
    sessions and their connection do in between, the other end reads the states of the objects at their bangs, in the
    order of the bangs, and all of them once the queue and the connection are empty. -/
theorem movements_arrive (lawful : lib.Lawful accepts) (written : lib.serializeToArray = Movement.serializeToArray)
    (answer : Nat → WsMessage) (url : NetUrl E) (es : List (Event E)) (c : MovementLink E)
    (ran : (machine getDouble getSymbol lib answer).run (start url) es = some c)
    (patient : (machine getDouble getSymbol lib answer).Each Patient (start url) es) :
    c.received <+: (lib.passed accepts c.banged).map some ∧
      ((∀ s ∈ c.patch.session, s.wsOpen = true ∧ s.msgQueue = []) → c.remote.inbox = [] →
        c.received = (lib.passed accepts c.banged).map some) := by
  obtain ⟨s, sent, holds⟩ := holds_of_run lawful written ran patient
  have read := holds.read
  have all : (s.view.written.map fun msg => (c.patch.client.storage[msg]?).bind Movement.parseFromArray) =
      (lib.passed accepts c.banged).map some := by
    have contents := congrArg (List.map fun frame : Option (List UInt8) => frame.bind Movement.parseFromArray)
      holds.carries.contents
    rw [holds.compact.read_back written, List.map_map, holds.snapshots] at contents
    exact contents
  constructor
  · have arrived : c.received <+: sent.map fun msg => (c.patch.client.storage[msg]?).bind Movement.parseFromArray :=
      ⟨_, read⟩
    rw [← all]
    exact arrived.trans (holds.sender.prompt.segment.map _)
  · intro drained empty
    obtain ⟨isOpen, idle⟩ := drained s (MovementPatch.session_of_single holds.carries.single)
    rw [empty, List.map_nil, List.append_nil, holds.sender.prompt.unbroken isOpen,
      Link.entered_of_empty holds.sender.linked idle] at read
    exact read.trans all

end Runs

def bangsAndReads : List (Event Unit) :=
  [.patch (.construct 64 [.sym "LIN"]), .remote .setOnReady, .remote .setOnRead, .remote .accept,
    .patch (.client (.session 0 (.connected { hostname := ['h'], endpointSeq := [()] } .success))),
    .patch (.client (.session 0 (.handshaken .success))), .remote (.accepted .success),
    .patch (.client (.session 0 .strandStep)), .remote .strandStep, .remote .strandStep, .patch (.bang 64),
    .patch (.group 64 .filterParams [.float .zero, .float .zero, .float .zero]), .patch (.bang 64),
    .patch (.client (.session 0 (.writeStart 0))), .remote (.received [[8, 2]]), .remote .strandStep, .remote .strandStep,
    .patch (.client (.session 0 (.written 0 .success 2))), .remote (.received [[8], [2, 50, 0]]),
    .patch (.client (.session 0 (.written 1 .success 4)))]

/-- An object is sent a bang twice, and its type of movement is read at the other end both times, or no time where the
    names are compared. -/
theorem movements_arrive_twice :
    (∃ c, (machine ownDouble ownSymbol (MovementPatch.ownLibrary MovementPatch.anyTag) (Link.byteFrame .server)).run
        (start { hostname := ['h'], endpointSeq := [()] }) bangsAndReads = some c ∧
      c.received = [some { moveType := .lin }, some { moveType := .lin, filterParameter := some {} }]) ∧
    ∃ c, (machine ownDouble ownSymbol (MovementPatch.ownLibrary MovementPatch.sameName) (Link.byteFrame .server)).run
        (start { hostname := ['h'], endpointSeq := [()] }) (bangsAndReads.take 13) = some c ∧
      c.banged = [{ moveType := .lin }, { moveType := .lin, filterParameter := some {} }] ∧ c.received = [] := by
  constructor
  · have observed : ((machine ownDouble ownSymbol (MovementPatch.ownLibrary MovementPatch.anyTag)
        (Link.byteFrame .server)).run (start { hostname := ['h'], endpointSeq := [()] }) bangsAndReads).map (fun c =>
          (c.banged, c.patch.session.map fun s => (s.wsOpen, s.msgQueue), c.remote.inbox)) =
        some ([{ moveType := .lin }, { moveType := .lin, filterParameter := some {} }], some (true, []), []) := by
      decide +kernel
    obtain ⟨c, final, seen⟩ := Option.map_eq_some_iff.mp observed
    simp only [Prod.mk.injEq, Option.map_eq_some_iff] at seen
    obtain ⟨banged, ⟨s, current, isOpen, empty⟩, read⟩ := seen
    have drained : ∀ t ∈ c.patch.session, t.wsOpen = true ∧ t.msgQueue = [] := by
      intro t member
      obtain rfl : s = t := Option.some.inj (current.symm.trans member)
      exact ⟨isOpen, empty⟩
    obtain ⟨-, whole⟩ := movements_arrive (MovementPatch.ownLibrary_lawful MovementPatch.anyTag) rfl
      (Link.byteFrame .server) { hostname := ['h'], endpointSeq := [()] } bangsAndReads c final (by decide +kernel)
    refine ⟨c, final, ?_⟩
    rw [whole drained read, banged]
    rfl
  · have observed : ((machine ownDouble ownSymbol (MovementPatch.ownLibrary MovementPatch.sameName)
        (Link.byteFrame .server)).run (start { hostname := ['h'], endpointSeq := [()] }) (bangsAndReads.take 13)).map
          (fun c => c.banged) = some [{ moveType := .lin }, { moveType := .lin, filterParameter := some {} }] := by
      decide +kernel
    have refused : (MovementPatch.ownLibrary MovementPatch.sameName).passed MovementPatch.sameName
        [{ moveType := .lin }, { moveType := .lin, filterParameter := some {} }] = [] := by decide +kernel
    obtain ⟨c, final, banged⟩ := Option.map_eq_some_iff.mp observed
    obtain ⟨piece, -⟩ := movements_arrive (MovementPatch.ownLibrary_lawful MovementPatch.sameName) rfl
      (Link.byteFrame .server) { hostname := ['h'], endpointSeq := [()] } (bangsAndReads.take 13) c final
      (by decide +kernel)
    rw [banged, refused] at piece
    exact ⟨c, final, banged, List.prefix_nil.mp piece⟩

end MovementLink

end MaxNet
