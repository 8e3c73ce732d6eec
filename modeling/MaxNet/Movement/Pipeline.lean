import MaxNet.Client.Sends
import MaxNet.Movement.Model
import MaxNet.Session.Rest

namespace MaxNet

/-- `websocketclient_iiwa`. The messages of its factory are numbered as they are allocated, and `storage` is what
    they hold. `snapshots` are the movements that were serialized into messages for `send()`. -/
structure WebsocketClientIiwa (E : Type) where
  client : Client E Nat := {}
  storage : List (List UInt8) := []
  deallocated : List Nat := []
  snapshots : List Movement := []
  posts : List Post := []

/-- Objects of `iiwa_move`, at the addresses of their `movement_state`, whose outlets are connected to a
    `websocketclient_iiwa`. -/
structure MovementPatch (E : Type) where
  moves : List (Int64 × MovementObject) := []
  client : WebsocketClientIiwa E := {}

structure CheckableObj where
  typenameHash : UInt64
  value : Movement

/-- The library functions that the movements go through: `atom::get< long long >()`, `CONSTEXPR_TYPENAME_HASH`,
    `GEN_CHECKED_PTR` for the name of a type, which looks at the object at the address, and
    `Movement::SerializeToArray()`. -/
structure MovementLibrary where
  getLong : Atom → Except String Int64
  constexprTypenameHash : String → UInt64
  genCheckedPtr : String → List (Int64 × CheckableObj) → Int64 → Except String Movement
  serializeToArray : Movement → List UInt8

namespace MovementLibrary

variable {lib : MovementLibrary} {accepts : String → UInt64 → Bool}

structure Lawful (lib : MovementLibrary) (accepts : String → UInt64 → Bool) : Prop where
  getLong_long : ∀ n, lib.getLong (.long n) = .ok n
  accepted : ∀ name objs address obj, objs.lookup address = some obj → accepts name obj.typenameHash = true →
    lib.genCheckedPtr name objs address = .ok obj.value
  refused : ∀ name objs address obj, objs.lookup address = some obj → accepts name obj.typenameHash = false →
    ∃ what, lib.genCheckedPtr name objs address = .error what

/-- The tag that `iiwa_move` gives its movement is not the name of the type that is asked for. -/
def checkable (lib : MovementLibrary) (o : MovementObject) : CheckableObj :=
  ⟨lib.constexprTypenameHash "iiwa::message", o.movementState⟩

def genMvPtr (lib : MovementLibrary) (moves : List (Int64 × MovementObject)) (address : Int64) : Except String Movement :=
  lib.genCheckedPtr "iiwa::Movement" (moves.map fun move => (move.1, lib.checkable move.2)) address

def passed (lib : MovementLibrary) (accepts : String → UInt64 → Bool) (movements : List Movement) : List Movement :=
  if accepts "iiwa::Movement" (lib.constexprTypenameHash "iiwa::message") then movements else []

theorem passed_nil : lib.passed accepts [] = [] := by
  unfold passed
  split <;> rfl

theorem passed_append (first second : List Movement) :
    lib.passed accepts (first ++ second) = lib.passed accepts first ++ lib.passed accepts second := by
  unfold passed
  split <;> rfl

theorem mem_of_passed {movements : List Movement} {mv : Movement} (member : mv ∈ lib.passed accepts movements) :
    mv ∈ movements := by
  unfold passed at member
  split at member
  · exact member
  · cases member

theorem lookup_checkable (moves : List (Int64 × MovementObject)) (address : Int64) :
    (moves.map fun move => (move.1, lib.checkable move.2)).lookup address =
      (moves.lookup address).map lib.checkable := by
  induction moves with
  | nil => rfl
  | cons move moves ih =>
    rw [List.map_cons, List.lookup_cons, List.lookup_cons]
    cases address == move.1 with
    | true => rfl
    | false => exact ih

theorem Lawful.genMvPtr (lawful : lib.Lawful accepts) {moves : List (Int64 × MovementObject)} {address : Int64}
    {o : MovementObject} (found : moves.lookup address = some o) :
    (lib.genMvPtr moves address = .ok o.movementState ∧ lib.passed accepts [o.movementState] = [o.movementState]) ∨
      ∃ what, lib.genMvPtr moves address = .error what ∧ lib.passed accepts [o.movementState] = [] := by
  have held : (moves.map fun move => (move.1, lib.checkable move.2)).lookup address = some (lib.checkable o) := by
    rw [lookup_checkable, found]
    rfl
  cases tag : accepts "iiwa::Movement" (lib.constexprTypenameHash "iiwa::message") with
  | true => exact Or.inl ⟨lawful.accepted _ _ _ _ held tag, by rw [passed, tag]; rfl⟩
  | false =>
    obtain ⟨what, refused⟩ := lawful.refused _ _ _ _ held tag
    exact Or.inr ⟨what, refused, by rw [passed, tag]; rfl⟩

end MovementLibrary

namespace WebsocketClientIiwa

variable {E : Type} (lib : MovementLibrary)

/-- `new_mv_msg`. `none` where the first of no arguments is accessed. -/
def newMvMsg (moves : List (Int64 × MovementObject)) (args : List Atom) (c : WebsocketClientIiwa E) :
    Option (WebsocketClientIiwa E) :=
  match args with
  | [] => none
  | arg :: _ =>
    let msg := c.storage.length
    match (lib.getLong arg).bind (lib.genMvPtr moves) with
    | .ok mv =>
      some { c with
        client := c.client.send false msg
        storage := c.storage ++ [lib.serializeToArray mv]
        snapshots := c.snapshots ++ [mv] }
    | .error what =>
      some { c with
        storage := c.storage ++ [[]]
        deallocated := c.deallocated ++ [msg]
        posts := c.posts ++ [.cerr what.toList] }

end WebsocketClientIiwa

namespace MovementPatch

variable {E : Type}

inductive Event (E : Type)
  | construct (address : Int64) (args : List Atom)
  | group (address : Int64) (g : ParameterGroup) (args : List Atom)
  | bang (address : Int64)
  | iiwaMove (args : List Atom)
  | client (e : Client.Event E Nat)

def background : Client.Event E Nat → Bool
  | .sessionClose => true
  | .resolved _ _ _ => true
  | .session _ .streamCloses => true
  | .session _ e => e.own
  | _ => false

def change (address : Int64) (o : MovementObject) (p : MovementPatch E) : MovementPatch E :=
  { p with moves := p.moves.map fun move => if move.1 = address then (address, o) else move }

section Machine

variable [DecidableEq E] (getDouble : Atom → Except String Binary64) (getSymbol : Atom → Except String String)
  (lib : MovementLibrary)

/-- `data_out.send( "iiwa_move", ... )` of an `iiwa_move` object calls `new_mv_msg` at once. -/
def step (p : MovementPatch E) (e : Event E) : Option (MovementPatch E) :=
  if p.client.client.aborted then none
  else
    match e with
    | .construct address args =>
      if (p.moves.lookup address).isNone then
        some { p with moves := p.moves ++ [(address, IiwaMovementMessage.construct getSymbol args)] }
      else none
    | .group address g args => (p.moves.lookup address).map fun o => p.change address (g.handler getDouble args o).2
    | .bang address =>
      (p.moves.lookup address).bind fun _ =>
        (p.client.newMvMsg lib p.moves [.long address]).map fun client => { p with client }
    | .iiwaMove args => (p.client.newMvMsg lib p.moves args).map fun client => { p with client }
    | .client e =>
      if background e then
        (p.client.client.step e).map fun client => { p with client := { p.client with client } }
      else none

def machine : Transition.System (MovementPatch E) (Event E) := ⟨step getDouble getSymbol lib⟩

def banged (p : MovementPatch E) : List (Event E) → List Movement
  | [] => []
  | e :: es =>
    match step getDouble getSymbol lib p e with
    | none => []
    | some q =>
      match e with
      | .bang address => (p.moves.lookup address).toList.map MovementObject.movementState ++ banged q es
      | _ => banged q es

def start (url : NetUrl E) (inbox : List WsMessage) : MovementPatch E :=
  { client := { client := ({} : Client E Nat).sessionCreate url inbox } }

end Machine

end MovementPatch

namespace Client

structure Single {E M : Type} (c : Client E M) (s : Session E M) : Prop where
  sessions : c.sessions = [s]
  session : c.session = some 0

namespace Single

variable {E M : Type} {c d : Client E M} {s : Session E M}

/-- The handlers are installed on the session, and unless the program ends there it is connected. -/
theorem doSessionConnect (single : c.Single s) (call : Nat) (url : NetUrl E) :
    ∃ t, (c.doSessionConnect call url).Single t ∧ (t = s.installHandlers ∨ s.installHandlers.connect url = some t) := by
  unfold Client.doSessionConnect
  rw [single.session]
  have installed : c.sessions.modify 0 Session.installHandlers = [s.installHandlers] := by rw [single.sessions]; rfl
  have found : ([s.installHandlers])[0]? = some s.installHandlers := rfl
  simp only [installed, found, Option.bind_some]
  cases s.installHandlers.connect url with
  | none => exact ⟨s.installHandlers, ⟨rfl, rfl⟩, Or.inl rfl⟩
  | some t => exact ⟨t, ⟨rfl, rfl⟩, Or.inr rfl⟩

theorem doSessionConnect_view (single : c.Single s) (call : Nat) (url : NetUrl E) :
    ∃ t, (c.doSessionConnect call url).Single t ∧ t.view = s.view := by
  obtain ⟨t, next, rfl | connected⟩ := single.doSessionConnect call url
  · exact ⟨_, next, rfl⟩
  · have kept : t.view = s.installHandlers.view := Session.view_connect connected
    exact ⟨t, next, kept⟩

variable [DecidableEq E] [DecidableEq M]

omit [DecidableEq M] in
theorem sessionCreate (url : NetUrl E) (inbox : List WsMessage) :
    ∃ s, (({} : Client E M).sessionCreate url inbox).Single s ∧
      s.view = (Session.initial .client inbox : Session E M).view := by
  let created : Client E M :=
    { sessions := [Session.initial .client inbox], session := some 0, requested := [url] }
  have single : created.Single (Session.initial .client inbox) := ⟨rfl, rfl⟩
  unfold Client.sessionCreate
  by_cases unresolved : (!url.isResolved) = true
  · simp only [unresolved, if_true]
    exact ⟨_, ⟨rfl, rfl⟩, rfl⟩
  · simp only [unresolved]
    exact single.doSessionConnect_view 0 url

omit [DecidableEq E] [DecidableEq M] in
theorem send (single : c.Single s) (inIoThread : Bool) (m : M) : (c.send inIoThread m).Single (s.write inIoThread m) := by
  unfold Client.send
  rw [single.session]
  exact ⟨by simp only [single.sessions]; rfl, rfl⟩

omit [DecidableEq E] [DecidableEq M] in
theorem of_getElem? (single : c.Single s) {i : Nat} {u : Session E M} (found : c.sessions[i]? = some u) :
    i = 0 ∧ u = s := by
  rw [single.sessions] at found
  cases i with
  | zero => exact ⟨rfl, (Option.some.inj found).symm⟩
  | succ i => cases found

/-- The session stays the same one, and nothing is written to it in the background. -/
theorem step_background {c d : Client E Nat} {s : Session E Nat} {e : Event E Nat} (single : c.Single s)
    (background : MovementPatch.background e = true) (h : c.step e = some d) :
    ∃ t, d.Single t ∧ t.view.written = s.view.written := by
  by_cases session : ∃ i e', e = .session i e'
  · obtain ⟨i, e, rfl⟩ := session
    obtain ⟨u, t, found, moved, rfl⟩ := step_session h
    obtain ⟨rfl, rfl⟩ := single.of_getElem? found
    refine ⟨t, ⟨by simp only [single.sessions]; rfl, single.session⟩, ?_⟩
    rcases Session.written_step moved with same | ⟨_, _, rfl, _⟩
    · exact same
    · cases background
  · unfold Client.step at h
    split at h
    · cases h
    · cases e with
      | sessionCreate => cases background
      | send => cases background
      | sessionClose =>
        cases h
        unfold Client.sessionClose
        rw [single.session]
        exact ⟨s.close, ⟨by simp only [single.sessions]; rfl, rfl⟩, congrArg WriteView.written s.view_close⟩
      | resolved op ec results =>
        obtain ⟨_, same⟩ := Option.ite_none_right_eq_some.mp h
        cases same
        unfold Client.resolved
        split
        · rename_i resolver call _ url _
          have kept : ({ c with resolver } : Client E Nat).Single s := ⟨single.sessions, single.session⟩
          obtain ⟨t, next, view⟩ := kept.doSessionConnect_view call url
          exact ⟨t, next, congrArg WriteView.written view⟩
        · exact ⟨s, ⟨single.sessions, single.session⟩, rfl⟩
      | session i e => exact absurd ⟨i, e, rfl⟩ session

end Single

theorem passes_background {E : Type} [DecidableEq E] {c : Client E Nat} {e : Event E Nat}
    (background : MovementPatch.background e = true) : c.Passes Session.PlainWrites e := by
  cases e with
  | send => cases background
  | session i e =>
    intro s _
    cases e with
    | setOnWriteDone => cases background
    | write => cases background
    | _ => exact True.intro
  | _ => exact True.intro

end Client

namespace WebsocketClientIiwa

variable {E : Type} [DecidableEq E] {lib : MovementLibrary} {c d : WebsocketClientIiwa E} {s : Session E Nat}

structure Carries (lib : MovementLibrary) (c : WebsocketClientIiwa E) (s : Session E Nat) : Prop where
  single : c.client.Single s
  reached : s.Reached Session.PlainWrites
  contents : s.view.written.map (fun msg => c.storage[msg]?) = c.snapshots.map fun mv => some (lib.serializeToArray mv)
  numbers : (s.view.written ++ c.deallocated).Perm (List.range c.storage.length)

namespace Carries

theorem allReached (carries : c.Carries lib s) : c.client.AllReached Session.PlainWrites := by
  intro t member
  rw [carries.single.sessions, List.mem_singleton] at member
  exact member ▸ carries.reached

theorem lt_length (carries : c.Carries lib s) {msg : Nat} (member : msg ∈ s.view.written) : msg < c.storage.length := by
  have known := carries.numbers.mem_iff.mp (List.mem_append_left _ member)
  exact List.mem_range.mp known

theorem contents_append (carries : c.Carries lib s) (bytes : List UInt8) :
    s.view.written.map (fun msg => (c.storage ++ [bytes])[msg]?) =
      c.snapshots.map fun mv => some (lib.serializeToArray mv) := by
  rw [← carries.contents]
  apply List.map_congr_left
  intro msg member
  exact List.getElem?_append_left (carries.lt_length member)

theorem send (carries : c.Carries lib s) (mv : Movement) :
    Carries lib { c with
      client := c.client.send false c.storage.length
      storage := c.storage ++ [lib.serializeToArray mv]
      snapshots := c.snapshots ++ [mv] } (s.write false c.storage.length) := by
  have written : (s.write false c.storage.length).view.written = s.view.written ++ [c.storage.length] :=
    Session.written_write false c.storage.length s
  have fresh : c.storage.length ∉ s.view.written := fun member => Nat.lt_irrefl _ (carries.lt_length member)
  refine ⟨carries.single.send false c.storage.length, carries.reached.write fresh, ?_, ?_⟩
  · rw [written, List.map_append, carries.contents_append, List.map_append]
    simp
  · have moved : (s.view.written ++ [c.storage.length] ++ c.deallocated).Perm
        (s.view.written ++ c.deallocated ++ [c.storage.length]) := by
      rw [List.append_assoc, List.append_assoc]
      exact List.perm_append_comm.append_left s.view.written
    rw [written, List.length_append, List.length_singleton, List.range_succ]
    exact moved.trans (carries.numbers.append_right _)

theorem refuse (carries : c.Carries lib s) (posts : List Post) :
    Carries lib { c with
      storage := c.storage ++ [[]], deallocated := c.deallocated ++ [c.storage.length], posts } s := by
  refine ⟨carries.single, carries.reached, carries.contents_append [], ?_⟩
  rw [List.length_append, List.length_singleton, List.range_succ, ← List.append_assoc]
  exact carries.numbers.append_right _

theorem newMvMsg (carries : c.Carries lib s) {moves : List (Int64 × MovementObject)} {args : List Atom}
    (h : c.newMvMsg lib moves args = some d) : ∃ t, d.Carries lib t := by
  cases args with
  | nil => cases h
  | cons arg args =>
    simp only [WebsocketClientIiwa.newMvMsg] at h
    split at h
    · cases h
      exact ⟨_, carries.send _⟩
    · cases h
      exact ⟨s, carries.refuse _⟩

theorem background (carries : c.Carries lib s) {e : Client.Event E Nat} {client : Client E Nat}
    (background : MovementPatch.background e = true) (h : c.client.step e = some client) :
    ∃ t, Carries lib { c with client } t := by
  obtain ⟨t, single, written⟩ := carries.single.step_background background h
  have all := carries.allReached.step Client.unasked_plainWrites (Client.passes_background background) h
  have reached := all t (by rw [single.sessions]; exact List.mem_singleton_self t)
  exact ⟨t, single, reached, by rw [written]; exact carries.contents, by rw [written]; exact carries.numbers⟩

end Carries

end WebsocketClientIiwa

namespace MovementPatch

variable {E : Type} [DecidableEq E] {getDouble : Atom → Except String Binary64} {getSymbol : Atom → Except String String}
  {lib : MovementLibrary} {accepts : String → UInt64 → Bool}

theorem step_carries {p q : MovementPatch E} {e : Event E} (carries : ∃ s, p.client.Carries lib s)
    (h : (machine getDouble getSymbol lib).step p e = some q) : ∃ s, q.client.Carries lib s := by
  obtain ⟨s, carries⟩ := carries
  have taken : step getDouble getSymbol lib p e = some q := h
  unfold step at taken
  split at taken
  · cases taken
  · cases e with
    | construct address args =>
      obtain ⟨_, same⟩ := Option.ite_none_right_eq_some.mp taken
      cases same
      exact ⟨s, carries⟩
    | group address g args =>
      obtain ⟨o, _, rfl⟩ := Option.map_eq_some_iff.mp taken
      exact ⟨s, carries⟩
    | bang address =>
      obtain ⟨o, _, sent⟩ := Option.bind_eq_some_iff.mp taken
      obtain ⟨client, made, rfl⟩ := Option.map_eq_some_iff.mp sent
      exact carries.newMvMsg made
    | iiwaMove args =>
      obtain ⟨client, made, rfl⟩ := Option.map_eq_some_iff.mp taken
      exact carries.newMvMsg made
    | client e =>
      obtain ⟨allowed, moved⟩ := Option.ite_none_right_eq_some.mp taken
      obtain ⟨client, stepped, rfl⟩ := Option.map_eq_some_iff.mp moved
      exact carries.background allowed stepped

theorem start_carries (url : NetUrl E) (inbox : List WsMessage) : ∃ s, (start url inbox).client.Carries lib s := by
  obtain ⟨s, single, view⟩ := Client.Single.sessionCreate (M := Nat) url inbox
  have none : ({} : Client E Nat).AllReached Session.PlainWrites := by simp [Client.AllReached]
  have all := none.sessionCreate Client.unasked_plainWrites url inbox
  have reached := all s (by rw [single.sessions]; exact List.mem_singleton_self s)
  refine ⟨s, single, reached, ?_, ?_⟩
  · rw [view]
    rfl
  · rw [view]
    exact List.Perm.refl _

def Event.foreign : Event E → Bool
  | .iiwaMove _ => true
  | _ => false

omit [DecidableEq E] in
/-- A bang sends the state of the object, or nothing. -/
theorem newMvMsg_bang {p : MovementPatch E} {client : WebsocketClientIiwa E} {address : Int64} {o : MovementObject}
    (lawful : lib.Lawful accepts) (found : p.moves.lookup address = some o)
    (made : p.client.newMvMsg lib p.moves [.long address] = some client) :
    client.snapshots = p.client.snapshots ++ lib.passed accepts [o.movementState] ∧
      ∃ bytes, client.storage = p.client.storage ++ [bytes] ∧
        (bytes = [] ∨ bytes = lib.serializeToArray o.movementState) := by
  rcases lawful.genMvPtr found with ⟨pointer, passed⟩ | ⟨what, pointer, passed⟩
  · simp only [WebsocketClientIiwa.newMvMsg, lawful.getLong_long, Except.bind, pointer] at made
    cases made
    rw [passed]
    exact ⟨rfl, _, rfl, Or.inr rfl⟩
  · simp only [WebsocketClientIiwa.newMvMsg, lawful.getLong_long, Except.bind, pointer] at made
    cases made
    rw [passed]
    exact ⟨(List.append_nil _).symm, _, rfl, Or.inl rfl⟩

def bangs (p : MovementPatch E) : Event E → List Movement
  | .bang address => (p.moves.lookup address).toList.map MovementObject.movementState
  | _ => []

theorem banged_cons {p q : MovementPatch E} {e : Event E} (es : List (Event E))
    (taken : step getDouble getSymbol lib p e = some q) :
    banged getDouble getSymbol lib p (e :: es) = p.bangs e ++ banged getDouble getSymbol lib q es := by
  rw [banged, taken]
  cases e <;> rfl

theorem snapshots_step (lawful : lib.Lawful accepts) {p q : MovementPatch E} {e : Event E} (own : e.foreign = false)
    (taken : step getDouble getSymbol lib p e = some q) :
    q.client.snapshots = p.client.snapshots ++ lib.passed accepts (p.bangs e) := by
  have silent : p.client.snapshots = p.client.snapshots ++ lib.passed accepts [] := by
    rw [MovementLibrary.passed_nil, List.append_nil]
  unfold step at taken
  split at taken
  · cases taken
  · cases e with
    | construct address args =>
      obtain ⟨_, same⟩ := Option.ite_none_right_eq_some.mp taken
      cases same
      exact silent
    | group address g args =>
      obtain ⟨o, _, rfl⟩ := Option.map_eq_some_iff.mp taken
      exact silent
    | bang address =>
      obtain ⟨o, found, sent⟩ := Option.bind_eq_some_iff.mp taken
      obtain ⟨client, made, rfl⟩ := Option.map_eq_some_iff.mp sent
      rw [bangs, found]
      exact (newMvMsg_bang lawful found made).1
    | iiwaMove args => cases own
    | client e =>
      obtain ⟨_, moved⟩ := Option.ite_none_right_eq_some.mp taken
      obtain ⟨client, _, rfl⟩ := Option.map_eq_some_iff.mp moved
      exact silent

/-- Where the messages come from the objects only, each bang sends the state of its object, or none does. -/
theorem snapshots_banged (lawful : lib.Lawful accepts) {es : List (Event E)} {p q : MovementPatch E}
    (ran : (machine getDouble getSymbol lib).run p es = some q) (own : ∀ e ∈ es, e.foreign = false) :
    q.client.snapshots = p.client.snapshots ++ lib.passed accepts (banged getDouble getSymbol lib p es) := by
  induction es generalizing p with
  | nil =>
    cases ran
    rw [banged, MovementLibrary.passed_nil, List.append_nil]
  | cons e es ih =>
    obtain ⟨r, taken, rest⟩ := Transition.System.run_cons_some.mp ran
    have later := ih rest fun e member => own e (List.mem_cons_of_mem _ member)
    have now := snapshots_step lawful (own e List.mem_cons_self) taken
    rw [later, now, banged_cons es taken, MovementLibrary.passed_append, List.append_assoc]

structure Accounted (lib : MovementLibrary) (c : WebsocketClientIiwa E) (s : Session E Nat) : Prop where
  /-- The bytes handed to the stream are those of the movements as they were sent, none twice or before its turn. -/
  in_order : List.Sublist (s.view.handed.map fun msg => c.storage[msg]?)
    (c.snapshots.map fun mv => some (lib.serializeToArray mv))
  /-- Every message that was allocated is deallocated or still in the queue, once. -/
  no_leak : (s.view.freed ++ s.msgQueue ++ c.deallocated).Perm (List.range c.storage.length)
  one_write : s.writes.length ≤ 1
  drained : s.Idle → (s.view.freed ++ c.deallocated).Perm (List.range c.storage.length)

omit [DecidableEq E] in
theorem accounted_of_refines {c : WebsocketClientIiwa E} {s : Session E Nat} {q : SerialQueue Nat}
    (contents : s.view.written.map (fun msg => c.storage[msg]?) = c.snapshots.map fun mv => some (lib.serializeToArray mv))
    (numbers : (s.view.written ++ c.deallocated).Perm (List.range c.storage.length)) (refines : s.view.Refines q)
    (unhandled : s.onWriteDone = false) : Accounted lib c s := by
  have orderly := Session.writes_in_order_of_refines refines unhandled
  have books := Session.freed_append_queue refines unhandled
  have all : (s.view.freed ++ s.msgQueue ++ c.deallocated).Perm (List.range c.storage.length) := books ▸ numbers
  refine ⟨?_, all, orderly.single, ?_⟩
  · rw [← contents]
    exact orderly.in_order.map _
  · intro idle
    rw [(orderly.drained idle).1, List.append_nil] at all
    exact all

theorem accounted_of_run {url : NetUrl E} {inbox : List WsMessage} {es : List (Event E)} {p : MovementPatch E}
    (ran : (machine getDouble getSymbol lib).run (start url inbox) es = some p) :
    ∃ s, p.client.client.sessions = [s] ∧ Accounted lib p.client s := by
  have carries : ∃ s, p.client.Carries lib s := by
    apply Transition.System.invariant_of_run (P := fun p => ∃ s, p.client.Carries lib s) (Q := fun _ _ => True) ?_
      (start_carries url inbox) Transition.System.each_true ran
    intro p e q carries _ h
    exact step_carries carries h
  obtain ⟨s, carries⟩ := carries
  obtain ⟨inbox, fs, reached, plain⟩ := carries.reached
  obtain ⟨⟨q, refines⟩, unhandled⟩ := Session.plain_run .client inbox fs s reached plain
  exact ⟨s, carries.single.sessions, accounted_of_refines carries.contents carries.numbers refines unhandled⟩

/-- Whatever is sent to the objects of a patch, and however their messages interleave with the network thread: the
    websocket gets the movements as they were when they were sent, and no message is leaked. Where only the objects
    send, these are their states at the bangs, or there are none at all if the tag of the objects is refused. -/
theorem sends_snapshots (url : NetUrl E) (inbox : List WsMessage) (es : List (Event E)) (p : MovementPatch E)
    (ran : (machine getDouble getSymbol lib).run (start url inbox) es = some p) :
    (∃ s, p.client.client.sessions = [s] ∧ Accounted lib p.client s) ∧
      ∀ accepts, lib.Lawful accepts → (∀ e ∈ es, e.foreign = false) →
        p.client.snapshots = lib.passed accepts (banged getDouble getSymbol lib (start url inbox) es) :=
  ⟨accounted_of_run ran, fun _ lawful own => snapshots_banged lawful ran own⟩

def nameHash (name : String) : UInt64 := name.toList.foldl (fun hash c => 31 * hash + .ofNat c.toNat) 7

def typesOnly (accepts : String → UInt64 → Bool) : MovementLibrary where
  getLong
    | .long n => .ok n
    | _ => .error "atom is not of type long"
  constexprTypenameHash := nameHash
  genCheckedPtr name objs address :=
    match objs.lookup address with
    | some obj => if accepts name obj.typenameHash then .ok obj.value else .error "type check failed"
    | none => .error "pointer check failed"
  serializeToArray mv := if mv.moveType = .joint then [] else [8, .ofNat mv.moveType.number.toInt.toNat]

theorem typesOnly_lawful (accepts : String → UInt64 → Bool) : (typesOnly accepts).Lawful accepts where
  getLong_long := fun _ => rfl
  accepted := by
    intro name objs address obj found accepted
    simp only [typesOnly, found, accepted, if_true]
  refused := by
    intro name objs address obj found refused
    exact ⟨"type check failed", by simp [typesOnly, found, refused]⟩

def anyTag (_ : String) (_ : UInt64) : Bool := true

def sameName (name : String) (hash : UInt64) : Bool := nameHash name == hash

def bangsTwice : List (Event Unit) :=
  [.construct 64 [.sym "LIN"], .bang 64, .construct 128 [.sym "BATCH"], .group 128 .joints [], .bang 128]

/-- The states at the bangs are what is in the messages. Where the names are compared the messages stay empty, and they
    are deallocated. -/
theorem sends_snapshots_twice :
    (∃ p s, (machine ownDouble ownSymbol (typesOnly anyTag)).run
        (start { hostname := ['h'], endpointSeq := [()] } []) bangsTwice = some p ∧
      p.client.client.sessions = [s] ∧ Accounted (typesOnly anyTag) p.client s ∧
      p.client.storage = [[8, 2], [8, 5]] ∧ p.client.snapshots = [{ moveType := .lin }, { moveType := .batch }]) ∧
    ∃ p s, (machine ownDouble ownSymbol (typesOnly sameName)).run
        (start { hostname := ['h'], endpointSeq := [()] } []) bangsTwice = some p ∧
      p.client.client.sessions = [s] ∧ Accounted (typesOnly sameName) p.client s ∧
      p.client.storage = [[], []] ∧ p.client.deallocated = [0, 1] ∧ p.client.snapshots = [] := by
  constructor
  · have observed : ((machine ownDouble ownSymbol (typesOnly anyTag)).run
        (start { hostname := ['h'], endpointSeq := [()] } []) bangsTwice).map (fun p => p.client.storage) =
        some [[8, 2], [8, 5]] := by decide +kernel
    have passed : (typesOnly anyTag).passed anyTag (banged ownDouble ownSymbol (typesOnly anyTag)
        (start { hostname := ['h'], endpointSeq := [()] } []) bangsTwice) =
        [{ moveType := .lin }, { moveType := .batch }] := by decide +kernel
    obtain ⟨p, final, storage⟩ := Option.map_eq_some_iff.mp observed
    obtain ⟨⟨s, single, accounted⟩, snapshots⟩ :=
      sends_snapshots { hostname := ['h'], endpointSeq := [()] } [] bangsTwice p final
    exact ⟨p, s, final, single, accounted, storage, (snapshots anyTag (typesOnly_lawful anyTag) (by decide)).trans passed⟩
  · have observed : ((machine ownDouble ownSymbol (typesOnly sameName)).run
        (start { hostname := ['h'], endpointSeq := [()] } []) bangsTwice).map (fun p =>
          (p.client.storage, p.client.deallocated)) = some ([[], []], [0, 1]) := by decide +kernel
    have passed : (typesOnly sameName).passed sameName (banged ownDouble ownSymbol (typesOnly sameName)
        (start { hostname := ['h'], endpointSeq := [()] } []) bangsTwice) = [] := by decide +kernel
    obtain ⟨p, final, seen⟩ := Option.map_eq_some_iff.mp observed
    obtain ⟨storage, deallocated⟩ := Prod.mk.inj seen
    obtain ⟨⟨s, single, accounted⟩, snapshots⟩ :=
      sends_snapshots { hostname := ['h'], endpointSeq := [()] } [] bangsTwice p final
    exact ⟨p, s, final, single, accounted, storage, deallocated,
      (snapshots sameName (typesOnly_lawful sameName) (by decide)).trans passed⟩

end MovementPatch

end MaxNet
