import MaxNet.Listener.Alive

namespace MaxNet.Listener

variable {H C : Type}

def deliveries (l : Listener H C) : List (Option H × ErrorCode × C) :=
  l.calls.filterMap fun call => call.2.2.map fun connection => (some call.1, call.2.1, connection)

def expected (l : Listener H C) : List (Option H × ErrorCode × C) :=
  l.accepted.map fun accepted => (l.started[accepted.1]?, .success, accepted.2)

/-- A hand-off takes the connection of its own accept: at most the first one in the pipeline has one. -/
def Flight (l : Listener H C) : Prop :=
  match l.socket with
  | none => (∀ accept ∈ l.pipeline, accept.2.failed = true) ∧ l.expected = l.deliveries
  | some connection => ∃ accept rest, l.pipeline = (accept, .success) :: rest ∧
      (∀ other ∈ rest, other.2.failed = true) ∧ l.started[accept.acceptor]? = some accept.handler ∧
      l.expected = l.deliveries ++ [(some accept.handler, .success, connection)]

theorem flight_none {l : Listener H C} (empty : l.socket = none) :
    l.Flight ↔ (∀ accept ∈ l.pipeline, accept.2.failed = true) ∧ l.expected = l.deliveries := by
  unfold Flight
  rw [empty]

theorem flight_some {l : Listener H C} {connection : C} (held : l.socket = some connection) :
    l.Flight ↔ ∃ accept rest, l.pipeline = (accept, .success) :: rest ∧
      (∀ other ∈ rest, other.2.failed = true) ∧ l.started[accept.acceptor]? = some accept.handler ∧
      l.expected = l.deliveries ++ [(some accept.handler, .success, connection)] := by
  unfold Flight
  rw [held]

structure InHand (threads : Nat) (l : Listener H C) : Prop where
  flight : l.Flight
  mutex : l.posted.length = if l.socketMtx then 1 else 0
  free : l.blocked ≠ none → l.socket ≠ none → 2 ≤ threads
  made : ∀ accepted ∈ l.accepted, accepted.1 < l.started.length

/-- More acceptors, and errors at the end of the pipeline, change nothing. -/
theorem InHand.flight_of_grown {threads : Nat} {l t : Listener H C} (inHand : l.InHand threads)
    (more : List H) (errors : List (Accept H × ErrorCode)) (failed : ∀ error ∈ errors, error.2.failed = true)
    (started : t.started = l.started ++ more) (pipeline : t.pipeline = l.pipeline ++ errors)
    (socket : t.socket = l.socket) (accepted : t.accepted = l.accepted) (calls : t.calls = l.calls) : t.Flight := by
  have expected : t.expected = l.expected := by
    rw [Listener.expected, Listener.expected, accepted, started]
    apply List.map_congr_left
    intro one member
    rw [List.getElem?_append_left (inHand.made one member)]
  have deliveries : t.deliveries = l.deliveries := by rw [Listener.deliveries, Listener.deliveries, calls]
  cases held : l.socket with
  | none =>
    apply (flight_none (socket.trans held)).mpr
    obtain ⟨before, all⟩ := (flight_none held).mp inHand.flight
    rw [pipeline, expected, deliveries]
    exact ⟨List.forall_mem_append.mpr ⟨before, failed⟩, all⟩
  | some connection =>
    apply (flight_some (socket.trans held)).mpr
    obtain ⟨accept, rest, first, before, own, all⟩ := (flight_some held).mp inHand.flight
    obtain ⟨inside, _⟩ := List.getElem?_eq_some_iff.mp own
    rw [pipeline, expected, deliveries, started, first]
    refine ⟨accept, rest ++ errors, rfl, List.forall_mem_append.mpr ⟨before, failed⟩, ?_, all⟩
    rw [List.getElem?_append_left inside, own]

theorem InHand.flight_of_same {threads : Nat} {l t : Listener H C} (inHand : l.InHand threads)
    (started : t.started = l.started) (pipeline : t.pipeline = l.pipeline) (socket : t.socket = l.socket)
    (accepted : t.accepted = l.accepted) (calls : t.calls = l.calls) : t.Flight := by
  refine inHand.flight_of_grown [] [] ?_ ?_ ?_ socket accepted calls
  · exact fun error member => by cases member
  · rw [started, List.append_nil]
  · rw [pipeline, List.append_nil]

theorem InHand.posted_nil {threads : Nat} {l : Listener H C} (inHand : l.InHand threads)
    (unlocked : l.socketMtx = false) : l.posted = [] := by
  have empty := inHand.mutex
  rw [unlocked] at empty
  exact List.eq_nil_of_length_eq_zero empty

theorem pipeline_of_posted {accept : Accept H × ErrorCode} {rest : List (Accept H × ErrorCode)} {l : Listener H C}
    (posted : l.posted = accept :: rest) :
    l.pipeline = accept :: (rest ++ l.blocked.toList ++ l.completed) := by
  rw [pipeline, posted]
  rfl

/-- The hand-off at the front takes the connection, if there is one. -/
theorem InHand.flight_of_handOff {threads : Nat} {l : Listener H C} (inHand : l.InHand threads)
    {accept : Accept H × ErrorCode} {rest : List (Accept H × ErrorCode)} (posted : l.posted = accept :: rest) :
    ({ l with posted := rest }.handOff accept).Flight := by
  have front := pipeline_of_posted posted
  have empty : ({ l with posted := rest }.handOff accept).socket = none := by rw [handOff_eq]
  apply (flight_none empty).mpr
  cases held : l.socket with
  | none =>
    obtain ⟨errors, all⟩ := (flight_none held).mp inHand.flight
    rw [front] at errors
    obtain ⟨failed, later⟩ := List.forall_mem_cons.mp errors
    rw [handOff, if_pos failed]
    refine ⟨later, ?_⟩
    show l.expected = _
    rw [all]
    simp [deliveries]
  | some connection =>
    obtain ⟨first, behind, pipeline, errors, own, all⟩ := (flight_some held).mp inHand.flight
    rw [front] at pipeline
    obtain ⟨rfl, rfl⟩ := List.cons.inj pipeline
    rw [handOff, if_neg (by simp)]
    refine ⟨errors, ?_⟩
    show l.expected = _
    rw [all]
    simp [deliveries, asyncAccept]

theorem InHand.rest_nil {threads : Nat} {l : Listener H C} (inHand : l.InHand threads)
    {accept : Accept H × ErrorCode} {rest : List (Accept H × ErrorCode)} (posted : l.posted = accept :: rest) :
    rest = [] := by
  have single := inHand.mutex
  rw [posted, List.length_cons] at single
  apply List.eq_nil_of_length_eq_zero
  by_cases locked : l.socketMtx = true
  · rw [if_pos locked] at single
    omega
  · rw [if_neg locked] at single
    omega

theorem InHand.delivered_of_empty {threads : Nat} {l : Listener H C} (inHand : l.InHand threads)
    (empty : l.pipeline = []) : l.expected = l.deliveries := by
  cases held : l.socket with
  | none => exact ((flight_none held).mp inHand.flight).2
  | some other =>
    obtain ⟨first, rest, full, _⟩ := (flight_some held).mp inHand.flight
    rw [empty] at full
    cases full

/-- A connection that is accepted while nothing is to be handed off is the one to be handed off next. -/
theorem InHand.flight_of_accepted {threads : Nat} {l t : Listener H C} (inHand : l.InHand threads)
    {accept : Accept H} {connection : C} (empty : l.pipeline = [])
    (own : l.started[accept.acceptor]? = some accept.handler) (started : t.started = l.started)
    (pipeline : t.pipeline = [(accept, .success)]) (socket : t.socket = some connection)
    (accepted : t.accepted = l.accepted ++ [(accept.acceptor, connection)]) (calls : t.calls = l.calls) :
    t.Flight := by
  apply (flight_some socket).mpr
  have asked : t.expected = l.expected ++ [(some accept.handler, .success, connection)] := by
    rw [Listener.expected, started, accepted, List.map_append, ← own]
    rfl
  have deliveries : t.deliveries = l.deliveries := by rw [Listener.deliveries, Listener.deliveries, calls]
  refine ⟨accept, [], pipeline, by simp, started ▸ own, ?_⟩
  rw [asked, inHand.delivered_of_empty empty, deliveries]

def served (l : Listener H C) : Nat := l.calls.countP fun call => !call.2.1.failed

def succeeded (accept : Accept H × ErrorCode) : Bool := !accept.2.failed

def waiting (l : Listener H C) : Nat :=
  l.posted.countP succeeded + l.blocked.toList.countP succeeded + l.completed.countP succeeded

theorem served_handOff (l : Listener H C) (accept : Accept H × ErrorCode) :
    (l.handOff accept).served = l.served + [accept].countP succeeded := by
  rw [handOff_eq, served, served, List.countP_append]
  rfl

theorem waiting_handOff (l : Listener H C) (accept : Accept H × ErrorCode) :
    (l.handOff accept).waiting = l.waiting := by
  rw [handOff_eq]
  rfl

variable [DecidableEq H]

/-- No accept succeeds while another one is still to be handed off, nor with the handler of another
    `start_listen` call than the one that made its acceptor, and an `accept_handler` that waits for
    `socket_mtx` leaves a thread to the hand-off of a connection. -/
def Apart (threads : Nat) (l : Listener H C) : Event H C → Prop
  | .acceptSucceeds accept _ => l.pipeline = [] ∧ l.started[accept.acceptor]? = some accept.handler
  | .acceptHandler => l.socketMtx = true → l.socket ≠ none → 2 ≤ threads
  | _ => True

theorem inHand_step {threads : Nat} {l t : Listener H C} {e : Event H C} (inHand : l.InHand threads)
    (apart : l.Apart threads e) (taken : Step threads l e t) : t.InHand threads := by
  have grown : ∀ handler : H, ∀ accepted ∈ l.accepted, accepted.1 < (l.started ++ [handler]).length := by
    intro handler accepted member
    have made := inHand.made accepted member
    rw [List.length_append]
    omega
  cases taken with
  | @refused handler =>
    refine ⟨?_, inHand.mutex, inHand.free, grown handler⟩
    refine inHand.flight_of_grown [handler] [] (by simp) rfl ?_ rfl rfl rfl
    rw [List.append_nil]
    rfl
  | @opened handler =>
    refine ⟨?_, inHand.mutex, inHand.free, grown handler⟩
    refine inHand.flight_of_grown [handler] [] (by simp) rfl ?_ rfl rfl rfl
    rw [List.append_nil]
    rfl
  | stopped => exact ⟨inHand.flight_of_same rfl rfl rfl rfl rfl, inHand.mutex, inHand.free, inHand.made⟩
  | @succeeded accept connection pending current free =>
    rcases apart with ⟨empty, own⟩
    have nothing : l.posted = [] ∧ l.blocked = none ∧ l.completed = [] := by
      simpa [pipeline, and_assoc] using empty
    refine ⟨?_, inHand.mutex, fun blocked => absurd nothing.2.1 blocked, ?_⟩
    · refine inHand.flight_of_accepted empty own rfl ?_ rfl rfl rfl
      simp [pipeline, nothing]
    · apply List.forall_mem_append.mpr ⟨inHand.made, List.forall_mem_singleton.mpr ?_⟩
      show accept.acceptor < l.started.length
      have last : accept.acceptor + 1 = l.started.length := current
      omega
  | @failed accept ec pending failed =>
    refine ⟨?_, inHand.mutex, inHand.free, inHand.made⟩
    refine inHand.flight_of_grown [] [(accept, ec)] (by simpa using failed) ?_ ?_ rfl rfl rfl
    · rw [List.append_nil]
    · simp [pipeline]
  | waits blocked completed locked =>
    refine ⟨inHand.flight_of_same rfl ?_ rfl rfl rfl, inHand.mutex, fun _ => apart locked, inHand.made⟩
    simp [pipeline, blocked, completed]
  | posted blocked completed unlocked =>
    have first := inHand.posted_nil unlocked
    refine ⟨inHand.flight_of_same rfl ?_ rfl rfl rfl, ?_, inHand.free, inHand.made⟩
    · simp [pipeline, post, first, blocked, completed]
    · simp [post, first]
  | acquired blocked unlocked =>
    have first := inHand.posted_nil unlocked
    refine ⟨inHand.flight_of_same rfl ?_ rfl rfl rfl, ?_, fun none => absurd rfl none, inHand.made⟩
    · simp [pipeline, post, first, blocked]
    · simp [post, first]
  | @handed accept rest posted =>
    have flight := inHand.flight_of_handOff posted
    rw [handOff_eq] at flight ⊢
    refine ⟨flight, ?_, fun _ held => absurd rfl held, inHand.made⟩
    rw [inHand.rest_nil posted]
    rfl

theorem served_step {threads : Nat} {l t : Listener H C} {e : Event H C} (taken : Step threads l e t)
    (other : e ≠ .handOff) : t.served = l.served := by
  cases taken with
  | handed => exact absurd rfl other
  | _ => rfl

theorem served_step_handOff {threads : Nat} {l t : Listener H C} {accept : Accept H × ErrorCode}
    {rest : List (Accept H × ErrorCode)} (posted : l.posted = accept :: rest) (taken : Step threads l .handOff t) :
    t.served = l.served + [accept].countP succeeded := by
  cases taken with
  | handed first =>
    obtain ⟨rfl, rfl⟩ := List.cons.inj (posted.symm.trans first)
    exact served_handOff _ accept

/-- Every connection that was accepted has been handed off or waits for it. -/
theorem accepted_step {threads : Nat} {l t : Listener H C} {e : Event H C} (taken : Step threads l e t)
    (accounted : l.accepted.length = l.served + l.waiting) : t.accepted.length = t.served + t.waiting := by
  cases taken with
  | refused => exact accounted
  | opened => exact accounted
  | stopped => exact accounted
  | @succeeded accept connection =>
    have one : [(accept, ErrorCode.success)].countP Listener.succeeded = 1 := rfl
    simp only [served, waiting, List.length_append, List.countP_append, List.length_singleton, one] at accounted ⊢
    omega
  | @failed accept ec pending failed =>
    have none : [(accept, ec)].countP Listener.succeeded = 0 := by simp [Listener.succeeded, failed]
    simp only [served, waiting, List.countP_append, none] at accounted ⊢
    omega
  | waits blocked completed locked =>
    simp only [served, waiting, blocked, completed, Option.toList_none, Option.toList_some, List.countP_nil,
      List.countP_cons] at accounted ⊢
    omega
  | posted blocked completed unlocked =>
    simp only [served, waiting, post, completed, List.countP_append, List.countP_cons, List.countP_nil] at accounted ⊢
    omega
  | acquired blocked unlocked =>
    simp only [served, waiting, post, blocked, Option.toList_none, Option.toList_some, List.countP_append,
      List.countP_nil, List.countP_cons] at accounted ⊢
    omega
  | @handed accept rest posted =>
    have accepted : ({ l with posted := rest }.handOff accept).accepted = l.accepted := by rw [handOff_eq]
    rw [accepted, served_handOff, waiting_handOff]
    simp only [served, waiting, posted, List.countP_cons, List.countP_nil] at accounted ⊢
    omega

def Settled (threads : Nat) (l : Listener H C) : Prop :=
  step threads l .acceptHandler = none ∧ step threads l .acquire = none ∧ step threads l .handOff = none

theorem not_settled_of_held {threads : Nat} {l : Listener H C} (inHand : l.InHand threads) {connection : C}
    (held : l.socket = some connection) : ¬ l.Settled threads := by
  rintro ⟨handles, acquires, handsOff⟩
  obtain ⟨first, rest, full, _⟩ := (flight_some held).mp inHand.flight
  have busy : l.socket ≠ none := by simp [held]
  have free : l.ThreadFree threads := by
    by_cases blocked : l.blocked = none
    · exact Or.inl blocked
    · exact Or.inr (inHand.free blocked busy)
  cases posted : l.posted with
  | cons accept later => simp [step, posted, free] at handsOff
  | nil =>
    have unlocked : l.socketMtx = false := by
      have single := inHand.mutex
      by_contra locked
      simp [posted, locked] at single
    cases blocked : l.blocked with
    | some accept => simp [step, blocked, unlocked] at acquires
    | none =>
      have waiting : l.completed = (first, .success) :: rest := by simpa [pipeline, posted, blocked] using full
      simp [step, blocked, waiting] at handles

/-- The calls made so far are those the accepted connections ask for, and once nothing is left to run
    all of them have been made. -/
structure HandedOff (threads : Nat) (l : Listener H C) : Prop where
  owned : l.deliveries <+: l.expected
  errors : ∀ call ∈ l.calls, call.2.1.failed = true → call.2.2 = none
  delivered : l.Settled threads → l.deliveries = l.expected

omit [DecidableEq H] in
theorem errors_of_owned {l : Listener H C} (owned : l.deliveries <+: l.expected) :
    ∀ call ∈ l.calls, call.2.1.failed = true → call.2.2 = none := by
  intro call member failed
  cases carried : call.2.2 with
  | none => rfl
  | some connection =>
    have delivered : (some call.1, call.2.1, connection) ∈ l.deliveries :=
      List.mem_filterMap.mpr ⟨call, member, by simp [carried]⟩
    obtain ⟨accepted, _, same⟩ := List.mem_map.mp (owned.subset delivered)
    have succeeded : ErrorCode.success = call.2.1 := congrArg (fun delivery => delivery.2.1) same
    rw [← succeeded] at failed
    cases failed

theorem handedOff_of_inHand {threads : Nat} {l : Listener H C} (inHand : l.InHand threads) :
    l.HandedOff threads := by
  cases held : l.socket with
  | none =>
    have all := ((flight_none held).mp inHand.flight).2
    have owned : l.deliveries <+: l.expected := ⟨[], (List.append_nil _).trans all.symm⟩
    exact ⟨owned, errors_of_owned owned, fun _ => all.symm⟩
  | some connection =>
    obtain ⟨_, _, _, _, _, all⟩ := (flight_some held).mp inHand.flight
    have owned : l.deliveries <+: l.expected := ⟨_, all.symm⟩
    exact ⟨owned, errors_of_owned owned, fun settled => absurd settled (not_settled_of_held inHand held)⟩

/-- Connections are handed off, each to the handler that was given for its acceptor, in every run that
    keeps its accepts apart. -/
theorem hands_off_of_apart (threads : Nat) (es : List (Event H C))
    (apart : (machine H C threads).Each (Apart threads) {} es) :
    (machine H C threads).Always (HandedOff threads) {} es := by
  have start : InHand threads ({} : Listener H C) := by
    refine ⟨?_, rfl, fun blocked => absurd rfl blocked, List.forall_mem_nil _⟩
    exact (flight_none rfl).mpr ⟨List.forall_mem_nil _, rfl⟩
  apply Transition.System.Always.mono fun l inHand => handedOff_of_inHand inHand
  exact Transition.System.always_of_invariant
    (fun s e t inHand apart taken => inHand_step inHand apart (step_cases taken)) start apart

instance (threads : Nat) (l : Listener H C) (e : Event H C) : Decidable (l.Apart threads e) := by
  cases e <;> unfold Apart <;> infer_instance

theorem hands_off_of_apart_accepts_again : ∃ l : Listener Nat Nat, (machine Nat Nat 1).run {} acceptsAgain = some l ∧
    l.calls = [(1, .success, some 7), (1, ⟨125, .system⟩, none), (2, .success, some 8)] ∧
    (machine Nat Nat 1).Always (HandedOff 1) {} acceptsAgain := by
  obtain ⟨l, final, calls⟩ : ∃ l : Listener Nat Nat, (machine Nat Nat 1).run {} acceptsAgain = some l ∧
      l.calls = [(1, .success, some 7), (1, ⟨125, .system⟩, none), (2, .success, some 8)] := ⟨_, rfl, rfl⟩
  exact ⟨l, final, calls, hands_off_of_apart 1 acceptsAgain (by decide)⟩

def InTurn (l : Listener H C) : Event H C → Prop
  | .startListen _ _ _ _ _ => l.status = .closed
  | .stopListen => l.status = .open
  | _ => True

instance (l : Listener H C) (e : Event H C) : Decidable (l.InTurn e) := by
  cases e <;> unfold InTurn <;> infer_instance

def restarts : List (Event Nat Nat) :=
  [.startListen 1 .success .success .success .success, .stopListen,
    .startListen 2 .success .success .success .success, .acceptFails ⟨0, 1⟩ ⟨125, .system⟩, .acceptHandler,
    .acceptSucceeds ⟨1, 2⟩ 7, .handOff]

/-- The hand-off of the first chain, aborted, takes the connection of the second one. -/
theorem restart_misdelivers : ∃ l : Listener Nat Nat, (machine Nat Nat 2).run {} restarts = some l ∧
    (machine Nat Nat 2).Each InTurn {} restarts ∧ l.calls = [(1, ⟨125, .system⟩, some 7)] ∧
      ¬ (machine Nat Nat 2).Always (HandedOff 2) {} restarts := by
  let l : Listener Nat Nat :=
    { status := .open
      started := [1, 2]
      listening := true
      completed := [(⟨1, 2⟩, .success)]
      accepted := [(1, 7)]
      calls := [(1, ⟨125, .system⟩, some 7)] }
  have final : (machine Nat Nat 2).run {} restarts = some l := rfl
  refine ⟨l, final, by decide, rfl, fun always => ?_⟩
  have empty := (always.final final).errors (1, ⟨125, .system⟩, some 7) (by simp [l]) rfl
  cases empty

end MaxNet.Listener
