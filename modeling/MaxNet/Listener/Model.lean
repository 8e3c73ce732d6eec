import MaxNet.Lib.Transition
import MaxNet.Asio

namespace MaxNet

inductive Listener.StatusCode
  | opening
  | open
  | closing
  | closed
  deriving DecidableEq, Repr

structure Accept (H : Type) where
  acceptor : Nat
  handler : H
  deriving DecidableEq, Repr

/-- `listener`, generic in the handlers and the connections. Each call of `start_listen` makes an acceptor
    and is known by its handler; `acceptor_` is the last one made, and `listening` says whether it is open.
    An accept is pending until it completes; then its `accept_handler` waits for its turn on `strand_` and,
    `blocked`, for `socket_mtx`, and its hand-off is posted. -/
structure Listener (H C : Type) where
  status : Listener.StatusCode := .closed
  started : List H := []
  listening : Bool := false
  socket : Option C := none
  socketMtx : Bool := false
  pending : List (Accept H) := []
  completed : List (Accept H × ErrorCode) := []
  blocked : Option (Accept H × ErrorCode) := none
  posted : List (Accept H × ErrorCode) := []
  accepted : List (Nat × C) := []
  calls : List (H × ErrorCode × Option C) := []

namespace Listener

variable {H C : Type}

def asyncAccept (handler : H) (l : Listener H C) : Listener H C :=
  { l with pending := l.pending ++ [⟨l.started.length - 1, handler⟩] }

def startListen (handler : H) (open_ setOption bind listen : ErrorCode) (l : Listener H C) :
    Listener H C × ErrorCode :=
  let l := { l with status := .opening, started := l.started ++ [handler], listening := false }
  if open_.failed then ({ l with status := .closed }, open_)
  else if setOption.failed then ({ l with status := .closed }, setOption)
  else if bind.failed then ({ l with status := .closed }, bind)
  else if listen.failed then ({ l with status := .closed }, listen)
  else ({ l with status := .open, listening := true }.asyncAccept handler, listen)

def stopListen (l : Listener H C) : Listener H C :=
  let l := { l with status := .closing }
  let l := { l with listening := false }
  { l with status := .closed }

def post (accept : Accept H × ErrorCode) (l : Listener H C) : Listener H C :=
  { l with socketMtx := true, posted := l.posted ++ [accept] }

def acceptHandler (accept : Accept H × ErrorCode) (l : Listener H C) : Listener H C :=
  if l.socketMtx then { l with blocked := some accept } else l.post accept

def handOff (accept : Accept H × ErrorCode) (l : Listener H C) : Listener H C :=
  let l := { l with
    calls := l.calls ++ [(accept.1.handler, accept.2, l.socket)]
    socket := none
    socketMtx := false }
  if accept.2.failed then l else l.asyncAccept accept.1.handler

theorem handOff_eq (accept : Accept H × ErrorCode) (l : Listener H C) :
    l.handOff accept = { l with
      pending := if accept.2.failed then l.pending
        else l.pending ++ [⟨l.started.length - 1, accept.1.handler⟩]
      socket := none
      socketMtx := false
      calls := l.calls ++ [(accept.1.handler, accept.2, l.socket)] } := by
  unfold handOff
  by_cases failed : accept.2.failed = true
  · simp [failed]
  · simp [failed, asyncAccept]

inductive Event (H C : Type)
  | startListen (handler : H) (open_ setOption bind listen : ErrorCode)
  | stopListen
  | acceptSucceeds (accept : Accept H) (connection : C)
  | acceptFails (accept : Accept H) (ec : ErrorCode)
  | acceptHandler
  | acquire
  | handOff

def Current (accept : Accept H) (l : Listener H C) : Prop := accept.acceptor + 1 = l.started.length

instance (accept : Accept H) (l : Listener H C) : Decidable (l.Current accept) := by
  unfold Current
  infer_instance

def ThreadFree (threads : Nat) (l : Listener H C) : Prop := l.blocked = none ∨ 2 ≤ threads

instance (threads : Nat) (l : Listener H C) : Decidable (l.ThreadFree threads) := by
  unfold ThreadFree
  cases l.blocked with
  | none => exact isTrue (Or.inl rfl)
  | some accept => exact decidable_of_iff (2 ≤ threads) (by simp)

variable [DecidableEq H]

def step (threads : Nat) (l : Listener H C) : Event H C → Option (Listener H C)
  | .startListen handler open_ setOption bind listen => some (l.startListen handler open_ setOption bind listen).1
  | .stopListen => if l.started = [] then none else some l.stopListen
  | .acceptSucceeds accept connection =>
    if accept ∈ l.pending ∧ l.Current accept ∧ l.listening ∧ l.ThreadFree threads then
      some { l with
        pending := l.pending.erase accept
        completed := l.completed ++ [(accept, .success)]
        socket := some connection
        accepted := l.accepted ++ [(accept.acceptor, connection)] }
    else none
  | .acceptFails accept ec =>
    if accept ∈ l.pending ∧ ec.failed ∧ l.ThreadFree threads then
      some { l with pending := l.pending.erase accept, completed := l.completed ++ [(accept, ec)] }
    else none
  | .acceptHandler =>
    match l.blocked, l.completed with
    | none, accept :: rest => some ({ l with completed := rest }.acceptHandler accept)
    | _, _ => none
  | .acquire =>
    match l.blocked with
    | some accept => if l.socketMtx then none else some ({ l with blocked := none }.post accept)
    | none => none
  | .handOff =>
    match l.posted with
    | accept :: rest => if l.ThreadFree threads then some ({ l with posted := rest }.handOff accept) else none
    | [] => none

def machine (H C : Type) [DecidableEq H] (threads : Nat) : Transition.System (Listener H C) (Event H C) :=
  ⟨step threads⟩

inductive Step (threads : Nat) (l : Listener H C) : Event H C → Listener H C → Prop
  | refused {handler : H} {open_ setOption bind listen : ErrorCode} :
      Step threads l (.startListen handler open_ setOption bind listen)
        { l with status := .closed, started := l.started ++ [handler], listening := false }
  | opened {handler : H} {open_ setOption bind listen : ErrorCode} :
      Step threads l (.startListen handler open_ setOption bind listen)
        { l with
          status := .open
          started := l.started ++ [handler]
          listening := true
          pending := l.pending ++ [⟨l.started.length, handler⟩] }
  | stopped (made : l.started ≠ []) : Step threads l .stopListen { l with status := .closed, listening := false }
  | succeeded {accept : Accept H} {connection : C} (pending : accept ∈ l.pending) (current : l.Current accept)
      (free : l.ThreadFree threads) :
      Step threads l (.acceptSucceeds accept connection)
        { l with
          pending := l.pending.erase accept
          completed := l.completed ++ [(accept, .success)]
          socket := some connection
          accepted := l.accepted ++ [(accept.acceptor, connection)] }
  | failed {accept : Accept H} {ec : ErrorCode} (pending : accept ∈ l.pending) (failed : ec.failed = true) :
      Step threads l (.acceptFails accept ec)
        { l with pending := l.pending.erase accept, completed := l.completed ++ [(accept, ec)] }
  | waits {accept : Accept H × ErrorCode} {rest : List (Accept H × ErrorCode)} (blocked : l.blocked = none)
      (completed : l.completed = accept :: rest) (locked : l.socketMtx = true) :
      Step threads l .acceptHandler { l with completed := rest, blocked := some accept }
  | posted {accept : Accept H × ErrorCode} {rest : List (Accept H × ErrorCode)} (blocked : l.blocked = none)
      (completed : l.completed = accept :: rest) (unlocked : l.socketMtx = false) :
      Step threads l .acceptHandler ({ l with completed := rest }.post accept)
  | acquired {accept : Accept H × ErrorCode} (blocked : l.blocked = some accept) (unlocked : l.socketMtx = false) :
      Step threads l .acquire ({ l with blocked := none }.post accept)
  | handed {accept : Accept H × ErrorCode} {rest : List (Accept H × ErrorCode)} (posted : l.posted = accept :: rest) :
      Step threads l .handOff ({ l with posted := rest }.handOff accept)

theorem step_cases {threads : Nat} {l t : Listener H C} {e : Event H C} (taken : step threads l e = some t) :
    Step threads l e t := by
  cases e with
  | startListen handler open_ setOption bind listen =>
    simp only [step, startListen, Option.some.injEq] at taken
    by_cases failed : open_.failed ∨ setOption.failed ∨ bind.failed ∨ listen.failed
    · have refused : t = { l with status := .closed, started := l.started ++ [handler], listening := false } := by
        rw [← taken]
        split_ifs with first second third fourth
        · rfl
        · rfl
        · rfl
        · rfl
        · simp [first, second, third, fourth] at failed
      subst refused
      exact .refused
    · simp only [not_or, Bool.not_eq_true] at failed
      simp only [failed, Bool.false_eq_true, if_false, asyncAccept, List.length_append, List.length_singleton,
        Nat.add_sub_cancel] at taken
      subst taken
      exact .opened
  | stopListen =>
    simp only [step, Option.ite_none_left_eq_some, Option.some.injEq] at taken
    rcases taken with ⟨made, rfl⟩
    exact .stopped made
  | acceptSucceeds accept connection =>
    simp only [step, Option.ite_none_right_eq_some, Option.some.injEq] at taken
    obtain ⟨⟨pending, current, _, free⟩, rfl⟩ := taken
    exact .succeeded pending current free
  | acceptFails accept ec =>
    simp only [step, Option.ite_none_right_eq_some, Option.some.injEq] at taken
    obtain ⟨⟨pending, failed, _⟩, rfl⟩ := taken
    exact .failed pending failed
  | acceptHandler =>
    simp only [step] at taken
    split at taken
    · rename_i accept rest blocked completed
      cases taken
      unfold acceptHandler
      by_cases locked : l.socketMtx = true
      · rw [if_pos locked]
        exact .waits blocked completed locked
      · rw [if_neg locked]
        exact .posted blocked completed (by simpa using locked)
    · cases taken
  | acquire =>
    cases blocked : l.blocked with
    | none => simp [step, blocked] at taken
    | some accept =>
      simp only [step, blocked, Option.ite_none_left_eq_some, Option.some.injEq] at taken
      rcases taken with ⟨unlocked, rfl⟩
      exact .acquired blocked (by simpa using unlocked)
  | handOff =>
    cases posted : l.posted with
    | nil => simp [step, posted] at taken
    | cons accept rest =>
      simp only [step, posted, Option.ite_none_right_eq_some, Option.some.injEq] at taken
      rcases taken with ⟨_, rfl⟩
      exact .handed posted

end Listener

end MaxNet
