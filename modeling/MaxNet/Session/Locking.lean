import MaxNet.Lib.Locks

namespace MaxNet

inductive Mutex
  | writeQueue
  | stats
  deriving DecidableEq

inductive Callback
  | onRead
  | onWriteDone
  deriving DecidableEq

/-- Handlers on a strand run one after the other, `write()` is called from anywhere. -/
inductive Runner
  | caller
  | writeStrand
  | readStrand
  deriving DecidableEq

inductive ReadOutcome
  | message (writes : Nat)
  | aborted (writes : Nat)
  | closed (handled : Bool) (released writes : Nat)
  deriving DecidableEq

namespace Session

open Locks

/-! ### What the functions of a session do with its mutexes -/

def writeOps : List (Op Mutex Callback) := [.acquire .writeQueue, .release .writeQueue]

def writeCompleteHandlerOps (released : Nat) : List (Op Mutex Callback) :=
  [.acquire .writeQueue, .acquire .stats] ++ List.replicate released (.call .onWriteDone) ++
    [.release .stats, .release .writeQueue]

def onReadOps (writes : Nat) : List (Op Mutex Callback) :=
  .call .onRead :: (List.replicate writes writeOps).flatten

def readHandlerOps : ReadOutcome → List (Op Mutex Callback)
  | .message writes => .acquire .stats :: onReadOps writes ++ [.release .stats]
  | .aborted writes => onReadOps writes
  | .closed handled released writes =>
    (if handled then
      .acquire .writeQueue :: List.replicate released (.call .onWriteDone) ++ [.release .writeQueue]
    else []) ++ onReadOps writes

abbrev Running := List (Thread Runner Mutex Callback)

namespace Running

inductive Event
  | write
  | writeCompleteHandler (released : Nat)
  | readHandler (outcome : ReadOutcome)
  | advance (i : Nat)

def strandFree (strand : Runner) (r : Running) : Bool := r.all fun t => t.kind != strand || t.rest.isEmpty

def step (r : Running) : Event → Option Running
  | .write => some (r ++ [{ kind := .caller, rest := writeOps }])
  | .writeCompleteHandler released =>
    if r.strandFree .writeStrand then
      some (r ++ [{ kind := .writeStrand, rest := writeCompleteHandlerOps released }])
    else none
  | .readHandler outcome =>
    if r.strandFree .readStrand then some (r ++ [{ kind := .readStrand, rest := readHandlerOps outcome }])
    else none
  | .advance i => advance i r

def machine : Transition.System Running Event := ⟨step⟩

def Replies (allowed : Nat → Prop) : Event → Prop
  | .readHandler (.message writes) => allowed writes
  | _ => True

def rank : Mutex → Nat
  | .writeQueue => 0
  | .stats => 1

theorem in_order_calls (held : List Mutex) (n : Nat) (c : Callback) (rest : List (Op Mutex Callback)) :
    InOrder rank held (List.replicate n (.call c) ++ rest) ↔ InOrder rank held rest := by
  induction n with
  | zero => rfl
  | succ n ih => exact ih

theorem in_order_writes (n : Nat) (rest : List (Op Mutex Callback)) :
    InOrder rank [] ((List.replicate n writeOps).flatten ++ rest) ↔ InOrder rank [] rest := by
  induction n with
  | zero => rfl
  | succ n ih =>
    rw [← ih]
    simp [List.replicate_succ, writeOps, InOrder]

theorem in_order_writeOps : InOrder rank [] writeOps := by simp [writeOps, InOrder]

theorem in_order_writeCompleteHandlerOps (released : Nat) : InOrder rank [] (writeCompleteHandlerOps released) := by
  simp only [writeCompleteHandlerOps, List.cons_append, List.nil_append, InOrder]
  refine ⟨by simp, by simp [rank], ?_⟩
  rw [in_order_calls]
  simp [InOrder]

theorem in_order_onReadOps (writes : Nat) : InOrder rank [] (onReadOps writes) := by
  have all := (in_order_writes writes []).mpr True.intro
  rw [List.append_nil] at all
  exact all

theorem in_order_readHandlerOps (outcome : ReadOutcome)
    (silent : Replies (fun n => n = 0) (.readHandler outcome)) : InOrder rank [] (readHandlerOps outcome) := by
  cases outcome with
  | message writes =>
    change writes = 0 at silent
    subst silent
    simp [readHandlerOps, onReadOps, InOrder]
  | aborted writes => exact in_order_onReadOps writes
  | closed handled released writes =>
    cases handled with
    | false => exact in_order_onReadOps writes
    | true =>
      simp only [readHandlerOps, if_true, List.cons_append, List.append_assoc, InOrder]
      refine ⟨by simp, ?_⟩
      rw [in_order_calls]
      simpa [InOrder] using in_order_onReadOps writes

theorem in_order_step {r s : Running} {e : Event} (ordered : ∀ t ∈ r, InOrder rank t.held t.rest)
    (silent : Replies (fun n => n = 0) e) (h : r.step e = some s) : ∀ t ∈ s, InOrder rank t.held t.rest := by
  have started : ∀ kind ops, InOrder rank [] ops → s = r ++ [{ kind, rest := ops }] →
      ∀ t ∈ s, InOrder rank t.held t.rest := by
    rintro kind ops next rfl
    exact List.forall_mem_append.mpr ⟨ordered, List.forall_mem_singleton.mpr next⟩
  cases e with
  | write => exact started .caller _ in_order_writeOps (Option.some.inj h).symm
  | writeCompleteHandler released =>
    simp only [step, Option.ite_none_right_eq_some, Option.some.injEq] at h
    exact started .writeStrand _ (in_order_writeCompleteHandlerOps released) h.2.symm
  | readHandler outcome =>
    simp only [step, Option.ite_none_right_eq_some, Option.some.injEq] at h
    exact started .readStrand _ (in_order_readHandlerOps outcome silent) h.2.symm
  | advance i => exact in_order_advance ordered h

theorem no_circular_wait_of_silent (es : List Event) (r : Running)
    (silent : machine.Each (fun _ e => Replies (fun n => n = 0) e) [] es) (ran : machine.run [] es = some r)
    (i : Nat) : ¬ Relation.TransGen (WaitsFor r) i i := by
  have ordered : ∀ t ∈ r, InOrder rank t.held t.rest := by
    apply Transition.System.invariant_of_run (P := fun r : Running => ∀ t ∈ r, InOrder rank t.held t.rest) ?_
      (by simp) silent ran
    intro r e s ordered silent h
    exact in_order_step ordered silent h
  exact no_circular_wait ordered i

def replyWhileWriteCompletes (writes : Nat) : List Event :=
  [.write, .advance 0, .advance 0, .readHandler (.message writes), .advance 1, .advance 1,
    .writeCompleteHandler 1, .advance 2]

theorem reply_waits (n : Nat) :
    ∃ r, machine.run [] (replyWhileWriteCompletes (n + 1)) = some r ∧ MutualWait r := by
  refine ⟨_, rfl, 1, 2, by decide, ?_, ?_⟩
  · exact ⟨.writeQueue, ⟨_, rfl, rfl⟩, _, rfl, by simp⟩
  · exact ⟨.stats, ⟨_, rfl, rfl⟩, _, rfl, by simp⟩

theorem replies_replyWhileWriteCompletes {allowed : Nat → Prop} {n : Nat} (may : allowed n) :
    machine.Each (fun _ e => Replies allowed e) [] (replyWhileWriteCompletes n) := by
  apply Transition.System.each_of_forall
  intro _ e member
  simp only [replyWhileWriteCompletes, List.mem_cons, List.not_mem_nil, or_false] at member
  rcases member with rfl | rfl | rfl | rfl | rfl | rfl | rfl | rfl <;>
    first
    | exact may
    | exact True.intro

/-- No interleaving leads to two functions that wait for each other if and only if the `on_read_`
    callbacks of successful reads never call `write()`. -/
theorem no_mutual_wait_iff (allowed : Nat → Prop) :
    (∀ (es : List Event) (r : Running), machine.Each (fun _ e => Replies allowed e) [] es →
      machine.run [] es = some r → ¬ MutualWait r) ↔ ∀ n, allowed n → n = 0 := by
  constructor
  · intro safe n may
    cases n with
    | zero => rfl
    | succ n =>
      obtain ⟨r, ran, wait⟩ := reply_waits n
      exact absurd wait (safe _ r (replies_replyWhileWriteCompletes may) ran)
  · rintro never es r replies ran ⟨i, j, _, there, back⟩
    have silent : machine.Each (fun _ e => Replies (fun n => n = 0) e) [] es := by
      refine replies.mono fun _ e replies => ?_
      cases e with
      | readHandler outcome =>
        cases outcome with
        | message writes => exact never writes replies
        | aborted | closed => exact True.intro
      | write | writeCompleteHandler | advance => exact True.intro
    exact no_circular_wait_of_silent es r silent ran i (Relation.TransGen.tail (Relation.TransGen.single there) back)

theorem mutual_wait_reached :
    ¬ ∀ (es : List Event) (r : Running), machine.run [] es = some r → ¬ MutualWait r := by
  intro safe
  obtain ⟨r, ran, wait⟩ := reply_waits 0
  exact safe _ r ran wait

end Running

end Session

end MaxNet
