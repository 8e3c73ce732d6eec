import MaxNet.Listener.Model

namespace MaxNet.Listener

variable {H C : Type}

def unhandled (l : Listener H C) : List (Accept H) := l.pending ++ (l.completed ++ l.blocked.toList).map Prod.fst

def pipeline (l : Listener H C) : List (Accept H × ErrorCode) := l.posted ++ l.blocked.toList ++ l.completed

def Alive (l : Listener H C) : Prop :=
  (∃ accept ∈ l.unhandled, l.Current accept) ∨ ∃ accept ∈ l.pipeline, accept.2.failed = false

def TellsTruth (l : Listener H C) : Prop := l.status = .open → l.Alive

def posts? (l : Listener H C) : Event H C → Option (Accept H × ErrorCode)
  | .acceptHandler =>
    match l.blocked, l.completed with
    | none, accept :: _ => if l.socketMtx then none else some accept
    | _, _ => none
  | .acquire =>
    match l.blocked with
    | some accept => if l.socketMtx then none else some accept
    | none => none
  | _ => none

/-- An accept that failed on the acceptor of an open listener is posted only while a second one has been started on it,
    or a connection is on its way to the handler. -/
def Seconded (l : Listener H C) (e : Event H C) : Prop :=
  ∀ accept ∈ l.posts? e, l.status = .open → accept.2.failed = true → l.Current accept.1 →
    2 ≤ l.unhandled.countP (l.Current ·) ∨ ∃ other ∈ l.pipeline, other.2.failed = false

instance (l : Listener H C) (e : Event H C) : Decidable (l.Seconded e) := by
  unfold Seconded
  infer_instance

theorem alive_post_iff (accept : Accept H × ErrorCode) (l : Listener H C) (failed : accept.2.failed = true) :
    (l.post accept).Alive ↔ l.Alive := by
  have same : (∃ other ∈ (l.post accept).pipeline, other.2.failed = false) ↔
      ∃ other ∈ l.pipeline, other.2.failed = false := by
    simp [pipeline, post, failed, or_and_right, exists_or]
  unfold Alive
  rw [same]
  exact Iff.rfl

theorem alive_post_of_succeeded (accept : Accept H × ErrorCode) (l : Listener H C)
    (succeeded : accept.2.failed = false) : (l.post accept).Alive := by
  refine Or.inr ⟨accept, ?_, succeeded⟩
  simp [pipeline, post]

theorem Alive.mono {l t : Listener H C} (alive : l.Alive) (started : t.started = l.started)
    (unhandled : ∀ accept ∈ l.unhandled, accept ∈ t.unhandled)
    (pipeline : ∀ accept ∈ l.pipeline, accept.2.failed = false → accept ∈ t.pipeline) : t.Alive := by
  rcases alive with ⟨accept, member, current⟩ | ⟨accept, member, succeeded⟩
  · refine Or.inl ⟨accept, unhandled accept member, ?_⟩
    rwa [Current, started]
  · exact Or.inr ⟨accept, pipeline accept member succeeded, succeeded⟩

theorem alive_asyncAccept (handler : H) (l : Listener H C) (made : l.started ≠ []) :
    (l.asyncAccept handler).Alive := by
  refine Or.inl ⟨⟨l.started.length - 1, handler⟩, ?_, ?_⟩
  · simp [unhandled, asyncAccept]
  · have positive := List.length_pos_iff.mpr made
    show l.started.length - 1 + 1 = l.started.length
    omega

structure Takes (l : Listener H C) (accept : Accept H × ErrorCode) (rest : Listener H C) : Prop where
  status : rest.status = l.status
  started : rest.started = l.started
  unhandled : l.unhandled.Perm (accept.1 :: rest.unhandled)
  pipeline : l.pipeline.Perm (accept :: rest.pipeline)

theorem takes_completed {accept : Accept H × ErrorCode} {rest : List (Accept H × ErrorCode)} {l : Listener H C}
    (blocked : l.blocked = none) (completed : l.completed = accept :: rest) :
    l.Takes accept { l with completed := rest } where
  status := rfl
  started := rfl
  unhandled := by simp [unhandled, blocked, completed]
  pipeline := by simp [pipeline, blocked, completed]

theorem takes_blocked {accept : Accept H × ErrorCode} {l : Listener H C} (blocked : l.blocked = some accept) :
    l.Takes accept { l with blocked := none } where
  status := rfl
  started := rfl
  unhandled := by
    simp only [unhandled, blocked, Option.toList_some, Option.toList_none, List.append_nil, List.map_append,
      List.map_cons, List.map_nil, ← List.append_assoc]
    exact List.perm_append_singleton _ _
  pipeline := by simp [pipeline, blocked]

/-- Without an accept that failed the chain goes on with a second one or with a connection. -/
theorem Takes.alive_iff {accept : Accept H × ErrorCode} {l rest : Listener H C} (takes : l.Takes accept rest)
    (failed : accept.2.failed = true) (alive : l.Alive) : rest.Alive ↔ (l.Current accept.1 →
      2 ≤ l.unhandled.countP (l.Current ·) ∨ ∃ other ∈ l.pipeline, other.2.failed = false) := by
  have same : ∀ other, rest.Current other ↔ l.Current other := by simp [Current, takes.started]
  have count := takes.unhandled.countP_eq (l.Current ·)
  rw [List.countP_cons] at count
  have left : (∃ other ∈ rest.unhandled, rest.Current other) ↔ 0 < rest.unhandled.countP (l.Current ·) := by
    simp [same]
  have before : (∃ other ∈ l.unhandled, l.Current other) ↔ 0 < l.unhandled.countP (l.Current ·) := by simp
  have connection : (∃ other ∈ l.pipeline, other.2.failed = false) ↔ ∃ other ∈ rest.pipeline, other.2.failed = false := by
    simp [takes.pipeline.mem_iff, failed]
  unfold Alive at alive ⊢
  rw [before] at alive
  rw [left, ← connection]
  by_cases current : l.Current accept.1
  · rw [if_pos (by simpa using current)] at count
    constructor
    · exact fun lives _ => lives.imp_left fun positive => by omega
    · exact fun lives => (lives current).imp_left fun second => by omega
  · rw [if_neg (by simpa using current)] at count
    constructor
    · exact fun _ here => absurd here current
    · exact fun _ => alive.imp_left fun positive => by omega

theorem Takes.alive_post {accept : Accept H × ErrorCode} {l rest : Listener H C} (takes : l.Takes accept rest)
    (seconded : accept.2.failed = true → l.Current accept.1 →
      2 ≤ l.unhandled.countP (l.Current ·) ∨ ∃ other ∈ l.pipeline, other.2.failed = false)
    (alive : l.Alive) : (rest.post accept).Alive := by
  by_cases failed : accept.2.failed = true
  · exact (alive_post_iff accept rest failed).mpr ((takes.alive_iff failed alive).mpr (seconded failed))
  · exact alive_post_of_succeeded accept rest (by simpa using failed)

theorem alive_handOff {accept : Accept H × ErrorCode} {rest : List (Accept H × ErrorCode)} {l : Listener H C}
    (posted : l.posted = accept :: rest) (alive : l.Alive) (made : l.started ≠ []) :
    ({ l with posted := rest }.handOff accept).Alive := by
  unfold handOff
  by_cases failed : accept.2.failed = true
  · rw [if_pos failed]
    apply Alive.mono alive
    · rfl
    · exact fun _ member => member
    · intro other member succeeded
      simp only [pipeline, posted, List.cons_append, List.mem_cons] at member
      rcases member with rfl | member
      · rw [failed] at succeeded
        cases succeeded
      · exact member
  · rw [if_neg failed]
    apply alive_asyncAccept
    exact made

structure Running (l : Listener H C) : Prop where
  truth : l.TellsTruth
  made : l.status = .open → l.started ≠ []

variable [DecidableEq H]

theorem running_step {threads : Nat} {l t : Listener H C} {e : Event H C} (running : l.Running)
    (kept : l.Seconded e) (taken : Step threads l e t) : t.Running := by
  cases taken with
  | refused =>
    constructor
    · intro opened
      cases opened
    · intro opened
      cases opened
  | stopped =>
    constructor
    · intro opened
      cases opened
    · intro opened
      cases opened
  | @opened handler =>
    refine ⟨fun _ => Or.inl ⟨⟨l.started.length, handler⟩, ?_, ?_⟩, fun _ => by simp⟩
    · simp [unhandled]
    · simp [Current]
  | @succeeded accept connection =>
    refine ⟨fun _ => Or.inr ⟨(accept, .success), ?_, rfl⟩, running.made⟩
    simp [pipeline]
  | @failed accept ec =>
    refine ⟨fun opened => (running.truth opened).mono rfl ?_ ?_, running.made⟩
    · intro other member
      by_cases same : other = accept
      · subst same
        simp [unhandled]
      · simp only [unhandled, List.mem_append, List.map_append] at member ⊢
        rw [List.mem_erase_of_ne same]
        tauto
    · intro other member _
      simp only [pipeline, List.mem_append] at member ⊢
      tauto
  | waits blocked completed =>
    refine ⟨fun opened => (running.truth opened).mono rfl ?_ ?_, running.made⟩
    · intro other member
      simp only [unhandled, completed, blocked, Option.toList, List.map_append, List.mem_append, List.map_cons,
        List.map_nil, List.mem_cons] at member ⊢
      tauto
    · intro other member _
      simp only [pipeline, completed, blocked, Option.toList, List.mem_append, List.mem_cons] at member ⊢
      tauto
  | @posted accept rest blocked completed unlocked =>
    have posts : l.posts? .acceptHandler = some accept := by simp [posts?, blocked, completed, unlocked]
    exact ⟨fun opened => (takes_completed blocked completed).alive_post (kept accept posts opened) (running.truth opened),
      running.made⟩
  | @acquired accept blocked unlocked =>
    have posts : l.posts? .acquire = some accept := by simp [posts?, blocked, unlocked]
    exact ⟨fun opened => (takes_blocked blocked).alive_post (kept accept posts opened) (running.truth opened),
      running.made⟩
  | @handed accept rest posted =>
    have status : ({ l with posted := rest }.handOff accept).status = l.status := by rw [handOff_eq]
    have started : ({ l with posted := rest }.handOff accept).started = l.started := by rw [handOff_eq]
    constructor
    · intro opened
      rw [status] at opened
      exact alive_handOff posted (running.truth opened) (running.made opened)
    · intro opened
      rw [status] at opened
      rw [started]
      exact running.made opened

theorem posts_step {threads : Nat} {accept : Accept H × ErrorCode} {l t : Listener H C} {e : Event H C}
    (taken : Step threads l e t) (posts : l.posts? e = some accept) :
    ∃ rest, l.Takes accept rest ∧ t = rest.post accept := by
  cases taken with
  | waits blocked completed locked => simp [posts?, blocked, completed, locked] at posts
  | posted blocked completed unlocked =>
    simp only [posts?, blocked, completed, unlocked] at posts
    cases posts
    exact ⟨_, takes_completed blocked completed, rfl⟩
  | acquired blocked unlocked =>
    simp only [posts?, blocked, unlocked] at posts
    cases posts
    exact ⟨_, takes_blocked blocked, rfl⟩
  | _ => cases posts

theorem seconded_of_truth {threads : Nat} {l t : Listener H C} {e : Event H C} (before : l.TellsTruth)
    (taken : Step threads l e t) (truth : t.TellsTruth) : l.Seconded e := by
  intro accept posts status failed
  obtain ⟨rest, takes, rfl⟩ := posts_step taken posts
  have alive : (rest.post accept).Alive := truth (takes.status.trans status)
  exact (takes.alive_iff failed (before status)).mp ((alive_post_iff accept rest failed).mp alive)

/-- `status()` tells the truth throughout a run exactly when no accept that failed is the last one of the acceptor of an
    open listener. -/
theorem tells_truth_iff (threads : Nat) (es : List (Event H C)) (l : Listener H C)
    (ran : (machine H C threads).run {} es = some l) :
    (machine H C threads).Always TellsTruth {} es ↔ (machine H C threads).Each Seconded {} es := by
  apply Transition.System.always_iff_each (I := Running) (R := fun _ _ => True) ?_ ?_ ?_ ?_
    Transition.System.each_true ran
  · exact fun s running => running.truth
  · exact fun s e t running _ kept taken => running_step running kept (step_cases taken)
  · exact fun s e t running _ taken truth => seconded_of_truth running.truth (step_cases taken) truth
  · constructor
    · intro opened
      cases opened
    · intro opened
      cases opened

def acceptsAgain : List (Event Nat Nat) :=
  [.startListen 1 .success .success .success .success, .acceptSucceeds ⟨0, 1⟩ 7, .acceptHandler, .handOff, .stopListen,
    .startListen 2 .success .success .success .success, .acceptFails ⟨0, 1⟩ ⟨125, .system⟩, .acceptHandler, .handOff,
    .acceptSucceeds ⟨1, 2⟩ 8, .acceptHandler, .handOff]

theorem tells_truth_iff_accepts_again : ∃ l : Listener Nat Nat, (machine Nat Nat 1).run {} acceptsAgain = some l ∧
    l.status = .open ∧ (machine Nat Nat 1).Always TellsTruth {} acceptsAgain := by
  obtain ⟨l, final, status⟩ : ∃ l : Listener Nat Nat, (machine Nat Nat 1).run {} acceptsAgain = some l ∧
      l.status = .open := ⟨_, rfl, rfl⟩
  exact ⟨l, final, status, (tells_truth_iff 1 acceptsAgain l final).mpr (by decide)⟩

def acceptsNone : List (Event Nat Nat) :=
  [.startListen 1 .success .success .success .success, .acceptFails ⟨0, 1⟩ ⟨24, .system⟩, .acceptHandler, .handOff]

theorem open_and_dead : ∃ l : Listener Nat Nat, (machine Nat Nat 1).run {} acceptsNone = some l ∧
    l.status = .open ∧ l.unhandled = [] ∧ l.pipeline = [] ∧
      ¬ (machine Nat Nat 1).Always TellsTruth {} acceptsNone := by
  let l : Listener Nat Nat :=
    { status := .open, started := [1], listening := true, calls := [(1, ⟨24, .system⟩, none)] }
  have final : (machine Nat Nat 1).run {} acceptsNone = some l := rfl
  refine ⟨l, final, rfl, rfl, rfl, fun always => ?_⟩
  rcases always.final final rfl with ⟨accept, member, _⟩ | ⟨accept, member, _⟩
  · cases member
  · cases member

end MaxNet.Listener
