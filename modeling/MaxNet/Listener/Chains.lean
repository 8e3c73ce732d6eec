import MaxNet.Listener.HandOff

namespace MaxNet.Listener

variable {H C : Type}

/-- The handlers of the accept chains. A chain has one accept at a time: pending, or on the way to its hand-off. -/
def chains (l : Listener H C) : List H := l.pending.map Accept.handler ++ l.pipeline.map fun accept => accept.1.handler

def errors (l : Listener H C) : List H := (l.calls.filter fun call => call.2.1.failed).map fun call => call.1

def ledger (l : Listener H C) : List H := l.chains ++ l.errors

def Event.opened? : Event H C → Option H
  | startListen handler open_ setOption bind listen =>
    if open_.failed || setOption.failed || bind.failed || listen.failed then none else some handler
  | _ => none

theorem served_errors (l : Listener H C) : l.served + l.errors.length = l.calls.length := by
  have split := List.length_eq_countP_add_countP (p := fun call : H × ErrorCode × Option C => !call.2.1.failed) (l := l.calls)
  rw [served, errors, List.length_map, ← List.countP_eq_length_filter, split]
  congr 1
  apply List.countP_congr
  simp

variable [DecidableEq H]

theorem calls_step {threads : Nat} {l t : Listener H C} {e : Event H C} (taken : Step threads l e t)
    (other : e ≠ .handOff) : t.calls = l.calls := by
  cases taken with
  | handed => exact absurd rfl other
  | _ => rfl

theorem ledger_startListen (handler : H) (open_ setOption bind listen : ErrorCode) (l : Listener H C) :
    (l.startListen handler open_ setOption bind listen).1.ledger.Perm
      (l.ledger ++ (Event.startListen (C := C) handler open_ setOption bind listen).opened?.toList) := by
  by_cases failed : (open_.failed || setOption.failed || bind.failed || listen.failed) = true
  · have same : (l.startListen handler open_ setOption bind listen).1.ledger = l.ledger := by
      unfold startListen
      simp only [Bool.or_eq_true] at failed
      split_ifs with first second third fourth
      · rfl
      · rfl
      · rfl
      · rfl
      · simp [first, second, third, fourth] at failed
    rw [same, Event.opened?, if_pos failed, Option.toList_none, List.append_nil]
  · rw [Event.opened?, if_neg failed, Option.toList_some]
    simp only [Bool.or_eq_true, not_or, Bool.not_eq_true] at failed
    obtain ⟨⟨⟨first, second⟩, third⟩, fourth⟩ := failed
    have opened : (l.startListen handler open_ setOption bind listen).1.ledger =
        l.pending.map Accept.handler ++ [handler] ++ l.pipeline.map (fun accept => accept.1.handler) ++ l.errors := by
      simp [startListen, asyncAccept, first, second, third, fourth, ledger, chains, pipeline, errors]
    rw [opened, ledger, chains, List.perm_iff_count]
    intro h
    simp only [List.count_append]
    omega

theorem ledger_handOff {accept : Accept H × ErrorCode} {rest : List (Accept H × ErrorCode)} {l : Listener H C}
    (posted : l.posted = accept :: rest) : ({ l with posted := rest }.handOff accept).ledger.Perm l.ledger := by
  let behind := (rest ++ l.blocked.toList ++ l.completed).map fun accept => accept.1.handler
  have before : l.ledger = l.pending.map Accept.handler ++ ([accept.1.handler] ++ behind) ++ l.errors := by
    simp [ledger, chains, pipeline, posted, behind]
  rw [before, List.perm_iff_count]
  intro h
  by_cases failed : accept.2.failed = true
  · have handed : ({ l with posted := rest }.handOff accept).ledger =
        l.pending.map Accept.handler ++ behind ++ (l.errors ++ [accept.1.handler]) := by
      simp [handOff_eq, failed, ledger, chains, pipeline, errors, behind]
    rw [handed]
    simp only [List.count_append]
    omega
  · have handed : ({ l with posted := rest }.handOff accept).ledger =
        l.pending.map Accept.handler ++ [accept.1.handler] ++ behind ++ l.errors := by
      simp [handOff_eq, failed, ledger, chains, pipeline, errors, behind]
    rw [handed]
    simp only [List.count_append]
    omega

/-- An accept that completes goes to the end of the pipeline. -/
theorem ledger_completes (ec : ErrorCode) {accept : Accept H} {l t : Listener H C} (pending : accept ∈ l.pending)
    (left : t.pending = l.pending.erase accept) (pipeline : t.pipeline = l.pipeline ++ [(accept, ec)])
    (calls : t.calls = l.calls) : t.ledger.Perm l.ledger := by
  have moved := ((List.perm_cons_erase pending).map Accept.handler).count_eq
  rw [ledger, chains, left, pipeline, errors, calls, List.perm_iff_count]
  intro h
  have one := moved h
  simp only [ledger, chains, errors, List.map_append, List.map_cons, List.map_nil, List.count_append, List.count_cons,
    List.count_nil] at one ⊢
  omega

omit [DecidableEq H] in
theorem ledger_moves {l t : Listener H C} (pending : t.pending = l.pending) (pipeline : t.pipeline = l.pipeline)
    (calls : t.calls = l.calls) : t.ledger.Perm l.ledger := by
  rw [ledger, chains, pending, pipeline, errors, calls]
  rfl

theorem ledger_step {threads : Nat} {l t : Listener H C} {e : Event H C} (taken : step threads l e = some t) :
    t.ledger.Perm (l.ledger ++ e.opened?.toList) := by
  by_cases start : ∃ handler open_ setOption bind listen, e = .startListen handler open_ setOption bind listen
  · obtain ⟨handler, open_, setOption, bind, listen, rfl⟩ := start
    cases taken
    exact ledger_startListen handler open_ setOption bind listen l
  · have none : e.opened? = none := by
      cases e with
      | startListen handler open_ setOption bind listen => exact absurd ⟨_, _, _, _, _, rfl⟩ start
      | _ => rfl
    rw [none, Option.toList_none, List.append_nil]
    cases step_cases taken with
    | refused => exact absurd ⟨_, _, _, _, _, rfl⟩ start
    | opened => exact absurd ⟨_, _, _, _, _, rfl⟩ start
    | stopped made => exact ledger_moves rfl rfl rfl
    | @succeeded accept connection pending current free =>
      exact ledger_completes .success pending rfl (by simp [pipeline]) rfl
    | @failed accept ec pending failed => exact ledger_completes ec pending rfl (by simp [pipeline]) rfl
    | waits blocked completed locked =>
      refine ledger_moves (l := l) rfl ?_ rfl
      simp [pipeline, blocked, completed]
    | posted blocked completed unlocked =>
      refine ledger_moves (l := l) rfl ?_ rfl
      simp [pipeline, post, blocked, completed]
    | acquired blocked unlocked =>
      refine ledger_moves (l := l) rfl ?_ rfl
      simp [pipeline, post, blocked]
    | handed posted => exact ledger_handOff posted

omit [DecidableEq H] in
theorem mem_chains_of_posted {accept : Accept H × ErrorCode} {rest : List (Accept H × ErrorCode)} {l : Listener H C}
    (posted : l.posted = accept :: rest) : accept.1.handler ∈ l.chains := by
  simp [chains, pipeline, posted]

def callsOf (h : H) (l : Listener H C) : List (H × ErrorCode × Option C) := l.calls.filter fun call => call.1 = h

theorem callsOf_step {threads : Nat} {l t : Listener H C} {e : Event H C} {h : H} (ended : h ∉ l.chains)
    (taken : step threads l e = some t) : t.callsOf h = l.callsOf h ∧ (l.errors.count h ≤ t.errors.count h) := by
  have same (kept : t.calls = l.calls) : t.callsOf h = l.callsOf h ∧ l.errors.count h ≤ t.errors.count h := by
    rw [callsOf, errors, errors, kept]
    exact ⟨rfl, Nat.le_refl _⟩
  cases step_cases taken with
  | @handed accept rest posted =>
    have other : accept.1.handler ≠ h := by
      rintro rfl
      exact ended (mem_chains_of_posted posted)
    rw [handOff_eq]
    constructor
    · simp [callsOf, other]
    · simp [errors, List.filter_append]
  | _ => exact same rfl

/-- A chain is not started without a call of `start_listen`. -/
theorem ended_step {threads : Nat} {l t : Listener H C} {e : Event H C} {h : H} (ended : h ∉ l.chains)
    (other : e.opened? ≠ some h) (taken : step threads l e = some t) : h ∉ t.chains := by
  have balance := (ledger_step taken).count_eq h
  have none : e.opened?.toList.count h = 0 := by
    rw [List.count_eq_zero]
    cases opened : e.opened? with
    | none => simp
    | some handler =>
      rw [opened] at other
      simpa using fun same : h = handler => other (congrArg some same.symm)
  have before : l.chains.count h = 0 := List.count_eq_zero.mpr ended
  have grows := (callsOf_step ended taken).2
  simp only [ledger, List.count_append] at balance
  apply List.count_eq_zero.mp
  omega

/-- Each call of `start_listen` that succeeds is one accept chain, which ends with a call of its handler with an
    error. After that the handler is not called again, unless it is given to `start_listen` again. -/
theorem chains_end_with_error (threads : Nat) (es : List (Event H C)) (l : Listener H C)
    (ran : (machine H C threads).run {} es = some l) :
    (l.chains ++ l.errors).Perm (es.filterMap Event.opened?) ∧
      ∀ h after t, (machine H C threads).run l after = some t → h ∉ l.chains → h ∉ after.filterMap Event.opened? →
        t.callsOf h = l.callsOf h := by
  constructor
  · have start : ({} : Listener H C).ledger.Perm (([] : List (Event H C)).filterMap Event.opened?) := List.Perm.refl []
    have kept : l.ledger.Perm (([] ++ es).filterMap Event.opened?) := by
      refine Transition.System.history_invariant
        (I := fun past (l : Listener H C) => l.ledger.Perm (past.filterMap Event.opened?)) ?_ [] start
        Transition.System.each_true ran
      intro past l e t balance _ taken
      have moved := (ledger_step taken).trans (balance.append_right e.opened?.toList)
      rw [List.filterMap_append]
      cases opened : e.opened? with
      | none => simpa [opened] using moved
      | some handler => simpa [opened] using moved
    exact kept
  · intro h after t later ended silent
    have each : (machine H C threads).Each (fun _ e => e.opened? ≠ some h) l after := by
      apply Transition.System.each_of_forall
      intro _ e member opened
      exact silent (List.mem_filterMap.mpr ⟨e, member, opened⟩)
    have kept : h ∉ t.chains ∧ t.callsOf h = l.callsOf h := by
      refine Transition.System.invariant_of_run (P := fun u : Listener H C => h ∉ u.chains ∧ u.callsOf h = l.callsOf h)
        ?_ ⟨ended, rfl⟩ each later
      rintro u e v ⟨ended, same⟩ other taken
      exact ⟨ended_step ended other taken, (callsOf_step ended taken).1.trans same⟩
    exact kept.2

def startsTwice : List (Event Nat Nat) :=
  [.startListen 1 .success .success .success .success, .startListen 2 .success .success .success .success,
    .acceptFails ⟨0, 1⟩ ⟨125, .system⟩, .acceptHandler, .handOff]

theorem chains_end_with_error_startsTwice : ∃ l : Listener Nat Nat, (machine Nat Nat 1).run {} startsTwice = some l ∧
    l.chains = [2] ∧ l.errors = [1] ∧ ∀ after t, (machine Nat Nat 1).run l after = some t →
      1 ∉ after.filterMap Event.opened? → t.callsOf 1 = l.callsOf 1 := by
  have ran : ∃ l : Listener Nat Nat, (machine Nat Nat 1).run {} startsTwice = some l ∧ l.chains = [2] ∧ l.errors = [1] :=
    ⟨_, rfl, rfl, rfl⟩
  obtain ⟨l, final, chains, errors⟩ := ran
  refine ⟨l, final, chains, errors, fun after t later silent => ?_⟩
  exact (chains_end_with_error 1 startsTwice l final).2 1 after t later (by simp [chains]) silent

end MaxNet.Listener
