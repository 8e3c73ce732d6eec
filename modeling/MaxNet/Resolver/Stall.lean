import MaxNet.Resolver.Order

namespace MaxNet.MultiResolver

variable {E H : Type}

def Outstanding (qelem : NetUrl E × H) (r : MultiResolver E H) : Prop := ∃ op ∈ r.resolving, op.qelem = qelem

structure Consistent (r : MultiResolver E H) : Prop where
  busy : ∀ front ∈ r.wsQueue.head?, r.Outstanding front
  ready : r.resolving = [] → ∀ url handler, url.PortFits →
    (r.resolve url handler).1.Outstanding (url, handler)

theorem outstanding_front {r : MultiResolver E H} (only : r.FrontOnly) (front : NetUrl E × H)
    (first : front ∈ r.wsQueue.head?) : r.Outstanding front ↔ front.1.PortFits := by
  obtain ⟨rest, queue⟩ := List.head?_eq_some_iff.mp first
  constructor
  · rintro ⟨op, member, rfl⟩
    obtain ⟨_, _, _, _, port⟩ := only.front_of_mem member
    apply op.qelem.1.port_isOk_iff.mp
    rw [port]
    rfl
  · intro fits
    obtain ⟨port, _, started⟩ := opFor_of_fits front fits
    refine ⟨⟨front.1.host, port, front⟩, ?_, rfl⟩
    rw [only, queue]
    simp [started]

theorem consistent_of_front {r : MultiResolver E H} (only : r.FrontOnly) (fits : r.FrontFits) :
    r.Consistent := by
  have busy : ∀ front ∈ r.wsQueue.head?, r.Outstanding front := fun front first =>
    (outstanding_front only front first).mpr (fits front first)
  refine ⟨busy, fun idle url handler urlFits => ?_⟩
  have empty : r.wsQueue = [] := by
    cases queue : r.wsQueue with
    | nil => rfl
    | cons front rest =>
      obtain ⟨op, member, _⟩ := busy front (by rw [queue]; rfl)
      rw [idle] at member
      cases member
  have after : (r.resolve url handler).1.FrontOnly := by
    rw [resolve_state url handler r only]
    exact rfl
  apply (outstanding_front after (url, handler) ?_).mpr urlFits
  rw [resolve_state url handler r only, empty]
  rfl

variable [DecidableEq E] [DecidableEq H]

def Called (r : MultiResolver E H) : Event E H → Prop
  | .resolve _ _ => True
  | .complete op ec results => ∀ t, (machine E H).step r (.complete op ec results) = some t →
      t.calls = r.calls ++ [answer (op.qelem, ec, results)]

def StartsFit (r : MultiResolver E H) : Event E H → Prop
  | .resolve url _ => r.wsQueue = [] → url.PortFits
  | .complete _ _ _ => r.advance.FrontFits

omit [DecidableEq E] [DecidableEq H] in
theorem frontFits_resolve {r : MultiResolver E H} (fits : r.FrontFits) (only : r.FrontOnly)
    (url : NetUrl E) (handler : H) :
    (r.resolve url handler).1.FrontFits ↔ (r.wsQueue = [] → url.PortFits) := by
  rw [resolve_state url handler r only]
  unfold FrontFits
  cases queue : r.wsQueue with
  | nil => simp
  | cons front rest =>
    have kept : front.1.PortFits := fits front (by rw [queue]; rfl)
    simpa using kept

theorem step_complete {r t : MultiResolver E H} (only : r.FrontOnly) {op : ResolveOp E H} {ec : ErrorCode}
    {results : List E} (taken : (machine E H).step r (.complete op ec results) = some t) :
    (r.advance.FrontFits ∧ t = { r.advance with calls := r.calls ++ [answer (op.qelem, ec, results)] }) ∨
      (¬ r.advance.FrontFits ∧ t = r.advance) := by
  simp only [machine, step, Option.ite_none_right_eq_some, Option.some.injEq] at taken
  rcases taken with ⟨member, rfl⟩
  obtain ⟨rest, _, single, _⟩ := only.front_of_mem member
  have idle : r.resolving.erase op = [] := by simp [single]
  rcases resolveHandler_cases ec results op.qelem { r with resolving := r.resolving.erase op } idle with
    ⟨fits, called⟩ | ⟨throws, x, thrown⟩
  · exact Or.inl ⟨fits, congrArg Prod.fst called⟩
  · exact Or.inr ⟨throws, congrArg Prod.fst thrown⟩

theorem frontOnly_step {r t : MultiResolver E H} (only : r.FrontOnly) {e : Event E H}
    (taken : (machine E H).step r e = some t) : t.FrontOnly := by
  cases e with
  | resolve url handler =>
    cases taken
    rw [resolve_state url handler r only]
    exact rfl
  | complete op ec results =>
    rcases step_complete only taken with ⟨_, rfl⟩ | ⟨_, rfl⟩
    · exact rfl
    · exact rfl

theorem frontFits_step {r t : MultiResolver E H} (only : r.FrontOnly) (fits : r.FrontFits) {e : Event E H}
    (taken : (machine E H).step r e = some t) : t.FrontFits ↔ r.StartsFit e := by
  cases e with
  | resolve url handler =>
    cases taken
    exact frontFits_resolve fits only url handler
  | complete op ec results =>
    rcases step_complete only taken with ⟨next, rfl⟩ | ⟨throws, rfl⟩
    · exact iff_of_true next next
    · exact iff_of_false throws throws

theorem called_of_fits {r : MultiResolver E H} (only : r.FrontOnly) {e : Event E H} (fits : r.StartsFit e) :
    r.Called e := by
  cases e with
  | resolve url handler => exact True.intro
  | complete op ec results =>
    intro t taken
    rcases step_complete only taken with ⟨_, rfl⟩ | ⟨throws, _⟩
    · rfl
    · exact absurd fits throws

/-- The resolver stays consistent and calls every handler exactly when each request it starts has a
    port text that `std::stoi` can read. -/
theorem consistent_iff_starts_fit (es : List (Event E H)) (r : MultiResolver E H)
    (ran : (machine E H).run {} es = some r) :
    ((machine E H).Always Consistent {} es ∧ (machine E H).Each Called {} es) ↔
      (machine E H).Each StartsFit {} es := by
  have start : (FrontOnly ({} : MultiResolver E H)) ∧ FrontFits ({} : MultiResolver E H) :=
    ⟨rfl, fun _ first => by cases first⟩
  have keep : ∀ (s : MultiResolver E H) e t, (s.FrontOnly ∧ s.FrontFits) → s.StartsFit e →
      (machine E H).step s e = some t → t.FrontOnly ∧ t.FrontFits :=
    fun s e t inv fits taken => ⟨frontOnly_step inv.1 taken, (frontFits_step inv.1 inv.2 taken).mpr fits⟩
  have exact : (machine E H).Always Consistent {} es ↔ (machine E H).Each StartsFit {} es := by
    apply Transition.System.always_iff_each (I := fun s => s.FrontOnly ∧ s.FrontFits)
      (R := fun _ _ => True) ?_ ?_ ?_ start Transition.System.each_true ran
    · exact fun s inv => consistent_of_front inv.1 inv.2
    · exact fun s e t inv _ fits taken => keep s e t inv fits taken
    · intro s e t inv _ taken consistent
      have only : t.FrontOnly := frontOnly_step inv.1 taken
      apply (frontFits_step inv.1 inv.2 taken).mp
      exact fun front first => (outstanding_front only front first).mp (consistent.busy front first)
  constructor
  · exact fun both => exact.mp both.1
  · intro fits
    refine ⟨exact.mpr fits, ?_⟩
    exact Transition.System.each_of_invariant keep (fun s e inv fits => called_of_fits inv.1 fits) start fits

theorem consistent_iff_starts_fit_two : ∃ r : MultiResolver Nat Nat,
    (machine Nat Nat).run {} resolvesTwo = some r ∧
      (((machine Nat Nat).Always Consistent {} resolvesTwo ∧ (machine Nat Nat).Each Called {} resolvesTwo) ↔
        (machine Nat Nat).Each StartsFit {} resolvesTwo) := by
  have ran : ((machine Nat Nat).run {} resolvesTwo).isSome = true := by decide
  obtain ⟨r, final⟩ := Option.isSome_iff_exists.mp ran
  exact ⟨r, final, consistent_iff_starts_fit resolvesTwo r final⟩

def resolvesOverlong : List (Event Nat Nat) :=
  [.resolve { hostname := ['a'] } 1,
    .resolve { hostname := ['b'], portText := ['9', '9', '9', '9', '9', '9', '9', '9', '9', '9', '9'] } 2,
    .complete ⟨['a'], ['8', '0'], ({ hostname := ['a'] }, 1)⟩ .success [7], .resolve { hostname := ['c'] } 3]

/-- The request for `a` is resolved but not answered, the one for `c` is never started. -/
theorem overlong_port_stalls : ∃ r : MultiResolver Nat Nat,
    (machine Nat Nat).run {} resolvesOverlong = some r ∧ r.calls = [] ∧ r.resolving = [] ∧
      r.wsQueue.length = 2 ∧ ¬ ((machine Nat Nat).Always Consistent {} resolvesOverlong ∧
        (machine Nat Nat).Each Called {} resolvesOverlong) := by
  let r : MultiResolver Nat Nat :=
    { wsQueue := [({ hostname := ['b'],
                     portText := ['9', '9', '9', '9', '9', '9', '9', '9', '9', '9', '9'] }, 2),
        ({ hostname := ['c'] }, 3)] }
  have final : (machine Nat Nat).run {} resolvesOverlong = some r := rfl
  refine ⟨r, final, rfl, rfl, rfl, fun both => ?_⟩
  obtain ⟨op, member, _⟩ := (both.1.final final).busy _ rfl
  cases member

end MaxNet.MultiResolver
