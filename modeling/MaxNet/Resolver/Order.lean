import Mathlib.Data.List.Forall2
import MaxNet.Resolver.Model

namespace MaxNet.MultiResolver

variable {E H : Type}

def opFor? (qelem : NetUrl E × H) : Option (ResolveOp E H) :=
  qelem.1.port.toOption.map fun port => ⟨qelem.1.host, port, qelem⟩

theorem opFor_of_fits (qelem : NetUrl E × H) (fits : qelem.1.PortFits) :
    ∃ port, qelem.1.port = .ok port ∧ opFor? qelem = some ⟨qelem.1.host, port, qelem⟩ := by
  obtain ⟨port, ok⟩ := qelem.1.port_of_fits fits
  exact ⟨port, ok, by simp [opFor?, ok, Except.toOption]⟩

theorem opFor_some {qelem : NetUrl E × H} {op : ResolveOp E H} (started : opFor? qelem = some op) :
    op.qelem = qelem ∧ op.host = qelem.1.host ∧ qelem.1.port = .ok op.port := by
  unfold opFor? at started
  cases ok : qelem.1.port with
  | error x => simp [ok, Except.toOption] at started
  | ok port =>
    simp only [ok, Except.toOption, Option.map_some, Option.some.injEq] at started
    subst started
    exact ⟨rfl, rfl, rfl⟩

def FrontOnly (r : MultiResolver E H) : Prop := r.resolving = (r.wsQueue.take 1).filterMap opFor?

def AllFit (r : MultiResolver E H) : Prop := ∀ qelem ∈ r.wsQueue, qelem.1.PortFits

def FrontFits (r : MultiResolver E H) : Prop := ∀ qelem ∈ r.wsQueue.head?, qelem.1.PortFits

theorem AllFit.front {r : MultiResolver E H} (all : r.AllFit) : r.FrontFits :=
  fun qelem first => all qelem (List.mem_of_mem_head? first)

theorem beginFront_state (r : MultiResolver E H) (idle : r.resolving = []) :
    r.beginFront.1 = { r with resolving := (r.wsQueue.take 1).filterMap opFor? } := by
  unfold beginFront
  cases hq : r.wsQueue with
  | nil =>
    cases r
    simp_all
  | cons front rest =>
    cases hp : front.1.port with
    | ok port => simp [beginResolve, opFor?, hp, Except.toOption, idle, hq]
    | error x =>
      cases r
      simp_all [beginResolve, opFor?, Except.toOption]

theorem beginFront_throws (r : MultiResolver E H) : r.beginFront.2 = none ↔ r.FrontFits := by
  unfold beginFront FrontFits
  cases hq : r.wsQueue with
  | nil => simp
  | cons front rest =>
    have ok := front.1.port_isOk_iff
    cases hp : front.1.port with
    | ok port => simpa [beginResolve, hp, Except.isOk, Except.toBool] using ok
    | error x => simpa [beginResolve, hp, Except.isOk, Except.toBool] using ok

theorem resolve_state (url : NetUrl E) (handler : H) (r : MultiResolver E H) (front : r.FrontOnly) :
    (r.resolve url handler).1 = { r with
      wsQueue := r.wsQueue ++ [(url, handler)]
      resolving := ((r.wsQueue ++ [(url, handler)]).take 1).filterMap opFor? } := by
  let t := { r with wsQueue := r.wsQueue ++ [(url, handler)] }
  change (if t.wsQueue.length < 2 then t.beginFront else (t, none)).1 = _
  by_cases idle : r.wsQueue = []
  · have short : t.wsQueue.length < 2 := by simp [t, idle]
    have free : t.resolving = [] := by simpa [FrontOnly, idle] using front
    rw [if_pos short, beginFront_state t free]
  · have positive := List.length_pos_iff.mpr idle
    have long : ¬ t.wsQueue.length < 2 := by
      simp only [t, List.length_append, List.length_singleton]
      omega
    rw [if_neg long, List.take_append_of_le_length positive, ← front]

def advance (r : MultiResolver E H) : MultiResolver E H :=
  { r with wsQueue := r.wsQueue.tail, resolving := (r.wsQueue.tail.take 1).filterMap opFor? }

/-- The handler is called unless starting the next request throws. -/
theorem resolveHandler_cases (ec : ErrorCode) (results : List E) (qelem : NetUrl E × H) (r : MultiResolver E H)
    (idle : r.resolving = []) :
    (r.advance.FrontFits ∧ r.resolveHandler ec results qelem =
      ({ r.advance with calls := r.calls ++ [(qelem.2, ec, qelem.1.setResolverResults results)] },
        .ok (qelem.2, ec, qelem.1.setResolverResults results))) ∨
      (¬ r.advance.FrontFits ∧ ∃ x, r.resolveHandler ec results qelem = (r.advance, .error x)) := by
  have state : ({ r with wsQueue := r.wsQueue.tail } : MultiResolver E H).beginFront.1 = r.advance :=
    beginFront_state _ idle
  have throws : ({ r with wsQueue := r.wsQueue.tail } : MultiResolver E H).beginFront.2 = none ↔
      r.advance.FrontFits := beginFront_throws _
  unfold resolveHandler
  rcases hb : ({ r with wsQueue := r.wsQueue.tail } : MultiResolver E H).beginFront with ⟨begun, thrown⟩
  rw [hb] at state throws
  simp only at state throws
  subst state
  cases thrown with
  | none =>
    refine Or.inl ⟨throws.mp rfl, ?_⟩
    simp only [hb, advance]
  | some x =>
    refine Or.inr ⟨fun fits => ?_, x, ?_⟩
    · cases throws.mpr fits
    · simp only [hb]

theorem FrontOnly.front_of_mem {r : MultiResolver E H} (only : r.FrontOnly) {op : ResolveOp E H}
    (member : op ∈ r.resolving) : ∃ rest, r.wsQueue = op.qelem :: rest ∧ r.resolving = [op] ∧
      op.host = op.qelem.1.host ∧ op.qelem.1.port = .ok op.port := by
  rw [only] at member ⊢
  cases hq : r.wsQueue with
  | nil => simp [hq] at member
  | cons first rest =>
    have started : opFor? first = some op := by simpa [hq] using member
    obtain ⟨rfl, host, port⟩ := opFor_some started
    exact ⟨rest, rfl, by simp [started], host, port⟩

def Event.request? : Event E H → Option (NetUrl E × H)
  | resolve url handler => some (url, handler)
  | complete _ _ _ => none

def Event.completion? : Event E H → Option ((NetUrl E × H) × ErrorCode × List E)
  | resolve _ _ => none
  | complete op ec results => some (op.qelem, ec, results)

def requests (es : List (Event E H)) : List (NetUrl E × H) := es.filterMap Event.request?

def completions (es : List (Event E H)) : List ((NetUrl E × H) × ErrorCode × List E) :=
  es.filterMap Event.completion?

def answer (completion : (NetUrl E × H) × ErrorCode × List E) : H × ErrorCode × NetUrl E :=
  (completion.1.2, completion.2.1, completion.1.1.setResolverResults completion.2.2)

structure Serving (past : List (Event E H)) (r : MultiResolver E H) (q : SerialQueue (NetUrl E × H)) : Prop where
  submitted : q.submitted = requests past
  waiting : q.waiting = r.wsQueue
  finished : q.finished = (completions past).map Prod.fst
  front : r.FrontOnly
  fits : r.AllFit
  answered : r.calls = (completions past).map answer

def PortsFit : Event E H → Prop
  | .resolve url _ => url.PortFits
  | .complete _ _ _ => True

instance (e : Event E H) : Decidable (PortsFit e) := by
  cases e <;> unfold PortsFit <;> infer_instance

theorem Serving.resolve {past : List (Event E H)} {r : MultiResolver E H} {q : SerialQueue (NetUrl E × H)}
    (serving : Serving past r q) (url : NetUrl E) (handler : H) (fits : url.PortFits) :
    Serving (past ++ [.resolve url handler]) (r.resolve url handler).1 (q.submit (url, handler)) := by
  rw [resolve_state url handler r serving.front]
  exact
    { submitted := by simp [SerialQueue.submit, serving.submitted, requests, Event.request?]
      waiting := by simp [SerialQueue.submit, serving.waiting]
      finished := by simp [SerialQueue.submit, serving.finished, completions, Event.completion?]
      front := rfl
      fits := List.forall_mem_append.mpr ⟨serving.fits, List.forall_mem_singleton.mpr fits⟩
      answered := by simp [serving.answered, completions, Event.completion?] }

theorem Serving.complete [DecidableEq E] [DecidableEq H] {past : List (Event E H)} {r : MultiResolver E H}
    {q : SerialQueue (NetUrl E × H)} (serving : Serving past r q) {op : ResolveOp E H}
    (member : op ∈ r.resolving) (ec : ErrorCode) (results : List E) :
    Serving (past ++ [.complete op ec results])
      ({ r with resolving := r.resolving.erase op }.resolveHandler ec results op.qelem).1 q.finish := by
  obtain ⟨rest, queue, only, _⟩ := serving.front.front_of_mem member
  have idle : r.resolving.erase op = [] := by simp [only]
  have next : r.advance.AllFit := fun qelem later => serving.fits qelem (List.mem_of_mem_tail later)
  rcases resolveHandler_cases ec results op.qelem { r with resolving := r.resolving.erase op } idle with
    ⟨_, called⟩ | ⟨throws, _⟩
  · rw [called]
    exact
      { submitted := by simp [SerialQueue.finish, serving.submitted, requests, Event.request?]
        waiting := by simp [SerialQueue.finish, serving.waiting, advance]
        finished := by simp [SerialQueue.finish, serving.finished, serving.waiting, queue, completions,
          Event.completion?]
        front := rfl
        fits := next
        answered := by simp [serving.answered, completions, Event.completion?, answer] }
  · exact absurd next.front throws

structure ServedInOrder (es : List (Event E H)) (r : MultiResolver E H) : Prop where
  single : r.resolving.length ≤ 1
  busy_iff : r.resolving ≠ [] ↔ r.wsQueue ≠ []
  front : ∀ op ∈ r.resolving, r.wsQueue.head? = some op.qelem ∧ op.host = op.qelem.1.host ∧
    op.qelem.1.port = .ok op.port
  own : (completions es).map Prod.fst <+: requests es
  answered : List.Forall₂ (fun completion call =>
    call.1 = completion.1.2 ∧ call.2.1 = completion.2.1 ∧ call.2.2.host = completion.1.1.host ∧
      call.2.2.port = completion.1.1.port ∧ call.2.2.path = completion.1.1.path ∧
      call.2.2.endpoints = completion.2.2) (completions es) r.calls
  all_served : r.resolving = [] → (completions es).map Prod.fst = requests es

theorem served_of_serving {es : List (Event E H)} {r : MultiResolver E H} {q : SerialQueue (NetUrl E × H)}
    (serving : Serving es r q) : ServedInOrder es r := by
  have front := serving.front
  have busy : r.resolving = [] ↔ r.wsQueue = [] := by
    rw [front]
    cases hq : r.wsQueue with
    | nil => simp
    | cons first rest =>
      obtain ⟨port, _, started⟩ := opFor_of_fits first (serving.fits first (by simp [hq]))
      simp [started]
  refine ⟨?_, not_congr busy, ?_, ?_, ?_, ?_⟩
  · have length := congrArg List.length front
    have kept := List.length_filterMap_le opFor? (r.wsQueue.take 1)
    rw [List.length_take] at kept
    omega
  · intro op member
    obtain ⟨rest, queue, _, host, port⟩ := front.front_of_mem member
    exact ⟨by rw [queue]; rfl, host, port⟩
  · rw [← serving.finished, ← serving.submitted]
    exact q.finished_prefix
  · rw [serving.answered, List.forall₂_map_right_iff]
    exact List.forall₂_same.mpr fun completion _ => ⟨rfl, rfl, rfl, rfl, rfl, rfl⟩
  · intro idle
    rw [← serving.finished, ← serving.submitted]
    exact q.idle_iff.mp (serving.waiting.trans (busy.mp idle))

variable [DecidableEq E] [DecidableEq H]

/-- Requests are resolved one at a time, in the order of the calls, and each is answered once with the
    outcome of its own resolution. -/
theorem serves_in_order (es : List (Event E H)) (r : MultiResolver E H)
    (fit : (machine E H).Each (fun _ e => PortsFit e) {} es) (ran : (machine E H).run {} es = some r) :
    ServedInOrder es r := by
  have serving : ∃ q, Serving es r q := by
    apply Transition.System.history_invariant (I := fun past r => ∃ q, Serving past r q) ?_ [] ?_ fit ran
    · rintro past s e t ⟨q, serving⟩ fits taken
      cases e with
      | resolve url handler =>
        cases taken
        exact ⟨_, serving.resolve url handler fits⟩
      | complete op ec results =>
        simp only [machine, step, Option.ite_none_right_eq_some, Option.some.injEq] at taken
        rcases taken with ⟨member, rfl⟩
        exact ⟨_, serving.complete member ec results⟩
    · exact ⟨SerialQueue.empty, rfl, rfl, rfl, rfl, by simp [AllFit], rfl⟩
  rcases serving with ⟨q, serving⟩
  exact served_of_serving serving

def resolvesTwo : List (Event Nat Nat) :=
  [.resolve { hostname := ['a'] } 1, .resolve { hostname := ['b'], portText := ['9', '0'] } 2,
    .complete ⟨['a'], ['8', '0'], ({ hostname := ['a'] }, 1)⟩ ⟨1, .other 0⟩ [],
    .complete ⟨['b'], ['9', '0'], ({ hostname := ['b'], portText := ['9', '0'] }, 2)⟩ .success [7]]

theorem serves_in_order_two : ∃ r : MultiResolver Nat Nat,
    (machine Nat Nat).run {} resolvesTwo = some r ∧ ServedInOrder resolvesTwo r := by
  have ran : ((machine Nat Nat).run {} resolvesTwo).isSome = true := by decide
  obtain ⟨r, final⟩ := Option.isSome_iff_exists.mp ran
  exact ⟨r, final, serves_in_order resolvesTwo r (by decide) final⟩

end MaxNet.MultiResolver
