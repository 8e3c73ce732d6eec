import MaxNet.Resolver.Order

namespace MaxNet

/-- What the two clients have in common: a url goes to the resolver or, where it is resolved already,
    straight to `session::connect()`, and so does each url that the resolver hands back. -/
structure Connecting (E H : Type) where
  resolver : MultiResolver E H := {}
  urls : List (NetUrl E) := []

namespace Connecting

variable {E H : Type}

def request (url : NetUrl E) (handler : H) (c : Connecting E H) : Connecting E H :=
  if !url.isResolved then { c with resolver := (c.resolver.resolve url handler).1 }
  else { c with urls := c.urls ++ [url] }

def complete [DecidableEq E] [DecidableEq H] (op : ResolveOp E H) (ec : ErrorCode) (results : List E)
    (c : Connecting E H) : Connecting E H :=
  match { c.resolver with resolving := c.resolver.resolving.erase op }.resolveHandler ec results op.qelem with
  | (resolver, .ok (_, _, url)) => { resolver, urls := c.urls ++ [url] }
  | (resolver, .error _) => { c with resolver }

def AssertionsHold (c : Connecting E H) : Prop := ∀ url ∈ c.urls, url.valid = true ∧ url.isResolved = true

def HasResults (c : Connecting E H) (results : List E) : Prop :=
  c.resolver.advance.FrontFits → results ≠ []

structure Sound (c : Connecting E H) : Prop where
  front : c.resolver.FrontOnly
  queued : ∀ qelem ∈ c.resolver.wsQueue, qelem.1.valid = true
  held : c.AssertionsHold

theorem sound_initial : ({} : Connecting E H).Sound := ⟨rfl, by simp, by simp [AssertionsHold]⟩

theorem Sound.request {c : Connecting E H} (sound : c.Sound) (url : NetUrl E) (handler : H)
    (valid : url.valid = true) : (c.request url handler).Sound := by
  unfold Connecting.request
  split
  · rw [MultiResolver.resolve_state url handler c.resolver sound.front]
    exact ⟨rfl, List.forall_mem_append.mpr ⟨sound.queued, List.forall_mem_singleton.mpr valid⟩, sound.held⟩
  · rename_i resolved
    have usable : url.valid = true ∧ url.isResolved = true := ⟨valid, by simpa using resolved⟩
    exact ⟨sound.front, sound.queued,
      List.forall_mem_append.mpr ⟨sound.held, List.forall_mem_singleton.mpr usable⟩⟩

variable [DecidableEq E] [DecidableEq H]

/-- A completion serves the front request. Its url is passed on with the results, unless starting the
    next request throws. -/
theorem complete_cases {c : Connecting E H} (front : c.resolver.FrontOnly) {op : ResolveOp E H}
    (member : op ∈ c.resolver.resolving) (ec : ErrorCode) (results : List E) :
    (c.complete op ec results).resolver.FrontOnly ∧
      (c.complete op ec results).resolver.wsQueue = c.resolver.wsQueue.tail ∧
      ((c.resolver.advance.FrontFits ∧
          (c.complete op ec results).urls = c.urls ++ [op.qelem.1.setResolverResults results]) ∨
        (¬ c.resolver.advance.FrontFits ∧ (c.complete op ec results).urls = c.urls)) := by
  obtain ⟨rest, queue, only, _⟩ := front.front_of_mem member
  have idle : c.resolver.resolving.erase op = [] := by simp [only]
  unfold complete
  rcases MultiResolver.resolveHandler_cases ec results op.qelem
    { c.resolver with resolving := c.resolver.resolving.erase op } idle with ⟨fits, called⟩ | ⟨throws, x, called⟩
  · rw [called]
    exact ⟨rfl, rfl, Or.inl ⟨fits, rfl⟩⟩
  · rw [called]
    exact ⟨rfl, rfl, Or.inr ⟨throws, rfl⟩⟩

theorem Sound.complete {c : Connecting E H} (sound : c.Sound) {op : ResolveOp E H}
    (member : op ∈ c.resolver.resolving) (ec : ErrorCode) {results : List E} (found : c.HasResults results) :
    (c.complete op ec results).Sound := by
  obtain ⟨rest, queue, _⟩ := sound.front.front_of_mem member
  obtain ⟨front, popped, urls⟩ := complete_cases sound.front member ec results
  refine ⟨front, ?_, ?_⟩
  · intro qelem later
    rw [popped] at later
    exact sound.queued qelem (List.mem_of_mem_tail later)
  · rcases urls with ⟨fits, urls⟩ | ⟨_, urls⟩
    · have valid := sound.queued op.qelem (by simp [queue])
      rw [AssertionsHold, urls, List.forall_mem_append, List.forall_mem_singleton]
      exact ⟨sound.held, by simpa using valid, by simpa using found fits⟩
    · intro url used
      rw [urls] at used
      exact sound.held url used

theorem results_of_held {c : Connecting E H} (sound : c.Sound) {op : ResolveOp E H}
    (member : op ∈ c.resolver.resolving) {ec : ErrorCode} {results : List E}
    (held : (c.complete op ec results).AssertionsHold) : c.HasResults results := by
  intro fits
  obtain ⟨_, _, ⟨_, urls⟩ | ⟨throws, _⟩⟩ := complete_cases sound.front member ec results
  · have resolved := (held (op.qelem.1.setResolverResults results) (by simp [urls])).2
    simpa using resolved
  · exact absurd fits throws

inductive Event (E H : Type)
  | request (url : NetUrl E) (handler : H)
  | complete (op : ResolveOp E H) (ec : ErrorCode) (results : List E)

def step (c : Connecting E H) : Event E H → Option (Connecting E H)
  | .request url handler => some (c.request url handler)
  | .complete op ec results => if op ∈ c.resolver.resolving then some (c.complete op ec results) else none

def ValidUrl : Event E H → Prop
  | .request url _ => url.valid = true
  | .complete _ _ _ => True

def Answered (c : Connecting E H) : Event E H → Prop
  | .request _ _ => True
  | .complete _ _ results => c.HasResults results

theorem Sound.step {c d : Connecting E H} {e : Event E H} (sound : c.Sound) (valid : ValidUrl e)
    (answered : c.Answered e) (h : c.step e = some d) : d.Sound := by
  cases e with
  | request url handler =>
    cases h
    exact sound.request url handler valid
  | complete op ec results =>
    simp only [Connecting.step, Option.ite_none_right_eq_some, Option.some.injEq] at h
    rcases h with ⟨member, rfl⟩
    exact sound.complete member ec answered

theorem answered_of_held {c d : Connecting E H} {e : Event E H} (sound : c.Sound) (h : c.step e = some d)
    (held : d.AssertionsHold) : c.Answered e := by
  cases e with
  | request url handler => exact True.intro
  | complete op ec results =>
    simp only [step, Option.ite_none_right_eq_some, Option.some.injEq] at h
    rcases h with ⟨member, rfl⟩
    exact results_of_held sound member held

end Connecting

end MaxNet
