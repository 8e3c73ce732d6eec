import MaxNet.Client.Model

namespace MaxNet

namespace Client

variable {E M : Type}

def connecting (c : Client E M) : Connecting E Nat where
  resolver := c.resolver
  urls := c.connects.map Connect.url

theorem connecting_doSessionConnect (call : Nat) (url : NetUrl E) (c : Client E M)
    (opened : c.session.isSome = true) :
    (c.doSessionConnect call url).connecting = { c.connecting with urls := c.connecting.urls ++ [url] } ∧
      (c.doSessionConnect call url).session = c.session := by
  obtain ⟨i, current⟩ := Option.isSome_iff_exists.mp opened
  unfold doSessionConnect
  rw [current]
  simp only
  split <;> exact ⟨by simp [connecting], rfl⟩

structure Sound (c : Client E M) : Prop where
  connecting : c.connecting.Sound
  opened : c.resolver.wsQueue ≠ [] → c.session.isSome = true

def AssertionsHold (c : Client E M) : Prop :=
  ∀ connect ∈ c.connects, connect.url.valid = true ∧ connect.url.isResolved = true

theorem assertionsHold_iff (c : Client E M) : c.AssertionsHold ↔ c.connecting.AssertionsHold := by
  simp only [AssertionsHold, Connecting.AssertionsHold, connecting, List.forall_mem_map]

variable [DecidableEq E]

theorem connecting_sessionCreate (url : NetUrl E) (inbox : List WsMessage) (c : Client E M) :
    (c.sessionCreate url inbox).connecting = c.connecting.request url c.sessions.length ∧
      (c.sessionCreate url inbox).session.isSome = true := by
  let created : Client E M := { c with
    sessions := c.sessions ++ [Session.initial .client inbox]
    session := some c.sessions.length
    requested := c.requested ++ [url] }
  have same : created.connecting = c.connecting := rfl
  obtain ⟨direct, kept⟩ := connecting_doSessionConnect c.sessions.length url created rfl
  unfold sessionCreate Connecting.request
  split
  · exact ⟨rfl, rfl⟩
  · refine ⟨?_, by rw [kept]; rfl⟩
    rw [direct, same]

theorem connecting_resolved (op : ResolveOp E Nat) (ec : ErrorCode) (results : List E) (c : Client E M)
    (opened : c.session.isSome = true) :
    (c.resolved op ec results).connecting = c.connecting.complete op ec results ∧
      (c.resolved op ec results).session = c.session := by
  have same : c.connecting.resolver = c.resolver := rfl
  rcases hr : ({ c.resolver with
    resolving := c.resolver.resolving.erase op } : MultiResolver E Nat).resolveHandler ec results op.qelem with
    ⟨resolver, x | ⟨call, other, url⟩⟩
  · simp only [resolved, Connecting.complete, same, hr]
    exact ⟨rfl, True.intro⟩
  · simp only [resolved, Connecting.complete, same, hr]
    exact connecting_doSessionConnect call url { c with resolver } opened

def Event.connecting? (c : Client E M) : Event E M → Option (Connecting.Event E Nat)
  | sessionCreate url _ => some (.request url c.sessions.length)
  | resolved op ec results => some (.complete op ec results)
  | _ => none

theorem step_connecting [DecidableEq M] {c d : Client E M} {e : Event E M}
    (opened : c.resolver.wsQueue ≠ [] → c.session.isSome = true) (front : c.resolver.FrontOnly)
    (h : c.step e = some d) :
    (∀ f ∈ e.connecting? c, c.connecting.step f = some d.connecting) ∧
      (e.connecting? c = none → d.connecting = c.connecting) ∧
      (d.resolver.wsQueue ≠ [] → d.session.isSome = true) := by
  unfold step at h
  split at h
  · cases h
  · cases e with
    | sessionCreate url inbox =>
      cases h
      obtain ⟨same, opened⟩ := connecting_sessionCreate url inbox c
      refine ⟨?_, by simp [Event.connecting?], fun _ => opened⟩
      rintro _ ⟨⟩
      exact congrArg some same.symm
    | sessionClose =>
      cases h
      unfold sessionClose
      split <;> exact ⟨by simp [Event.connecting?], fun _ => rfl, opened⟩
    | send inIoThread message =>
      cases h
      unfold send
      split <;> exact ⟨by simp [Event.connecting?], fun _ => rfl, opened⟩
    | resolved op ec results =>
      simp only [Option.ite_none_right_eq_some, Option.some.injEq] at h
      rcases h with ⟨member, rfl⟩
      obtain ⟨rest, queue, _⟩ := front.front_of_mem member
      have current : c.session.isSome = true := opened (by simp [queue])
      obtain ⟨same, kept⟩ := connecting_resolved op ec results c current
      refine ⟨?_, by simp [Event.connecting?], fun _ => kept ▸ current⟩
      rintro _ ⟨⟩
      rw [same]
      exact if_pos member
    | session i e =>
      cases e with
      | connect url => cases h
      | _ =>
        obtain ⟨s, _, rfl⟩ := Option.map_eq_some_iff.mp h
        exact ⟨by simp [Event.connecting?], fun _ => rfl, opened⟩

def ValidUrls : Event E M → Prop
  | .sessionCreate url _ => url.valid = true
  | _ => True

instance (e : Event E M) : Decidable (ValidUrls e) := by
  cases e <;> unfold ValidUrls <;> infer_instance

/-- A resolution whose handler is called has results. The handler is called unless starting the next
    request throws. -/
def HasResults (c : Client E M) : Event E M → Prop
  | .resolved _ _ results => c.resolver.advance.FrontFits → results ≠ []
  | _ => True

variable [DecidableEq M]

theorem Sound.step {c d : Client E M} {e : Event E M} (sound : c.Sound) (valid : ValidUrls e)
    (found : c.HasResults e) (h : c.step e = some d) : d.Sound := by
  obtain ⟨through, other, opened⟩ := step_connecting sound.opened sound.connecting.front h
  refine ⟨?_, opened⟩
  cases e with
  | sessionCreate url inbox => exact sound.connecting.step (e := .request url _) valid True.intro (through _ rfl)
  | resolved op ec results =>
    exact sound.connecting.step (e := .complete op ec results) True.intro found (through _ rfl)
  | sessionClose | send | session => exact other rfl ▸ sound.connecting

theorem results_of_held {c d : Client E M} {e : Event E M} (sound : c.Sound) (h : c.step e = some d)
    (held : d.AssertionsHold) : c.HasResults e := by
  obtain ⟨through, _⟩ := step_connecting sound.opened sound.connecting.front h
  cases e with
  | resolved op ec results =>
    exact Connecting.answered_of_held sound.connecting (through _ rfl) ((assertionsHold_iff d).mp held)
  | sessionCreate | sessionClose | send | session => exact True.intro

theorem assertions_iff (es : List (Event E M)) (c : Client E M) (ran : (machine E M).run {} es = some c)
    (valid : (machine E M).Each (fun _ e => ValidUrls e) {} es) :
    (machine E M).Always AssertionsHold {} es ↔ (machine E M).Each HasResults {} es := by
  apply Transition.System.always_iff_each (I := Sound) (R := fun _ e => ValidUrls e) (t := c)
  · intro c sound
    exact (assertionsHold_iff c).mpr sound.connecting.held
  · intro c e d sound valid found step
    exact sound.step valid found step
  · intro c e d sound _ step held
    exact results_of_held sound step held
  · exact ⟨Connecting.sound_initial, by simp⟩
  · exact valid
  · exact ran

end Client

namespace WebsocketClient

variable {E M : Type}

def connecting (c : WebsocketClient E M) : Connecting E Unit where
  resolver := c.resolver
  urls := c.connects.map Prod.snd

theorem connecting_performConnect (url : NetUrl E) (inbox : List WsMessage) (c : WebsocketClient E M) :
    (c.performConnect url inbox).connecting = { c.connecting with urls := c.connecting.urls ++ [url] } := by
  unfold performConnect
  simp only
  split <;> simp [connecting]

theorem connecting_makeConnection (url : NetUrl E) (inbox : List WsMessage) (c : WebsocketClient E M) :
    (c.makeConnection url inbox).connecting = c.connecting.request url () := by
  unfold makeConnection Connecting.request
  split
  · rfl
  · exact connecting_performConnect url inbox c

def Event.connecting? : Event E M → Option (Connecting.Event E Unit)
  | makeConnection url _ => some (.request url ())
  | resolved op ec results _ => some (.complete op ec results)
  | session _ _ => none

def ValidUrls : Event E M → Prop
  | .makeConnection url _ => url.valid = true
  | _ => True

instance (e : Event E M) : Decidable (ValidUrls e) := by
  cases e <;> unfold ValidUrls <;> infer_instance

def HasResults (c : WebsocketClient E M) : Event E M → Prop
  | .resolved _ _ results _ => c.resolver.advance.FrontFits → results ≠ []
  | _ => True

def AssertionsHold (c : WebsocketClient E M) : Prop :=
  ∀ connect ∈ c.connects, connect.2.valid = true ∧ connect.2.isResolved = true

theorem assertionsHold_iff (c : WebsocketClient E M) : c.AssertionsHold ↔ c.connecting.AssertionsHold := by
  simp only [AssertionsHold, Connecting.AssertionsHold, connecting, List.forall_mem_map]

variable [DecidableEq E]

theorem connecting_resolved (op : ResolveOp E Unit) (ec : ErrorCode) (results : List E) (inbox : List WsMessage)
    (c : WebsocketClient E M) :
    (c.resolved op ec results inbox).connecting = c.connecting.complete op ec results := by
  have same : c.connecting.resolver = c.resolver := rfl
  rcases hr : ({ c.resolver with
    resolving := c.resolver.resolving.erase op } : MultiResolver E Unit).resolveHandler ec results op.qelem with
    ⟨resolver, x | ⟨call, other, url⟩⟩
  · simp only [resolved, Connecting.complete, same, hr]
    rfl
  · simp only [resolved, Connecting.complete, same, hr]
    exact connecting_performConnect url inbox { c with resolver }

variable [DecidableEq M]

theorem step_connecting {c d : WebsocketClient E M} {e : Event E M} (h : c.step e = some d) :
    (∀ f ∈ e.connecting?, c.connecting.step f = some d.connecting) ∧
      (e.connecting? = none → d.connecting = c.connecting) := by
  unfold step at h
  split at h
  · cases h
  · cases e with
    | makeConnection url inbox =>
      cases h
      refine ⟨?_, by simp [Event.connecting?]⟩
      rintro _ ⟨⟩
      exact congrArg some (connecting_makeConnection url inbox c).symm
    | resolved op ec results inbox =>
      simp only [Option.ite_none_right_eq_some, Option.some.injEq] at h
      rcases h with ⟨member, rfl⟩
      refine ⟨?_, by simp [Event.connecting?]⟩
      rintro _ ⟨⟩
      rw [connecting_resolved]
      exact if_pos member
    | session i e =>
      cases e with
      | connect url => cases h
      | _ =>
        obtain ⟨s, _, rfl⟩ := Option.map_eq_some_iff.mp h
        exact ⟨by simp [Event.connecting?], fun _ => rfl⟩

theorem sound_step {c d : WebsocketClient E M} {e : Event E M} (sound : c.connecting.Sound) (valid : ValidUrls e)
    (found : c.HasResults e) (h : c.step e = some d) : d.connecting.Sound := by
  obtain ⟨through, other⟩ := step_connecting h
  cases e with
  | makeConnection url inbox => exact sound.step (e := .request url ()) valid True.intro (through _ rfl)
  | resolved op ec results inbox => exact sound.step (e := .complete op ec results) True.intro found (through _ rfl)
  | session i e => exact other rfl ▸ sound

theorem results_of_held {c d : WebsocketClient E M} {e : Event E M} (sound : c.connecting.Sound)
    (h : c.step e = some d) (held : d.AssertionsHold) : c.HasResults e := by
  obtain ⟨through, _⟩ := step_connecting h
  cases e with
  | resolved op ec results inbox =>
    exact Connecting.answered_of_held sound (through _ rfl) ((assertionsHold_iff d).mp held)
  | makeConnection | session => exact True.intro

theorem assertions_iff (es : List (Event E M)) (c : WebsocketClient E M)
    (ran : (machine E M).run {} es = some c) (valid : (machine E M).Each (fun _ e => ValidUrls e) {} es) :
    (machine E M).Always AssertionsHold {} es ↔ (machine E M).Each HasResults {} es := by
  apply Transition.System.always_iff_each (I := fun c => c.connecting.Sound) (R := fun _ e => ValidUrls e) (t := c)
  · intro c sound
    exact (assertionsHold_iff c).mpr sound.held
  · intro c e d sound valid found step
    exact sound_step sound valid found step
  · intro c e d sound _ step held
    exact results_of_held sound step held
  · exact Connecting.sound_initial
  · exact valid
  · exact ran

end WebsocketClient

variable {E M : Type} [DecidableEq E] [DecidableEq M]

/-- In a run of either client `session::connect()` is called with valid and resolved urls only, if and
    only if every resolution whose handler is called has results. -/
theorem connect_assertions_iff (es : List (Client.Event E M)) (c : Client E M)
    (ran : (Client.machine E M).run {} es = some c)
    (valid : (Client.machine E M).Each (fun _ e => Client.ValidUrls e) {} es)
    (fs : List (WebsocketClient.Event E M)) (d : WebsocketClient E M)
    (ran' : (WebsocketClient.machine E M).run {} fs = some d)
    (valid' : (WebsocketClient.machine E M).Each (fun _ f => WebsocketClient.ValidUrls f) {} fs) :
    ((Client.machine E M).Always Client.AssertionsHold {} es ↔
        (Client.machine E M).Each Client.HasResults {} es) ∧
      ((WebsocketClient.machine E M).Always WebsocketClient.AssertionsHold {} fs ↔
        (WebsocketClient.machine E M).Each WebsocketClient.HasResults {} fs) :=
  ⟨Client.assertions_iff es c ran valid, WebsocketClient.assertions_iff fs d ran' valid'⟩

def resolutionFails : List (Client.Event Unit Nat) :=
  [.sessionCreate { hostname := ['h'] } [],
    .resolved ⟨['h'], ['8', '0'], ({ hostname := ['h'] }, 0)⟩ ⟨1, .other 0⟩ []]

def websocketResolutionFails : List (WebsocketClient.Event Unit Nat) :=
  [.makeConnection { hostname := ['h'] } [],
    .resolved ⟨['h'], ['8', '0'], ({ hostname := ['h'] }, ())⟩ ⟨1, .other 0⟩ [] []]

theorem connect_assertions_fail :
    (¬ ∀ (es : List (Client.Event Unit Nat)) (c : Client Unit Nat),
      (Client.machine Unit Nat).run {} es = some c →
      (Client.machine Unit Nat).Each (fun _ e => Client.ValidUrls e) {} es → c.AssertionsHold) ∧
    ¬ ∀ (fs : List (WebsocketClient.Event Unit Nat)) (d : WebsocketClient Unit Nat),
      (WebsocketClient.machine Unit Nat).run {} fs = some d →
      (WebsocketClient.machine Unit Nat).Each (fun _ f => WebsocketClient.ValidUrls f) {} fs →
      d.AssertionsHold := by
  constructor
  · intro claim
    have seen : ((Client.machine Unit Nat).run {} resolutionFails).map (·.connects) =
        some [⟨0, 0, { hostname := ['h'] }⟩] := by decide
    obtain ⟨c, ran, connects⟩ := Option.map_eq_some_iff.mp seen
    have held := claim resolutionFails c ran (by decide) ⟨0, 0, { hostname := ['h'] }⟩ (by simp [connects])
    exact absurd held.2 (by decide)
  · intro claim
    have seen : ((WebsocketClient.machine Unit Nat).run {} websocketResolutionFails).map (·.connects) =
        some [(0, { hostname := ['h'] })] := by decide
    obtain ⟨d, ran, connects⟩ := Option.map_eq_some_iff.mp seen
    have held := claim websocketResolutionFails d ran (by decide) (0, { hostname := ['h'] }) (by simp [connects])
    exact absurd held.2 (by decide)

theorem connect_assertions_iff_resolution_fails :
    ((Client.machine Unit Nat).Always Client.AssertionsHold {} resolutionFails ↔
        (Client.machine Unit Nat).Each Client.HasResults {} resolutionFails) ∧
      ((WebsocketClient.machine Unit Nat).Always WebsocketClient.AssertionsHold {} websocketResolutionFails ↔
        (WebsocketClient.machine Unit Nat).Each WebsocketClient.HasResults {} websocketResolutionFails) := by
  have ran : ((Client.machine Unit Nat).run {} resolutionFails).isSome = true := by decide
  have ran' : ((WebsocketClient.machine Unit Nat).run {} websocketResolutionFails).isSome = true := by decide
  obtain ⟨c, final⟩ := Option.isSome_iff_exists.mp ran
  obtain ⟨d, final'⟩ := Option.isSome_iff_exists.mp ran'
  exact connect_assertions_iff resolutionFails c final (by decide) websocketResolutionFails d final' (by decide)

end MaxNet
