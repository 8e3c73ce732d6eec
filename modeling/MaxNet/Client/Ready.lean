import MaxNet.Client.Sends
import MaxNet.Session.Delivery
import MaxNet.Session.Rest

namespace MaxNet

namespace Session

variable {E M : Type} {v w : ReadView M} {e : Event E M}

theorem calls_step (taken : ReadStep v e w) : v.calls <+: w.calls := by
  have called (installed : Bool) (a : Action M) (u : ReadView M) : u.calls <+: (u.call installed a).calls := by
    cases installed with
    | true => exact List.prefix_append _ _
    | false => exact List.prefix_refl _
  cases taken with
  | refused url ec positive => exact called _ _ { v with opening := v.opening - 1 }
  | received pieces message rest =>
    exact called _ _
      { v with
        reads := v.reads - 1
        inbox := rest
        buffer := v.buffer ++ pieces
        strand := [.consume message.payload.length, .performRead] }
  | strandStep stmt rest online text busy =>
    cases stmt with
    | callOnReady ec => exact called _ _ { v with strand := rest }
    | deliver bytes => exact called _ _ { v with strand := rest }
    | callOnRead ec bytes => exact called _ _ { v with strand := rest }
    | performRead => cases online <;> exact List.prefix_refl _
    | _ => exact List.prefix_refl _
  | _ => exact List.prefix_refl _

theorem opened_step (taken : ReadStep v e w) (connects : ∀ url, e ≠ .connect url) (accepts : e ≠ .accept) :
    w.opened = v.opened := by
  have called (installed : Bool) (a : Action M) (u : ReadView M) : (u.call installed a).opened = u.opened := by
    cases installed <;> rfl
  cases taken with
  | connect url => exact absurd rfl (connects url)
  | accept => exact absurd rfl accepts
  | refused url ec positive => exact called _ _ _
  | received pieces message rest => exact called _ _ _
  | strandStep stmt rest online text busy =>
    cases stmt with
    | callOnReady ec => exact called _ _ _
    | deliver bytes => exact called _ _ _
    | callOnRead ec bytes => exact called _ _ _
    | performRead => cases online <;> rfl
    | _ => rfl
  | _ => rfl

variable [DecidableEq E] [DecidableEq M] {s t : Session E M} {sent : List M} {incoming : List WsMessage}

theorem ready_step (h : s.step e = some t) : s.trace.countP Action.isReady ≤ t.trace.countP Action.isReady := by
  have grown := (calls_step (step_readView h)).sublist.countP_le (p := Action.isReady)
  have called (u : Session E M) : u.readView.calls.countP Action.isReady = u.trace.countP Action.isReady :=
    countP_callback (fun _ => isCallback_of_isReady) u.trace
  rwa [called, called] at grown

omit [DecidableEq E] [DecidableEq M] in
theorem sends_of_view (same : t.view = s.view) : s.sends t = [] := by
  simp [sends, same]

structure ReadyEnd (sent : List M) (incoming : List WsMessage) (s : Session E M) : Prop where
  linked : Linked sent incoming s
  prompt : Prompt sent s
  ready : s.view.written ≠ [] → 0 < s.trace.countP Action.isReady

namespace ReadyEnd

theorem step (holds : ReadyEnd sent incoming s) (plain : s.PlainWrites e) (once : s.OpensOnce e) (waits : s.WaitsForReady e)
    (h : s.step e = some t) : ReadyEnd (sent ++ s.sends t) incoming t := by
  refine ⟨holds.linked.step plain once h, holds.prompt.step holds.linked plain once waits h, ?_⟩
  intro some
  have grown := ready_step h
  rcases written_step h with same | ⟨_, _, rfl, _⟩
  · exact Nat.lt_of_lt_of_le (holds.ready (same ▸ some)) grown
  · exact Nat.lt_of_lt_of_le waits grown

/-- Nothing is put on the wire before `on_ready_`. -/
theorem ready_of_sends (holds : ReadyEnd sent incoming s) (plain : s.PlainWrites e) (once : s.OpensOnce e)
    (waits : s.WaitsForReady e) (h : s.step e = some t) (some : s.sends t ≠ []) : 0 < s.trace.countP Action.isReady := by
  have segment := (holds.prompt.step holds.linked plain once waits h).segment
  rcases written_step h with same | ⟨_, _, rfl, _⟩
  · apply holds.ready
    intro none
    rw [same, none, List.prefix_nil, List.append_eq_nil_iff] at segment
    exact some segment.2
  · exact waits

theorem silent (holds : ReadyEnd sent incoming s) (plain : s.PlainWrites e) (once : s.OpensOnce e)
    (waits : s.WaitsForReady e) (h : s.step e = some t) (same : t.view = s.view) : ReadyEnd sent incoming t := by
  have next := holds.step plain once waits h
  rwa [sends_of_view same, List.append_nil] at next

omit [DecidableEq E] [DecidableEq M] in
theorem arrive (holds : ReadyEnd sent incoming s) (later : List WsMessage) :
    ReadyEnd sent (incoming ++ later) (s.arrive later) :=
  ⟨holds.linked.arrive later, { holds.prompt with }, holds.ready⟩

theorem installHandlers (holds : ReadyEnd sent incoming s) : ReadyEnd sent incoming s.installHandlers := by
  have first := holds.silent (e := .setOnReady) True.intro True.intro True.intro rfl rfl
  have second := first.silent (e := .setOnClose) True.intro True.intro True.intro rfl rfl
  exact second.silent (e := .setOnRead) True.intro True.intro True.intro rfl rfl

theorem connect {url : NetUrl E} (holds : ReadyEnd sent incoming s) (client : s.role = .client)
    (unopened : s.trace.any Action.isOpening = false) (h : s.installHandlers.connect url = some t) :
    ReadyEnd sent incoming t := by
  apply holds.installHandlers.silent (e := .connect url) True.intro ⟨unopened, rfl, rfl⟩ True.intro ?_ (view_connect h)
  exact (if_pos client).trans h

end ReadyEnd

inductive Moved (s : Session E M) : Session E M → Prop
  | same : Moved s s
  | own (e : Event E M) (t : Session E M) (silent : e.own = true ∨ e = .close ∨ e = .streamCloses)
    (taken : s.step e = some t) : Moved s t
  | installed : Moved s s.installHandlers
  | connected (url : NetUrl E) (t : Session E M) (unopened : s.trace.any Action.isOpening = false)
    (taken : s.installHandlers.connect url = some t) : Moved s t

omit [DecidableEq E] [DecidableEq M] in
theorem unasked_of_silent (silent : e.own = true ∨ e = .close ∨ e = .streamCloses) :
    (s.PlainWrites e ∧ s.OpensOnce e ∧ s.WaitsForReady e) ∧ (∀ url, e ≠ .connect url) ∧ e ≠ .accept := by
  rcases silent with self | rfl | rfl
  · cases e <;> first | exact ⟨⟨True.intro, True.intro, True.intro⟩, by simp, by simp⟩ | cases self
  · exact ⟨⟨True.intro, True.intro, True.intro⟩, by simp, by simp⟩
  · exact ⟨⟨True.intro, True.intro, True.intro⟩, by simp, by simp⟩

theorem ReadyEnd.moved (holds : ReadyEnd sent incoming s) (client : s.role = .client) (moved : s.Moved t) :
    ReadyEnd (sent ++ s.sends t) incoming t ∧ (s.sends t ≠ [] → 0 < s.trace.countP Action.isReady) := by
  have quiet {u : Session E M} (same : u.view = s.view) (next : ReadyEnd sent incoming u) :
      ReadyEnd (sent ++ s.sends u) incoming u ∧ (s.sends u ≠ [] → 0 < s.trace.countP Action.isReady) := by
    rw [sends_of_view same, List.append_nil]
    exact ⟨next, fun some => absurd rfl some⟩
  cases moved with
  | same => exact quiet rfl holds
  | own e t silent taken =>
    obtain ⟨⟨plain, once, waits⟩, -, -⟩ := unasked_of_silent silent
    exact ⟨holds.step plain once waits taken, holds.ready_of_sends plain once waits taken⟩
  | installed => exact quiet rfl holds.installHandlers
  | connected url t unopened taken =>
    have kept : t.view = s.installHandlers.view := view_connect taken
    exact quiet kept (holds.connect client unopened taken)

end Session

end MaxNet
