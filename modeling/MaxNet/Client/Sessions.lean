import MaxNet.Lib.Lists
import MaxNet.Client.Model

namespace MaxNet

structure Book (E : Type) where
  count : Nat
  session : Option Nat
  resolver : MultiResolver E Nat
  requested : List (NetUrl E)
  connects : List (Connect E)

namespace Book

variable {E M : Type}

def Stuck (b : Book E) : Prop := b.resolver.wsQueue ≠ [] ∧ b.resolver.resolving = []

def Enrol (url : NetUrl E) (b : Book E) : Book E :=
  { b with count := b.count + 1, session := some b.count, requested := b.requested ++ [url] }

inductive Step (b : Book E) : Client.Event E M → Book E → Prop
  | other (e : Client.Event E M) (quiet : ∀ op ec results, e ≠ .resolved op ec results) : Step b e b
  | request (url : NetUrl E) (inbox : List WsMessage) :
    Step b (.sessionCreate url inbox) { b.Enrol url with resolver := (b.resolver.resolve url b.count).1 }
  | direct (url : NetUrl E) (inbox : List WsMessage) :
    Step b (.sessionCreate url inbox) { b.Enrol url with connects := b.connects ++ [⟨b.count, b.count, url⟩] }
  | answered (op : ResolveOp E Nat) (ec : ErrorCode) (results : List E) (i : Nat)
    (calls : List (Nat × ErrorCode × NetUrl E)) (member : op ∈ b.resolver.resolving) (current : b.session = some i) :
    Step b (.resolved op ec results)
      { b with
        resolver := { b.resolver.advance with calls }
        connects := b.connects ++ [⟨op.qelem.2, i, op.qelem.1.setResolverResults results⟩] }
  | thrown (op : ResolveOp E Nat) (ec : ErrorCode) (results : List E) (member : op ∈ b.resolver.resolving)
    (throws : ¬ b.resolver.advance.FrontFits) :
    Step b (.resolved op ec results) { b with resolver := b.resolver.advance }

structure Ordered (b : Book E) : Prop where
  front : b.resolver.FrontOnly
  current : ∀ i, b.session = some i → i + 1 = b.count
  opened : 0 < b.count → ∃ i, b.session = some i
  length : b.requested.length = b.count
  distinct : (b.connects.map Connect.call ++ b.resolver.wsQueue.map Prod.snd).Nodup
  queued : ∀ qelem ∈ b.resolver.wsQueue, b.requested[qelem.2]? = some qelem.1
  made : ∀ k ∈ b.connects, ∃ given, b.requested[k.call]? = some given ∧ k.url.SameTarget given
  later : ∀ k ∈ b.connects, k.call ≤ k.session ∧ k.session < b.count

def Counted (b : Book E) : Prop := b.connects.length + b.resolver.wsQueue.length = b.count

namespace Ordered

variable {b c : Book E} {e : Client.Event E M}

theorem known_of_queued (o : b.Ordered) {qelem : NetUrl E × Nat} (member : qelem ∈ b.resolver.wsQueue) :
    qelem.2 < b.count := by
  have found := o.queued qelem member
  rw [← o.length]
  exact (List.getElem?_eq_some_iff.mp found).1

theorem known_of_made (o : b.Ordered) {k : Connect E} (member : k ∈ b.connects) : k.call < b.count := by
  obtain ⟨below, bound⟩ := o.later k member
  omega

theorem fresh (o : b.Ordered) : b.count ∉ b.connects.map Connect.call ++ b.resolver.wsQueue.map Prod.snd := by
  intro member
  rcases List.mem_append.mp member with made | queued
  · obtain ⟨k, inside, same⟩ := List.mem_map.mp made
    have known := o.known_of_made inside
    omega
  · obtain ⟨qelem, inside, same⟩ := List.mem_map.mp queued
    have known := o.known_of_queued inside
    omega

theorem requested_append {n : Nat} {url given : NetUrl E} (found : b.requested[n]? = some given) :
    (b.requested ++ [url])[n]? = some given := by
  have bound := (List.getElem?_eq_some_iff.mp found).1
  rw [List.getElem?_append_left bound, found]

theorem requested_last (o : b.Ordered) (url : NetUrl E) : (b.requested ++ [url])[b.count]? = some url := by
  rw [← o.length]
  simp

theorem made_append (o : b.Ordered) (url : NetUrl E) :
    ∀ k ∈ b.connects, ∃ given, (b.requested ++ [url])[k.call]? = some given ∧ k.url.SameTarget given := by
  intro k old
  obtain ⟨given, found, same⟩ := o.made k old
  exact ⟨given, requested_append found, same⟩

theorem later_succ (o : b.Ordered) : ∀ k ∈ b.connects, k.call ≤ k.session ∧ k.session < b.count + 1 := by
  intro k old
  obtain ⟨below, bound⟩ := o.later k old
  exact ⟨below, Nat.lt_succ_of_lt bound⟩

theorem request (o : b.Ordered) (url : NetUrl E) :
    ({ b.Enrol url with resolver := (b.resolver.resolve url b.count).1 } : Book E).Ordered := by
  rw [MultiResolver.resolve_state url b.count b.resolver o.front]
  exact
    { front := rfl
      current := by simp [Enrol]
      opened := by simp [Enrol]
      length := by simp [Enrol, o.length]
      distinct := by
        simp only [Enrol, List.map_append, List.map_cons, List.map_nil, ← List.append_assoc]
        exact o.distinct.append (List.nodup_singleton _) (List.disjoint_singleton.mpr o.fresh)
      queued := by
        refine List.forall_mem_append.mpr ⟨?_, List.forall_mem_singleton.mpr (o.requested_last url)⟩
        intro qelem old
        exact requested_append (o.queued qelem old)
      made := o.made_append url
      later := o.later_succ }

theorem direct (o : b.Ordered) (url : NetUrl E) :
    ({ b.Enrol url with connects := b.connects ++ [⟨b.count, b.count, url⟩] } : Book E).Ordered where
  front := o.front
  current := by simp [Enrol]
  opened := by simp [Enrol]
  length := by simp [Enrol, o.length]
  distinct := by
    have moved := (List.nodup_cons.mpr ⟨o.fresh, o.distinct⟩)
    apply List.Perm.nodup ?_ moved
    simp only [Enrol, List.map_append, List.map_cons, List.map_nil, List.append_assoc, List.singleton_append]
    exact List.perm_middle.symm
  queued := fun qelem member => requested_append (o.queued qelem member)
  made := by
    refine List.forall_mem_append.mpr ⟨o.made_append url, List.forall_mem_singleton.mpr ?_⟩
    exact ⟨url, o.requested_last url, url.sameTarget_refl⟩
  later := by
    refine List.forall_mem_append.mpr ⟨o.later_succ, List.forall_mem_singleton.mpr ?_⟩
    exact ⟨Nat.le_refl _, Nat.lt_succ_self _⟩

theorem answered (o : b.Ordered) {op : ResolveOp E Nat} (results : List E) {i : Nat}
    (calls : List (Nat × ErrorCode × NetUrl E)) (member : op ∈ b.resolver.resolving) (current : b.session = some i) :
    ({ b with
      resolver := { b.resolver.advance with calls }
      connects := b.connects ++ [⟨op.qelem.2, i, op.qelem.1.setResolverResults results⟩] } : Book E).Ordered := by
  obtain ⟨rest, queue, _⟩ := o.front.front_of_mem member
  have tail : b.resolver.advance.wsQueue = rest := by simp [MultiResolver.advance, queue]
  have last := o.current i current
  have first : op.qelem ∈ b.resolver.wsQueue := by simp [queue]
  have known := o.known_of_queued first
  exact
    { front := rfl
      current := o.current
      opened := o.opened
      length := o.length
      distinct := by
        have distinct := o.distinct
        rw [queue] at distinct
        simpa [tail] using distinct
      queued := by
        intro qelem later
        change qelem ∈ b.resolver.advance.wsQueue at later
        rw [tail] at later
        exact o.queued qelem (by simp [queue, later])
      made := by
        refine List.forall_mem_append.mpr ⟨o.made, List.forall_mem_singleton.mpr ?_⟩
        exact ⟨op.qelem.1, o.queued op.qelem first, NetUrl.setResolverResults_sameTarget results _⟩
      later := by
        have below : op.qelem.2 ≤ i ∧ i < b.count := by omega
        exact List.forall_mem_append.mpr ⟨o.later, List.forall_mem_singleton.mpr below⟩ }

theorem thrown (o : b.Ordered) : ({ b with resolver := b.resolver.advance } : Book E).Ordered where
  front := rfl
  current := o.current
  opened := o.opened
  length := o.length
  distinct := by
    have sub : List.Sublist (b.connects.map Connect.call ++ b.resolver.wsQueue.tail.map Prod.snd)
        (b.connects.map Connect.call ++ b.resolver.wsQueue.map Prod.snd) :=
      (List.Sublist.refl _).append ((List.tail_sublist _).map _)
    exact sub.nodup o.distinct
  queued := fun qelem member => o.queued qelem (List.mem_of_mem_tail member)
  made := o.made
  later := o.later

theorem step (o : b.Ordered) (taken : b.Step e c) : c.Ordered := by
  cases taken with
  | other => exact o
  | request url inbox => exact o.request url
  | direct url inbox => exact o.direct url
  | answered op ec results i calls member current => exact o.answered results calls member current
  | thrown => exact o.thrown

end Ordered

variable {b c : Book E} {e : Client.Event E M}

theorem stuck_of_throws {r : MultiResolver E Nat} (throws : ¬ r.advance.FrontFits) :
    r.advance.wsQueue ≠ [] ∧ r.advance.resolving = [] := by
  have only : r.advance.resolving = (r.advance.wsQueue.take 1).filterMap MultiResolver.opFor? := rfl
  rw [only]
  cases hq : r.advance.wsQueue with
  | nil =>
    apply absurd ?_ throws
    simp [MultiResolver.FrontFits, hq]
  | cons first rest =>
    have misfit : ¬ first.1.PortFits := by simpa [MultiResolver.FrontFits, hq] using throws
    have failed := mt first.1.port_isOk_iff.mp misfit
    cases hp : first.1.port with
    | ok port => simp [hp, Except.isOk, Except.toBool] at failed
    | error x => simp [MultiResolver.opFor?, hp, Except.toOption]

theorem Stuck.step (o : b.Ordered) (stuck : b.Stuck) (taken : b.Step e c) : c.Stuck := by
  cases taken with
  | other => exact stuck
  | request url inbox =>
    rw [Stuck, MultiResolver.resolve_state url b.count b.resolver o.front]
    have positive := List.length_pos_iff.mpr stuck.1
    refine ⟨by simp, ?_⟩
    simp only
    rw [List.take_append_of_le_length positive, ← o.front]
    exact stuck.2
  | direct url inbox => exact stuck
  | answered op ec results i calls member =>
    rw [stuck.2] at member
    cases member
  | thrown op ec results member throws => exact stuck_of_throws throws

theorem counted_step (o : b.Ordered) (counted : b.Stuck ∨ b.Counted) (taken : b.Step e c) :
    c.Stuck ∨ c.Counted := by
  rcases counted with stuck | counted
  · exact Or.inl (stuck.step o taken)
  · unfold Counted at counted
    cases taken with
    | other => exact Or.inr counted
    | request url inbox =>
      right
      rw [Counted, MultiResolver.resolve_state url b.count b.resolver o.front]
      simp only [Enrol, List.length_append, List.length_singleton]
      omega
    | direct url inbox =>
      right
      simp only [Counted, Enrol, List.length_append, List.length_singleton]
      omega
    | answered op ec results i calls member current =>
      right
      obtain ⟨rest, queue, _⟩ := o.front.front_of_mem member
      simp only [queue, List.length_cons] at counted
      simp only [Counted, MultiResolver.advance, queue, List.tail_cons, List.length_append, List.length_singleton]
      omega
    | thrown op ec results member throws => exact Or.inl (stuck_of_throws throws)

def Own (b : Book E) : Prop := ∀ k ∈ b.connects, k.call = k.session

theorem own_append {k : Connect E} (own : b.Own) (same : k.call = k.session) :
    ∀ l ∈ b.connects ++ [k], l.call = l.session := by
  exact List.forall_mem_append.mpr ⟨own, List.forall_mem_singleton.mpr same⟩

/-- No session is connected twice, and none with a url that was given for another one. -/
structure NotMixedUp (b : Book E) : Prop where
  once : (b.connects.map Connect.session).Nodup
  given : ∀ k ∈ b.connects, ∃ given, b.requested[k.session]? = some given ∧ k.url.SameTarget given

theorem Ordered.notMixedUp (o : b.Ordered) (own : b.Own) : b.NotMixedUp where
  once := by
    have calls : b.connects.map Connect.session = b.connects.map Connect.call :=
      List.map_congr_left fun k member => (own k member).symm
    rw [calls]
    exact o.distinct.of_append_left
  given := fun k member => own k member ▸ o.made k member

/-- Once every call has connected a session, no session is left out unless another is connected twice. -/
theorem Ordered.own (o : b.Ordered) (counted : b.Counted) (idle : b.resolver.wsQueue = [])
    (unmixed : b.NotMixedUp) : b.Own := by
  have all : b.connects.length = b.count := by
    unfold Counted at counted
    rw [idle] at counted
    exact counted
  apply Lists.eq_of_nodup_of_le o.distinct.of_append_left unmixed.once
  · intro k member
    rw [all]
    exact (o.later k member).2
  · intro k member
    exact (o.later k member).1

end Book

namespace Client

variable {E M : Type}

def book (c : Client E M) : Book E where
  count := c.sessions.length
  session := c.session
  resolver := c.resolver
  requested := c.requested
  connects := c.connects

theorem book_doSessionConnect (call i : Nat) (url : NetUrl E) (c : Client E M) (current : c.session = some i) :
    (c.doSessionConnect call url).book = { c.book with connects := c.connects ++ [⟨call, i, url⟩] } := by
  unfold doSessionConnect
  rw [current]
  simp only
  split <;> simp [book, current]

theorem opened_of_ordered {c : Client E M} (o : c.book.Ordered) (waiting : c.resolver.wsQueue ≠ []) :
    ∃ i, c.session = some i := by
  obtain ⟨qelem, member⟩ := List.exists_mem_of_ne_nil _ waiting
  exact o.opened (Nat.lt_of_le_of_lt (Nat.zero_le _) (o.known_of_queued member))

theorem initial_ordered : ({} : Client E M).book.Ordered where
  front := rfl
  current := by simp [book]
  opened := by simp [book]
  length := rfl
  distinct := List.nodup_nil
  queued := by simp [book]
  made := by simp [book]
  later := by simp [book]

variable [DecidableEq E]

theorem book_sessionCreate (url : NetUrl E) (inbox : List WsMessage) (c : Client E M) :
    (c.sessionCreate url inbox).book =
      if !url.isResolved then { c.book.Enrol url with resolver := (c.resolver.resolve url c.sessions.length).1 }
      else { c.book.Enrol url with
        connects := c.connects ++ [⟨c.sessions.length, c.sessions.length, url⟩] } := by
  let created : Client E M := { c with
    sessions := c.sessions ++ [Session.initial .client inbox]
    session := some c.sessions.length
    requested := c.requested ++ [url] }
  have enrolled : created.book = c.book.Enrol url := by simp [created, book, Book.Enrol]
  unfold sessionCreate
  split
  · rw [← enrolled]
    rfl
  · rw [← enrolled]
    exact book_doSessionConnect c.sessions.length c.sessions.length url created rfl

theorem step_book [DecidableEq M] {c d : Client E M} {e : Event E M} (front : c.resolver.FrontOnly)
    (opened : c.resolver.wsQueue ≠ [] → ∃ i, c.session = some i) (h : c.step e = some d) :
    c.book.Step e d.book := by
  have same {e : Event E M} (quiet : ∀ op ec results, e ≠ .resolved op ec results) (kept : d.book = c.book) :
      c.book.Step e d.book := kept ▸ Book.Step.other e quiet
  unfold step at h
  split at h
  · cases h
  · cases e with
    | sessionCreate url inbox =>
      cases h
      rw [book_sessionCreate]
      split
      · exact .request url inbox
      · exact .direct url inbox
    | sessionClose =>
      cases h
      apply same (by simp) ?_
      unfold sessionClose
      split <;> simp [book]
    | send inIoThread message =>
      cases h
      apply same (by simp) ?_
      unfold send
      split <;> simp [book]
    | resolved op ec results =>
      simp only [Option.ite_none_right_eq_some, Option.some.injEq] at h
      rcases h with ⟨member, rfl⟩
      obtain ⟨rest, queue, only, _⟩ := front.front_of_mem member
      obtain ⟨i, current⟩ := opened (by simp [queue])
      have idle : c.resolver.resolving.erase op = [] := by simp [only]
      unfold resolved
      rcases MultiResolver.resolveHandler_cases ec results op.qelem
        { c.resolver with resolving := c.resolver.resolving.erase op } idle with ⟨_, called⟩ | ⟨throws, x, called⟩
      · rw [called]
        simp only
        rw [book_doSessionConnect _ i _ _ (by exact current)]
        exact .answered op ec results i _ member current
      · rw [called]
        exact .thrown op ec results member throws
    | session i e =>
      cases e with
      | connect url => cases h
      | _ =>
        obtain ⟨s, _, rfl⟩ := Option.map_eq_some_iff.mp h
        exact same (by simp) (by simp [book])

def CompletesOwn (c : Client E M) : Event E M → Prop
  | .resolved op _ _ => c.session = some op.qelem.2
  | _ => True

variable [DecidableEq M]

theorem ordered_step {c d : Client E M} {e : Event E M} (o : c.book.Ordered) (h : c.step e = some d) :
    c.book.Step e d.book ∧ d.book.Ordered := by
  have taken := step_book o.front (opened_of_ordered o) h
  exact ⟨taken, o.step taken⟩

theorem own_step {c d : Client E M} {e : Event E M} (o : c.book.Ordered) (own : c.book.Own)
    (completes : c.CompletesOwn e) (h : c.step e = some d) : d.book.Own := by
  have taken := (ordered_step o h).1
  generalize d.book = b at taken
  cases taken with
  | other => exact own
  | request url inbox => exact own
  | direct url inbox => exact Book.own_append own rfl
  | answered op ec results i calls member current =>
    exact Book.own_append own (Option.some.inj (completes.symm.trans current))
  | thrown => exact own

structure Spoilt (c : Client E M) : Prop where
  ordered : c.book.Ordered
  spoilt : c.book.Stuck ∨ ¬ c.book.Own

theorem spoilt_of_foreign {c d : Client E M} {e : Event E M} (o : c.book.Ordered)
    (foreign : ¬ c.CompletesOwn e) (h : c.step e = some d) : d.Spoilt := by
  obtain ⟨taken, next⟩ := ordered_step o h
  refine ⟨next, ?_⟩
  generalize d.book = b at taken
  cases taken with
  | other e quiet =>
    cases e with
    | resolved op ec results => exact absurd rfl (quiet op ec results)
    | sessionCreate | sessionClose | send | session => exact absurd True.intro foreign
  | request | direct => exact absurd True.intro foreign
  | answered op ec results i calls member current =>
    right
    intro own
    have same := own ⟨op.qelem.2, i, op.qelem.1.setResolverResults results⟩ (by simp)
    exact foreign (current.trans (congrArg some same.symm))
  | thrown op ec results member throws => exact Or.inl (Book.stuck_of_throws throws)

theorem Spoilt.step {c d : Client E M} {e : Event E M} (s : c.Spoilt) (h : c.step e = some d) : d.Spoilt := by
  obtain ⟨taken, next⟩ := ordered_step s.ordered h
  refine ⟨next, ?_⟩
  rcases s.spoilt with stuck | foreign
  · exact Or.inl (stuck.step s.ordered taken)
  · generalize d.book = b at taken
    cases taken with
    | other => exact Or.inr foreign
    | request => exact Or.inr foreign
    | direct => exact Or.inr fun own => foreign fun k member => own k (List.mem_append_left _ member)
    | answered => exact Or.inr fun own => foreign fun k member => own k (List.mem_append_left _ member)
    | thrown => exact Or.inr foreign

/-- Sessions and urls are not mixed up in a run in which every resolution completes before the next
    session is created; and only in such runs, if nothing is left to be resolved. -/
theorem sessions_not_mixed_up_iff (es : List (Event E M)) (c : Client E M)
    (ran : (machine E M).run {} es = some c) :
    ((machine E M).Each CompletesOwn {} es → (machine E M).Always (fun c => c.book.NotMixedUp) {} es) ∧
      (c.resolver.wsQueue = [] → (c.book.NotMixedUp ↔ (machine E M).Each CompletesOwn {} es)) := by
  have keeps : ∀ (c : Client E M) (e : Event E M) (d : Client E M), c.book.Ordered ∧ c.book.Own →
      c.CompletesOwn e → (machine E M).step c e = some d → d.book.Ordered ∧ d.book.Own := by
    rintro c e d ⟨o, own⟩ completes h
    exact ⟨(ordered_step o h).2, own_step o own completes h⟩
  have start : ({} : Client E M).book.Ordered ∧ ({} : Client E M).book.Own :=
    ⟨initial_ordered, by simp [Book.Own, book]⟩
  constructor
  · intro each
    exact (Transition.System.always_of_invariant keeps start each).mono fun c inv => inv.1.notMixedUp inv.2
  · intro idle
    have counted : c.book.Ordered ∧ (c.book.Stuck ∨ c.book.Counted) := by
      apply Transition.System.invariant_of_run
        (P := fun c : Client E M => c.book.Ordered ∧ (c.book.Stuck ∨ c.book.Counted)) ?_ ?_
        Transition.System.each_true ran
      · rintro c e d ⟨o, counted⟩ _ h
        obtain ⟨taken, next⟩ := ordered_step o h
        exact ⟨next, Book.counted_step o counted taken⟩
      · exact ⟨initial_ordered, Or.inr rfl⟩
    have moving : ¬ c.book.Stuck := fun stuck => stuck.1 idle
    have all := counted.2.resolve_left moving
    rcases Transition.System.each_or_bad (B := Spoilt) (fun c e d inv _ own h => keeps c e d inv own h)
      (fun c e d inv _ foreign h => spoilt_of_foreign inv.1 foreign h) (fun c e d s h => s.step h) start
      Transition.System.each_true ran with ⟨each, inv⟩ | ⟨broken, s⟩
    · exact ⟨fun _ => each, fun _ => inv.1.notMixedUp inv.2⟩
    · have foreign := s.spoilt.resolve_left moving
      exact ⟨fun unmixed => absurd (counted.1.own all idle unmixed) foreign, fun each => absurd each broken⟩

instance (c : Client E M) (e : Event E M) : Decidable (c.CompletesOwn e) := by
  induction e using Event.casesOn
  case resolved =>
    show Decidable (_ = _)
    infer_instance
  all_goals exact isTrue True.intro

def createdInTurn : List (Event Unit Nat) :=
  [.sessionCreate { hostname := ['a'] } [], .resolved ⟨['a'], ['8', '0'], ({ hostname := ['a'] }, 0)⟩ .success [()],
    .sessionCreate { hostname := ['b'] } [], .resolved ⟨['b'], ['8', '0'], ({ hostname := ['b'] }, 1)⟩ .success [()]]

theorem sessions_not_mixed_up_iff_created_in_turn : ∃ c : Client Unit Nat,
    (machine Unit Nat).run {} createdInTurn = some c ∧ c.connects.map Connect.session = [0, 1] ∧
      (machine Unit Nat).Always (fun c => c.book.NotMixedUp) {} createdInTurn ∧
      (machine Unit Nat).Each CompletesOwn {} createdInTurn := by
  obtain ⟨c, final, sessions, idle⟩ : ∃ c : Client Unit Nat, (machine Unit Nat).run {} createdInTurn = some c ∧
      c.connects.map Connect.session = [0, 1] ∧ c.resolver.wsQueue = [] := ⟨_, rfl, rfl, rfl⟩
  obtain ⟨enough, exact⟩ := sessions_not_mixed_up_iff createdInTurn c final
  have always := enough (by decide)
  exact ⟨c, final, sessions, always, (exact idle).mp (always.final final)⟩

def createdTooSoon : List (Event Unit Nat) :=
  [.sessionCreate { hostname := ['a'] } [], .sessionCreate { hostname := ['b'] } [],
    .resolved ⟨['a'], ['8', '0'], ({ hostname := ['a'] }, 0)⟩ .success [()],
    .resolved ⟨['b'], ['8', '0'], ({ hostname := ['b'] }, 1)⟩ .success [()]]

theorem sessions_mixed_up :
    ¬ ∀ (es : List (Event Unit Nat)) (c : Client Unit Nat), (machine Unit Nat).run {} es = some c →
      c.book.NotMixedUp := by
  intro claim
  have seen : ((machine Unit Nat).run {} createdTooSoon).map (fun c => c.connects.map Connect.session) =
      some [1, 1] := by decide
  obtain ⟨c, ran, sessions⟩ := Option.map_eq_some_iff.mp seen
  have once : (c.connects.map Connect.session).Nodup := (claim createdTooSoon c ran).once
  rw [sessions] at once
  exact absurd once (by decide)

end Client

end MaxNet
