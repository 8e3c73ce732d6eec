import MaxNet.Session.ReadView

namespace MaxNet

open Session

theorem Session.consume_flatten (bytes : Nat) (pieces : List (List UInt8)) :
    (consume bytes pieces).flatten = pieces.flatten.drop bytes := by
  induction pieces generalizing bytes with
  | nil => simp [consume]
  | cons piece pieces ih =>
    unfold consume
    split
    · rename_i short
      rw [List.flatten_cons, List.flatten_cons, List.drop_append_of_le_length (Nat.le_of_lt short)]
    · rename_i long
      rw [ih, List.flatten_cons, List.drop_append, List.drop_eq_nil_of_le (Nat.le_of_not_lt long),
        List.nil_append]

theorem fromConstBuffers_data (buffers : List (List UInt8)) (message : WsMessage)
    (whole : buffers.flatten = message.payload) :
    fromConstBuffers buffers [] message.text = message.data := by
  unfold WsMessage.data
  cases message.text with
  | true => exact fromConstBuffers_text buffers []
  | false => simpa [whole] using fromConstBuffers_binary buffers []

structure CallOrder {M : Type} (incoming inbox : List WsMessage) (calls : List (Action M)) : Prop where
  delivered : calls.filterMap Action.delivered? ++ inbox.map (fun m => some m.data) =
    incoming.map fun m => some m.data
  ready_first : calls.Pairwise fun a b => a.isRead = true → ¬ b.isReady = true
  ready_called : ∀ a ∈ calls, a.isRead = true → 0 < calls.countP Action.isReady
  error_last : calls.Pairwise fun a b => a.isReadError = true → ¬ b.isRead = true

namespace CallOrder

variable {M : Type} {incoming inbox : List WsMessage} {calls : List (Action M)}

theorem append_ready (order : CallOrder incoming inbox calls) (ec : ErrorCode)
    (noReads : ∀ a ∈ calls, ¬ a.isRead = true) : CallOrder incoming inbox (calls ++ [.onReady ec]) where
  delivered := by simpa [List.filterMap_cons, Action.delivered?] using order.delivered
  ready_first := by
    rw [List.pairwise_append]
    refine ⟨order.ready_first, List.pairwise_singleton _ _, ?_⟩
    intro a member b _ read
    exact absurd read (noReads a member)
  ready_called := by simp [Action.isReady]
  error_last := by
    rw [List.pairwise_append]
    refine ⟨order.error_last, List.pairwise_singleton _ _, ?_⟩
    intro a _ b last _
    rw [List.mem_singleton] at last
    subst last
    simp [Action.isRead]

theorem append_read (order : CallOrder incoming inbox calls) {rest : List WsMessage} {a : Action M}
    (read : a.isRead = true)
    (next : a.delivered?.toList ++ rest.map (fun m => some m.data) = inbox.map fun m => some m.data)
    (ready : 0 < calls.countP Action.isReady) (noErrors : ∀ b ∈ calls, ¬ b.isReadError = true) :
    CallOrder incoming rest (calls ++ [a]) where
  delivered := by
    have one : [a].filterMap Action.delivered? = a.delivered?.toList := by
      cases hd : a.delivered? <;> simp [hd]
    rw [List.filterMap_append, one, List.append_assoc, next]
    exact order.delivered
  ready_first := by
    rw [List.pairwise_append]
    refine ⟨order.ready_first, List.pairwise_singleton _ _, ?_⟩
    intro b _ c last _
    rw [List.mem_singleton] at last
    subst last
    cases c <;> simp [Action.isRead] at read
    simp [Action.isReady]
  ready_called := by
    intro b _ _
    rw [List.countP_append]
    omega
  error_last := by
    rw [List.pairwise_append]
    refine ⟨order.error_last, List.pairwise_singleton _ _, ?_⟩
    intro b member c _ error
    exact absurd error (noErrors b member)

end CallOrder

/-- One token goes through the session: the opening operation, the read, the handler of the read, and at
    last the `on_read_` call that reports an error. -/
structure ReadView.Receiving {M : Type} (incoming : List WsMessage) (v : ReadView M) : Prop where
  token : v.opening + v.reads + v.strand.countP Stmt.isPerformRead +
    v.strand.countP Stmt.isCallOnRead + v.calls.countP Action.isReadError ≤ 1
  announce : v.opening + v.strand.countP Stmt.isCallOnReady + v.calls.countP Action.isReady ≤ 1
  armed : 0 < v.reads + v.strand.countP Stmt.isPerformRead →
    0 < v.strand.countP Stmt.isCallOnReady + v.calls.countP Action.isReady
  reporting : 0 < v.strand.countP Stmt.isCallOnRead → 0 < v.calls.countP Action.isReady
  unopened : v.opened = false → v.opening = 0 ∧ v.reads = 0 ∧ v.strand = [] ∧ v.calls = []
  installed : v.opened = true → v.onReady = true ∧ v.onRead = true
  no_deliver : ∀ n, .deliver n ∉ v.strand
  failing : ∀ ec n, .callOnRead ec n ∈ v.strand → ec.failed = true
  consuming : ∀ n, .consume n ∈ v.strand →
    v.strand = [.consume n, .performRead] ∧ v.buffer.flatten.length = n
  empty : (∀ n, .consume n ∉ v.strand) →
    v.strand.countP Stmt.isCallOnRead + v.calls.countP Action.isReadError = 0 → v.buffer.flatten = []
  order : CallOrder incoming v.inbox v.calls

def Session.OpensOnce {E M : Type} (s : Session E M) : Event E M → Prop
  | .connect _ | .accept => s.trace.any Action.isOpening = false ∧ s.onReady = true ∧ s.onRead = true
  | _ => True

instance Session.decidableOpensOnce {E M : Type} (s : Session E M) (e : Event E M) : Decidable (s.OpensOnce e) := by
  induction e using Event.casesOn
  case connect | accept =>
    show Decidable (_ ∧ _)
    infer_instance
  all_goals exact isTrue True.intro

namespace ReadView.Receiving

variable {E M : Type} {incoming : List WsMessage} {v w : ReadView M}

theorem opened_of_strand (r : v.Receiving incoming) (busy : v.strand ≠ []) : v.opened = true := by
  by_contra closed
  exact busy (r.unopened (by simpa using closed)).2.2.1

theorem opened_of_reads (r : v.Receiving incoming) (positive : 0 < v.reads) : v.opened = true := by
  by_contra closed
  have none := (r.unopened (by simpa using closed)).2.1
  omega

theorem opened_of_opening (r : v.Receiving incoming) (positive : 0 < v.opening) : v.opened = true := by
  by_contra closed
  have none := (r.unopened (by simpa using closed)).1
  omega

theorem no_reads_before_ready (r : v.Receiving incoming)
    (coming : 0 < v.opening + v.strand.countP Stmt.isCallOnReady) : ∀ a ∈ v.calls, ¬ a.isRead = true := by
  intro a member read
  have called := r.order.ready_called a member read
  have once := r.announce
  omega

theorem no_errors_before_token (r : v.Receiving incoming)
    (coming : 0 < v.opening + v.reads + v.strand.countP Stmt.isPerformRead +
      v.strand.countP Stmt.isCallOnRead) : ∀ a ∈ v.calls, ¬ a.isReadError = true := by
  intro a member error
  have reported : 0 < v.calls.countP Action.isReadError := List.countP_pos_iff.mpr ⟨a, member, error⟩
  have once := r.token
  omega

theorem mem_of_later {stmt other : Stmt} {rest : List Stmt} (busy : v.strand = stmt :: rest) (member : other ∈ rest) :
    other ∈ v.strand := by
  rw [busy]
  exact List.mem_cons_of_mem stmt member

/-- The bytes of a message are consumed by the front statement or not at all. -/
theorem no_consume (r : v.Receiving incoming) {stmt : Stmt} {rest : List Stmt} (busy : v.strand = stmt :: rest)
    (notConsume : ∀ n, stmt ≠ .consume n) (n : Nat) : .consume n ∉ v.strand := by
  intro member
  have whole := (r.consuming n member).1
  rw [busy] at whole
  exact notConsume n (List.cons.inj whole).1

theorem counts_append_ready (calls : List (Action M)) (ec : ErrorCode) :
    (calls ++ [Action.onReady ec]).countP Action.isReadError = calls.countP Action.isReadError ∧
      (calls ++ [Action.onReady ec]).countP Action.isReady = calls.countP Action.isReady + 1 := by
  constructor
  · simp [Action.isReadError]
  · simp [Action.isReady]

theorem open_step (r : v.Receiving incoming) (first : v.opened = false) (onReady : v.onReady = true)
    (onRead : v.onRead = true) :
    ({ v with opened := true, opening := v.opening + 1 } : ReadView M).Receiving incoming := by
  obtain ⟨opening, reads, strand, calls⟩ := r.unopened first
  have empty := r.empty (by simp [strand]) (by simp [strand, calls])
  exact
    { token := by simp [opening, reads, strand, calls]
      announce := by simp [opening, strand, calls]
      armed := by simp [reads, strand]
      reporting := by simp [strand]
      unopened := by simp
      installed := fun _ => ⟨onReady, onRead⟩
      no_deliver := by simp [strand]
      failing := by simp [strand]
      consuming := by simp [strand]
      empty := fun _ _ => empty
      order := r.order }

theorem refuse_step (r : v.Receiving incoming) (ec : ErrorCode) (positive : 0 < v.opening) :
    ({ v with opening := v.opening - 1 }.call v.onReady (.onReady ec)).Receiving incoming := by
  have opened := r.opened_of_opening positive
  have token := r.token
  have announce := r.announce
  obtain ⟨unread, called⟩ := counts_append_ready v.calls ec
  rw [call, if_pos (r.installed opened).1]
  exact
    { token := by simp only [unread]; omega
      announce := by simp only [called]; omega
      armed := by simp only [called]; omega
      reporting := by simp only [called]; omega
      unopened := by simp [opened]
      installed := r.installed
      no_deliver := r.no_deliver
      failing := r.failing
      consuming := r.consuming
      empty := fun none reported => r.empty none (by simpa only [unread] using reported)
      order := r.order.append_ready ec (r.no_reads_before_ready (by omega)) }

theorem ready_step (r : v.Receiving incoming) {rest : List Stmt} (positive : 0 < v.opening)
    (free : v.strand = [])
    (body : rest.countP Stmt.isCallOnReady = 1 ∧ rest.countP Stmt.isPerformRead ≤ 1 ∧
      ∀ stmt ∈ rest, stmt = .disableStats ∨ stmt = .performRead ∨ ∃ ec, stmt = .callOnReady ec) :
    ({ v with opening := v.opening - 1, strand := rest } : ReadView M).Receiving incoming := by
  rcases body with ⟨announced, armed, kinds⟩
  have opened := r.opened_of_opening positive
  have token := r.token
  have announce := r.announce
  have other : rest.countP Stmt.isCallOnRead = 0 := by
    rw [List.countP_eq_zero]
    intro stmt member
    rcases kinds stmt member with rfl | rfl | ⟨ec, rfl⟩ <;> simp [Stmt.isCallOnRead]
  have absent : ∀ stmt, stmt ∈ rest → ¬ (∃ n, stmt = .consume n ∨ stmt = .deliver n) ∧
      ¬ ∃ ec n, stmt = .callOnRead ec n := by
    intro stmt member
    rcases kinds stmt member with rfl | rfl | ⟨ec, rfl⟩ <;> simp
  have empty := r.empty (by simp [free]) (by rw [free, List.countP_nil]; omega)
  rw [free] at token announce
  simp only [List.countP_nil] at token announce
  exact
    { token := by simp only [other]; omega
      announce := by simp only [announced]; omega
      armed := by simp only [announced]; omega
      reporting := by simp [other]
      unopened := by simp [opened]
      installed := r.installed
      no_deliver := fun n member => (absent _ member).1 ⟨n, Or.inr rfl⟩
      failing := fun ec n member => absurd ⟨ec, n, rfl⟩ (absent _ member).2
      consuming := fun n member => absurd ⟨n, Or.inl rfl⟩ (absent _ member).1
      empty := fun _ _ => empty
      order := r.order }

theorem received_step (r : v.Receiving incoming) (pieces : List (List UInt8)) (message : WsMessage)
    (rest : List WsMessage) (next : v.inbox = message :: rest) (positive : 0 < v.reads)
    (free : v.strand = []) (whole : pieces.flatten = message.payload) :
    ({ v with
        reads := v.reads - 1
        inbox := rest
        buffer := v.buffer ++ pieces
        strand := [.consume message.payload.length, .performRead] }.call v.onRead
      (.onRead .success (some (fromConstBuffers (v.buffer ++ pieces) [] message.text))
        message.payload.length)).Receiving incoming := by
  have opened := r.opened_of_reads positive
  have token := r.token
  have announce := r.announce
  have ready := r.armed (by omega)
  have noErrors := r.no_errors_before_token (by omega)
  have emptied := r.empty (by simp [free]) (by rw [free, List.countP_nil]; omega)
  have all : (v.buffer ++ pieces).flatten = message.payload := by
    rw [List.flatten_append, emptied, List.nil_append, whole]
  rw [free] at token announce ready
  simp only [List.countP_nil] at token announce ready
  rw [fromConstBuffers_data _ message all, call, if_pos (r.installed opened).2]
  exact
    { token := by simp [Stmt.isPerformRead, Stmt.isCallOnRead, Action.isReadError]; omega
      announce := by simp [Stmt.isCallOnReady, Action.isReady]; omega
      armed := fun _ => Nat.lt_of_lt_of_le ready (by simp only [List.countP_append]; omega)
      reporting := by simp [Stmt.isCallOnRead]
      unopened := by simp [opened]
      installed := r.installed
      no_deliver := by simp
      failing := by simp
      consuming := by simp [all]
      empty := by simp
      order := r.order.append_read rfl (by simp [Action.delivered?, next]) (by omega) noErrors }

theorem failed_step (r : v.Receiving incoming) (pieces : List (List UInt8)) (ec : ErrorCode) (bytes : Nat)
    (stmt : Stmt) (rest : List Stmt) (body : readHandler ec bytes = stmt :: rest) (failed : ec.failed = true)
    (positive : 0 < v.reads) (free : v.strand = []) :
    ({ v with reads := v.reads - 1, buffer := v.buffer ++ pieces, strand := rest } : ReadView M).Receiving
      incoming := by
  have opened := r.opened_of_reads positive
  have token := r.token
  have announce := r.announce
  have ready := r.armed (by omega)
  rw [free] at token announce ready
  simp only [List.countP_nil] at token announce ready
  have kinds : rest = [.disableStats, .callOnRead ec bytes] ∨
      rest = [.disableStats, .flushQueue, .callOnRead ec bytes] := by
    unfold readHandler at body
    rw [failed] at body
    simp only [Bool.not_true, Bool.false_eq_true, if_false] at body
    split at body
    · exact Or.inl (List.cons.inj body).2.symm
    · exact Or.inr (List.cons.inj body).2.symm
  have reads : rest.countP Stmt.isPerformRead = 0 := by rcases kinds with rfl | rfl <;> rfl
  have announced : rest.countP Stmt.isCallOnReady = 0 := by rcases kinds with rfl | rfl <;> rfl
  have reported : rest.countP Stmt.isCallOnRead = 1 := by rcases kinds with rfl | rfl <;> rfl
  exact
    { token := by simp only [reads, reported]; omega
      announce := by simp only [announced]; omega
      armed := by simp only [reads, announced]; omega
      reporting := by simp only; omega
      unopened := by simp [opened]
      installed := r.installed
      no_deliver := by rcases kinds with rfl | rfl <;> simp
      failing := by rcases kinds with rfl | rfl <;> simp [failed]
      consuming := by rcases kinds with rfl | rfl <;> simp
      empty := by simp only [reported]; omega
      order := r.order }

theorem skip_step (r : v.Receiving incoming) {stmt : Stmt} {rest : List Stmt} (busy : v.strand = stmt :: rest)
    (notReady : stmt.isCallOnReady = false) (notRead : stmt.isCallOnRead = false)
    (notConsume : ∀ n, stmt ≠ .consume n) :
    ({ v with strand := rest } : ReadView M).Receiving incoming := by
  have opened := r.opened_of_strand (by simp [busy])
  have unconsumed := r.no_consume busy notConsume
  have token := r.token
  have announce := r.announce
  have armed := r.armed
  have reporting := r.reporting
  rw [busy] at token announce armed reporting
  simp only [List.countP_cons, notReady, notRead, Bool.false_eq_true, if_false, Nat.add_zero]
    at token announce armed reporting
  exact
    { token := by simp only; omega
      announce := announce
      armed := fun pending => armed (by simp only at pending; omega)
      reporting := reporting
      unopened := by simp [opened]
      installed := r.installed
      no_deliver := fun n member => r.no_deliver n (mem_of_later busy member)
      failing := fun ec n member => r.failing ec n (mem_of_later busy member)
      consuming := fun n member => absurd (mem_of_later busy member) (unconsumed n)
      empty := fun _ called => r.empty unconsumed (by simpa [busy, List.countP_cons, notRead] using called)
      order := r.order }

theorem announce_step (r : v.Receiving incoming) {ec : ErrorCode} {rest : List Stmt}
    (busy : v.strand = .callOnReady ec :: rest) :
    ({ v with strand := rest }.call v.onReady (.onReady ec)).Receiving incoming := by
  have opened := r.opened_of_strand (by simp [busy])
  have unconsumed := r.no_consume busy (by simp)
  have noReads := r.no_reads_before_ready (by simp only [busy, List.countP_cons, Stmt.isCallOnReady, if_true]; omega)
  have token := r.token
  have announce := r.announce
  rw [busy] at token announce
  simp only [List.countP_cons, Stmt.isCallOnReady, Stmt.isPerformRead, Stmt.isCallOnRead, Bool.false_eq_true,
    if_true, if_false, Nat.add_zero] at token announce
  obtain ⟨unread, called⟩ := counts_append_ready v.calls ec
  rw [call, if_pos (r.installed opened).1]
  exact
    { token := by simp only [unread]; omega
      announce := by simp only [called]; omega
      armed := by simp only [called]; omega
      reporting := by simp only [called]; omega
      unopened := by simp [opened]
      installed := r.installed
      no_deliver := fun n member => r.no_deliver n (mem_of_later busy member)
      failing := fun ec n member => r.failing ec n (mem_of_later busy member)
      consuming := fun n member => absurd (mem_of_later busy member) (unconsumed n)
      empty := by
        intro _ reported
        apply r.empty unconsumed
        simpa only [busy, unread, List.countP_cons, Stmt.isCallOnRead, Bool.false_eq_true, if_false,
          Nat.add_zero] using reported
      order := r.order.append_ready ec noReads }

theorem rearm_step (r : v.Receiving incoming) {rest : List Stmt} (busy : v.strand = .performRead :: rest) :
    ({ v with strand := rest, reads := v.reads + 1 } : ReadView M).Receiving incoming := by
  have skipped := r.skip_step busy rfl rfl (by simp)
  have token := r.token
  have armed := r.armed
  rw [busy] at token armed
  simp only [List.countP_cons, Stmt.isCallOnReady, Stmt.isPerformRead, Stmt.isCallOnRead, Bool.false_eq_true,
    if_true, if_false, Nat.add_zero] at token armed
  exact
    { token := by simp only; omega
      announce := skipped.announce
      armed := fun _ => armed (by omega)
      reporting := skipped.reporting
      unopened := by simp [r.opened_of_strand (by simp [busy])]
      installed := r.installed
      no_deliver := skipped.no_deliver
      failing := skipped.failing
      consuming := skipped.consuming
      empty := skipped.empty
      order := r.order }

theorem consume_step (r : v.Receiving incoming) {bytes : Nat} {rest : List Stmt}
    (busy : v.strand = .consume bytes :: rest) :
    ({ v with strand := rest, buffer := consume bytes v.buffer } : ReadView M).Receiving incoming := by
  have opened := r.opened_of_strand (by simp [busy])
  obtain ⟨whole, length⟩ := r.consuming bytes (by simp [busy])
  have last : rest = [.performRead] := by
    rw [busy] at whole
    exact (List.cons.inj whole).2
  subst last
  have emptied : (consume bytes v.buffer).flatten = [] := by
    rw [consume_flatten, ← length, List.drop_length]
  have token := r.token
  have announce := r.announce
  have armed := r.armed
  have reporting := r.reporting
  rw [busy] at token announce armed reporting
  exact
    { token := token
      announce := announce
      armed := armed
      reporting := reporting
      unopened := by simp [opened]
      installed := r.installed
      no_deliver := by simp
      failing := by simp
      consuming := by simp
      empty := fun _ _ => emptied
      order := r.order }

theorem report_step (r : v.Receiving incoming) {ec : ErrorCode} {bytes : Nat} {rest : List Stmt}
    (busy : v.strand = .callOnRead ec bytes :: rest) :
    ({ v with strand := rest }.call v.onRead (.onRead ec none bytes)).Receiving incoming := by
  have opened := r.opened_of_strand (by simp [busy])
  have unconsumed := r.no_consume busy (by simp)
  have failed := r.failing ec bytes (by simp [busy])
  have pending : 0 < v.strand.countP Stmt.isCallOnRead := by simp [busy, List.countP_cons, Stmt.isCallOnRead]
  have noErrors := r.no_errors_before_token (by omega)
  have ready := r.reporting pending
  have token := r.token
  have announce := r.announce
  rw [busy] at token announce
  simp only [List.countP_cons, Stmt.isCallOnReady, Stmt.isPerformRead, Stmt.isCallOnRead, Bool.false_eq_true,
    if_true, if_false, Nat.add_zero] at token announce
  have error : (v.calls ++ [Action.onRead ec none bytes]).countP Action.isReadError =
      v.calls.countP Action.isReadError + 1 := by simp [Action.isReadError, failed]
  have called : (v.calls ++ [Action.onRead ec none bytes]).countP Action.isReady =
      v.calls.countP Action.isReady := by simp [Action.isReady]
  rw [call, if_pos (r.installed opened).2]
  exact
    { token := by simp only [error]; omega
      announce := by simp only [called]; omega
      armed := by simp only [called]; omega
      reporting := by simp only [called]; omega
      unopened := by simp [opened]
      installed := r.installed
      no_deliver := fun n member => r.no_deliver n (mem_of_later busy member)
      failing := fun ec n member => r.failing ec n (mem_of_later busy member)
      consuming := fun n member => absurd (mem_of_later busy member) (unconsumed n)
      empty := by simp only [error]; omega
      order := r.order.append_read rfl (by simp [Action.delivered?, failed]) ready noErrors }

theorem strand_step (r : v.Receiving incoming) {stmt : Stmt} {rest : List Stmt} (busy : v.strand = stmt :: rest)
    (online text : Bool) : ({ v with strand := rest }.exec online text stmt).Receiving incoming := by
  cases stmt with
  | statusSet cd => exact r.skip_step busy rfl rfl (by simp)
  | disableStats => exact r.skip_step busy rfl rfl (by simp)
  | callOnReady ec => exact r.announce_step busy
  | performRead =>
    cases online with
    | true => exact r.rearm_step busy
    | false => exact r.skip_step busy rfl rfl (by simp)
  | deliver bytes => exact absurd (by simp [busy]) (r.no_deliver bytes)
  | consume bytes => exact r.consume_step busy
  | flushQueue => exact r.skip_step busy rfl rfl (by simp)
  | callOnRead ec bytes => exact r.report_step busy

theorem handshakeHandler_tail {ec : ErrorCode} {stmt : Stmt} {rest : List Stmt}
    (body : handshakeHandler ec = stmt :: rest) :
    rest.countP Stmt.isCallOnReady = 1 ∧ rest.countP Stmt.isPerformRead ≤ 1 ∧
      ∀ stmt ∈ rest, stmt = .disableStats ∨ stmt = .performRead ∨ ∃ ec, stmt = .callOnReady ec := by
  unfold handshakeHandler at body
  split at body <;> cases body <;> refine ⟨rfl, by simp [List.countP_cons, Stmt.isPerformRead], ?_⟩ <;> simp

theorem acceptedHandler_tail {ec : ErrorCode} {stmt : Stmt} {rest : List Stmt}
    (body : acceptedHandler ec = stmt :: rest) :
    rest.countP Stmt.isCallOnReady = 1 ∧ rest.countP Stmt.isPerformRead ≤ 1 ∧
      ∀ stmt ∈ rest, stmt = .disableStats ∨ stmt = .performRead ∨ ∃ ec, stmt = .callOnReady ec := by
  unfold acceptedHandler at body
  split at body <;> cases body <;> refine ⟨rfl, by simp [List.countP_cons, Stmt.isPerformRead], ?_⟩ <;> simp

theorem step (r : v.Receiving incoming) {s : Session E M} {e : Event E M} (view : s.readView = v)
    (once : OpensOnce s e) (taken : ReadStep v e w) : w.Receiving incoming := by
  subst view
  cases taken with
  | other e => exact r
  | setOnReady => exact { r with installed := fun opened => ⟨rfl, (r.installed opened).2⟩ }
  | setOnRead => exact { r with installed := fun opened => ⟨(r.installed opened).1, rfl⟩ }
  | connect url => exact r.open_step once.1 once.2.1 once.2.2
  | accept => exact r.open_step once.1 once.2.1 once.2.2
  | refused url ec positive => exact r.refuse_step ec positive
  | handshaken ec stmt rest body positive free => exact r.ready_step positive free (handshakeHandler_tail body)
  | accepted ec stmt rest body positive free => exact r.ready_step positive free (acceptedHandler_tail body)
  | received pieces message rest next positive free whole =>
    exact r.received_step pieces message rest next positive free whole
  | readFailed ec pieces stmt rest body failed positive free =>
    exact r.failed_step pieces ec _ stmt rest body failed positive free
  | strandStep stmt rest online text busy => exact r.strand_step busy online text

end ReadView.Receiving

namespace Session

variable {E M : Type}

structure ReceiveProtocol (incoming : List WsMessage) (s : Session E M) : Prop where
  one_read : s.reads ≤ 1
  one_ready : s.trace.countP Action.isReady ≤ 1
  ready_before_read : ∀ before a after, s.trace = before ++ a :: after → a.isRead = true →
    0 < before.countP Action.isReady
  delivered : s.trace.filterMap Action.delivered? <+: incoming.map fun message => some message.data
  one_error : s.trace.countP Action.isReadError ≤ 1
  error_last : ∀ before a after, s.trace = before ++ a :: after → a.isReadError = true →
    after.countP Action.isRead = 0

theorem readView_delivered (s : Session E M) :
    s.readView.calls.filterMap Action.delivered? = s.trace.filterMap Action.delivered? := by
  simp only [readView, List.filterMap_filter]
  exact List.filterMap_congr fun a _ => by cases a <;> rfl

theorem countP_callback {p : Action M → Bool} (sub : ∀ a, p a = true → a.isCallback = true) (l : List (Action M)) :
    (l.filter Action.isCallback).countP p = l.countP p := by
  rw [List.countP_filter]
  exact List.countP_congr fun a _ => by simpa using sub a

theorem isCallback_of_isReady {a : Action M} (ready : a.isReady = true) : a.isCallback = true := by
  simp [Action.isCallback, ready]

theorem isCallback_of_isRead {a : Action M} (read : a.isRead = true) : a.isCallback = true := by
  simp [Action.isCallback, read]

theorem isCallback_of_isReadError {a : Action M} (error : a.isReadError = true) : a.isCallback = true := by
  cases a <;> first | rfl | cases error

theorem calls_split {s : Session E M} {before after : List (Action M)} {a : Action M}
    (whole : s.trace = before ++ a :: after) (called : a.isCallback = true) :
    s.readView.calls = before.filter Action.isCallback ++ a :: after.filter Action.isCallback := by
  simp [readView, whole, List.filter_append, called]

theorem receive_protocol_of_receiving {incoming : List WsMessage} {s : Session E M}
    (r : s.readView.Receiving incoming) : s.ReceiveProtocol incoming := by
  have isReady : ∀ l : List (Action M), (l.filter Action.isCallback).countP Action.isReady = _ :=
    countP_callback fun _ => isCallback_of_isReady
  have isError : ∀ l : List (Action M), (l.filter Action.isCallback).countP Action.isReadError = _ :=
    countP_callback fun _ => isCallback_of_isReadError
  have ready := r.announce
  have token := r.token
  change _ + (s.trace.filter Action.isCallback).countP Action.isReady ≤ 1 at ready
  change _ + (s.trace.filter Action.isCallback).countP Action.isReadError ≤ 1 at token
  rw [isReady] at ready
  rw [isError] at token
  refine ⟨?_, by omega, ?_, ?_, by omega, ?_⟩
  · have reads : s.readView.reads = s.reads := rfl
    omega
  · intro before a after whole read
    have calls := calls_split whole (isCallback_of_isRead read)
    have called := r.order.ready_called a (by simp [calls]) read
    have first := r.order.ready_first
    rw [calls, List.pairwise_append, List.pairwise_cons] at first
    have none : (after.filter Action.isCallback).countP Action.isReady = 0 :=
      List.countP_eq_zero.mpr fun b member => first.2.1.1 b member read
    have own : a.isReady = false := by cases a <;> first | rfl | cases read
    rw [calls, List.countP_append, List.countP_cons, none, own, isReady] at called
    simpa using called
  · have order := r.order.delivered
    rw [readView_delivered] at order
    exact ⟨_, order⟩
  · intro before a after whole error
    have calls := calls_split whole (isCallback_of_isReadError error)
    have last := r.order.error_last
    rw [calls, List.pairwise_append, List.pairwise_cons] at last
    rw [← countP_callback (p := Action.isRead) fun _ => isCallback_of_isRead]
    exact List.countP_eq_zero.mpr fun b member => last.2.1.1 b member error

theorem initial_receiving (role : Role) (inbox : List WsMessage) :
    (initial role inbox : Session E M).readView.Receiving inbox where
  token := Nat.zero_le _
  announce := Nat.zero_le _
  armed := by simp [readView, initial]
  reporting := by simp [readView, initial]
  unopened := fun _ => ⟨rfl, rfl, rfl, rfl⟩
  installed := by simp [readView, initial]
  no_deliver := by simp [readView, initial]
  failing := by simp [readView, initial]
  consuming := by simp [readView, initial]
  empty := fun _ _ => rfl
  order := ⟨rfl, List.Pairwise.nil, by simp [readView, initial], List.Pairwise.nil⟩

variable [DecidableEq E] [DecidableEq M]

theorem always_receiving (role : Role) (incoming : List WsMessage) {es : List (Event E M)}
    (once : (machine E M).Each OpensOnce (initial role incoming) es) :
    (machine E M).Always (fun s => s.readView.Receiving incoming) (initial role incoming) es := by
  apply Transition.System.always_of_invariant (P := fun s => s.readView.Receiving incoming) ?_
    (initial_receiving role incoming) once
  intro s e t r opens taken
  exact r.step rfl opens (step_readView taken)

/-- In every state of a run a session has one read outstanding at most, has called `on_ready_` once and
    first, and has delivered the incoming messages whole and in their order, an error last. -/
theorem receives_in_order (role : Role) (incoming : List WsMessage) (es : List (Event E M))
    (once : (machine E M).Each OpensOnce (initial role incoming) es) :
    (machine E M).Always (ReceiveProtocol incoming) (initial role incoming) es := by
  exact (always_receiving role incoming once).mono fun s => receive_protocol_of_receiving

def receivesTwo : List (Event Unit Nat) :=
  opening ++ [.received [[1], [2, 3]], .strandStep, .strandStep, .received [[104]], .strandStep, .strandStep,
    .readFailed .closed [], .strandStep, .strandStep, .strandStep]

theorem receives_in_order_two :
    (machine Unit Nat).Always (ReceiveProtocol [⟨[1, 2, 3], false⟩, ⟨[104], true⟩])
      (initial .client [⟨[1, 2, 3], false⟩, ⟨[104], true⟩]) receivesTwo :=
  receives_in_order .client [⟨[1, 2, 3], false⟩, ⟨[104], true⟩] receivesTwo (by decide)

end Session

end MaxNet
