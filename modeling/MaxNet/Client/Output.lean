import MaxNet.Console
import MaxNet.Lib.Lists
import MaxNet.Message.MaxMessage
import MaxNet.Message.WireFormat
import MaxNet.Session.Receive

namespace MaxNet

/-- What the handler of the client given to `on_read()` acts on. Messages are numbered as they are
    allocated. -/
structure Output where
  dataOut : List (List Atom) := []
  posts : List Post := []
  allocated : Nat := 0
  deallocated : List Nat := []
  deriving DecidableEq

namespace Output

def write (msg : MaxMessage) (out : Output) : Output := { out with dataOut := out.dataOut ++ [msg.getAtoms] }

def cerr (line : String) (out : Output) : Output := { out with posts := out.posts ++ [.cerr line.toList] }

def deallocate (number : Nat) (out : Output) : Output := { out with deallocated := out.deallocated ++ [number] }

end Output

namespace WebsocketClient

variable {M X : Type} (parser : Parser X) (message : ErrorCode → String)

/-- The lambda that `perform_connect` gives to `on_read()`. `none` where a null pointer is dereferenced. -/
def onRead (ec : ErrorCode) (msg : Option (Nat × MaxMessage)) (out : Output) : Option Output :=
  if ec.failed then some (out.cerr ("read operation failed: " ++ message ec))
  else
    match msg with
    | none => none
    | some (number, msg) =>
      let (result, msg) := msg.tryDeserialize parser
      let out := match result with
        | .ok true => out
        | .ok false => out.cerr "could not deserialize message"
        | .error _ => out.cerr "could not deserialize message"
      some ((out.write msg).deallocate number)

def react (out : Output) : Action M → Option Output
  | .onRead ec data _ =>
    if ec.failed then onRead parser message ec none out
    else
      match data with
      | none => onRead parser message ec none out
      | some data =>
        onRead parser message ec (some (out.allocated, { data })) { out with allocated := out.allocated + 1 }
  | _ => some out

def output (trace : List (Action M)) : Option Output := trace.foldlM (react parser message) {}

def accepts (payload : List UInt8) : Bool :=
  match (({ data := payload } : MaxMessage).tryDeserialize parser).1 with
  | .ok parsed => parsed
  | .error _ => false

def atoms (payload : List UInt8) : List Atom :=
  (({ data := payload } : MaxMessage).tryDeserialize parser).2.getAtoms

structure NoGarbage (payloads : List (List UInt8)) (out : Output) : Prop where
  dataOut : out.dataOut = (payloads.filter (accepts parser)).map (atoms parser)
  allocated : out.allocated = payloads.length
  deallocated : out.deallocated = List.range payloads.length

structure Handed (payloads : List (List UInt8)) (out : Output) : Prop where
  dataOut : out.dataOut = payloads.map (atoms parser)
  allocated : out.allocated = payloads.length
  deallocated : out.deallocated = List.range payloads.length

variable {parser message}

namespace Handed

variable {payloads : List (List UInt8)} {out : Output}

variable (message) in
theorem skip (handed : Handed parser payloads out) {a : Action M} (none : a.delivered? = none) :
    ∃ next, react parser message out a = some next ∧ Handed parser payloads next := by
  cases a with
  | onRead ec data bytes =>
    cases failed : ec.failed with
    | true =>
      have posted : react parser message out (.onRead ec data bytes : Action M) =
          some (out.cerr ("read operation failed: " ++ message ec)) := by
        simp [react, onRead, failed]
      exact ⟨_, posted, handed.dataOut, handed.allocated, handed.deallocated⟩
    | false => simp [Action.delivered?, failed] at none
  | _ => exact ⟨out, rfl, handed⟩

variable (message) in
theorem deliver (handed : Handed parser payloads out) {a : Action M} {data : List UInt8}
    (delivered : a.delivered? = some (some data)) :
    ∃ next, react parser message out a = some next ∧ Handed parser (payloads ++ [data]) next := by
  cases a with
  | onRead ec content bytes =>
    cases failed : ec.failed with
    | true => simp [Action.delivered?, failed] at delivered
    | false =>
      obtain rfl : content = some data := by simpa [Action.delivered?, failed] using delivered
      have written : ∀ posts : List Post, Handed parser (payloads ++ [data])
          { out with
            dataOut := out.dataOut ++ [atoms parser data]
            posts := posts
            allocated := out.allocated + 1
            deallocated := out.deallocated ++ [out.allocated] } := by
        intro posts
        exact
          { dataOut := by simp [handed.dataOut]
            allocated := by simp [handed.allocated]
            deallocated := by simp [handed.deallocated, handed.allocated, List.range_succ] }
      simp only [react, onRead, failed, Bool.false_eq_true, if_false]
      split <;> exact ⟨_, rfl, written _⟩
  | _ => simp [Action.delivered?] at delivered

variable (message) in
theorem run (handed : Handed parser payloads out) {trace : List (Action M)} {later : List (List UInt8)}
    (delivered : trace.filterMap Action.delivered? = later.map some) :
    ∃ final, trace.foldlM (react parser message) out = some final ∧ Handed parser (payloads ++ later) final := by
  induction trace generalizing payloads out later with
  | nil =>
    obtain rfl : later = [] := by simpa using delivered
    rw [List.append_nil]
    exact ⟨out, rfl, handed⟩
  | cons a trace ih =>
    rw [List.filterMap_cons] at delivered
    split at delivered
    · rename_i none
      obtain ⟨next, reacted, kept⟩ := handed.skip message none
      obtain ⟨final, ran, all⟩ := ih kept delivered
      refine ⟨final, ?_, all⟩
      rw [List.foldlM_cons, reacted]
      exact ran
    · rename_i content first
      obtain ⟨data, rest, rfl, rfl, others⟩ := List.map_eq_cons_iff.mp delivered.symm
      obtain ⟨next, reacted, added⟩ := handed.deliver message first
      obtain ⟨final, ran, all⟩ := ih added others.symm
      rw [List.append_assoc, List.singleton_append] at all
      refine ⟨final, ?_, all⟩
      rw [List.foldlM_cons, reacted]
      exact ran

/-- Only accepted payloads show at the outlet exactly where there are no others. -/
theorem noGarbage_iff (handed : Handed parser payloads out) :
    NoGarbage parser payloads out ↔ ∀ payload ∈ payloads, accepts parser payload = true := by
  rw [← Lists.map_filter_eq_map_iff (atoms parser)]
  constructor
  · intro clean
    exact clean.dataOut.symm.trans handed.dataOut
  · intro same
    exact ⟨handed.dataOut.trans same.symm, handed.allocated, handed.deallocated⟩

end Handed

section Runs

variable {E : Type}

def received (incoming : List WsMessage) (s : Session E M) : List (List UInt8) :=
  (incoming.take (incoming.length - s.inbox.length)).map WsMessage.payload

theorem delivered_received {incoming : List WsMessage} (binary : ∀ m ∈ incoming, m.text = false) {s : Session E M}
    (r : s.readView.Receiving incoming) :
    s.trace.filterMap Action.delivered? = (received incoming s).map some := by
  have order := r.order.delivered
  rw [Session.readView_delivered] at order
  have lengths := congrArg List.length order
  rw [List.length_append, List.length_map, List.length_map] at lengths
  have taken : s.trace.filterMap Action.delivered? =
      (incoming.map fun m => some m.data).take (incoming.length - s.readView.inbox.length) := by
    rw [← order, List.take_left']
    omega
  rw [taken, received, List.map_map, List.map_take]
  congr 1
  apply List.map_congr_left
  intro m member
  simp [WsMessage.data, binary m member]

variable [DecidableEq E] [DecidableEq M]

/-- Whatever run a session makes of binary messages, the client sends one list for each accepted payload and
    nothing else exactly if every payload it has received is accepted. -/
theorem no_garbage_iff (parser : Parser X) (message : ErrorCode → String) {incoming : List WsMessage}
    (binary : ∀ m ∈ incoming, m.text = false) {es : List (Session.Event E M)} {s : Session E M}
    (once : (Session.machine E M).Each Session.OpensOnce (Session.initial .client incoming) es)
    (ran : (Session.machine E M).run (Session.initial .client incoming) es = some s) :
    (∃ out, output parser message s.trace = some out ∧ NoGarbage parser (received incoming s) out) ↔
      ∀ payload ∈ received incoming s, accepts parser payload = true := by
  have receiving := (Session.always_receiving .client incoming once).final ran
  have start : Handed parser [] {} := ⟨rfl, rfl, rfl⟩
  obtain ⟨out, ended, handed⟩ := start.run message (delivered_received binary receiving)
  rw [List.nil_append] at handed
  rw [← handed.noGarbage_iff]
  constructor
  · intro clean
    obtain ⟨final, same, clean⟩ := clean
    obtain rfl := Option.some.inj (same.symm.trans ended)
    exact clean
  · intro clean
    exact ⟨out, ended, clean⟩

def reads (payload : List UInt8) : List (Session.Event Unit Nat) :=
  Session.opening ++ [.received [payload], .strandStep, .strandStep]

def complete : List UInt8 := [10, 6, 8, 2, 34, 2, 104, 105]

def truncated : List UInt8 := [10, 6, 8, 2, 34, 2, 104, 105, 10, 4, 8, 0]

def seven : List UInt8 := [10, 4, 8, 0, 16, 14]

def readsBoth : List (Session.Event Unit Nat) :=
  reads complete ++ [.received [seven.take 2, seven.drop 2], .strandStep, .strandStep]

theorem no_garbage_iff_both : ∃ s, (Session.machine Unit Nat).run
      (Session.initial .client [⟨complete, false⟩, ⟨seven, false⟩]) readsBoth = some s ∧
    received [⟨complete, false⟩, ⟨seven, false⟩] s = [complete, seven] ∧
    ∃ out, output (wireFormat.parser Unit) (fun _ => "") s.trace = some out ∧
      NoGarbage (wireFormat.parser Unit) (received [⟨complete, false⟩, ⟨seven, false⟩] s) out := by
  have accepted : ∀ payload ∈ [complete, seven], accepts (wireFormat.parser Unit) payload = true := by decide +kernel
  obtain ⟨s, ran, both⟩ : ∃ s, (Session.machine Unit Nat).run
      (Session.initial .client [⟨complete, false⟩, ⟨seven, false⟩]) readsBoth = some s ∧
        received [⟨complete, false⟩, ⟨seven, false⟩] s = [complete, seven] := ⟨_, rfl, rfl⟩
  refine ⟨s, ran, both, (no_garbage_iff (wireFormat.parser Unit) (fun _ => "") (by decide) (by decide) ran).mpr ?_⟩
  rw [both]
  exact accepted

/-- What could be read of a truncated payload is sent to the patch. -/
theorem truncated_reaches_outlet :
    ∃ s, (Session.machine Unit Nat).run (Session.initial .client [⟨truncated, false⟩]) (reads truncated) = some s ∧
      received [⟨truncated, false⟩] s = [truncated] ∧ accepts (wireFormat.parser Unit) truncated = false ∧
      ∃ out, output (wireFormat.parser Unit) (fun _ => "") s.trace = some out ∧ out.dataOut = [[.sym "hi"]] ∧
        ¬ NoGarbage (wireFormat.parser Unit) (received [⟨truncated, false⟩] s) out := by
  have refused : accepts (wireFormat.parser Unit) truncated = false := by decide +kernel
  have shown : atoms (wireFormat.parser Unit) truncated = [.sym "hi"] := by decide +kernel
  refine ⟨_, rfl, rfl, refused, _, rfl, congrArg (fun sent => [sent]) shown, ?_⟩
  intro clean
  have sent := clean.dataOut
  change [atoms (wireFormat.parser Unit) truncated] = ([truncated].filter _).map _ at sent
  simp [refused] at sent

end Runs

end WebsocketClient

end MaxNet
