import MaxNet.Client.Connecting
import MaxNet.Session.Model

namespace MaxNet

structure Connect (E : Type) where
  call : Nat
  session : Nat
  url : NetUrl E
  deriving DecidableEq

/-- `client`. The sessions are numbered in the order of the `session_create()` calls that make them. The
    handler given to the resolver is the same in every call; here it carries the number of the call. -/
structure Client (E M : Type) where
  sessions : List (Session E M) := []
  session : Option Nat := none
  resolver : MultiResolver E Nat := {}
  requested : List (NetUrl E) := []
  connects : List (Connect E) := []
  aborted : Bool := false

def Session.installHandlers {E M : Type} (s : Session E M) : Session E M :=
  { s with onReady := true, onClose := true, onRead := true }

namespace Client

variable {E M : Type}

/-- A failed assertion, as a call through an empty `session_`, is the end of the program. -/
def doSessionConnect (call : Nat) (url : NetUrl E) (c : Client E M) : Client E M :=
  match c.session with
  | none => { c with aborted := true }
  | some i =>
    let c := { c with
      sessions := c.sessions.modify i Session.installHandlers, connects := c.connects ++ [Connect.mk call i url] }
    match c.sessions[i]?.bind (Session.connect url) with
    | some s => { c with sessions := c.sessions.set i s }
    | none => { c with aborted := true }

def sessionCreate [DecidableEq E] (url : NetUrl E) (inbox : List WsMessage) (c : Client E M) : Client E M :=
  let call := c.sessions.length
  let c := { c with
    sessions := c.sessions ++ [Session.initial .client inbox]
    session := some call
    requested := c.requested ++ [url] }
  if !url.isResolved then { c with resolver := (c.resolver.resolve url call).1 }
  else c.doSessionConnect call url

def sessionClose (c : Client E M) : Client E M :=
  match c.session with
  | none => c
  | some i => { c with sessions := c.sessions.modify i Session.close }

def send (inIoThread : Bool) (message : M) (c : Client E M) : Client E M :=
  match c.session with
  | none => { c with aborted := true }
  | some i => { c with sessions := c.sessions.modify i (Session.write inIoThread message) }

def resolved [DecidableEq E] (op : ResolveOp E Nat) (ec : ErrorCode) (results : List E)
    (c : Client E M) : Client E M :=
  match { c.resolver with resolving := c.resolver.resolving.erase op }.resolveHandler ec results op.qelem with
  | (resolver, .ok (call, _, url)) => { c with resolver }.doSessionConnect call url
  | (resolver, .error _) => { c with resolver }

inductive Event (E M : Type)
  | sessionCreate (url : NetUrl E) (inbox : List WsMessage)
  | sessionClose
  | send (inIoThread : Bool) (message : M)
  | resolved (op : ResolveOp E Nat) (ec : ErrorCode) (results : List E)
  | session (i : Nat) (e : Session.Event E M)

def step [DecidableEq E] [DecidableEq M] (c : Client E M) (e : Event E M) : Option (Client E M) :=
  if c.aborted then none
  else
    match e with
    | .sessionCreate url inbox => some (c.sessionCreate url inbox)
    | .sessionClose => some c.sessionClose
    | .send inIoThread message => some (c.send inIoThread message)
    | .resolved op ec results =>
      if op ∈ c.resolver.resolving then some (c.resolved op ec results) else none
    | .session _ (.connect _) => none
    | .session i e =>
      (c.sessions[i]?.bind (Session.step · e)).map fun s => { c with sessions := c.sessions.set i s }

def machine (E M : Type) [DecidableEq E] [DecidableEq M] :
    Transition.System (Client E M) (Event E M) := ⟨step⟩

end Client

structure WebsocketClient (E M : Type) where
  sessions : List (Session E M) := []
  connection : Option Nat := none
  resolver : MultiResolver E Unit := {}
  connects : List (Nat × NetUrl E) := []
  aborted : Bool := false

namespace WebsocketClient

variable {E M : Type}

def performConnect (url : NetUrl E) (inbox : List WsMessage) (c : WebsocketClient E M) : WebsocketClient E M :=
  let i := c.sessions.length
  let s := (Session.initial .client inbox : Session E M).installHandlers
  let c := { c with
    sessions := c.sessions ++ [s]
    connection := some i
    connects := c.connects ++ [(i, url)] }
  match s.connect url with
  | some s => { c with sessions := c.sessions.set i s }
  | none => { c with aborted := true }

def makeConnection (url : NetUrl E) (inbox : List WsMessage) (c : WebsocketClient E M) : WebsocketClient E M :=
  if !url.isResolved then { c with resolver := (c.resolver.resolve url ()).1 }
  else c.performConnect url inbox

def resolved [DecidableEq E] (op : ResolveOp E Unit) (ec : ErrorCode) (results : List E) (inbox : List WsMessage)
    (c : WebsocketClient E M) : WebsocketClient E M :=
  match { c.resolver with resolving := c.resolver.resolving.erase op }.resolveHandler ec results op.qelem with
  | (resolver, .ok (_, _, url)) => { c with resolver }.performConnect url inbox
  | (resolver, .error _) => { c with resolver }

inductive Event (E M : Type)
  | makeConnection (url : NetUrl E) (inbox : List WsMessage)
  | resolved (op : ResolveOp E Unit) (ec : ErrorCode) (results : List E) (inbox : List WsMessage)
  | session (i : Nat) (e : Session.Event E M)

def step [DecidableEq E] [DecidableEq M] (c : WebsocketClient E M) (e : Event E M) :
    Option (WebsocketClient E M) :=
  if c.aborted then none
  else
    match e with
    | .makeConnection url inbox => some (c.makeConnection url inbox)
    | .resolved op ec results inbox =>
      if op ∈ c.resolver.resolving then some (c.resolved op ec results inbox) else none
    | .session _ (.connect _) => none
    | .session i e =>
      (c.sessions[i]?.bind (Session.step · e)).map fun s => { c with sessions := c.sessions.set i s }

def machine (E M : Type) [DecidableEq E] [DecidableEq M] :
    Transition.System (WebsocketClient E M) (Event E M) := ⟨step⟩

end WebsocketClient

end MaxNet
