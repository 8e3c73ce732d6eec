import MaxNet.Lib.Transition
import MaxNet.Lib.SerialQueue
import MaxNet.Asio
import MaxNet.NetUrl.Basic

namespace MaxNet

structure ResolveOp (E H : Type) where
  host : List Char
  port : List Char
  qelem : NetUrl E × H
  deriving DecidableEq

instance {E H : Type} [DecidableEq E] [DecidableEq H] (op : ResolveOp E H) (ops : List (ResolveOp E H)) :
    Decidable (op ∈ ops) := inferInstance

/-- `multi_resolver`, generic in the handlers, and the calls it has made of them. -/
structure MultiResolver (E H : Type) where
  wsQueue : List (NetUrl E × H) := []
  resolving : List (ResolveOp E H) := []
  calls : List (H × ErrorCode × NetUrl E) := []

namespace MultiResolver

variable {E H : Type}

/-- Each operation returns the state it leaves behind and the exception it throws, if any. Here
    `port()` throws before the operation is started. -/
def beginResolve (qelem : NetUrl E × H) (r : MultiResolver E H) : MultiResolver E H × Option StdError :=
  match qelem.1.port with
  | .ok port => ({ r with resolving := r.resolving ++ [⟨qelem.1.host, port, qelem⟩] }, none)
  | .error x => (r, some x)

def beginFront (r : MultiResolver E H) : MultiResolver E H × Option StdError :=
  match r.wsQueue with
  | [] => (r, none)
  | front :: _ => r.beginResolve front

def resolve (url : NetUrl E) (handler : H) (r : MultiResolver E H) : MultiResolver E H × Option StdError :=
  let r := { r with wsQueue := r.wsQueue ++ [(url, handler)] }
  if r.wsQueue.length < 2 then r.beginFront else (r, none)

def resolveHandler (ec : ErrorCode) (results : List E) (qelem : NetUrl E × H) (r : MultiResolver E H) :
    MultiResolver E H × Except StdError (H × ErrorCode × NetUrl E) :=
  let url := qelem.1.setResolverResults results
  let r := { r with wsQueue := r.wsQueue.tail }
  match r.beginFront with
  | (r, some x) => (r, .error x)
  | (r, none) => ({ r with calls := r.calls ++ [(qelem.2, ec, url)] }, .ok (qelem.2, ec, url))

inductive Event (E H : Type)
  | resolve (url : NetUrl E) (handler : H)
  | complete (op : ResolveOp E H) (ec : ErrorCode) (results : List E)

def step [DecidableEq E] [DecidableEq H] (r : MultiResolver E H) : Event E H → Option (MultiResolver E H)
  | .resolve url handler => some (r.resolve url handler).1
  | .complete op ec results =>
    if op ∈ r.resolving then
      some ({ r with resolving := r.resolving.erase op }.resolveHandler ec results op.qelem).1
    else none

def machine (E H : Type) [DecidableEq E] [DecidableEq H] :
    Transition.System (MultiResolver E H) (Event E H) := ⟨step⟩

end MultiResolver

end MaxNet
