import Mathlib.Data.List.Basic

namespace MaxNet

inductive ErrorCategory
  | system
  | websocket
  | other (id : Nat)
  deriving DecidableEq, Repr

structure ErrorCode where
  value : Int
  category : ErrorCategory
  deriving DecidableEq, Repr

namespace ErrorCode

def success : ErrorCode := ⟨0, .system⟩

def closed : ErrorCode := ⟨1, .websocket⟩

def failed (ec : ErrorCode) : Bool := ec.value != 0

@[simp] theorem success_not_failed : success.failed = false := rfl

@[simp] theorem closed_failed : closed.failed = true := rfl

end ErrorCode

/-- A wait on an Asio timer whose handler has not run yet. Cancelling reaches only a wait that has not
    expired. -/
inductive Wait
  | armed
  | expired
  | cancelled
  deriving DecidableEq, Repr

namespace Wait

def cancel : Wait → Wait
  | armed => cancelled
  | w => w

def result : Wait → Option ErrorCode
  | armed => none
  | expired => some .success
  | cancelled => some ⟨125, .system⟩

end Wait

end MaxNet
