import Mathlib.Data.List.Basic

namespace MaxNet

inductive StdError
  | invalidArgument
  | outOfRange
  deriving DecidableEq, Repr

/-- `net_url`, generic in the endpoint type of the protocol. A `std::string` is the list of its
    characters. -/
structure NetUrl (E : Type) where
  hostname : List Char := []
  portText : List Char := []
  pathText : List Char := []
  endpointSeq : List E := []
  deriving DecidableEq

def stdPort : List Char := ['8', '0']

def isNumber (s : List Char) : Bool := !s.isEmpty && s.all Char.isDigit

def digitsValue (s : List Char) : Nat := s.foldl (fun n c => 10 * n + (c.toNat - '0'.toNat)) 0

def stoi (s : List Char) : Except StdError Nat :=
  if !isNumber s then .error .invalidArgument
  else if digitsValue s ≤ 2147483647 then .ok (digitsValue s) else .error .outOfRange

namespace NetUrl

variable {E : Type}

def host (url : NetUrl E) : List Char := url.hostname

def path (url : NetUrl E) : List Char := url.pathText

def endpoints (url : NetUrl E) : List E := url.endpointSeq

def hasPort (url : NetUrl E) : Except StdError Bool :=
  if isNumber url.portText then
    (stoi url.portText).map fun n => !url.portText.isEmpty && decide (n ≤ 65535)
  else .ok false

def port (url : NetUrl E) : Except StdError (List Char) :=
  url.hasPort.map fun has => if has then url.portText else stdPort

def valid (url : NetUrl E) : Bool :=
  !url.hostname.isEmpty && (url.portText.isEmpty || isNumber url.portText)

def isResolved (url : NetUrl E) : Bool := !url.endpointSeq.isEmpty

def setResolverResults (results : List E) (url : NetUrl E) : NetUrl E :=
  { url with endpointSeq := results }

def SameTarget (url other : NetUrl E) : Prop :=
  url.host = other.host ∧ url.port = other.port ∧ url.path = other.path

theorem sameTarget_refl (url : NetUrl E) : url.SameTarget url := ⟨rfl, rfl, rfl⟩

theorem setResolverResults_sameTarget (results : List E) (url : NetUrl E) :
    (url.setResolverResults results).SameTarget url := ⟨rfl, rfl, rfl⟩

def PortFits (url : NetUrl E) : Prop :=
  isNumber url.portText = true → digitsValue url.portText ≤ 2147483647

instance (url : NetUrl E) : Decidable url.PortFits := by unfold PortFits; infer_instance

@[simp] theorem setResolverResults_host (results : List E) (url : NetUrl E) :
    (url.setResolverResults results).host = url.host := rfl

@[simp] theorem setResolverResults_port (results : List E) (url : NetUrl E) :
    (url.setResolverResults results).port = url.port := rfl

@[simp] theorem setResolverResults_path (results : List E) (url : NetUrl E) :
    (url.setResolverResults results).path = url.path := rfl

@[simp] theorem setResolverResults_endpoints (results : List E) (url : NetUrl E) :
    (url.setResolverResults results).endpoints = results := rfl

@[simp] theorem setResolverResults_valid (results : List E) (url : NetUrl E) :
    (url.setResolverResults results).valid = url.valid := rfl

@[simp] theorem setResolverResults_isResolved (results : List E) (url : NetUrl E) :
    (url.setResolverResults results).isResolved = !results.isEmpty := rfl

theorem port_isOk_iff (url : NetUrl E) : url.port.isOk = true ↔ url.PortFits := by
  unfold port hasPort PortFits stoi
  by_cases number : isNumber url.portText = true
  · by_cases fits : digitsValue url.portText ≤ 2147483647
    · simp [number, fits, Except.map, Except.isOk, Except.toBool]
    · simp [number, fits, Except.map, Except.isOk, Except.toBool]
  · simp [number, Except.map, Except.isOk, Except.toBool]

theorem port_of_fits (url : NetUrl E) (fits : url.PortFits) : ∃ text, url.port = .ok text := by
  have ok := url.port_isOk_iff.mpr fits
  cases hp : url.port with
  | ok text => exact ⟨text, rfl⟩
  | error x => rw [hp] at ok; cases ok

end NetUrl

end MaxNet
