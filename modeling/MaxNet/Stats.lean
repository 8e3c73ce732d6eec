import MaxNet.Asio

namespace MaxNet

structure Stat where
  total : UInt64 := 0
  last : UInt64 := 0
  deriving DecidableEq

namespace Stat

def add (amount : UInt64) (s : Stat) : Stat := { s with total := s.total + amount }

def increment (s : Stat) : Stat := { s with total := s.total + 1 }

def reset (_ : Stat) : Stat := {}

def diffCallback (s : Stat) : Stat := { last := s.total, total := 0 }

end Stat

structure StatsCategory where
  data : Stat := {}
  msgs : Stat := {}
  deriving DecidableEq

namespace StatsCategory

def reset (c : StatsCategory) : StatsCategory := { data := c.data.reset, msgs := c.msgs.reset }

def diffCallback (c : StatsCategory) : StatsCategory :=
  { data := c.data.diffCallback, msgs := c.msgs.diffCallback }

def record (bytes : Nat) (c : StatsCategory) : StatsCategory :=
  { data := c.data.add (UInt64.ofNat bytes), msgs := c.msgs.increment }

end StatsCategory

structure SessionStats where
  inbound : StatsCategory := {}
  outbound : StatsCategory := {}
  isEnabled : Bool := false
  waits : List Wait := []
  deriving DecidableEq

namespace SessionStats

def setEnabled (enabled : Bool) (s : SessionStats) : SessionStats :=
  if enabled && !s.isEnabled then
    { inbound := s.inbound.reset
      outbound := s.outbound.reset
      isEnabled := true
      waits := s.waits.map Wait.cancel ++ [.armed] }
  else if s.isEnabled then
    { s with waits := s.waits.map Wait.cancel }
  else s

def doStatCheck (ec : ErrorCode) (s : SessionStats) : SessionStats :=
  if ec.failed then { s with isEnabled := false }
  else
    { inbound := s.inbound.diffCallback
      outbound := s.outbound.diffCallback
      isEnabled := s.isEnabled
      waits := s.waits.map Wait.cancel ++ [.armed] }

variable {s : SessionStats}

/-- Any call only cancels while the statistics are enabled. -/
theorem setEnabled_of_on (on : s.isEnabled = true) (enabled : Bool) :
    s.setEnabled enabled = { s with waits := s.waits.map Wait.cancel } := by
  simp [setEnabled, on]

theorem setEnabled_true_of_off (off : s.isEnabled = false) :
    s.setEnabled true =
      { inbound := s.inbound.reset
        outbound := s.outbound.reset
        isEnabled := true
        waits := s.waits.map Wait.cancel ++ [.armed] } := by
  simp [setEnabled, off]

theorem setEnabled_false_of_off (off : s.isEnabled = false) : s.setEnabled false = s := by
  simp [setEnabled, off]

theorem doStatCheck_failed {ec : ErrorCode} (failed : ec.failed = true) :
    s.doStatCheck ec = { s with isEnabled := false } :=
  if_pos failed

end SessionStats

end MaxNet
