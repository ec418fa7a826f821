/-!
The configuration of a relay: its settings, their defaults, and which of them a relay can start with.
Main statement: the configuration passes if and only if each setting that is checked is in range
(`validate_eq_ok_iff`); of several that are not, the first in the order of `invalid?` is reported.
-/

namespace Rendezvous

/-- What happens to work that does not fit into the worker pool. -/
inductive Overflow where
  /-- It waits for a free place. -/
  | block
  /-- It is refused. -/
  | drop
  deriving DecidableEq, Repr

/-- The name of the policy as it is shown in descriptions. -/
def Overflow.describe : Overflow → String
  | .block => "Block"
  | .drop => "Drop"

/-- Where the relay listens, and which subprotocols it speaks, the most preferred first. -/
structure ListenSettings where
  bindAddress : String := "0.0.0.0:8765"
  subprotocols : List String := ["v1.saltyrtc.org"]
  deriving DecidableEq, Repr

/-- The files that hold the permanent keys. The key of the first is used for clients that ask for
none. -/
structure KeySettings where
  permanent : List String := []
  deriving DecidableEq, Repr

/-- How many jobs run at once, how many more may wait, and what happens to further ones. -/
structure WorkerSettings where
  size : UInt64 := 8
  queueCapacity : UInt64 := 1024
  overflow : Overflow := .block
  deriving DecidableEq, Repr

/-- How many seconds a connection may take to authenticate, and how many bytes a message may have. -/
structure LimitSettings where
  handshakeTimeout : UInt64 := 10
  maxMessageSize : UInt64 := 65536
  deriving DecidableEq, Repr

/-- The configuration of a relay. -/
structure Configuration where
  server : ListenSettings := {}
  keys : KeySettings := {}
  workers : WorkerSettings := {}
  limits : LimitSettings := {}
  deriving DecidableEq, Repr

/-- A setting that is out of range. -/
inductive InvalidSetting where
  | workerCount
  | subprotocols
  | handshakeTimeout
  deriving DecidableEq, Repr

def InvalidSetting.message : InvalidSetting → String
  | .workerCount => "invalid workers.size: must be at least 1"
  | .subprotocols => "invalid server.subprotocols: must name at least one subprotocol"
  | .handshakeTimeout => "invalid limits.handshake_timeout_secs: must be at least 1"

namespace Configuration

/-- The first setting that is out of range. -/
def invalid? (c : Configuration) : Option InvalidSetting :=
  if c.workers.size = 0 then some .workerCount
  else if c.server.subprotocols = [] then some .subprotocols
  else if c.limits.handshakeTimeout = 0 then some .handshakeTimeout
  else none

/-- Checks the settings that have a range. -/
def validate (c : Configuration) : Except InvalidSetting Unit :=
  match c.invalid? with
  | some e => .error e
  | none => .ok ()

theorem validate_eq_ok_iff {c : Configuration} :
    c.validate = .ok () ↔
      c.workers.size ≠ 0 ∧ c.server.subprotocols ≠ [] ∧ c.limits.handshakeTimeout ≠ 0 := by
  unfold validate invalid?
  by_cases hw : c.workers.size = 0 <;> by_cases hs : c.server.subprotocols = [] <;>
    by_cases hl : c.limits.handshakeTimeout = 0 <;> simp [hw, hs, hl]

/-- The defaults are in range. -/
theorem validate_default : validate {} = .ok () := by
  simp [validate_eq_ok_iff]

end Configuration

end Rendezvous
