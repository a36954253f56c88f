import Dialogue.Clock.Nanos
import Dialogue.Json.Decoder

/-!
# Settings

The adjustable limits of an engine.  Missing fields keep their defaults.  Times are
given in whole seconds and used in nanoseconds.
-/

namespace Dialogue

/-- The adjustable limits of an engine. -/
structure Settings where
  idleTimeoutSecs : Nat := 1800
  sweepIntervalSecs : Nat := 60
  callbackCapacity : Nat := 1000
  endpointTimeoutSecs : Nat := 10
  version : String := "0.1.0"
deriving DecidableEq, Repr

namespace Settings

/-- How long an untouched session is kept. -/
def idleTimeout (s : Settings) : Nanos := .ofSeconds s.idleTimeoutSecs

/-- The time between two sweeps, at least one second. -/
def sweepInterval (s : Settings) : Nanos := .ofSeconds (max s.sweepIntervalSecs 1)

/-- How long an endpoint may take when a call does not say so. -/
def endpointTimeout (s : Settings) : Nanos := .ofSeconds s.endpointTimeoutSecs

/-- The written form of settings. -/
def toValue (s : Settings) : Value :=
  .record [("idleTimeoutSecs", .ofNat s.idleTimeoutSecs),
    ("sweepIntervalSecs", .ofNat s.sweepIntervalSecs),
    ("callbackCapacity", .ofNat s.callbackCapacity),
    ("endpointTimeoutSecs", .ofNat s.endpointTimeoutSecs), ("version", .string s.version)]

/-- Reads settings; every field may be missing. -/
def decoder : Decoder Settings := fun depth d => do
  let r ← Record.open? ["idleTimeoutSecs", "sweepIntervalSecs", "callbackCapacity",
    "endpointTimeoutSecs", "version"] depth d
  let idleTimeoutSecs ← r.getD "idleTimeoutSecs" 1800 .count
  let sweepIntervalSecs ← r.getD "sweepIntervalSecs" 60 .count
  let callbackCapacity ← r.getD "callbackCapacity" 1000 .count
  let endpointTimeoutSecs ← r.getD "endpointTimeoutSecs" 10 .count
  let version ← r.getD "version" "0.1.0" .text
  some { idleTimeoutSecs, sweepIntervalSecs, callbackCapacity, endpointTimeoutSecs, version }

end Settings
end Dialogue
