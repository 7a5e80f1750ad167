import ClimateLink.Packet.Fault
import ClimateLink.Text.Duration

/-!
# What a client reports when something fails
-/

namespace ClimateLink

/-- Why an operation of a client failed. -/
inductive Failure where
  | decode (fault : Malformed)
  | encode (fault : Unencodable)
  /-- The stream failed, for the reason that it gives. -/
  | stream (reason : String)
  /-- The dial took too long. -/
  | connectTimeout
  /-- The console gave no version within the time, in milliseconds. -/
  | unverified (limit : Nat)
  | notConnected
  /-- The connection ended while the operation was under way. -/
  | connectionClosed
  /-- The client was shut down. -/
  | shutdown
  deriving DecidableEq, Repr

/-- The wording of a failure. -/
def Failure.message : Failure → String
  | .decode fault => s!"decode error: {fault.message}"
  | .encode fault => s!"encode error: {fault.message}"
  | .stream reason => s!"I/O error: {reason}"
  | .connectTimeout => "connection attempt timed out"
  | .unverified limit =>
    s!"verification failed: no console version reply within {Text.duration limit}"
  | .notConnected => "not connected"
  | .connectionClosed => "connection closed"
  | .shutdown => "client is shut down"

/-- How an operation ended. -/
abbrev Outcome := Except Failure Unit

instance : DecidableEq Outcome := fun a b =>
  match a, b with
  | .ok _, .ok _ => isTrue rfl
  | .error e, .error f =>
    if h : e = f then isTrue (h ▸ rfl) else isFalse fun same => h (by cases same; rfl)
  | .ok _, .error _ | .error _, .ok _ => isFalse nofun

end ClimateLink
