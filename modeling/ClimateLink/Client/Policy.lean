/-!
# Settings of a client

All times are in milliseconds.
-/

namespace ClimateLink

/-- How a client connects and how much it holds. -/
structure Policy where
  /-- The most time that a dial may take. -/
  connectTimeout : Nat := 5000
  /-- The most time that the console may take to give its version. -/
  verifyTimeout : Nat := 5000
  /-- The time between a loss and the next dial. -/
  reconnectDelay : Nat := 5000
  /-- The most bytes that one read takes. -/
  readSize : Nat := 1024
  /-- The number of frames that may queue for writing. -/
  queueCapacity : Nat := 64
  /-- Whether a first attempt that fails is the end. -/
  failFast : Bool := true
  deriving DecidableEq, Repr

namespace Policy

/-- The most bytes that one read takes, which is at least one. -/
def chunk (p : Policy) : Nat := max 1 p.readSize

/-- The number of places in the queue, of which there is at least one. -/
def places (p : Policy) : Nat := max 1 p.queueCapacity

end Policy

end ClimateLink
