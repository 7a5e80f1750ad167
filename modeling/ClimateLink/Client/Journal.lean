import ClimateLink.Client.Failure
import ClimateLink.Packet.Basic
import ClimateLink.Wire.Bytes

/-!
# The journal of a client

A client keeps a journal of everything that happens: what it shows and posts, what it does with
its connections, and how calls end. The newest entry comes first, and each has the time at which
it was made. What an observer sees is read off the journal.

- `collect_cons`: an entry adds its own content behind what a view has seen before.
-/

namespace ClimateLink

/-! ## What is shown and posted -/

/-- The state that a client shows. -/
inductive Phase where
  | idle
  | connecting
  | verifying
  | connected
  /-- The connection is lost and the next dial is due later. -/
  | disconnected
  | shutdown
  deriving DecidableEq, Repr

/-- What a client posts. -/
inductive Event where
  /-- A session is verified. -/
  | connected
  /-- A verified session is lost. -/
  | disconnected
  /-- The console sent a packet. -/
  | packet (p : Packet)
  deriving DecidableEq

/-! ## Entries -/

/-- Something that happened. -/
inductive Occurrence where
  /-- The client shows another state, or the same one again. -/
  | entered (phase : Phase)
  | dialled
  /-- A connection is open. -/
  | opened (connection : Nat)
  /-- The client has closed a connection in both directions. -/
  | closed (connection : Nat)
  /-- The client numbered a packet. -/
  | built (packet : Packet)
  /-- Bytes left on a connection. -/
  | wrote (connection : Nat) (bytes : Bytes)
  /-- Bytes came in on a connection. -/
  | heard (connection : Nat) (bytes : Bytes)
  | posted (event : Event)
  /-- The call that started the client returned. -/
  | answered (outcome : Outcome)
  /-- A call gave a frame to a connection. -/
  | accepted (ticket connection : Nat) (frame : Bytes)
  /-- A call returned at once, without giving a frame to a connection. -/
  | refused (failure : Failure)
  /-- A call asked the client to stop. -/
  | left (ticket : Nat)
  /-- A call with a ticket returned. -/
  | returned (ticket : Nat) (outcome : Outcome)
  deriving DecidableEq

/-- What happened, newest first, each with its time. -/
abbrev Journal := List (Nat × Occurrence)

namespace Journal

/-- The occurrences, oldest first. -/
def history (j : Journal) : List Occurrence := (j.map Prod.snd).reverse

/-- What the occurrences hold that `view` sees, oldest first. -/
def collect {α : Type} (view : Occurrence → Option α) (j : Journal) : List α :=
  j.history.filterMap view

theorem collect_cons {α : Type} (view : Occurrence → Option α) (t : Nat) (o : Occurrence)
    (j : Journal) : collect view ((t, o) :: j) = collect view j ++ (view o).toList := by
  cases h : view o <;> simp [collect, history, h]

/-- The events posted. -/
def posted : Journal → List Event :=
  collect fun
    | .posted e => some e
    | _ => none

/-- The bytes that left on a connection. -/
def wire (connection : Nat) (j : Journal) : Bytes :=
  (collect (fun
    | .wrote k bytes => if k = connection then some bytes else none
    | _ => none) j).flatten

/-- The bytes that came in on a connection. -/
def heard (connection : Nat) (j : Journal) : Bytes :=
  (collect (fun
    | .heard k bytes => if k = connection then some bytes else none
    | _ => none) j).flatten

/-- The packets numbered. -/
def built : Journal → List Packet :=
  collect fun
    | .built p => some p
    | _ => none

/-- The frames given to a connection, with the tickets of their calls. -/
def accepted (connection : Nat) : Journal → List (Nat × Bytes) :=
  collect fun
    | .accepted ticket k frame => if k = connection then some (ticket, frame) else none
    | _ => none

/-- The calls that returned, and how. -/
def returned : Journal → List (Nat × Outcome) :=
  collect fun
    | .returned ticket outcome => some (ticket, outcome)
    | _ => none

/-- The number of dials started. -/
def dials (j : Journal) : Nat := j.countP fun entry => entry.2 == .dialled

end Journal

end ClimateLink
