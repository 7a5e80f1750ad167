import ClimateLink.Client.Failure
import ClimateLink.Wire.Bytes

/-!
# The outbox of a connection

The frames of a connection go through an outbox, so that calls made at the same time never mix
their bytes. A frame first needs a place in a queue of limited size. The writer takes frames from
the queue one at a time, gives the place free, and writes the frame in as many pieces as the
stream takes. Once the stream has passed all of it on, whoever handed in the frame learns that it
is sent.

A call that finds no place waits in line, and so does a call that comes while others wait. Which of
those in line has the next place that is free is not settled here: an outbox can give it to any of
them (`advance`), so that a call may come before another one that was made earlier.

When a write fails, the writer is finished: the frame in hand has the stream's failure, and every
frame behind it has its connection closed.
-/

namespace ClimateLink

/-- Who handed in a frame. -/
inductive Sender where
  /-- The client itself, which asks for the version of the console. -/
  | client
  /-- The call with the given ticket. -/
  | call (ticket : Nat)
  deriving DecidableEq, Repr

/-- A frame on its way, and who handed it in. -/
structure Job where
  sender : Sender
  frame : Bytes
  deriving DecidableEq, Repr

/-- The outbox of one connection. -/
structure Outbox where
  connection : Nat
  /-- The number of places in the queue. -/
  places : Nat
  /-- The frame that is being written, and what is still to be written of it. -/
  inHand : Option (Job × Bytes)
  /-- The frames that have a place. -/
  queue : List Job
  /-- The frames that wait for a place. -/
  waiting : List Job
  /-- Why the writer is finished. -/
  failure : Option String
  deriving DecidableEq, Repr

namespace Outbox

/-- The outbox of a new connection. -/
def new (connection places : Nat) : Outbox := ⟨connection, places, none, [], [], none⟩

/-- Hands in a frame. A writer that is finished takes none. -/
def submit (box : Outbox) (job : Job) : Option Outbox :=
  if box.failure.isSome then none
  else if box.waiting.isEmpty ∧ box.queue.length < box.places then
    some { box with queue := box.queue ++ [job] }
  else some { box with waiting := box.waiting ++ [job] }

/-- Gives a place that is free to the frame at `i` in line. -/
def advance (box : Outbox) (i : Nat) : Option Outbox :=
  if box.queue.length < box.places then
    box.waiting[i]?.map fun job =>
      { box with queue := box.queue ++ [job], waiting := box.waiting.eraseIdx i }
  else none

/-- The first frames in line, as many as there are places. -/
def favoured (box : Outbox) : List Job := box.waiting.take (box.places - box.queue.length)

/-- Takes the next frame in hand. -/
def take (box : Outbox) : Option Outbox :=
  match box.failure, box.inHand, box.queue with
  | none, none, job :: rest => some { box with inHand := some (job, job.frame), queue := rest }
  | _, _, _ => none

/-- Writes the next `n` bytes of the frame in hand: the outbox after it, and the bytes. -/
def write (box : Outbox) (n : Nat) : Option (Outbox × Bytes) :=
  match box.inHand with
  | some (job, rest) =>
    if 0 < n ∧ n ≤ rest.length then
      some ({ box with inHand := some (job, rest.drop n) }, rest.take n)
    else none
  | none => none

/-- Is done with a frame that is written and passed on: the outbox after it, and who handed in
the frame. -/
def flush (box : Outbox) : Option (Outbox × Sender) :=
  match box.inHand with
  | some (job, []) => some ({ box with inHand := none }, job.sender)
  | _ => none

/-- The frames behind the one in hand: those in line, then those with a place. -/
def behind (box : Outbox) : List Job := box.waiting ++ box.queue

/-- Everyone whose frame is behind the one in hand has the connection closed. -/
def closeBehind (box : Outbox) : List (Sender × Outcome) :=
  box.behind.map fun job => (job.sender, .error .connectionClosed)

/-- A write fails: the outbox after it, and what becomes of every frame in it. -/
def fail (box : Outbox) (reason : String) : Option (Outbox × List (Sender × Outcome)) :=
  match box.inHand with
  | some (job, _) => some
      ({ box with inHand := none, queue := [], waiting := [], failure := some reason },
        (job.sender, .error (.stream reason)) :: box.closeBehind)
  | none => none

/-- What becomes of every frame when the writer is stopped. -/
def abandon (box : Outbox) : List (Sender × Outcome) :=
  (box.inHand.map fun hand => (hand.1.sender, .error .connectionClosed)).toList ++ box.closeBehind

end Outbox

end ClimateLink
