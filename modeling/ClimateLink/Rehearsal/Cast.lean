import ClimateLink.Client.Step
import ClimateLink.Rehearsal.Console
import ClimateLink.Rehearsal.Turns

/-!
# The cast of a play

A play is a client, the consoles that its dials meet, and the application. Each has parts that act
on their own: a client has a writer, a console reads on one side and writes on the other, and the
application may be in several calls at a time. All of them act in turns (`Turns`).

One who rests has a turn to come anyhow, and a change of a stream does not bring it forward.
-/

namespace ClimateLink.Rehearsal

/-! ## Who takes part -/

/-- What a dial meets. -/
inductive Meeting where
  | refuses (reason : String)
  /-- Nothing happens. -/
  | hangs
  | accepts (console : Console)
  deriving DecidableEq, Repr

/-- What a dial meets, and after how many milliseconds. -/
structure Attempt where
  delay : Nat
  meeting : Meeting
  deriving DecidableEq, Repr

/-- Whoever has turns. -/
inductive Actor where
  /-- The application in the call that starts the client. -/
  | starter
  /-- The client, but for its writer. -/
  | client
  | writer
  /-- A console in reading. -/
  | reader (console : Nat)
  /-- A console in writing. -/
  | hand (console : Nat) (hand : Hand)
  /-- The application in the call with this number. -/
  | call (number : Nat)
  deriving DecidableEq, Repr

/-- How far a call has come. -/
inductive Progress where
  /-- It is still to be made. -/
  | due (request : Request)
  /-- It waits for its outcome. -/
  | pending (ticket : Nat)
  | returned
  deriving DecidableEq

/-- A call of the application, made in some step. -/
structure Call where
  step : Nat
  progress : Progress
  deriving DecidableEq

/-- What a call of the application came to. -/
inductive Result where
  | ok
  | failed (failure : Failure)
  /-- There was no client to call. -/
  | noClient
  /-- The argument could not be read. -/
  | unreadable
  deriving DecidableEq, Repr

/-- The result of an outcome. -/
def Result.ofOutcome : Outcome → Result
  | .ok _ => .ok
  | .error failure => .failed failure

/-- A play under way. -/
structure Play where
  client : Client
  /-- What the next dials meet; when it is used up, dials are refused. -/
  attempts : List Attempt
  /-- What the dial under way meets, and when. -/
  pending : Option (Nat × Meeting)
  /-- The consoles, in the order of their connections. -/
  consoles : List Console
  turns : Turns Actor
  /-- The calls, by number. -/
  calls : List Call
  /-- Whether the application lets go of the client once its calls have returned. -/
  releasing : Bool
  /-- What has come of calls since the last observation, with their steps. -/
  done : List (Nat × Result)
  /-- The number of journal entries at the last observation. -/
  seen : Nat
  /-- Whether the application had the client at the last observation. -/
  had : Bool

namespace Play

/-- A play that has not begun. -/
def new (policy : Policy) (attempts : List Attempt) : Play :=
  ⟨.start policy, attempts, none, [], .start [.starter, .client], [], false, [], 0, false⟩

/-- The time. -/
def clock (p : Play) : Nat := p.client.clock

/-! ## Getting in line -/

/-- Gets everyone in line who is not in line. -/
def joinAll (p : Play) (actors : List Actor) : Play :=
  { p with turns := actors.foldl .join p.turns }

/-- Gets everyone in line who neither rests nor is in line. -/
def stirAll (p : Play) (actors : List Actor) : Play :=
  p.joinAll (actors.filter fun a => !p.turns.resting.contains a)

/-- Whoever is meant by someone stirred on a connection, if it waits there. -/
def onStream (p : Play) (connection : Nat) : Console.Stirred → List Actor
  | .clientReading => if p.client.reading = some connection then [.client] else []
  | .clientWriting =>
    if p.client.outbox.any fun box => box.connection = connection ∧ box.inHand.isSome then
      [.writer]
    else []
  | .reader => [.reader connection]
  | .hand h => [.hand connection h]

/-- Stirs those who wait on a connection. -/
def stirStream (p : Play) (connection : Nat) (stirred : List Console.Stirred) : Play :=
  p.stirAll (stirred.flatMap (p.onStream connection))

/-- Whoever handed in a frame. -/
def sender (p : Play) : Sender → List Actor
  | .client => [.client]
  | .call ticket =>
    ((p.calls.findIdx? fun call => call.progress = .pending ticket).map .call).toList

/-- Whoever handed in the frames. -/
def senders (p : Play) (jobs : List Job) : List Actor := jobs.flatMap fun job => p.sender job.sender

/-! ## Consoles -/

/-- Changes a console. -/
def onConsole (p : Play) (k : Nat) (change : Console → Console) : Play :=
  { p with consoles := p.consoles.modify k change }

/-- Everything after a deed of a console. -/
def perform (p : Play) (k : Nat) (deed : Console.Deed) : Play :=
  (p.onConsole k fun _ => deed.after).stirStream k deed.stirs

/-- Everything after the client has done something to the stream of a connection. -/
def touch (p : Play) (k : Nat) (change : Console → Console)
    (stirs : Console → List Console.Stirred) : Play :=
  (p.onConsole k change).stirStream k ((p.consoles[k]?.map stirs).getD [])

end Play

end ClimateLink.Rehearsal
