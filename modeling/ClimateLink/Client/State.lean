import ClimateLink.Client.Journal
import ClimateLink.Client.Numbering
import ClimateLink.Client.Outbox
import ClimateLink.Client.Policy
import ClimateLink.Frame.Framer

/-!
# The state of a client

A client keeps one verified connection to a console alive. It dials, asks the console for its
version, and calls the session verified when the version arrives; from then on it posts every
packet and takes frames to send. When anything fails it closes the connection, waits and dials
again, until it is told to stop.

**Stages.** `Stage` says where the client is in this round. It stays in `closing` until the
writer of the connection is finished and the connection closed in both directions.

**What others see.** The phase, the connection that takes frames, the events and the outcomes of
calls are kept beside the stage, since observers read each of them on its own.

This module has the state and what is done to it in one go; `ClimateLink.Client.Step` says when.
-/

namespace ClimateLink

/-! ## Stages -/

/-- Why a session ends. -/
inductive Ending where
  /-- The client was told to stop. -/
  | shutdown
  /-- The session is lost; `verified` says whether it had been verified. -/
  | lost (verified : Bool) (failure : Failure)
  deriving DecidableEq, Repr

/-- Where a client is in its round. -/
inductive Stage where
  /-- Nothing has been done yet. -/
  | idle
  | dialing
  /-- The console is asked for its version; `told` is what became of the request, once known. -/
  | asking (connection : Nat) (told : Option Outcome)
  /-- The request is written, and the version is still to come. -/
  | verifying (connection : Nat) (framer : Framer)
  /-- The session is verified. -/
  | running (connection : Nat) (framer : Framer)
  /-- The session is over and its connection is still to be closed. -/
  | closing (connection : Nat) (ending : Ending)
  /-- The next dial is due later. -/
  | pausing
  | stopped
  deriving DecidableEq, Repr

/-! ## The state -/

/-- What the stream of events gives next. -/
inductive NextEvent where
  | event (e : Event)
  /-- The next event is still to be posted. -/
  | pending
  | ended
  deriving DecidableEq

/-- A client. -/
structure Client where
  policy : Policy
  /-- The time. -/
  clock : Nat
  stage : Stage
  /-- When the stage began; to ask for the version and to wait for it count as one. -/
  since : Nat
  /-- The state that is shown. -/
  phase : Phase
  /-- The connection that takes frames. -/
  live : Option Nat
  /-- The outbox whose writer is at work, or failed and not yet cleared away. -/
  outbox : Option Outbox
  numbering : Numbering
  /-- The number of connections so far. -/
  connections : Nat
  /-- The number of calls with a ticket so far. -/
  tickets : Nat
  /-- Calls that wait for the client to stop. -/
  leavers : List Nat
  /-- Calls whose outcome is known and that have not returned yet. -/
  decided : List (Nat × Outcome)
  /-- What the call that started the client returned. -/
  answer : Option Outcome
  /-- Whether the client has been told to stop. -/
  stopping : Bool
  /-- Whether the application has let go of the client. -/
  released : Bool
  journal : Journal
  deriving DecidableEq

namespace Client

/-- A client that has done nothing yet. Unless a failed first attempt is to be reported, the call
that starts it returns at once. -/
def start (policy : Policy) : Client where
  policy := policy
  clock := 0
  stage := .idle
  since := 0
  phase := .idle
  live := none
  outbox := none
  numbering := .start
  connections := 0
  tickets := 0
  leavers := []
  decided := []
  answer := if policy.failFast then none else some (.ok ())
  stopping := false
  released := false
  journal := []

/-- Whether the application holds the client and can call it. -/
def held (c : Client) : Bool := c.answer = some (.ok ()) && !c.released

/-- Whether a verified session takes frames. -/
def isConnected (c : Client) : Bool := c.live.isSome

/-- What the stream of events gives to whoever has taken the given number of events from it. It
ends behind the last event once the client has stopped. -/
def nextEvent (c : Client) (taken : Nat) : NextEvent :=
  match c.journal.posted[taken]? with
  | some event => .event event
  | none => if c.stage = .stopped then .ended else .pending

/-! ## Changes -/

/-- The client with one more entry in its journal. -/
def note (c : Client) (o : Occurrence) : Client := { c with journal := (c.clock, o) :: c.journal }

/-- Shows a state. -/
def enter (c : Client) (phase : Phase) : Client := { c with phase := phase }.note (.entered phase)

/-- Posts an event. -/
def post (c : Client) (event : Event) : Client := c.note (.posted event)

/-- Posts packets in order. -/
def postAll (c : Client) (packets : List Packet) : Client :=
  packets.foldl (fun c p => c.post (.packet p)) c

/-- Goes to a stage, which begins now. -/
def goTo (c : Client) (stage : Stage) : Client := { c with stage := stage, since := c.clock }

/-- Answers the call that started the client, unless it has returned. -/
def reply (c : Client) (outcome : Outcome) : Client :=
  if c.answer.isSome then c else { c with answer := some outcome }.note (.answered outcome)

/-- Tells everyone what became of their frames. -/
def deliver (c : Client) (outcomes : List (Sender × Outcome)) : Client :=
  outcomes.foldl (fun c o =>
    match o.1, c.stage with
    | .call ticket, _ => { c with decided := c.decided ++ [(ticket, o.2)] }
    | .client, .asking k _ => { c with stage := .asking k (some o.2) }
    | .client, _ => c) c

/-- Numbers a packet. -/
def build (c : Client) (payload : Payload) : Packet × Client :=
  let (packet, numbering) := c.numbering.stamp payload
  (packet, { c with numbering := numbering }.note (.built packet))

/-! ## The round -/

/-- Starts a dial. -/
def dial (c : Client) : Client := ((c.goTo .dialing).enter .connecting).note .dialled

/-- Stops for good. Whoever waits for that learns of it. -/
def stop (c : Client) : Client :=
  let c := ({ c with live := none }.goTo .stopped).enter .shutdown
  { c with decided := c.decided ++ c.leavers.map fun t => (t, .ok ()), leavers := [] }

/-- Goes on after a loss, with no connection open. A first attempt that is to be reported is the
end; otherwise the next dial is due after a while. -/
def lose (c : Client) (verified : Bool) (failure : Failure) : Client :=
  if c.answer.isSome then
    ((if verified then c.post .disconnected else c).goTo .pausing).enter .disconnected
  else c.stop.reply (.error failure)

/-- Leaves the session on a connection, which takes no more frames. -/
def leave (c : Client) (connection : Nat) (ending : Ending) : Client :=
  { c with live := none }.goTo (.closing connection ending)

/-- Whether the writer of a connection is at work. -/
def writing (c : Client) : Bool := c.outbox.any fun box => box.failure.isNone

/-- Stops the writer, which leaves what it has not written. -/
def halt (c : Client) : Client :=
  { c with outbox := none }.deliver ((c.outbox.map Outbox.abandon).getD [])

/-- Closes the connection, whose writer is finished, and goes on as the ending has it. -/
def close (c : Client) (connection : Nat) (ending : Ending) : Client :=
  let c := { c with outbox := none }.note (.closed connection)
  match ending with
  | .shutdown => c.stop
  | .lost verified failure => c.lose verified failure

/-- Begins a session on a new connection by asking for the version of the console. -/
def begin (c : Client) : Client :=
  let connection := c.connections
  let c := { c with connections := connection + 1 }.note (.opened connection)
  let c := (c.goTo (.asking connection none)).enter .verifying
  let (packet, c) := c.build .versionRequest
  let box := Outbox.new connection c.policy.places
  match Frame.encode packet with
  | .ok frame => { c with outbox := box.submit ⟨.client, frame⟩ }
  | .error fault => { c with outbox := some box }.leave connection (.lost false (.encode fault))

/-- Goes on with packets that came before the session is verified. Those up to the version are
passed over; with the version the session is verified, and those behind it are posted. -/
def verify (c : Client) (connection : Nat) (packets : List Packet) (framer : Framer) : Client :=
  match packets.dropWhile fun p => !p.payload.isVersion with
  | [] => { c with stage := .verifying connection framer }
  | _ :: rest =>
    let c := ({ c with live := some connection }.goTo (.running connection framer)).enter .connected
    ((c.post .connected).reply (.ok ())).postAll rest

/-- Takes a chunk that came in on the connection of the session. -/
def hear (c : Client) (connection : Nat) (chunk : Bytes) : Client :=
  let c := c.note (.heard connection chunk)
  match c.stage with
  | .verifying _ framer =>
    let (packets, framer) := framer.push chunk
    c.verify connection packets framer
  | .running _ framer =>
    let (packets, framer) := framer.push chunk
    { c with stage := .running connection framer }.postAll packets
  | _ => c

/-- Gives a packet to the session. The call is refused if the client is told to stop, if the
packet has no frame or if no session is verified, in this order. -/
def submit (c : Client) (packet : Packet) : Client :=
  if c.stopping then c.note (.refused .shutdown)
  else match Frame.encode packet with
    | .error fault => c.note (.refused (.encode fault))
    | .ok frame => match c.live, c.outbox with
      | some connection, some box => match box.submit ⟨.call c.tickets, frame⟩ with
        | some box => { c with outbox := some box, tickets := c.tickets + 1 }.note
            (.accepted c.tickets connection frame)
        | none => c.note (.refused .connectionClosed)
      | _, _ => c.note (.refused .notConnected)

end Client

end ClimateLink
