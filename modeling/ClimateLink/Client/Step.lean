import ClimateLink.Client.State

/-!
# What a client does next

A run of a client is a sequence of actions of four kinds. `Move`s are the client's own, and one
that can be made is made without time passing. `Signal`s come from dials and streams, which may
behave in any way. `Request`s come from the application. Between all of these the clock may move,
but only while the client has no move to make, and never past a deadline.

`step?` gives the state after an action, and nothing where the action cannot happen. Calls made at
the same time, and a call made while a session ends, are actions in one order or the other, so
what holds of all runs holds of all interleavings. The order in which calls that wait get places in
the queue is a matter of the actions, too; of a run in which they get them as they came, `FirstCome`
is said.
-/

namespace ClimateLink

/-! ## Actions -/

/-- What a client does of its own accord. -/
inductive Move where
  /-- Dials for the first time. -/
  | start
  /-- Heeds that it was told to stop. -/
  | heed
  /-- Acts on a deadline that is due. -/
  | expire
  /-- Learns what became of the request for the version. -/
  | learn
  /-- Gives up a session whose writer has failed. -/
  | desert
  /-- Stops the writer of a session that is over. -/
  | halt
  /-- Closes the connection of a session that is over and whose writer is finished. -/
  | close
  /-- Takes the next frame in hand. -/
  | take
  /-- Gives a place in the queue to the call at `i` in line. -/
  | advance (i : Nat)
  /-- Lets a call return whose outcome is known. -/
  | collect (ticket : Nat)
  deriving DecidableEq, Repr

/-- What dials and streams do. -/
inductive Signal where
  /-- The dial failed. -/
  | refused (reason : String)
  /-- The dial gave a connection. -/
  | connected
  /-- A read gave some bytes. -/
  | received (chunk : Bytes)
  /-- A read found the end of the stream. -/
  | ended
  | readFailed (reason : String)
  /-- The stream took the next bytes of the frame in hand. -/
  | wrote (n : Nat)
  /-- The stream has passed on all that it took. -/
  | flushed
  /-- The stream took no more, or could not pass on what it took. -/
  | writeFailed (reason : String)
  deriving DecidableEq, Repr

/-- What the application does. -/
inductive Request where
  /-- Numbers a payload and sends it. -/
  | send (payload : Payload)
  /-- Sends a packet that was built elsewhere. -/
  | sendPacket (packet : Packet)
  /-- Numbers a payload. -/
  | build (payload : Payload)
  /-- Tells the client to stop and waits for it. -/
  | disconnect
  /-- Lets go of the client. -/
  | release
  deriving DecidableEq

/-- What can happen to a client. -/
inductive Action where
  | move (m : Move)
  | signal (s : Signal)
  | request (r : Request)
  /-- Some milliseconds pass. -/
  | elapse (ms : Nat)
  deriving DecidableEq

/-- Whether an action leaves alone who waits in line, or gives a place to the first of them. -/
def Action.firstCome : Action → Bool
  | .move (.advance i) => i = 0
  | _ => true

/-- The queue serves those who wait for a place in the order in which they came, as is documented
of bounded queues. -/
def FirstCome (actions : List Action) : Prop := ∀ a ∈ actions, a.firstCome

namespace Client

/-! ## Moves -/

/-- When the stage has to end. -/
def deadline (c : Client) : Option Nat :=
  match c.stage with
  | .dialing => some (c.since + c.policy.connectTimeout)
  | .asking _ _ | .verifying _ _ => some (c.since + c.policy.verifyTimeout)
  | .pausing => some (c.since + c.policy.reconnectDelay)
  | _ => none

/-- Whether the deadline has come. -/
def due (c : Client) : Bool := c.deadline.any (· ≤ c.clock)

/-- The state after heeding that the client was told to stop. -/
def heed (c : Client) : Option Client :=
  match c.stage with
  | .dialing | .pausing => some c.stop
  | .asking connection _ | .verifying connection _ | .running connection _ =>
    some (c.leave connection .shutdown)
  | _ => none

/-- The state after acting on the deadline. What became of the request for the version is learned
first, if it is known. -/
def expire (c : Client) : Option Client :=
  match c.stage with
  | .dialing => some (c.lose false .connectTimeout)
  | .asking connection none | .verifying connection _ =>
    some (c.leave connection (.lost false (.unverified c.policy.verifyTimeout)))
  | .pausing => some c.dial
  | _ => none

/-- The state after learning what became of the request for the version. A session whose request
could not be written is given up. -/
def learn (c : Client) : Option Client :=
  match c.stage with
  | .asking connection (some (.ok _)) => some { c with stage := .verifying connection .empty }
  | .asking connection (some (.error failure)) =>
    some (c.leave connection (.lost false failure))
  | _ => none

/-- The state after a call has returned. -/
def collect (c : Client) (ticket : Nat) : Option Client :=
  (c.decided.find? fun d => d.1 == ticket).map fun d =>
    { c with decided := c.decided.eraseP fun d => d.1 == ticket }.note (.returned ticket d.2)

/-- The state after a move. -/
def move? (c : Client) : Move → Option Client
  | .start => if c.stage = .idle then some c.dial else none
  | .heed => if c.stopping then c.heed else none
  | .expire => if c.due then c.expire else none
  | .learn => c.learn
  | .desert => match c.stage, c.outbox.bind Outbox.failure with
    | .running connection _, some reason =>
      some (c.leave connection (.lost true (.stream reason)))
    | _, _ => none
  | .halt => match c.stage with
    | .closing _ _ => if c.writing then some c.halt else none
    | _ => none
  | .close => match c.stage with
    | .closing connection ending => if c.writing then none else some (c.close connection ending)
    | _ => none
  | .take => (c.outbox.bind Outbox.take).map fun box => { c with outbox := some box }
  | .advance i => (c.outbox.bind (·.advance i)).map fun box => { c with outbox := some box }
  | .collect ticket => c.collect ticket

/-- Every move that a client in this state could make. -/
def moves (c : Client) : List Move :=
  [.start, .heed, .expire, .learn, .desert, .halt, .close, .take] ++
    (List.range ((c.outbox.map (·.waiting.length)).getD 0)).map .advance ++
    c.decided.map fun d => .collect d.1

/-- Whether the client has no move to make. -/
def atRest (c : Client) : Bool := c.moves.all fun m => (c.move? m).isNone

/-! ## Signals -/

/-- The connection that the client reads: that of a session whose request has been written. -/
def reading (c : Client) : Option Nat :=
  match c.stage with
  | .verifying connection _ | .running connection _ => some connection
  | _ => none

/-- Whether the session is verified. -/
def verified (c : Client) : Bool :=
  match c.stage with
  | .running _ _ => true
  | _ => false

/-- Whether the session is over and its connection still to be closed. -/
def closing (c : Client) : Bool :=
  match c.stage with
  | .closing _ _ => true
  | _ => false

/-- The state after a signal. -/
def signal? (c : Client) : Signal → Option Client
  | .refused reason => if c.stage = .dialing then some (c.lose false (.stream reason)) else none
  | .connected => if c.stage = .dialing then some c.begin else none
  | .received chunk =>
    if 0 < chunk.length ∧ chunk.length ≤ c.policy.chunk then
      c.reading.map fun connection => c.hear connection chunk
    else none
  | .ended => c.reading.map fun connection =>
      c.leave connection (.lost c.verified .connectionClosed)
  | .readFailed reason => c.reading.map fun connection =>
      c.leave connection (.lost c.verified (.stream reason))
  | .wrote n => do
    let box ← c.outbox
    let (box, bytes) ← box.write n
    return { c with outbox := some box }.note (.wrote box.connection bytes)
  | .flushed => do
    let box ← c.outbox
    let (box, sender) ← box.flush
    return { c with outbox := some box }.deliver [(sender, .ok ())]
  | .writeFailed reason => do
    let box ← c.outbox
    let (box, outcomes) ← box.fail reason
    return { c with outbox := some box }.deliver outcomes

/-! ## Requests -/

/-- The state after the application asks the client to stop. -/
def disconnect (c : Client) : Client :=
  let ticket := c.tickets
  let c := { c with stopping := true, tickets := ticket + 1 }.note (.left ticket)
  if c.stage = .stopped then { c with decided := c.decided ++ [(ticket, .ok ())] }
  else { c with leavers := c.leavers ++ [ticket] }

/-- The state after a request, which needs the application to hold the client. -/
def request? (c : Client) (r : Request) : Option Client :=
  if c.held then
    match r with
    | .send payload =>
      let (packet, c) := c.build payload
      some (c.submit packet)
    | .sendPacket packet => some (c.submit packet)
    | .build payload => some (c.build payload).2
    | .disconnect => some c.disconnect
    | .release => some { c with stopping := true, released := true }
  else none

/-! ## Runs -/

/-- The state after an action. -/
def step? (c : Client) : Action → Option Client
  | .move m => c.move? m
  | .signal s => c.signal? s
  | .request r => c.request? r
  | .elapse ms =>
    if 0 < ms ∧ c.atRest ∧ c.deadline.all (c.clock + ms ≤ ·) then
      some { c with clock := c.clock + ms }
    else none

/-- The state after several actions. -/
def run? (c : Client) (actions : List Action) : Option Client := actions.foldlM step? c

/-- The states that a client with the given settings can come to. -/
inductive Reachable (policy : Policy) : Client → Prop where
  | start : Reachable policy (Client.start policy)
  | step {c d : Client} {a : Action} :
    Reachable policy c → c.step? a = some d → Reachable policy d

end Client

end ClimateLink
