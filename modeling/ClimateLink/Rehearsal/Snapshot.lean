import ClimateLink.Rehearsal.Play

/-!
# Rehearsals

A rehearsal is a play in which the application and the consoles are told what to do, step by step,
and an observer looks after each step. To look, it lets everything happen that can happen, and a
millisecond pass.
-/

namespace ClimateLink.Rehearsal

namespace Play

/-! ## Steps -/

/-- What the application and the consoles are told to do. -/
inductive Step where
  | wait (ms : Nat)
  /-- A console writes; the latest one if none is named. -/
  | write (console : Option Nat) (bytes : Bytes)
  | close (console : Option Nat)
  /-- A console starts to read. -/
  | read (console : Option Nat)
  /-- These payloads are sent at once; one that cannot be read is nothing. -/
  | send (payloads : List (Option Payload))
  | sendPacket (packet : Option Packet)
  /-- A packet is built from the payload and then sent. -/
  | request (payload : Option Payload)
  | disconnect
  | drop

/-- Whether the application can call the client. -/
def callable (p : Play) : Bool := p.client.held && !p.releasing

/-- A call that is over at once. -/
def refuse (p : Play) (step : Nat) (result : Result) : Play :=
  { p with done := p.done ++ [(step, result)] }

/-- The application is about to make a call. -/
def call (p : Play) (step : Nat) (request : Request) : Play :=
  let number := p.calls.length
  let p := { p with calls := p.calls ++ [Call.mk step (.due request)] }
  p.joinAll [.call number]

/-- Makes a call if there is a client and the argument could be read. -/
def callWith {α : Type} (p : Play) (step : Nat) (argument : Option α)
    (make : α → Play → Play) : Play :=
  if !p.callable then p.refuse step .noClient
  else match argument with
    | some a => make a p
    | none => p.refuse step .unreadable

/-- Changes the console that is meant, if there is one and it has not closed, and gets someone in
line. -/
def onNamed (p : Play) (console : Option Nat) (change : Console → Console)
    (stirs : Console → List Console.Stirred) : Play :=
  let number := console.getD (p.consoles.length - 1)
  match p.consoles[number]? with
  | some k =>
    if k.closed then p else (p.onConsole number change).stirStream number (stirs (change k))
  | none => p

/-- Does a step, whose number is given. -/
def doStep (p : Play) (number : Nat) : Step → Play
  | .wait ms => p.pass ms
  | .write console bytes =>
    p.onNamed console (·.draft (.step number) bytes) fun _ => [.hand (.step number)]
  | .close console =>
    p.onNamed console (·.close) fun k =>
      if k.reader = .reading then [.reader] else [.hand .script]
  | .read console => p.onNamed console (·.startReading) (·.ears)
  | .send payloads => payloads.foldl
      (fun p payload => p.callWith number payload fun a p => p.call number (.send a)) p
  | .sendPacket packet => p.callWith number packet fun a p => p.call number (.sendPacket a)
  | .request payload => p.callWith number payload fun a p =>
      let (packet, _) := p.client.build a
      (p.act (.request (.build a))).call number (.sendPacket packet)
  | .disconnect => p.callWith number (some ()) fun _ p => p.call number .disconnect
  | .drop => if p.callable then letGo { p with releasing := true } else p

/-! ## Observations -/

/-- What an observer sees of a client that the application holds. -/
structure View where
  phase : Phase
  connected : Bool
  /-- Whether a state was shown since the last observation. -/
  changed : Bool
  deriving DecidableEq, Repr

/-- What an observer sees. -/
structure Snapshot where
  /-- What the call that started the client returned. -/
  answer : Option Outcome
  view : Option View
  /-- The events since the last observation. -/
  events : List Event
  /-- Whether the stream of events is at its end, if there ever was a client. -/
  ended : Option Bool
  dials : Nat
  /-- What each console has read since the last observation, and whether it saw the end. -/
  consoles : List (Bytes × Bool)
  done : List (Nat × Result)

/-- What there is to see. -/
def snapshot (p : Play) : Snapshot :=
  let c := p.client
  let news : Journal := c.journal.take (c.journal.length - p.seen)
  let changed := p.had && news.any fun
    | (_, .entered _) => true
    | _ => false
  let started := c.answer = some (.ok ())
  { answer := c.answer
    view := if p.callable then some ⟨c.phase, c.isConnected, changed⟩ else none
    events := news.posted
    ended := if started then some (c.nextEvent c.journal.posted.length = .ended) else none
    dials := c.journal.dials
    consoles := p.consoles.map fun k => (k.fresh, k.sawEnd)
    done := p.done }

/-- Lets everything happen, lets a millisecond pass, and looks. -/
def observe (p : Play) : Snapshot × Play :=
  let p := p.pass 1
  (p.snapshot,
    { p with consoles := p.consoles.map fun k => { k with fresh := [] }
             done := []
             seen := p.client.journal.length
             had := p.client.answer = some (.ok ()) })

/-- The observations from some step on. -/
def observations : (number : Nat) → List Step → Play → List Snapshot
  | _, [], _ => []
  | number, step :: steps, p =>
    let (snapshot, p) := (p.doStep number step).observe
    snapshot :: observations (number + 1) steps p

end Play

/-- Plays a client with the given settings against what its dials meet: one observation at the
start, and one after each step. -/
def rehearse (policy : Policy) (attempts : List Attempt) (steps : List Play.Step) :
    List Play.Snapshot :=
  let (first, p) := (Play.new policy attempts).observe
  first :: Play.observations 1 steps p

end ClimateLink.Rehearsal
