import ClimateLink.Rehearsal.Cast

/-!
# Plays

What happens in a play, all on one clock. Time stands still while anyone has something to do, and
then jumps to the next moment at which someone has.

**Turns.** Whoever does something stirs those who may have been waiting for it, in an order that
belongs to the deed, and they get in line.

**Effort.** Reads, writes, frames taken in hand and deadlines take strength; all else is free. The
client that has no strength left still gives up a session that is lost, and a writer still notices
that its stream takes no more.
-/

namespace ClimateLink.Rehearsal

namespace Play

/-! ## What follows an action of the client -/

/-- Starts the dial that the client has just begun. -/
def dialNext (p : Play) : Play :=
  match p.attempts with
  | [] => { p with pending := some (p.clock, .refuses "connection refused") }
  | attempt :: rest =>
    { p with attempts := rest, pending := some (p.clock + attempt.delay, attempt.meeting) }

/-- A console takes part from now on. -/
def welcome (p : Play) (console : Console) : Play :=
  let k := p.consoles.length
  let p := { p with consoles := p.consoles ++ [console] }
  (p.stirStream k (console.ears ++ [.hand .script])).joinAll [.writer]

/-- The streams after an action of the client. -/
def followStreams (p : Play) (before : Client) : Action → Play
  | .signal .connected => match p.pending with
    | some (_, .accepts console) => p.welcome console
    | _ => p
  | .signal (.received chunk) => match before.reading with
    | some k => p.touch k (·.give chunk.length) (·.pen)
    | none => p
  | .signal (.wrote n) => match before.outbox with
    | some { connection := k, inHand := some (_, rest), .. } =>
      p.touch k (·.take (rest.take n)) (·.ears)
    | _ => p
  | .move .close => match before.stage with
    | .closing k _ => p.touch k (·.desert) fun k => k.ears ++ k.pen
    | _ => p
  | _ => p

/-- Those who are told what became of a frame, or that there is a place in the queue for them, in
this order. -/
def addressees (p : Play) (box : Outbox) : Action → List Actor
  | .signal .flushed => p.senders (box.inHand.map Prod.fst).toList
  | .signal (.writeFailed _) =>
    p.senders ((box.inHand.map Prod.fst).toList ++ box.waiting) ++
      (if p.client.verified then [.client] else []) ++ p.senders box.queue
  | .move .halt => p.senders ((box.inHand.map Prod.fst).toList ++ box.behind) ++ [.client]
  | .move .take =>
    p.senders (((p.client.outbox.map Outbox.favoured).getD []).drop box.favoured.length)
  | _ => []

/-- Whether an action has given a frame to a writer that waits for one. -/
def feedsWriter (p : Play) (before : Client) : Action → Bool
  | .move (.advance _) | .request _ =>
    (p.client.move? .take).isSome && (before.move? .take).isNone &&
      !p.turns.resting.contains .writer
  | _ => false

/-- Those who wait for what an action of the client has brought about, in this order. -/
def awaiting (p : Play) (before : Client) (action : Action) : List Actor :=
  let after := p.client
  let told := (before.outbox.map (p.addressees · action)).getD []
  let stopped := after.closing && !before.closing && after.writing
  let writer := if p.feedsWriter before action || stopped then [.writer] else []
  let client := if after.stopping && !before.stopping then [.client] else []
  let starter := if before.answer = after.answer then [] else [.starter]
  let left := if after.leavers.isEmpty then before.leavers else []
  told ++ writer ++ client ++ starter ++ left.flatMap fun ticket => p.sender (.call ticket)

/-- The dial after an action of the client. -/
def followDial (p : Play) (before : Client) : Play :=
  match before.stage, p.client.stage with
  | .dialing, .dialing => p
  | _, .dialing => p.dialNext
  | .dialing, _ => { p with pending := none }
  | _, _ => p

/-- Everything after an action of the client; nothing changes where it cannot happen. -/
def act (p : Play) (action : Action) : Play :=
  match p.client.step? action with
  | some after =>
    let before := p.client
    let p := { p with client := after }.followStreams before action
    (p.joinAll (p.awaiting before action)).followDial before
  | none => p

/-! ## What the client does next -/

/-- Why a write to a closed connection fails. -/
def brokenPipe : String := "broken pipe"

/-- How much of a turn an action takes. -/
def effort : Action → Nat
  | .signal (.received _) | .signal .ended | .signal (.wrote _) => 1
  | .move .take | .move .learn | .move .expire => 1
  | _ => 0

/-- What the pending dial comes to by now. -/
def dialSignal (p : Play) : Option Signal :=
  match p.pending with
  | some (time, meeting) =>
    if p.client.stage = .dialing ∧ time ≤ p.clock then
      match meeting with
      | .refuses reason => some (.refused reason)
      | .accepts _ => some .connected
      | .hangs => none
    else none
  | none => none

/-- What the client can read. -/
def readSignal (p : Play) : Option Signal :=
  (p.client.reading.bind (p.consoles[·]?)).bind fun k =>
    if !k.toClient.isEmpty then some (.received (k.toClient.take p.client.policy.chunk))
    else if k.hungUp then some .ended
    else none

/-- What the client does next, its writer apart, with some strength left. To stop comes first, and
a deadline last. -/
def clientAction (p : Play) (strength : Nat) : Option Action :=
  let possible (m : Move) : Option Action :=
    if (p.client.move? m).isSome then some (.move m) else none
  if strength = 0 then
    [possible .close, possible .desert,
      if p.client.reading.isSome then possible .expire else none].findSome? id
  else
    [possible .start, possible .close, possible .heed, possible .learn,
      p.dialSignal.map .signal, p.readSignal.map .signal,
      possible .desert, possible .expire].findSome? id

/-- What the writer does next with some strength left. -/
def writerAction (p : Play) (strength : Nat) : Option Action :=
  p.client.outbox.bind fun box =>
    if (p.client.move? .halt).isSome then some (.move .halt)
    else match box.inHand with
      | none => if 0 < strength ∧ box.take.isSome then some (.move .take) else none
      | some (_, []) => some (.signal .flushed)
      | some (_, rest) => p.consoles[box.connection]?.bind fun k =>
        if k.writesLeft = some 0 then some (.signal (.writeFailed brokenPipe))
        else if strength = 0 then none
        else if k.hungUp then some (.signal (.writeFailed brokenPipe))
        else if k.room = 0 then none
        else some (.signal (.wrote (min k.room rest.length)))

/-! ## Calls -/

/-- Lets go of the client if that is wanted and no call is under way. -/
def letGo (p : Play) : Play :=
  if p.releasing && p.calls.all (·.progress = .returned) && !p.client.released then
    p.act (.request .release)
  else p

/-- How far a call has come from now on. -/
def setProgress (p : Play) (number : Nat) (progress : Progress) : Play :=
  { p with calls := p.calls.modify number fun call => { call with progress := progress } }

/-- A call returns. -/
def finish (p : Play) (number : Nat) (result : Result) : Play :=
  let steps := (p.calls[number]?.map fun call => call.step).toList
  let p := { p with done := p.done ++ steps.map (·, result) }
  (p.setProgress number .returned).letGo

/-- Makes a call, which either returns at once or gets a ticket. -/
def make (p : Play) (number : Nat) (request : Request) : Play :=
  let p := p.act (.request request)
  match p.client.journal with
  | (_, .accepted ticket _ _) :: _ | (_, .left ticket) :: _ =>
    p.setProgress number (.pending ticket)
  | (_, .refused failure) :: _ => p.finish number (.failed failure)
  | _ => p.finish number .noClient

/-- What the application does next in a call: it makes the call, takes its outcome, or takes the
place in the queue that it was given. -/
def callNext (p : Play) (number : Nat) : Option Play :=
  match p.calls[number]?.map Call.progress with
  | some (.due request) => some (p.make number request)
  | some (.pending ticket) =>
    match p.client.decided.find? (·.1 = ticket) with
    | some (_, outcome) =>
      some ((p.act (.move (.collect ticket))).finish number (.ofOutcome outcome))
    | none =>
      (p.client.outbox.bind fun box => box.favoured.findIdx? (·.sender = .call ticket)).map
        fun i => p.act (.move (.advance i))
  | _ => none

/-! ## Turns -/

/-- What someone does next in its turn with some strength left: everything after it, and how much
strength it takes. -/
def deed? (p : Play) (strength : Nat) : Actor → Option (Play × Nat)
  | .starter => none
  | .client => (p.clientAction strength).map fun a => (p.act a, effort a)
  | .writer => (p.writerAction strength).map fun a => (p.act a, effort a)
  | .reader k => (p.consoles[k]?.bind Console.read?).map fun d => (p.perform k d, d.effort)
  | .hand k h =>
    if strength = 0 then none
    else (p.consoles[k]?.bind (·.handle? p.clock h)).map fun d => (p.perform k d, d.effort)
  | .call number => (p.callNext number).map (·, 0)

/-- Whether someone whose strength is used up has to go on later. -/
def tires (p : Play) : Actor → Bool
  | .client => p.client.stage ≠ .stopped
  | .writer => p.client.writing
  | .hand k h => p.consoles[k]?.any (·.busy h)
  | _ => false

/-- Lets turns be taken until no one is in line or rests, at most `fuel` deeds and changes of turn
in all. `turn` is who has the turn and how much strength is left. -/
def settle : (fuel : Nat) → (turn : Option (Actor × Nat)) → Play → Play
  | 0, _, p => p
  | fuel + 1, none, p =>
    match p.turns.next? with
    | some (actor, turns) => settle fuel (some (actor, Turns.strength)) { p with turns := turns }
    | none => p
  | fuel + 1, some (actor, strength), p =>
    match p.deed? strength actor with
    | some (q, effort) => settle fuel (some (actor, strength - effort)) q
    | none =>
      if strength = 0 && p.tires actor then
        settle fuel none { p with turns := p.turns.rest actor }
      else settle fuel none p

/-- The most deeds at one time. -/
def deedLimit : Nat := 1000000

/-! ## Time -/

/-- Those who wait for the clock, each with its moment. -/
def alarms (p : Play) : List (Actor × Nat) :=
  (p.pending.map Prod.fst).toList.map (.client, ·) ++ p.client.deadline.toList.map (.client, ·) ++
    p.consoles.zipIdx.filterMap fun (k, number) =>
      if k.closed then none else k.wakes.map (.hand number .script, ·)

/-- Some milliseconds pass, and those whose moment has come get in line. -/
def elapse (p : Play) (ms : Nat) : Play :=
  let p := p.act (.elapse ms)
  p.joinAll ((p.alarms.filter (·.2 = p.clock)).map Prod.fst)

/-- Lets everything happen up to a time and at that time; `fuel` is at least the number of
milliseconds until then. -/
def runUntil (target : Nat) : (fuel : Nat) → Play → Play
  | 0, p => p
  | fuel + 1, p =>
    let p := settle deedLimit none p
    if target ≤ p.clock then p
    else
      let next := ((p.alarms.map Prod.snd).filter (p.clock < ·)).foldl min target
      runUntil target fuel (p.elapse (next - p.clock))

/-- Lets everything happen in the next milliseconds. -/
def pass (p : Play) (ms : Nat) : Play := runUntil (p.clock + ms) (ms + 1) p

end Play

end ClimateLink.Rehearsal
