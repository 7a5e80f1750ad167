import ClimateLink.Wire.Bytes

/-!
# Scripted consoles

A console for rehearsals: one end of a connection that plays a script. Each direction holds a
limited number of bytes, and whoever writes more waits until the other end has read.

**Sides.** A console reads on one side and writes on the other. Several hands may write, that of
the script and those of single steps; what they write lies on a desk, and is written one piece of
writing after another.

**The end.** A console that closes stops reading first and hangs up then. What it wrote still
arrives, and what it has not read is lost. A console whose client has gone reads what is left and
sees the end.

What a console does is a `Deed`, which says whom it stirs.
-/

namespace ClimateLink.Rehearsal

/-! ## Consoles -/

/-- One line of a script. -/
inductive Cue where
  /-- Wait until this many bytes have come in altogether. -/
  | expect (total : Nat)
  /-- Wait for some milliseconds. -/
  | wait (ms : Nat)
  | write (bytes : Bytes)
  | close
  deriving DecidableEq, Repr

/-- Whoever writes for a console. -/
inductive Hand where
  /-- The one that plays the script. -/
  | script
  /-- The one that writes what the step with this number says. -/
  | step (number : Nat)
  deriving DecidableEq, Repr

/-- Whether a console reads. -/
inductive Reader where
  | absent
  | reading
  | finished
  deriving DecidableEq, Repr

/-- A console, with what is on the way in both directions. -/
structure Console where
  /-- The number of bytes that each direction holds. -/
  capacity : Nat
  /-- How many more writes of the client succeed, if there is a limit. -/
  writesLeft : Option Nat
  reader : Reader
  /-- What is left of the script. -/
  script : List Cue
  /-- When the wait in front of the script is over. -/
  wakes : Option Nat
  /-- What is to be written and by whom; the first piece of writing is under way. -/
  desk : List (Hand × Bytes)
  /-- On the way to the client. -/
  toClient : Bytes
  /-- On the way to the console. -/
  toConsole : Bytes
  /-- The number of bytes that the console has read. -/
  total : Nat
  /-- The bytes that it has read since the last look at it. -/
  fresh : Bytes
  /-- Whether the console closes the connection. -/
  closed : Bool
  /-- Whether it has hung up. -/
  hungUp : Bool
  /-- Whether the client has closed the connection. -/
  deserted : Bool
  /-- Whether the console has seen that. -/
  sawEnd : Bool
  deriving DecidableEq, Repr

namespace Console

/-- A console at the start of its script. -/
def new (capacity : Nat) (writesLeft : Option Nat) (reads : Bool) (script : List Cue) : Console :=
  ⟨capacity, writesLeft, if reads then .reading else .absent, script, none, [], [], [], 0, [],
    false, false, false, false⟩

/-- Puts something to write on the desk. -/
def draft (k : Console) (hand : Hand) (bytes : Bytes) : Console :=
  { k with desk := k.desk ++ [(hand, bytes)] }

/-- Closes the connection from this end: nothing more is written. -/
def close (k : Console) : Console := { k with closed := true, script := [], desk := [] }

/-- Starts to read, unless it is too late for that. -/
def startReading (k : Console) : Console :=
  if k.reader = .absent ∧ !k.closed then { k with reader := .reading } else k

/-! ## Deeds -/

/-- Whoever may be waiting for something to happen on a connection. -/
inductive Stirred where
  /-- The client, if it waits for something to read. -/
  | clientReading
  /-- The client, if it waits in the middle of a frame. -/
  | clientWriting
  /-- The console, in reading. -/
  | reader
  | hand (h : Hand)
  deriving DecidableEq, Repr

/-- Something that a console does. -/
structure Deed where
  after : Console
  /-- Whom it stirs, in this order. -/
  stirs : List Stirred
  /-- How much of a turn it takes. -/
  effort : Nat
  deriving DecidableEq, Repr

/-- Whoever reads for the console, if someone does. -/
def ears (k : Console) : List Stirred := if k.reader = .reading then [.reader] else []

/-- Whether something of a hand lies on the desk. -/
def writes (k : Console) (hand : Hand) : Bool := k.desk.any (·.1 = hand)

/-- Whoever writes for the console at the moment. -/
def pen (k : Console) : List Stirred := (k.desk.head?.map fun draft => .hand draft.1).toList

/-- What the console does next in reading. It stops where it closes. -/
def read? (k : Console) : Option Deed :=
  if k.reader ≠ .reading then none
  else if k.closed then some ⟨{ k with reader := .finished }, [.hand .script], 0⟩
  else if !k.toConsole.isEmpty then
    let expecting := match k.script with
      | .expect _ :: _ => if k.writes .script then [] else [.hand .script]
      | _ => []
    some ⟨{ k with total := k.total + k.toConsole.length
                   fresh := k.fresh ++ k.toConsole
                   toConsole := [] }, .clientWriting :: expecting, 1⟩
  else if k.deserted then some ⟨{ k with reader := .finished, sawEnd := true }, [], 1⟩
  else none

/-- What the hand does next whose bytes lie first on the desk, with the rest behind them. What is
written, or cannot be written, is taken away, and the next hand may begin. -/
def write? (k : Console) (hand : Hand) (bytes : Bytes) (rest : List (Hand × Bytes)) :
    Option Deed :=
  let room := k.capacity - k.toClient.length
  let done := { k with desk := rest }
  if bytes.isEmpty then some ⟨done, done.pen, 0⟩
  else if k.deserted then some ⟨done, done.pen, 1⟩
  else if room = 0 then none
  else some ⟨{ k with toClient := k.toClient ++ bytes.take room
                      desk := (hand, bytes.drop room) :: rest }, [.clientReading], 1⟩

/-- Plays the next line of the script, if it can be played at this time. -/
def play? (k : Console) (clock : Nat) : Option Deed :=
  match k.script with
  | [] => none
  | .expect total :: rest =>
    if total ≤ k.total then some ⟨{ k with script := rest }, [], 0⟩ else none
  | .wait ms :: rest => match k.wakes with
    | none => some ⟨{ k with wakes := some (clock + ms) }, [], 0⟩
    | some wakes =>
      if wakes ≤ clock then some ⟨{ k with script := rest, wakes := none }, [], 1⟩ else none
  | .write bytes :: rest => some ⟨{ k with script := rest }.draft .script bytes, [], 0⟩
  | .close :: _ => some ⟨k.close, k.ears, 0⟩

/-- What a hand does next at this time. Once the console closes and does not read any more, the
hand of the script hangs up. -/
def handle? (k : Console) (clock : Nat) (hand : Hand) : Option Deed :=
  if k.closed then
    if hand = .script ∧ k.reader ≠ .reading ∧ !k.hungUp then
      some ⟨{ k with hungUp := true }, [.clientReading, .clientWriting], 0⟩
    else none
  else if k.writes hand then
    match k.desk with
    | (first, bytes) :: rest => if first = hand then k.write? hand bytes rest else none
    | [] => none
  else if hand = .script then k.play? clock
  else none

/-- Whether a hand has not finished. -/
def busy (k : Console) (hand : Hand) : Bool :=
  k.writes hand || (hand = .script && !k.script.isEmpty)

/-! ## The other end -/

/-- The room for bytes of the client. -/
def room (k : Console) : Nat := k.capacity - k.toConsole.length

/-- The console after a write of the client. -/
def take (k : Console) (bytes : Bytes) : Console :=
  { k with toConsole := k.toConsole ++ bytes, writesLeft := k.writesLeft.map (· - 1) }

/-- The console after the client has read some bytes. -/
def give (k : Console) (n : Nat) : Console := { k with toClient := k.toClient.drop n }

/-- The console after the client has closed the connection. -/
def desert (k : Console) : Console := { k with deserted := true }

end Console

end ClimateLink.Rehearsal
