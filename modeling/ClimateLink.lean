import ClimateLink.Client.Failure
import ClimateLink.Client.Journal
import ClimateLink.Client.Numbering
import ClimateLink.Client.Outbox
import ClimateLink.Client.Policy
import ClimateLink.Client.State
import ClimateLink.Client.Step
import ClimateLink.Decimal.Binary
import ClimateLink.Decimal.Shortest
import ClimateLink.Frame.Checksum
import ClimateLink.Frame.Coding
import ClimateLink.Frame.Framer
import ClimateLink.Frame.Header
import ClimateLink.Packet.Basic
import ClimateLink.Packet.Control
import ClimateLink.Packet.Entry
import ClimateLink.Packet.Extended
import ClimateLink.Packet.Fault
import ClimateLink.Packet.Scale
import ClimateLink.Packet.Setting
import ClimateLink.Rehearsal.Cast
import ClimateLink.Rehearsal.Console
import ClimateLink.Rehearsal.Play
import ClimateLink.Rehearsal.Snapshot
import ClimateLink.Rehearsal.Turns
import ClimateLink.Text.Duration
import ClimateLink.Text.Hex
import ClimateLink.Text.Utf8
import ClimateLink.Wire.Bytes
import ClimateLink.Wire.Coded
import ClimateLink.Proofs.Attempt
import ClimateLink.Proofs.Client.Cases
import ClimateLink.Proofs.Client.Effects
import ClimateLink.Proofs.Client.Handling
import ClimateLink.Proofs.Client.Ledger
import ClimateLink.Proofs.Client.Notes
import ClimateLink.Proofs.Client.Pending
import ClimateLink.Proofs.Client.Serial
import ClimateLink.Proofs.Client.Sessions
import ClimateLink.Proofs.Client.Sound
import ClimateLink.Proofs.Client.Tickets
import ClimateLink.Proofs.Decimal.Double
import ClimateLink.Proofs.Decimal.Rounding
import ClimateLink.Proofs.Frame.RoundTrip
import ClimateLink.Proofs.Framer.Cuts
import ClimateLink.Proofs.Framer.Drain
import ClimateLink.Proofs.Packet.Bits
import ClimateLink.Proofs.Packet.Canonical
import ClimateLink.Proofs.Packet.Temperature
import ClimateLink.Proofs.Frame.Offsets
import ClimateLink.Proofs.Framer.Scan
import ClimateLink.Proofs.Packet.Grammar
import ClimateLink.Proofs.Decimal.Nearest
import ClimateLink.Proofs.Frame.Grammar
import ClimateLink.Proofs.Packet.Scaling
import ClimateLink.Proofs.Packet.Settled
import ClimateLink.Proofs.Text.Reading
import ClimateLink.Proofs.Packet.Rewriting
import ClimateLink.Proofs.Frame.Reencoding
import ClimateLink.Proofs.Client.Spans
import ClimateLink.Proofs.Client.Delivery
import ClimateLink.Proofs.Frame.Complete
import ClimateLink.Proofs.Framer.Passage
import ClimateLink.Proofs.Framer.Resync
import ClimateLink.Proofs.Framer.Transmission
import ClimateLink.Proofs.Client.Connections
import ClimateLink.Proofs.Client.Progress
import ClimateLink.Proofs.Client.Settling
import ClimateLink.Proofs.Client.Shutdown
import ClimateLink.Proofs.Client.Views
import ClimateLink.Proofs.Frame.NormalForm
import ClimateLink.Proofs.Frame.Absence
import ClimateLink.Proofs.Framer.Skipping
import ClimateLink.Proofs.Frame.Kinds
import ClimateLink.Proofs.Frame.Register
import ClimateLink.Proofs.Framer.Corruption
import ClimateLink.Proofs.Packet.Demands
import ClimateLink.Proofs.Frame.Acceptance
import ClimateLink.Proofs.Client.Calls
import ClimateLink.Proofs.Frame.Extension
import ClimateLink.Proofs.Client.Phases
import ClimateLink.Proofs.Client.Deadlines
import ClimateLink.Proofs.Client.Retrying
import ClimateLink.Proofs.Client.FirstAttempt
import ClimateLink.Proofs.Client.Answers
import ClimateLink.Proofs.Client.Starting
import ClimateLink.Proofs.Client.Renumbering
import ClimateLink.Proofs.Client.Mirroring
import ClimateLink.Proofs.Client.Refusal
import ClimateLink.Proofs.Client.Stamping
import ClimateLink.Proofs.Framer.Retention
import ClimateLink.Proofs.Guarded.Basic
import ClimateLink.Proofs.Guarded.Entry
import ClimateLink.Proofs.Guarded.Payload
import ClimateLink.Proofs.Guarded.Coding
import ClimateLink.Proofs.Guarded.Framing
import ClimateLink.Proofs.Rehearsal.Runs
