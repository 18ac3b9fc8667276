import InputRelay.Bridge.Session
import InputRelay.Consumer.Rehearsal
import InputRelay.Directory
import InputRelay.Event.Document
import InputRelay.Mailbox.Waiting
import InputRelay.Main
import InputRelay.Program.Rehearsal
import InputRelay.Script.Rehearsal
import InputRelay.Proofs.Mailbox.Run
import InputRelay.Proofs.Mailbox.WakeUp
import InputRelay.Proofs.Bridge.Crowd
import InputRelay.Proofs.Bridge.Lifecycle
import InputRelay.Proofs.Mailbox.Accounting
import InputRelay.Proofs.Outcome
import InputRelay.Proofs.Host.Serving
import InputRelay.Proofs.Script.Compiled
import InputRelay.Proofs.Script.Heeding
import InputRelay.Proofs.Script.Occurrence
import InputRelay.Proofs.Script.Chain
import InputRelay.Proofs.Script.Inlining
import InputRelay.Proofs.Script.Reading
import InputRelay.Proofs.Script.Acceptance
import InputRelay.Proofs.Script.OpenFiles
import InputRelay.Proofs.Script.Root
import InputRelay.Proofs.Bridge.Calls
import InputRelay.Proofs.Bridge.Release
import InputRelay.Proofs.Bridge.Quit
import InputRelay.Proofs.Script.Contents
import InputRelay.Proofs.Script.Trace
import InputRelay.Proofs.Script.Shutdown
import InputRelay.Proofs.Script.Triggers
import InputRelay.Proofs.Script.ClockRange
import InputRelay.Proofs.Relay.Program
import InputRelay.Proofs.Script.Counting
import InputRelay.Proofs.Script.Within
import InputRelay.Proofs.Script.Reference
import InputRelay.Proofs.Script.Sendable
import InputRelay.Proofs.Script.Ticks
import InputRelay.Proofs.Script.Until
import InputRelay.Proofs.Config.RoundTrip
import InputRelay.Proofs.Relay.Tally
import InputRelay.Proofs.Program.Phases
import InputRelay.Proofs.Program.Handover
import InputRelay.Proofs.Program.Ending
import InputRelay.Proofs.Key.Direction
import InputRelay.Proofs.Exchanges
import InputRelay.Proofs.Script.Switches
import InputRelay.Proofs.Sender.Attempts
import InputRelay.Proofs.Time.Accuracy
import InputRelay.Proofs.Consumer.Transcript
import InputRelay.Proofs.Event.RoundTrip
