import Ferry.Artifact.Digest
import Ferry.Artifact.Directory
import Ferry.Artifact.Envelope
import Ferry.Artifact.File
import Ferry.Bytes
import Ferry.Command.Grammar
import Ferry.Command.Line
import Ferry.Command.Perform
import Ferry.Command.Report
import Ferry.Config
import Ferry.Failure
import Ferry.FixedBytes
import Ferry.Frame
import Ferry.Host.Basic
import Ferry.Host.Local
import Ferry.Host.Local.Play
import Ferry.Host.Pair
import Ferry.Host.Remote
import Ferry.Host.Remote.Exchange
import Ferry.Host.Remote.Play
import Ferry.Keyboard
import Ferry.Machine.Engine
import Ferry.Machine.Instruction
import Ferry.Machine.Module
import Ferry.Machine.Resumption
import Ferry.Machine.State
import Ferry.Machine.Step
import Ferry.Machine.Trap
import Ferry.Main
import Ferry.Mode
import Ferry.Outcome
import Ferry.Peer.Address
import Ferry.Peer.Caller
import Ferry.Peer.Endpoint
import Ferry.Peer.Error
import Ferry.Peer.Http
import Ferry.Peer.Http.Text
import Ferry.Peer.Message
import Ferry.Peer.Target
import Ferry.Program.Basic
import Ferry.Program.Builtin
import Ferry.Program.Catalog
import Ferry.Proofs.Artifact.Damage
import Ferry.Proofs.Artifact.Files
import Ferry.Proofs.Artifact.Format
import Ferry.Proofs.Artifact.Replacing
import Ferry.Proofs.Artifact.Sealing
import Ferry.Proofs.Artifact.Siblings
import Ferry.Proofs.Artifact.Versions
import Ferry.Proofs.Controller
import Ferry.Proofs.Engine.Arming
import Ferry.Proofs.Engine.CallChain
import Ferry.Proofs.Engine.Calls
import Ferry.Proofs.Engine.Capture
import Ferry.Proofs.Engine.Course
import Ferry.Proofs.Engine.Depth
import Ferry.Proofs.Engine.Ending
import Ferry.Proofs.Engine.FaultSites
import Ferry.Proofs.Engine.Journey
import Ferry.Proofs.Engine.LargerLimit
import Ferry.Proofs.Engine.Length
import Ferry.Proofs.Engine.Prospects
import Ferry.Proofs.Engine.Resuming
import Ferry.Proofs.Engine.Safety
import Ferry.Proofs.Engine.Sharing
import Ferry.Proofs.Except
import Ferry.Proofs.Host.Channels
import Ferry.Proofs.Host.Failures
import Ferry.Proofs.Host.Fitness
import Ferry.Proofs.Keyboard
import Ferry.Proofs.Local.Account
import Ferry.Proofs.Local.Answers
import Ferry.Proofs.Local.Chain
import Ferry.Proofs.Local.Course
import Ferry.Proofs.Local.Following
import Ferry.Proofs.Local.Gating
import Ferry.Proofs.Local.Progress
import Ferry.Proofs.Local.Step
import Ferry.Proofs.Machine.Faulting
import Ferry.Proofs.Machine.Judgement
import Ferry.Proofs.Machine.Recording
import Ferry.Proofs.Machine.Shape
import Ferry.Proofs.Machine.Stacking
import Ferry.Proofs.Machine.Step
import Ferry.Proofs.Machine.Trapping
import Ferry.Proofs.Machine.Validity
import Ferry.Proofs.Pair.Computation
import Ferry.Proofs.Pair.Course
import Ferry.Proofs.Pair.ExactlyOnce
import Ferry.Proofs.Pair.HandOff
import Ferry.Proofs.Pair.Replies
import Ferry.Proofs.Pair.Serving
import Ferry.Proofs.Peer.Address
import Ferry.Proofs.Peer.Admission
import Ferry.Proofs.Peer.Agreement
import Ferry.Proofs.Peer.Exchange
import Ferry.Proofs.Peer.Messages
import Ferry.Proofs.Peer.Oversize
import Ferry.Proofs.Program.Ackermann
import Ferry.Proofs.Program.Fib
import Ferry.Proofs.Program.Sum
import Ferry.Proofs.Remote.Acceptance
import Ferry.Proofs.Remote.Changes
import Ferry.Proofs.Remote.Decision
import Ferry.Proofs.Remote.Exits
import Ferry.Proofs.Remote.Orderly
import Ferry.Proofs.Remote.Ownership
import Ferry.Proofs.Remote.Provenance
import Ferry.Proofs.Remote.Runs
import Ferry.Proofs.Remote.Step
import Ferry.Proofs.Remote.Transitions
import Ferry.Proofs.Session
import Ferry.Proofs.Session.History
import Ferry.Proofs.Session.Id
import Ferry.Proofs.Snapshot.Format
import Ferry.Proofs.Text.Blank
import Ferry.Proofs.Text.Hex
import Ferry.Proofs.Text.Replacement
import Ferry.Proofs.Trigger.Confinement
import Ferry.Proofs.Trigger.Course
import Ferry.Proofs.Wire.Measured
import Ferry.Proofs.Wire.Number
import Ferry.Proofs.Wire.ReadBack
import Ferry.Proofs.Wire.SelfDelimiting
import Ferry.Proofs.Wire.Spelling
import Ferry.Proofs.Word
import Ferry.Session.Basic
import Ferry.Session.Id
import Ferry.Session.Phase
import Ferry.Signal
import Ferry.Snapshot.Basic
import Ferry.Snapshot.Bytes
import Ferry.Text.Blank
import Ferry.Text.Decimal
import Ferry.Text.Hex
import Ferry.Text.Json
import Ferry.Text.Quoted
import Ferry.Text.Replacement
import Ferry.Text.Unprintable
import Ferry.Trigger.Controller
import Ferry.Trigger.Policy
import Ferry.Wire.Basic
import Ferry.Wire.Varint
import Ferry.Word
