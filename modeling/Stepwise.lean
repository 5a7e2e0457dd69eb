import Stepwise.Text.Blank
import Stepwise.Text.Quoted
import Stepwise.Json.Decode
import Stepwise.Trace.Reading
import Stepwise.Template.Resolve
import Stepwise.Flow.Job
import Stepwise.Time.Timestamp
import Stepwise.Time.Duration
import Stepwise.Run.Report
import Stepwise.Executor.Scripted
import Stepwise.Flow.Document
import Stepwise.Runner.Config
import Stepwise.Remote.Store
import Stepwise.Artifact.Run
import Stepwise.Runner.Desk
import Stepwise.Main
import Stepwise.Proofs.Trace.Enclosure
import Stepwise.Proofs.Run.Calls
import Stepwise.Proofs.Run.Evaluation
import Stepwise.Proofs.Template.Agreement
import Stepwise.Proofs.Run.Guarded
import Stepwise.Proofs.Run.Refinement
import Stepwise.Proofs.Flow.Names
import Stepwise.Proofs.Run.Account
import Stepwise.Proofs.Run.Shape
import Stepwise.Proofs.Run.Audit
import Stepwise.Proofs.Run.Blame
import Stepwise.Proofs.Run.Configuration
import Stepwise.Proofs.Run.Tally
import Stepwise.Proofs.Run.Chronicle
import Stepwise.Proofs.Run.Permanence
import Stepwise.Proofs.Run.LoopSight
import Stepwise.Proofs.Run.Records
import Stepwise.Proofs.Store.Keys
import Stepwise.Proofs.Store.Content
import Stepwise.Proofs.Store.Replay
import Stepwise.Proofs.Store.Access
import Stepwise.Proofs.Store.Shared
import Stepwise.Proofs.Run.Interleaving
import Stepwise.Proofs.Run.Iterations
import Stepwise.Proofs.Flow.Written
import Stepwise.Proofs.Trace.Order
import Stepwise.Proofs.Template.Inquiry
import Stepwise.Proofs.Run.Warnings
import Stepwise.Proofs.Run.Reports
import Stepwise.Proofs.Template.Address
import Stepwise.Proofs.Template.Segments
import Stepwise.Proofs.Run.Frame
import Stepwise.Proofs.Run.Composition
import Stepwise.Proofs.Run.Response
import Stepwise.Proofs.Trace.Parts
import Stepwise.Proofs.Trace.Update
import Stepwise.Proofs.Flow.Misuse
import Stepwise.Proofs.Flow.Documents
import Stepwise.Proofs.Artifact.Answers
import Stepwise.Proofs.Artifact.Containment
import Stepwise.Proofs.Flow.Triggers
