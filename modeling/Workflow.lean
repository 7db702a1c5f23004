import Workflow.Main
import Workflow.Rehearsal.Host
import Workflow.Proofs.Run.Confluence
import Workflow.Proofs.Run.Routing
import Workflow.Proofs.Engine.Reporting
import Workflow.Proofs.Graph.Levels
import Workflow.Proofs.Plan.Layers
import Workflow.Proofs.State.Calls
import Workflow.Proofs.State.Lifetime
import Workflow.Proofs.Tree.Values
import Workflow.Proofs.Document.Members
import Workflow.Proofs.Document.Written
import Workflow.Proofs.Flow.RoundTrip
import Workflow.Proofs.Flow.Cycles
import Workflow.Proofs.Context.Token
import Workflow.Proofs.Template.Key
import Workflow.Proofs.Run.Retention
import Workflow.Proofs.Run.Refusal
import Workflow.Proofs.Capability.Prompting
import Workflow.Proofs.Engine.Presence
import Workflow.Proofs.Engine.Recasting
import Workflow.Proofs.Engine.Redaction
import Workflow.Proofs.Engine.Blindness
import Workflow.Proofs.Engine.Permits
import Workflow.Proofs.Engine.Phases
import Workflow.Proofs.Engine.Attempts
import Workflow.Proofs.Engine.Accounts
import Workflow.Proofs.Engine.InOrder
import Workflow.Proofs.Engine.Limits
import Workflow.Proofs.Engine.Liveness
import Workflow.Proofs.Engine.Registry
import Workflow.Proofs.Engine.Registration
import Workflow.Proofs.Engine.Entries
import Workflow.Proofs.Engine.Deadline
import Workflow.Proofs.Engine.Task
import Workflow.Proofs.Engine.Sparing
import Workflow.Proofs.Engine.Awaiting
import Workflow.Proofs.Engine.Punctual
import Workflow.Proofs.Engine.Retrying
import Workflow.Proofs.Engine.Opening
import Workflow.Proofs.Context.Fields
import Workflow.Proofs.Context.Disclosure
import Workflow.Proofs.Template.Sessions
import Workflow.Proofs.Template.Presence
import Workflow.Proofs.Template.Prompt
import Workflow.Proofs.Plan.Dependencies
import Workflow.Proofs.Run.Dispatching
import Workflow.Proofs.State.Concurrency
import Workflow.Proofs.Engine.Tracing
import Workflow.Proofs.Command.Running
import Workflow.Proofs.Plan.Partition
import Workflow.Proofs.Flow.Duplicates
import Workflow.Proofs.Json.Path
