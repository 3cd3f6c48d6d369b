import WorkflowAugment.Dict
import WorkflowAugment.Text.Split
import WorkflowAugment.Text.Blank
import WorkflowAugment.Text.Alphanumeric
import WorkflowAugment.Text.Quoted
import WorkflowAugment.Text.Utf8
import WorkflowAugment.Number.Shortest
import WorkflowAugment.Json.Writer
import WorkflowAugment.Json.Tree
import WorkflowAugment.Json.Scan
import WorkflowAugment.Json.Shape
import WorkflowAugment.Json.Codec
import WorkflowAugment.Manifest.Workflow
import WorkflowAugment.Settings.Augment
import WorkflowAugment.Settings.Logging
import WorkflowAugment.Augment.Walk
import WorkflowAugment.Manifest.Edit
import WorkflowAugment.CommandLine.Run
import WorkflowAugment.Main
import WorkflowAugment.Proofs.Lookup
import WorkflowAugment.Proofs.Index
import WorkflowAugment.Proofs.Chain
import WorkflowAugment.Proofs.Invocation
import WorkflowAugment.Proofs.Search
import WorkflowAugment.Proofs.Plan
import WorkflowAugment.Proofs.Walk
import WorkflowAugment.Proofs.Coverage
import WorkflowAugment.Proofs.Preorder
import WorkflowAugment.Proofs.Verdict
import WorkflowAugment.Proofs.Changes
import WorkflowAugment.Proofs.Hooks
import WorkflowAugment.Proofs.Tally
import WorkflowAugment.Proofs.Renumbering
import WorkflowAugment.Proofs.Outline
import WorkflowAugment.Proofs.Additions
import WorkflowAugment.Proofs.Variables
import WorkflowAugment.Proofs.Interchange
import WorkflowAugment.Proofs.Mounts
import WorkflowAugment.Proofs.Json.Spelling
import WorkflowAugment.Proofs.Json.Decimals
import WorkflowAugment.Proofs.Json.Trees
import WorkflowAugment.Proofs.Json.Scanning
import WorkflowAugment.Proofs.Json.Shapes
import WorkflowAugment.Proofs.Json.Restoring
import WorkflowAugment.Proofs.Documents
import WorkflowAugment.Proofs.Json.Reordering
import WorkflowAugment.Proofs.Json.Tidying
import WorkflowAugment.Proofs.Rewriting
import WorkflowAugment.Proofs.Growth
import WorkflowAugment.Proofs.Operations
import WorkflowAugment.Proofs.Concerns
import WorkflowAugment.Proofs.Roots
import WorkflowAugment.Proofs.Repetition
import WorkflowAugment.Proofs.Directory.Routes
import WorkflowAugment.Proofs.Directory.OnePass
import WorkflowAugment.Proofs.Json.Nesting
import WorkflowAugment.Proofs.Json.Receiving
import WorkflowAugment.Proofs.Trace
import WorkflowAugment.Proofs.Reading
import WorkflowAugment.Proofs.Rereading
import WorkflowAugment.Proofs.Settings
import WorkflowAugment.Proofs.Output
import WorkflowAugment.Proofs.Text.Decoding
import WorkflowAugment.Proofs.Undecodable
import WorkflowAugment.Proofs.Json.Orderless
import WorkflowAugment.Proofs.MemberOrder
import WorkflowAugment.Proofs.Json.Problems
import WorkflowAugment.Proofs.Declaration
import WorkflowAugment.Proofs.Judging
import WorkflowAugment.Proofs.Acceptance
import WorkflowAugment.Proofs.Json.Places
import WorkflowAugment.Proofs.Json.Keeping
import WorkflowAugment.Proofs.Precision
import WorkflowAugment.Proofs.Finding
import WorkflowAugment.Proofs.HookWrites
import WorkflowAugment.Proofs.Json.Groups
import WorkflowAugment.Proofs.Json.Denoting
import WorkflowAugment.Proofs.Configuration
import WorkflowAugment.Proofs.Logging
import WorkflowAugment.Proofs.Stateful
import WorkflowAugment.Proofs.Depth
import WorkflowAugment.Proofs.Expansion
import WorkflowAugment.Proofs.Midway
