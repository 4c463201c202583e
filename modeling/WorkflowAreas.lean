import WorkflowAreas.Main
import WorkflowAreas.Proofs.Frame
import WorkflowAreas.Proofs.Agreement
import WorkflowAreas.Proofs.Merge.Region
import WorkflowAreas.Proofs.Merge.Rewriting
import WorkflowAreas.Proofs.Merge.Whole
import WorkflowAreas.Proofs.Merge.Meaning
import WorkflowAreas.Proofs.Merge.Idempotence
import WorkflowAreas.Proofs.Rendering
import WorkflowAreas.Proofs.Lifetime
import WorkflowAreas.Proofs.Merge.Acceptance
import WorkflowAreas.Proofs.Merge.Settled
import WorkflowAreas.Proofs.Merge.Interleaving
import WorkflowAreas.Proofs.Freshness
import WorkflowAreas.Proofs.Merge.Lookup
import WorkflowAreas.Proofs.Merge.Provenance
import WorkflowAreas.Proofs.Merge.Conservation
import WorkflowAreas.Proofs.Storage.Replacement
import WorkflowAreas.Proofs.Text.Lines
import WorkflowAreas.Proofs.InStep
import WorkflowAreas.Proofs.Header.Spelling
import WorkflowAreas.Proofs.Header.Pattern
import WorkflowAreas.Proofs.Header.Key
import WorkflowAreas.Proofs.Violations
import WorkflowAreas.Proofs.Partition
import WorkflowAreas.Proofs.Isolation
import WorkflowAreas.Proofs.Verdict
import WorkflowAreas.Proofs.Storage.Effect
import WorkflowAreas.Proofs.Atomicity
import WorkflowAreas.Proofs.Storage.Descent
import WorkflowAreas.Proofs.Storage.Paving
import WorkflowAreas.Proofs.Storage.Transfer
import WorkflowAreas.Proofs.Footprint
import WorkflowAreas.Proofs.Independence
import WorkflowAreas.Proofs.Template
import WorkflowAreas.Proofs.Yaml.Showing
import WorkflowAreas.Proofs.Manifest.RoundTrip
import WorkflowAreas.Proofs.Substitution
import WorkflowAreas.Proofs.Text.RoundTrip
import WorkflowAreas.Proofs.Preorder
import WorkflowAreas.Proofs.Merge.Order
import WorkflowAreas.Proofs.Header.Canonical
import WorkflowAreas.Proofs.Text.Order
import WorkflowAreas.Proofs.Merge.Splice
import WorkflowAreas.Proofs.Merge.SortedSet
import WorkflowAreas.Proofs.Merge.Append
import WorkflowAreas.Proofs.Branching
