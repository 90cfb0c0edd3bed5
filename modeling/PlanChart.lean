import PlanChart.Main
import PlanChart.Plan.Writer
import PlanChart.Files.Tree
import PlanChart.Proofs.Anchoring
import PlanChart.Proofs.Arrangement
import PlanChart.Proofs.Ascent
import PlanChart.Proofs.Attachment
import PlanChart.Proofs.Blame
import PlanChart.Proofs.Buildable
import PlanChart.Proofs.ByteOrder
import PlanChart.Proofs.Checking
import PlanChart.Proofs.ColorLiteral
import PlanChart.Proofs.Coloring
import PlanChart.Proofs.Completeness
import PlanChart.Proofs.Console
import PlanChart.Proofs.Correspondence
import PlanChart.Proofs.CycleListing
import PlanChart.Proofs.Definitions
import PlanChart.Proofs.Delivery
import PlanChart.Proofs.DependencyCycle
import PlanChart.Proofs.Diagnosis
import PlanChart.Proofs.Dot.Lexer
import PlanChart.Proofs.Dot.Outline
import PlanChart.Proofs.Dot.Reader
import PlanChart.Proofs.Dot.Recovery
import PlanChart.Proofs.Dot.Spelling
import PlanChart.Proofs.Dot.Words
import PlanChart.Proofs.Drawable
import PlanChart.Proofs.Envelopes
import PlanChart.Proofs.Findings
import PlanChart.Proofs.Foretelling
import PlanChart.Proofs.Grove
import PlanChart.Proofs.Json.Canonical
import PlanChart.Proofs.Json.Form
import PlanChart.Proofs.Json.Grammar
import PlanChart.Proofs.Json.Keeping
import PlanChart.Proofs.Json.Layout
import PlanChart.Proofs.Json.Pieces
import PlanChart.Proofs.Json.Reading
import PlanChart.Proofs.Json.Skipping
import PlanChart.Proofs.Json.Spelling
import PlanChart.Proofs.Json.Text
import PlanChart.Proofs.Json.Value
import PlanChart.Proofs.Labels
import PlanChart.Proofs.Layering
import PlanChart.Proofs.LinkCycle
import PlanChart.Proofs.Linking
import PlanChart.Proofs.Loading
import PlanChart.Proofs.Naming
import PlanChart.Proofs.Nesting
import PlanChart.Proofs.Omission
import PlanChart.Proofs.ParentCycle
import PlanChart.Proofs.ParentOrbit
import PlanChart.Proofs.Quoting
import PlanChart.Proofs.Refusal
import PlanChart.Proofs.Relaxation
import PlanChart.Proofs.Rendering
import PlanChart.Proofs.Renumbering
import PlanChart.Proofs.Reordering
import PlanChart.Proofs.Reporting
import PlanChart.Proofs.Rewriting
import PlanChart.Proofs.RoundTrip
import PlanChart.Proofs.Status
import PlanChart.Proofs.Storing
import PlanChart.Proofs.Traversal
import PlanChart.Proofs.Unfolding
import PlanChart.Proofs.Warning
import PlanChart.Proofs.Writing
