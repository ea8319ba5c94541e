import ApiSchema.Main
import ApiSchema.Proofs.Text.Trim
import ApiSchema.Proofs.TypeExpr.Arguments
import ApiSchema.Proofs.TypeExpr.Merging
import ApiSchema.Proofs.TypeExpr.Grammar
import ApiSchema.Proofs.TypeExpr.Parsing
import ApiSchema.Proofs.TypeExpr.Faults
import ApiSchema.Proofs.TypeExpr.Naming
import ApiSchema.Proofs.TypeExpr.Nodes
import ApiSchema.Proofs.TypeExpr.Outline
import ApiSchema.Proofs.Registration.History
import ApiSchema.Proofs.Expansion.Catalog
import ApiSchema.Proofs.Expansion.Run
import ApiSchema.Proofs.Expansion.Closure
import ApiSchema.Proofs.Expansion.Order
import ApiSchema.Proofs.Template.Placeholders
import ApiSchema.Proofs.Template.Substitution
import ApiSchema.Proofs.Expansion.Progress
import ApiSchema.Proofs.Expansion.Reached
import ApiSchema.Proofs.Expansion.Failure
import ApiSchema.Proofs.Expansion.Granted
import ApiSchema.Proofs.Expansion.References
import ApiSchema.Proofs.Expansion.Identity
import ApiSchema.Proofs.Document.Closed
import ApiSchema.Proofs.Expansion.Insertion
import ApiSchema.Proofs.Expansion.Refusal
import ApiSchema.Proofs.Document.Formed
import ApiSchema.Proofs.Document.Arity
import ApiSchema.Proofs.Document.Places
import ApiSchema.Proofs.Template.Simultaneous
import ApiSchema.Proofs.Template.Marking
import ApiSchema.Proofs.Template.Prepared
import ApiSchema.Proofs.Expansion.Depth
import ApiSchema.Proofs.Document.Ranked
import ApiSchema.Proofs.Json.Scanning
import ApiSchema.Proofs.Document.Loading
import ApiSchema.Proofs.Files.Laws
import ApiSchema.Proofs.CommandLine.AllOrNothing
