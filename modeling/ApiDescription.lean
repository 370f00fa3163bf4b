import ApiDescription.Api.Emit
import ApiDescription.Combine.Combiner
import ApiDescription.Command.Run
import ApiDescription.Document.OpenApi
import ApiDescription.Json.Reader
import ApiDescription.Json.Writer
import ApiDescription.Main
import ApiDescription.Manifest.Discovery
import ApiDescription.Operation.Compile
import ApiDescription.Proofs.Json.Distinct
import ApiDescription.Proofs.Combine.Settled
import ApiDescription.Proofs.Schema.Consistent
import ApiDescription.Schema.Check
import ApiDescription.Yaml.Reader
import ApiDescription.Yaml.Writer
import ApiDescription.Proofs.Combine.Paths
import ApiDescription.Proofs.Combine.SchemaRenames
import ApiDescription.Proofs.Combine.Components
import ApiDescription.Proofs.Combine.References
import ApiDescription.Proofs.Combine.SchemaGraph
import ApiDescription.Proofs.Combine.Overriding
import ApiDescription.Proofs.Json.Pointer
import ApiDescription.Proofs.Combine.Provenance
import ApiDescription.Proofs.Combine.Dangling
import ApiDescription.Proofs.Combine.FirstConflict
import ApiDescription.Proofs.Combine.Compatible
import ApiDescription.Proofs.Json.Table
import ApiDescription.Proofs.Combine.Order
import ApiDescription.Proofs.Combine.ServicePath
import ApiDescription.Proofs.Combine.Document
import ApiDescription.Proofs.Combine.Again
import ApiDescription.Proofs.Combine.Parameters
import ApiDescription.Proofs.Combine.Tags
import ApiDescription.Proofs.Combine.Blame
import ApiDescription.Proofs.Combine.DocumentTags
import ApiDescription.Proofs.Combine.PathShape
import ApiDescription.Proofs.Combine.SlashRuns
import ApiDescription.Proofs.Combine.Security
import ApiDescription.Proofs.Combine.Counts
import ApiDescription.Proofs.Combine.Validity
import ApiDescription.Proofs.Document.Metadata
import ApiDescription.Proofs.Document.Reference
import ApiDescription.Proofs.Document.SecurityScheme
import ApiDescription.Proofs.Document.SchemaObject
import ApiDescription.Proofs.Document.Content
import ApiDescription.Proofs.Document.OpenApi
import ApiDescription.Proofs.Schema.Placement
import ApiDescription.Proofs.Operation.PathTemplate
import ApiDescription.Proofs.Operation.Draft
import ApiDescription.Proofs.Operation.Checked
import ApiDescription.Proofs.Api.Emit
import ApiDescription.Proofs.Combine.Decisions
import ApiDescription.Proofs.Schema.Properties
import ApiDescription.Proofs.Operation.Parameters
import ApiDescription.Proofs.Operation.Codes
import ApiDescription.Proofs.Api.Validity
import ApiDescription.Proofs.Pointwise
import ApiDescription.Proofs.Manifest.Children
import ApiDescription.Proofs.Manifest.Definition
import ApiDescription.Proofs.Manifest.Meaning
import ApiDescription.Proofs.Schema.Preorder
import ApiDescription.Proofs.Combine.Rewritten
import ApiDescription.Proofs.Combine.Torn
import ApiDescription.Proofs.Combine.Agreement
import ApiDescription.Proofs.Combine.Listing
import ApiDescription.Proofs.Number.Exact
import ApiDescription.Proofs.Schema.AnyOrder
import ApiDescription.Proofs.Schema.Attribute
import ApiDescription.Proofs.Schema.Written
import ApiDescription.Proofs.Schema.WellFormed
import ApiDescription.Proofs.Schema.Bounds
import ApiDescription.Proofs.Schema.Shown
import ApiDescription.Proofs.Operation.StandardErrors
import ApiDescription.Proofs.Operation.Security
import ApiDescription.Proofs.Api.Webhooks
import ApiDescription.Proofs.Api.Components
