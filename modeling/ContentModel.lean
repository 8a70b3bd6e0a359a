import ContentModel.Command.Compile
import ContentModel.Command.Dump
import ContentModel.Command.Export
import ContentModel.Command.Infer
import ContentModel.Main
import ContentModel.Proofs.Records
import ContentModel.Proofs.Schema.Names
import ContentModel.Proofs.Traversal
import ContentModel.Proofs.Payload.Media
import ContentModel.Proofs.Payload.Revision
import ContentModel.Proofs.Schema.Observation
import ContentModel.Proofs.Schema.Independence
import ContentModel.Proofs.Schema.Inference
import ContentModel.Proofs.Schema.Components
import ContentModel.Proofs.Schema.Edits
import ContentModel.Proofs.Schema.WellFormed
import ContentModel.Proofs.Payload.Keys
import ContentModel.Proofs.Payload.Attachments
import ContentModel.Proofs.Files.Entries
import ContentModel.Proofs.Files.Paths
import ContentModel.Proofs.Files.Directories
import ContentModel.Proofs.Json.Strings
import ContentModel.Proofs.Definition.Writing
import ContentModel.Proofs.Definition.Placement
import ContentModel.Proofs.Definition.Attributes
import ContentModel.Proofs.Payload.Agreement
import ContentModel.Proofs.Payload.Requirements
import ContentModel.Proofs.Number.Rounding
import ContentModel.Proofs.Number.Shortest
import ContentModel.Proofs.Json.Numbers
import ContentModel.Proofs.Json.Readable
import ContentModel.Proofs.Json.RoundTrip
import ContentModel.Proofs.Command.Basic
import ContentModel.Proofs.Command.Dump
import ContentModel.Proofs.Schema.Codec
import ContentModel.Proofs.Command.SavedSchema
import ContentModel.Proofs.Definition.References
import ContentModel.Proofs.Definition.Confinement
import ContentModel.Proofs.Http.Submission
import ContentModel.Proofs.Command.Migration
import ContentModel.Proofs.Payload.Completeness
import ContentModel.Proofs.Schema.Promotion
import ContentModel.Proofs.Schema.Uniqueness
import ContentModel.Proofs.Payload.Writes
import ContentModel.Proofs.Http.Delivery
import ContentModel.Proofs.Http.Acceptance
import ContentModel.Proofs.Recognition.Arrangement
import ContentModel.Proofs.Recognition.Tags
import ContentModel.Proofs.Schema.Places
import ContentModel.Proofs.Schema.Moves
import ContentModel.Proofs.Schema.Answers
import ContentModel.Proofs.Schema.Effects
import ContentModel.Proofs.Schema.Commuting
import ContentModel.Proofs.Text.Percent
import ContentModel.Proofs.Http.Addresses
import ContentModel.Proofs.Stores
