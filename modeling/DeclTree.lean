import DeclTree.Command.Flag
import DeclTree.Command.Run
import DeclTree.Command.Session
import DeclTree.Command.Spec
import DeclTree.Config.Basic
import DeclTree.Config.Load
import DeclTree.Config.Save
import DeclTree.Config.Settings
import DeclTree.Config.Validate
import DeclTree.Data.Basic
import DeclTree.Data.Json.Printer
import DeclTree.Data.Json.Reader
import DeclTree.Data.Toml.Basic
import DeclTree.Data.Toml.Printer
import DeclTree.Data.Toml.Reader
import DeclTree.Data.Toml.Scalar
import DeclTree.Data.Toml.Slot
import DeclTree.Data.Yaml.Meaning
import DeclTree.Data.Yaml.Node
import DeclTree.Data.Yaml.Printer
import DeclTree.Data.Yaml.Resolve
import DeclTree.Data.Yaml.Scalar
import DeclTree.Data.Yaml.Spot
import DeclTree.Data.Yaml.Tag
import DeclTree.Data.Yaml.Token
import DeclTree.Document.Basic
import DeclTree.Document.Data
import DeclTree.Document.Decode
import DeclTree.Document.Encode
import DeclTree.Document.Shape
import DeclTree.Document.Slate
import DeclTree.Document.Text
import DeclTree.Document.Yaml
import DeclTree.Escape.Collision
import DeclTree.Escape.Pass
import DeclTree.Escape.Profile
import DeclTree.Fault
import DeclTree.FileTree
import DeclTree.Log
import DeclTree.Lowering.Pipeline
import DeclTree.Lowering.Rules
import DeclTree.Lowering.Run
import DeclTree.Lowering.Traversal
import DeclTree.Main
import DeclTree.Name
import DeclTree.Number.Binary
import DeclTree.Number.Integer
import DeclTree.Owner
import DeclTree.Passes
import DeclTree.Proofs.Lowering.Outcome
import DeclTree.Proofs.Lowering.Rewriting
import DeclTree.Proofs.Tree.Every
import DeclTree.Proofs.Tree.Induction
import DeclTree.Provenance
import DeclTree.SelfType
import DeclTree.Text.Base64
import DeclTree.Text.Blank
import DeclTree.Text.Csv
import DeclTree.Text.Lowercase
import DeclTree.Text.Pieces
import DeclTree.Text.Printable
import DeclTree.Text.Quoted
import DeclTree.Tree.Basic
import DeclTree.Tree.Flatten
import DeclTree.Tree.Kind
import DeclTree.Tree.Node
import DeclTree.Version
import DeclTree.Proofs.Lowering.CarriesOut
import DeclTree.Proofs.Document.Reading
import DeclTree.Proofs.Name
import DeclTree.Proofs.SelfType.Substitution
import DeclTree.Proofs.Tree.WellFormed
import DeclTree.Proofs.Document.RoundTrip
import DeclTree.Proofs.Lowering.Renaming
import DeclTree.Proofs.Tree.Segments
import DeclTree.Proofs.Tree.Blank
import DeclTree.Proofs.Escape.EveryName
import DeclTree.Proofs.Document.Decoded
import DeclTree.Proofs.Escape.Collisions
import DeclTree.Proofs.Lowering.NodeByNode
import DeclTree.Proofs.Lowering.Composition
import DeclTree.Proofs.Lowering.Stages
import DeclTree.Proofs.SelfType.Order
import DeclTree.Proofs.SelfType.Remaining
import DeclTree.Proofs.Lowering.Flattening
import DeclTree.Proofs.Lowering.Readable
import DeclTree.Proofs.Document.NormalForm
import DeclTree.Proofs.Fault
import DeclTree.Proofs.Lowering.EveryRun
import DeclTree.Proofs.Lowering.Skeleton
import DeclTree.Proofs.Lowering.Completion
import DeclTree.Proofs.Lowering.Concurrent
import DeclTree.Proofs.Document.Writable
import DeclTree.Proofs.Command.Jobs
import DeclTree.Proofs.FileTree
import DeclTree.Proofs.Passes
import DeclTree.Proofs.Command.AllOrNothing
import DeclTree.Proofs.Escape.Stability
import DeclTree.Proofs.Lowering.Unknown
import DeclTree.Proofs.Document.Grammar
import DeclTree.Proofs.Tree.Flatten
import DeclTree.Proofs.Lowering.Pipelines
import DeclTree.Proofs.Lowering.Identifiers
import DeclTree.Proofs.Tree.Ancestors
import DeclTree.Proofs.Lowering.Dispatch
import DeclTree.Proofs.Escape.Twins
import DeclTree.Proofs.Document.Places
import DeclTree.Proofs.Document.Refusals
import DeclTree.Proofs.Document.Traversal
import DeclTree.Proofs.Document.SourceOrder
import DeclTree.Proofs.Document.Minting
import DeclTree.Proofs.Escape.Reports
import DeclTree.Proofs.Config.History
