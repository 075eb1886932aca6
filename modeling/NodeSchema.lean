import NodeSchema.Builtin
import NodeSchema.C.Code
import NodeSchema.C.Run
import NodeSchema.C.Scope
import NodeSchema.C.Unit
import NodeSchema.Capacity
import NodeSchema.Command.Arguments
import NodeSchema.Command.Basic
import NodeSchema.Command.Report
import NodeSchema.Command.Run
import NodeSchema.Decimal.Shortest
import NodeSchema.Error
import NodeSchema.Field.Basic
import NodeSchema.Field.Reader
import NodeSchema.Files.Artifacts
import NodeSchema.Files.Path
import NodeSchema.Files.Schema
import NodeSchema.Files.Storage
import NodeSchema.Files.Tree
import NodeSchema.Format.Document
import NodeSchema.Format.Lines
import NodeSchema.Format.Printer
import NodeSchema.Generated.Declarations
import NodeSchema.Generated.Operations
import NodeSchema.Generated.Options
import NodeSchema.Json.Number
import NodeSchema.Json.Reader
import NodeSchema.Json.Token
import NodeSchema.Json.Value
import NodeSchema.Layout.Basic
import NodeSchema.Layout.Engine
import NodeSchema.Location
import NodeSchema.Main
import NodeSchema.Naming
import NodeSchema.Registry.Basic
import NodeSchema.Registry.Build
import NodeSchema.Registry.Entry
import NodeSchema.Registry.Json
import NodeSchema.Registry.Source
import NodeSchema.Sequence
import NodeSchema.Store.Action
import NodeSchema.Store.Allocate
import NodeSchema.Store.Attach
import NodeSchema.Store.Basic
import NodeSchema.Store.Fields
import NodeSchema.Store.Query
import NodeSchema.Store.Release
import NodeSchema.Text.Blank
import NodeSchema.Text.Quoted
import NodeSchema.Text.Upper
import NodeSchema.Text.Visible
import NodeSchema.Proofs.Except
import NodeSchema.Proofs.Keys
import NodeSchema.Proofs.Sequence
import NodeSchema.Proofs.Store.View
import NodeSchema.Proofs.Store.Place
import NodeSchema.Proofs.Store.Step
import NodeSchema.Proofs.Store.Lineage
import NodeSchema.Proofs.Store.Forest
import NodeSchema.Proofs.Store.Subtree
import NodeSchema.Proofs.Store.Runs
import NodeSchema.Proofs.Store.Refusal
import NodeSchema.Proofs.Store.Reading
import NodeSchema.Proofs.Store.Sequences
import NodeSchema.Proofs.Store.Origin
import NodeSchema.Proofs.Registry.Consistent
import NodeSchema.Proofs.Registry.Passes
import NodeSchema.Proofs.Registry.Build
import NodeSchema.Proofs.Registry.Builtin
import NodeSchema.Proofs.Registry.Numbering
import NodeSchema.Proofs.Generated.Lookup
import NodeSchema.Proofs.Store.Numbering
import NodeSchema.Proofs.Store.Typing
import NodeSchema.Proofs.Store.Attachment
import NodeSchema.Proofs.Store.Generations
import NodeSchema.Proofs.Layout.Plain
import NodeSchema.Proofs.Layout.Cache
import NodeSchema.Proofs.Layout.Sequential
import NodeSchema.Proofs.Layout.Embedding
import NodeSchema.Proofs.Layout.Leaves
import NodeSchema.Proofs.Text.Pieces
import NodeSchema.Proofs.Field.Printing
import NodeSchema.Proofs.Registry.Relocation
import NodeSchema.Proofs.Format.Document
import NodeSchema.Proofs.Registry.Entry
import NodeSchema.Proofs.Format.RoundTrip
import NodeSchema.Proofs.Field.Faults
import NodeSchema.Proofs.Field.Grammar
import NodeSchema.Proofs.Registry.Grammar
import NodeSchema.Proofs.Format.Outcome
import NodeSchema.Proofs.C.Lines
import NodeSchema.Proofs.C.Run
import NodeSchema.Proofs.C.Scope
import NodeSchema.Proofs.Names
import NodeSchema.Proofs.Generated.Decoding
import NodeSchema.Proofs.Layout.Aligned
import NodeSchema.Proofs.Layout.Search
import NodeSchema.Proofs.Layout.Recursion
import NodeSchema.Proofs.Command.Outcome
import NodeSchema.Proofs.Generated.Units
import NodeSchema.Proofs.Generated.Identifiers
import NodeSchema.Proofs.Generated.Containers
import NodeSchema.Proofs.Generated.Scopes
import NodeSchema.Proofs.Store.Collector
import NodeSchema.Proofs.Registry.Defects
import NodeSchema.Proofs.Files.Artifacts
import NodeSchema.Proofs.Format.Located
import NodeSchema.Proofs.Format.Rearranged
