import EntityModel.Assoc
import EntityModel.Binary64.Basic
import EntityModel.Binary64.Rounding
import EntityModel.Container.Basic
import EntityModel.Container.Dump
import EntityModel.Container.Projection
import EntityModel.Container.Request
import EntityModel.Container.Selection
import EntityModel.Conversion
import EntityModel.Decimal.Notation
import EntityModel.Decimal.Reader
import EntityModel.Decimal.Shortest
import EntityModel.Difference.Pruning
import EntityModel.Difference.Report
import EntityModel.Difference.Script
import EntityModel.Difference.Sliding
import EntityModel.Difference.Structural
import EntityModel.Json.Basic
import EntityModel.Json.Printer
import EntityModel.Json.Reader
import EntityModel.Path.Basic
import EntityModel.Path.Encoding
import EntityModel.Path.Parser
import EntityModel.Path.Resolution
import EntityModel.Proofs.Builders
import EntityModel.Proofs.Container.Creation
import EntityModel.Proofs.Container.Leaks
import EntityModel.Proofs.Container.Lookup
import EntityModel.Proofs.Container.Operations
import EntityModel.Proofs.Container.PathTypes
import EntityModel.Proofs.Container.Projection
import EntityModel.Proofs.Container.Redaction
import EntityModel.Proofs.Container.Reload
import EntityModel.Proofs.Container.Session
import EntityModel.Proofs.Difference.Equality
import EntityModel.Proofs.Difference.NormalForm
import EntityModel.Proofs.Difference.Similarity
import EntityModel.Proofs.Lifting
import EntityModel.Proofs.LoweredForm
import EntityModel.Proofs.Lowering
import EntityModel.Proofs.Order
import EntityModel.Proofs.RawParts
import EntityModel.Proofs.Outcome
import EntityModel.Proofs.Path.Names
import EntityModel.Proofs.Resolution
import EntityModel.Proofs.Schema.Declared
import EntityModel.Proofs.Schema.Flags
import EntityModel.Proofs.Schema.Introspection
import EntityModel.Proofs.Typing
import EntityModel.Raw.Basic
import EntityModel.Raw.Json
import EntityModel.Schema.Basic
import EntityModel.Schema.Classification
import EntityModel.Schema.Config
import EntityModel.Schema.Decoding
import EntityModel.Schema.Encoding
import EntityModel.Schema.Error
import EntityModel.Schema.Hints
import EntityModel.Schema.Introspection
import EntityModel.Schema.Outline
import EntityModel.Schema.Registry
import EntityModel.Text.Alphanumeric
import EntityModel.Text.Blank
import EntityModel.Text.Digits
import EntityModel.Text.Hidden
import EntityModel.Text.Lines
import EntityModel.Text.Quoted
import EntityModel.Text.Ranges
import EntityModel.Toml.Reader
import EntityModel.Toml.Scalars
import EntityModel.Toml.Strings
import EntityModel.Toml.Table
import EntityModel.Value.Basic
import EntityModel.Value.Equality
import EntityModel.ValueType.Basic
import EntityModel.ValueType.Parser
import EntityModel.ValueType.Printer
import EntityModel.Proofs.Value.Equality
import EntityModel.Proofs.Schema.Table
import EntityModel.Proofs.Schema.Nesting
import EntityModel.Proofs.Schema.Scope
import EntityModel.Proofs.Path.Spelling
import EntityModel.Proofs.Container.Coverage
import EntityModel.Proofs.Lens
import EntityModel.Proofs.Container.Writing
import EntityModel.Proofs.Container.Filling
import EntityModel.Proofs.Container.Refusal
import EntityModel.Proofs.Difference.Convergence
import EntityModel.Proofs.Container.Difference
import EntityModel.Proofs.Delivery
import EntityModel.Proofs.Container.Convergence
import EntityModel.Proofs.Rearrangement
import EntityModel.Proofs.Container.SetOrder
import EntityModel.Proofs.Canonical
import EntityModel.Proofs.Container.Undeclared
import EntityModel.Proofs.ValueType.Words
import EntityModel.Proofs.ValueType.Grammar
import EntityModel.Proofs.ValueType.Printing
import EntityModel.Proofs.Path.Grammar
import EntityModel.Proofs.Path.Printing
import EntityModel.Proofs.Faults
import EntityModel.Proofs.Schema.Encoding
import EntityModel.Proofs.Value.Multisets
import EntityModel.Proofs.SetsAsLists
import EntityModel.Proofs.Schema.PreservedOrder
import EntityModel.Proofs.Container.PreservedOrder
import EntityModel.Proofs.DeadEnds
import EntityModel.Proofs.Path.Faults
import EntityModel.Proofs.Container.Modifiers
import EntityModel.Proofs.Container.Precedence
import EntityModel.Proofs.Difference.Nulls
import EntityModel.Proofs.Container.Lifecycle
import EntityModel.Proofs.Container.NullFree
import EntityModel.Proofs.Container.Copying
import EntityModel.Proofs.Container.Refilling
import EntityModel.Proofs.Difference.Leaves
import EntityModel.Proofs.Schema.Registration
import EntityModel.Proofs.Binary64.Value
import EntityModel.Proofs.Binary64.Integers
import EntityModel.Proofs.Container.Integers
import EntityModel.Proofs.Json.RoundTrip
import EntityModel.Proofs.Json.Lines
import EntityModel.Proofs.Difference.Report
import EntityModel.Proofs.Schema.Outline
