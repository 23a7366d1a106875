import ObjectRelational.Association.Descriptor
import ObjectRelational.Association.Loading
import ObjectRelational.Calendar.Date
import ObjectRelational.Calendar.Reading
import ObjectRelational.Calendar.Time
import ObjectRelational.Calendar.Timestamp
import ObjectRelational.ColumnType.Composite
import ObjectRelational.ColumnType.Native
import ObjectRelational.ColumnType.Scalar
import ObjectRelational.ColumnType.Token
import ObjectRelational.Composite.Text
import ObjectRelational.Converter
import ObjectRelational.Dialect.Basic
import ObjectRelational.Dialect.Chain
import ObjectRelational.Dialect.Registry
import ObjectRelational.Dialect.Standard
import ObjectRelational.Entity.Declaration
import ObjectRelational.Entity.Instance
import ObjectRelational.Error
import ObjectRelational.Identifier
import ObjectRelational.Json.Basic
import ObjectRelational.Json.Printing
import ObjectRelational.Json.Reading
import ObjectRelational.Json.Record
import ObjectRelational.Json.Written
import ObjectRelational.Mapping.Binding
import ObjectRelational.Mapping.Cache
import ObjectRelational.Mapping.Reading
import ObjectRelational.Mapping.RowMapper
import ObjectRelational.Number.BinaryFloat
import ObjectRelational.Number.Decimal
import ObjectRelational.Number.FloatText
import ObjectRelational.Number.Integer
import ObjectRelational.Number.Shortest
import ObjectRelational.Query.Condition
import ObjectRelational.Query.Insert
import ObjectRelational.Query.Select
import ObjectRelational.Query.Statement
import ObjectRelational.Row
import ObjectRelational.Session.Basic
import ObjectRelational.Session.Config
import ObjectRelational.Session.Connection
import ObjectRelational.Session.LoadTracker
import ObjectRelational.Session.Repository
import ObjectRelational.Spatial.PointText
import ObjectRelational.Table
import ObjectRelational.Text.Blank
import ObjectRelational.Text.Digit
import ObjectRelational.Text.Quoted
import ObjectRelational.Uuid
import ObjectRelational.Value.Basic
import ObjectRelational.Value.Display
import ObjectRelational.Value.Key
import ObjectRelational.Proofs.Association.Distribution
import ObjectRelational.Proofs.Association.Identity
import ObjectRelational.Proofs.Association.Interruption
import ObjectRelational.Proofs.Association.Return
import ObjectRelational.Proofs.Association.Traffic
import ObjectRelational.Proofs.Calendar.Text
import ObjectRelational.Proofs.Composite.Grammar
import ObjectRelational.Proofs.Composite.Levels
import ObjectRelational.Proofs.Composite.Structure
import ObjectRelational.Proofs.Composite.Text
import ObjectRelational.Proofs.Converter.RoundTrip
import ObjectRelational.Proofs.Dialect.History
import ObjectRelational.Proofs.Dialect.Keys
import ObjectRelational.Proofs.Dialect.Storage
import ObjectRelational.Proofs.Json.Text
import ObjectRelational.Proofs.Mapping.Cells
import ObjectRelational.Proofs.Mapping.Derivation
import ObjectRelational.Proofs.Mapping.Flattening
import ObjectRelational.Proofs.Mapping.Lookups
import ObjectRelational.Proofs.Mapping.Nesting
import ObjectRelational.Proofs.Mapping.Restoring
import ObjectRelational.Proofs.Mapping.Selection
import ObjectRelational.Proofs.Mapping.Transparency
import ObjectRelational.Proofs.Mapping.Violations
import ObjectRelational.Proofs.Number.DocumentText
import ObjectRelational.Proofs.Number.FloatText
import ObjectRelational.Proofs.Number.Rounding
import ObjectRelational.Proofs.Number.Widening
import ObjectRelational.Proofs.Query.Binding
import ObjectRelational.Proofs.Query.Parameters
import ObjectRelational.Proofs.Query.QuotedNames
import ObjectRelational.Proofs.Session.Binding
import ObjectRelational.Proofs.Session.Calls
import ObjectRelational.Proofs.Session.Converters
import ObjectRelational.Proofs.Session.Insertion
import ObjectRelational.Proofs.Session.LoadCounts
import ObjectRelational.Proofs.Session.Soundness
import ObjectRelational.Proofs.Session.Transparency
import ObjectRelational.Proofs.Spatial.PointText
import ObjectRelational.Proofs.Text.Joining
import ObjectRelational.Proofs.Text.Reading
import ObjectRelational.Proofs.Value.Keys
import ObjectRelational.Proofs.Association.Query
import ObjectRelational.Proofs.Dialect.Lookups
import ObjectRelational.Proofs.Identifier.Conversion
import ObjectRelational.Proofs.Converter.Errors
import ObjectRelational.Proofs.Mapping.Faults
import ObjectRelational.Proofs.Converter.Points
import ObjectRelational.Proofs.Mapping.Absence
import ObjectRelational.Proofs.Mapping.Aliases
import ObjectRelational.Proofs.Text.Language
import ObjectRelational.Proofs.Spatial.Grammar
import ObjectRelational.Proofs.Number.IntegerText
import ObjectRelational.Proofs.Converter.Documents
