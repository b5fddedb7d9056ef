import BusCompliance.CommandLine.Arguments
import BusCompliance.CommandLine.Commands
import BusCompliance.Compliance.Checker
import BusCompliance.Compliance.Fields
import BusCompliance.Compliance.Subject
import BusCompliance.Compliance.Violation
import BusCompliance.Cursor
import BusCompliance.Error
import BusCompliance.Event
import BusCompliance.Factory
import BusCompliance.Field
import BusCompliance.FileTree
import BusCompliance.Json.Document
import BusCompliance.Json.Number
import BusCompliance.Json.Token
import BusCompliance.Json.Value
import BusCompliance.Main
import BusCompliance.Message
import BusCompliance.Message.Call
import BusCompliance.Number.FloatText
import BusCompliance.Number.FloatType
import BusCompliance.Number.IntegerType
import BusCompliance.Number.Natural
import BusCompliance.Number.Shortest
import BusCompliance.Proofs.Compliance.BuiltSubject
import BusCompliance.Proofs.Compliance.Checker
import BusCompliance.Proofs.Compliance.Congruence
import BusCompliance.Proofs.Compliance.Fields
import BusCompliance.Proofs.Compliance.FirstViolation
import BusCompliance.Proofs.Compliance.Members
import BusCompliance.Proofs.Compliance.Obligation
import BusCompliance.Proofs.Compliance.Sizes
import BusCompliance.Proofs.Compliance.Subject
import BusCompliance.Proofs.Cursor
import BusCompliance.Proofs.Factory.Creation
import BusCompliance.Proofs.Factory.Defaults
import BusCompliance.Proofs.Factory.Identity
import BusCompliance.Proofs.Json.Written
import BusCompliance.Proofs.Message.History
import BusCompliance.Proofs.Number.Digits
import BusCompliance.Proofs.Number.FloatText
import BusCompliance.Proofs.Number.Order
import BusCompliance.Proofs.Number.Pattern
import BusCompliance.Proofs.Number.Reach
import BusCompliance.Proofs.Number.Rounding
import BusCompliance.Proofs.Number.Shortest
import BusCompliance.Proofs.Number.Spelling
import BusCompliance.Proofs.Outcome
import BusCompliance.Proofs.Registry.BestMatch
import BusCompliance.Proofs.Registry.Correspondence
import BusCompliance.Proofs.Registry.Deduction
import BusCompliance.Proofs.Registry.Inheritance
import BusCompliance.Proofs.Registry.Layering
import BusCompliance.Proofs.Registry.Learning
import BusCompliance.Proofs.Registry.Listed
import BusCompliance.Proofs.Registry.Load
import BusCompliance.Proofs.Registry.LoadOrder
import BusCompliance.Proofs.Registry.Lookup
import BusCompliance.Proofs.Registry.LowerLevels
import BusCompliance.Proofs.Registry.Ownership
import BusCompliance.Proofs.Registry.Qualified
import BusCompliance.Proofs.Registry.Refinement
import BusCompliance.Proofs.Registry.Relevance
import BusCompliance.Proofs.Registry.Repetition
import BusCompliance.Proofs.Registry.SubjectId
import BusCompliance.Proofs.Registry.Validation
import BusCompliance.Proofs.Registry.Verdict
import BusCompliance.Proofs.Schema.Declaration
import BusCompliance.Proofs.Template.Bounds
import BusCompliance.Proofs.Template.Timestamp
import BusCompliance.Proofs.Text.Case
import BusCompliance.Proofs.Text.Utf8
import BusCompliance.Proofs.Validator.Calls
import BusCompliance.Proofs.Value.Coercion
import BusCompliance.Proofs.Value.Narrowing
import BusCompliance.Proofs.Value.Text
import BusCompliance.Proofs.Wire.Casing
import BusCompliance.Proofs.Wire.Document
import BusCompliance.Proofs.Wire.FieldAgreement
import BusCompliance.Proofs.Wire.JsonRoundTrip
import BusCompliance.Proofs.Wire.JsonSpelling
import BusCompliance.Proofs.Wire.XmlPlacement
import BusCompliance.Proofs.Wire.XmlRoundTrip
import BusCompliance.Proofs.Wire.XmlSpelling
import BusCompliance.Proofs.Wire.XmlSteps
import BusCompliance.Proofs.Wire.XmlTruncation
import BusCompliance.Proofs.Xml.Truncated
import BusCompliance.Proofs.Xml.Written
import BusCompliance.Registry.Basic
import BusCompliance.Registry.Deduction
import BusCompliance.Registry.Learning
import BusCompliance.Registry.Load
import BusCompliance.Registry.Lookup
import BusCompliance.Roster
import BusCompliance.Schema.Config
import BusCompliance.Schema.Directory
import BusCompliance.Schema.Document
import BusCompliance.Schema.Edition2019
import BusCompliance.Schema.Source
import BusCompliance.Schema.Version
import BusCompliance.SchemaLevel
import BusCompliance.Status
import BusCompliance.Template.Address
import BusCompliance.Template.Basic
import BusCompliance.Template.Constraint
import BusCompliance.Template.FieldSpec
import BusCompliance.Template.Pattern
import BusCompliance.Template.Subject
import BusCompliance.Template.Timestamp
import BusCompliance.Text.Blank
import BusCompliance.Text.Case
import BusCompliance.Text.Dotted
import BusCompliance.Text.Hex
import BusCompliance.Text.Quoted
import BusCompliance.Text.Unprinted
import BusCompliance.Toml.Document
import BusCompliance.Toml.Moment
import BusCompliance.Toml.Record
import BusCompliance.Toml.Statement
import BusCompliance.Toml.Table
import BusCompliance.Toml.Text
import BusCompliance.Toml.Token
import BusCompliance.Toml.Value
import BusCompliance.Validator.Chain
import BusCompliance.Validator.Rule
import BusCompliance.Value.Basic
import BusCompliance.Value.Coercion
import BusCompliance.Value.Reading
import BusCompliance.Value.Type
import BusCompliance.Wire.Format
import BusCompliance.Wire.Json
import BusCompliance.Wire.Value
import BusCompliance.Wire.Word
import BusCompliance.Wire.Xml
import BusCompliance.Xml.Attribute
import BusCompliance.Xml.Entity
import BusCompliance.Xml.Token
