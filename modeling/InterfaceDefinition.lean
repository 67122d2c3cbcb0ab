import InterfaceDefinition.Annotation
import InterfaceDefinition.Annotation.Check
import InterfaceDefinition.Annotation.Param
import InterfaceDefinition.Annotation.Schema
import InterfaceDefinition.Decl
import InterfaceDefinition.Decl.Check
import InterfaceDefinition.Decl.Fault
import InterfaceDefinition.Decl.Member
import InterfaceDefinition.Decl.MemberCheck
import InterfaceDefinition.Decl.Source
import InterfaceDefinition.Diagnostic
import InterfaceDefinition.Diagnostic.Collector
import InterfaceDefinition.Document
import InterfaceDefinition.Evaluation
import InterfaceDefinition.Expr
import InterfaceDefinition.Expr.WellFormed
import InterfaceDefinition.InternalError
import InterfaceDefinition.Listing
import InterfaceDefinition.Location
import InterfaceDefinition.Number.Binary64
import InterfaceDefinition.Number.Floating
import InterfaceDefinition.Number.Integral
import InterfaceDefinition.Options
import InterfaceDefinition.Proofs.Abandonment.Cause
import InterfaceDefinition.Proofs.Abandonment.Checks
import InterfaceDefinition.Proofs.Abandonment.Validation
import InterfaceDefinition.Proofs.Acceptance.Advice
import InterfaceDefinition.Proofs.Acceptance.Containers
import InterfaceDefinition.Proofs.Acceptance.Declarations
import InterfaceDefinition.Proofs.Acceptance.Duplicates
import InterfaceDefinition.Proofs.Acceptance.EnumDefaults
import InterfaceDefinition.Proofs.Acceptance.Enumerators
import InterfaceDefinition.Proofs.Acceptance.Enums
import InterfaceDefinition.Proofs.Acceptance.FieldOwners
import InterfaceDefinition.Proofs.Acceptance.FixedSize
import InterfaceDefinition.Proofs.Acceptance.Immutable
import InterfaceDefinition.Proofs.Acceptance.Interfaces
import InterfaceDefinition.Proofs.Acceptance.Members
import InterfaceDefinition.Proofs.Acceptance.Passing
import InterfaceDefinition.Proofs.Acceptance.Rules
import InterfaceDefinition.Proofs.Acceptance.Types
import InterfaceDefinition.Proofs.Acceptance.Void
import InterfaceDefinition.Proofs.Annotation.Order
import InterfaceDefinition.Proofs.Annotation.Params
import InterfaceDefinition.Proofs.Annotation.Sets
import InterfaceDefinition.Proofs.Annotation.Usable
import InterfaceDefinition.Proofs.Backends.Nesting
import InterfaceDefinition.Proofs.Backends.Strictness
import InterfaceDefinition.Proofs.Diagnostic.Ledger
import InterfaceDefinition.Proofs.Evaluation.Circular
import InterfaceDefinition.Proofs.Evaluation.Closed
import InterfaceDefinition.Proofs.Evaluation.EnumValues
import InterfaceDefinition.Proofs.Evaluation.Filling
import InterfaceDefinition.Proofs.Evaluation.FloatingTexts
import InterfaceDefinition.Proofs.Evaluation.Integers
import InterfaceDefinition.Proofs.Evaluation.IntegralTexts
import InterfaceDefinition.Proofs.Evaluation.LookUps
import InterfaceDefinition.Proofs.Evaluation.Outcome
import InterfaceDefinition.Proofs.Evaluation.Unfolding
import InterfaceDefinition.Proofs.Evaluation.WellFormed
import InterfaceDefinition.Proofs.Evaluation.WrittenIntegers
import InterfaceDefinition.Proofs.Evaluation.WrittenValues
import InterfaceDefinition.Proofs.Independence.Passes
import InterfaceDefinition.Proofs.Independence.Validation
import InterfaceDefinition.Proofs.Number.IntegralLiterals
import InterfaceDefinition.Proofs.Number.Numerals
import InterfaceDefinition.Proofs.Number.Signs
import InterfaceDefinition.Proofs.Number.Words
import InterfaceDefinition.Proofs.Order.Passes
import InterfaceDefinition.Proofs.Order.Places
import InterfaceDefinition.Proofs.Order.Validation
import InterfaceDefinition.Proofs.Registry.History
import InterfaceDefinition.Proofs.Registry.Imports
import InterfaceDefinition.Proofs.Registry.Index
import InterfaceDefinition.Proofs.Registry.Reachable
import InterfaceDefinition.Proofs.Registry.Readings
import InterfaceDefinition.Proofs.Registry.Redefinitions
import InterfaceDefinition.Proofs.Registry.Scopes
import InterfaceDefinition.Proofs.Registry.Stability
import InterfaceDefinition.Proofs.Relocation.Checks
import InterfaceDefinition.Proofs.Relocation.Declarations
import InterfaceDefinition.Proofs.Relocation.Evaluation
import InterfaceDefinition.Proofs.Relocation.Passes
import InterfaceDefinition.Proofs.Resolution.Ambiguity
import InterfaceDefinition.Proofs.Resolution.Complaints
import InterfaceDefinition.Proofs.Resolution.Completion
import InterfaceDefinition.Proofs.Resolution.Documents
import InterfaceDefinition.Proofs.Resolution.Names
import InterfaceDefinition.Proofs.Resolution.Nodes
import InterfaceDefinition.Proofs.Resolution.Passes
import InterfaceDefinition.Proofs.Resolution.Steps
import InterfaceDefinition.Proofs.Signature.Canonical
import InterfaceDefinition.Proofs.Signature.Errors
import InterfaceDefinition.Proofs.Signature.Grammar
import InterfaceDefinition.Proofs.Signature.Positions
import InterfaceDefinition.Proofs.Signature.RoundTrip
import InterfaceDefinition.Proofs.Signature.Scanning
import InterfaceDefinition.Proofs.Source.Lines
import InterfaceDefinition.Proofs.Source.Values
import InterfaceDefinition.Proofs.Verdict.Arguments
import InterfaceDefinition.Proofs.Verdict.Checks
import InterfaceDefinition.Proofs.Verdict.Codes
import InterfaceDefinition.Proofs.Verdict.Honest
import InterfaceDefinition.Proofs.Verdict.Options
import InterfaceDefinition.Proofs.Verdict.Passes
import InterfaceDefinition.Proofs.Verdict.Validation
import InterfaceDefinition.Registry
import InterfaceDefinition.Reporting
import InterfaceDefinition.Resolution
import InterfaceDefinition.Text.Alphanumeric
import InterfaceDefinition.Text.Blank
import InterfaceDefinition.Text.Dotted
import InterfaceDefinition.Text.HideTag
import InterfaceDefinition.Text.Quoted
import InterfaceDefinition.Text.Uppercase
import InterfaceDefinition.TypeSpec
import InterfaceDefinition.TypeSpec.Backend
import InterfaceDefinition.TypeSpec.Check
import InterfaceDefinition.TypeSpec.Parser
import InterfaceDefinition.TypeSpec.Token
import InterfaceDefinition.TypeSpec.Usage
import InterfaceDefinition.Validation
import InterfaceDefinition.Value
import InterfaceDefinition.Value.Rendering
import InterfaceDefinition.Vocabulary
