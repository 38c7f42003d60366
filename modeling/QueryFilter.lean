import QueryFilter.Compiler
import QueryFilter.Proofs.Compiler
import QueryFilter.Proofs.Filter.Meaning
import QueryFilter.Proofs.Filter.Values
import QueryFilter.Proofs.Number.Decimal
import QueryFilter.Proofs.Pattern.Collapse
import QueryFilter.Proofs.Pattern.Matching
import QueryFilter.Proofs.Pattern.Shape
import QueryFilter.Proofs.Policy.Coverage
import QueryFilter.Proofs.Policy.Disclosure
import QueryFilter.Proofs.Policy.LetterCase
import QueryFilter.Proofs.Policy.Rules
import QueryFilter.Proofs.Policy.Sanitizing
import QueryFilter.Proofs.Policy.Spelling
import QueryFilter.Proofs.Policy.Tightening
import QueryFilter.Proofs.Query.Advance
import QueryFilter.Proofs.Query.Clause
import QueryFilter.Proofs.Query.Collapse
import QueryFilter.Proofs.Query.Context
import QueryFilter.Proofs.Query.Expressible
import QueryFilter.Proofs.Query.Induction
import QueryFilter.Proofs.Query.Measures
import QueryFilter.Proofs.Query.Nesting
import QueryFilter.Proofs.Query.Positions
import QueryFilter.Proofs.Query.Precedence
import QueryFilter.Proofs.Query.RoundTrip
import QueryFilter.Proofs.Query.WellFormed
import QueryFilter.Proofs.Sql.Alphabet
import QueryFilter.Proofs.Sql.Failures
import QueryFilter.Proofs.Sql.Grouping
import QueryFilter.Proofs.Sql.Guardrails
import QueryFilter.Proofs.Sql.Identifiers
import QueryFilter.Proofs.Sql.Modes
import QueryFilter.Proofs.Sql.Noninterference
import QueryFilter.Proofs.Sql.Output
import QueryFilter.Proofs.Sql.Parameters
import QueryFilter.Proofs.Sql.Settings
