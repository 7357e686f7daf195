import BoundQuery.Main
import BoundQuery.Proofs.Rollback
import BoundQuery.Proofs.Alignment
import BoundQuery.Proofs.Placeholder
import BoundQuery.Proofs.FilterSurvival
import BoundQuery.Proofs.Shape
import BoundQuery.Proofs.SameText
import BoundQuery.Proofs.Clause
import BoundQuery.Proofs.Meaning
import BoundQuery.Proofs.DroppedClause
import BoundQuery.Proofs.Numeral
import BoundQuery.Proofs.Lexing
import BoundQuery.Proofs.Quoting
import BoundQuery.Proofs.Operators
import BoundQuery.Proofs.LeafText
import BoundQuery.Proofs.ConditionText
import BoundQuery.Proofs.Fragment
import BoundQuery.Proofs.ReadSteps
import BoundQuery.Proofs.Guarantee
import BoundQuery.Proofs.TokenLiterals
import BoundQuery.Proofs.LiteralOrigin
import BoundQuery.Proofs.FirstToken
import BoundQuery.Proofs.NumericLiteral
import BoundQuery.Proofs.Climbing
import BoundQuery.Proofs.Precedence
import BoundQuery.Proofs.Arithmetic
import BoundQuery.Proofs.ArithmeticTokens
import BoundQuery.Proofs.ChainReading
import BoundQuery.Proofs.ArithmeticReading
import BoundQuery.Proofs.ArithmeticText
import BoundQuery.Proofs.NormalForm
import BoundQuery.Proofs.NormalText
import BoundQuery.Proofs.Idempotence
import BoundQuery.Proofs.SearchAlignment
import BoundQuery.Proofs.NameToken
import BoundQuery.Proofs.SelectionTokens
import BoundQuery.Proofs.ListReading
import BoundQuery.Proofs.CallForms
import BoundQuery.Proofs.CallReading
import BoundQuery.Proofs.WellFormed
import BoundQuery.Proofs.SelectionReading
import BoundQuery.Proofs.SelectionText
import BoundQuery.Proofs.Failure
import BoundQuery.Proofs.Skeleton
import BoundQuery.Proofs.ResultLabels
import BoundQuery.Proofs.TreeInvariant
import BoundQuery.Proofs.MoreOptions
import BoundQuery.Proofs.ValueTerm
import BoundQuery.Proofs.ValueText
import BoundQuery.Proofs.Arity
import BoundQuery.Proofs.QueryReading
import BoundQuery.Proofs.QueryClauses
import BoundQuery.Proofs.QueryText
import BoundQuery.Proofs.NameQuoting
import BoundQuery.Proofs.DistinctPlace
import BoundQuery.Proofs.ChainOperand
import BoundQuery.Proofs.FlatChain
import BoundQuery.Proofs.ByteOrder
import BoundQuery.Proofs.OptionMap
import BoundQuery.Proofs.OptionLoading
import BoundQuery.Proofs.OptionPrecedence
import BoundQuery.Proofs.CommentLines
import BoundQuery.Proofs.JsonNumbers
import BoundQuery.Proofs.JsonScalars
import BoundQuery.Proofs.JsonDocuments
import BoundQuery.Proofs.BoundOutput
import BoundQuery.Proofs.Parentheses
import BoundQuery.Proofs.LimitText
