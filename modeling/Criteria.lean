import Criteria.Rule
import Criteria.Wire.Expr
import Criteria.Proofs.Correspondence
import Criteria.Proofs.Rewriting
import Criteria.Proofs.Calls
import Criteria.Proofs.Division
import Criteria.Proofs.Typing
import Criteria.Proofs.Locality
import Criteria.Proofs.Connectives
import Criteria.Proofs.ResultTypes
import Criteria.Proofs.Causes
import Criteria.Proofs.Rounding
import Criteria.Proofs.Doubles
import Criteria.Proofs.Shortest
import Criteria.Proofs.Grammar
import Criteria.Proofs.NumberText
import Criteria.Proofs.Documents
import Criteria.Proofs.DataText
import Criteria.Proofs.Literals
import Criteria.Proofs.Reading
import Criteria.Proofs.WireForms
import Criteria.Proofs.RuleText
import Criteria.Proofs.Operands
import Criteria.Proofs.Staging
import Criteria.Proofs.ContextText
import Criteria.Proofs.Laziness
import Criteria.Proofs.Extension
import Criteria.Proofs.Paths
import Criteria.Proofs.TextCasts
import Criteria.Proofs.Wrapping
import Criteria.Proofs.Interchange
import Criteria.Proofs.Verdicts
import Criteria.Proofs.CallCounts
import Criteria.Proofs.Comparisons
import Criteria.Proofs.OperandOrder
import Criteria.Proofs.Precedence
import Criteria.Proofs.Truncation
import Criteria.Proofs.Substrings
import Criteria.Proofs.Remainders
import Criteria.Proofs.Nearness
import Criteria.Proofs.IntegerOrder
import Criteria.Proofs.IntegerRange
import Criteria.Proofs.Registrations
import Criteria.Proofs.Dialogues
import Criteria.Proofs.Budgets
import Criteria.Proofs.Additions
