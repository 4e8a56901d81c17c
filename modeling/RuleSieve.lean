import RuleSieve.Main
import RuleSieve.Proofs.Accounting
import RuleSieve.Proofs.Anchoring
import RuleSieve.Proofs.Faults
import RuleSieve.Proofs.Findings
import RuleSieve.Proofs.Frame
import RuleSieve.Proofs.Height
import RuleSieve.Proofs.Meaning
import RuleSieve.Proofs.Narrowing
import RuleSieve.Proofs.Order
import RuleSieve.Proofs.Permission
import RuleSieve.Proofs.Trace
import RuleSieve.Proofs.Settings
import RuleSieve.Proofs.Document
import RuleSieve.Proofs.RecordForm
import RuleSieve.Proofs.StoredExpression
import RuleSieve.Proofs.Resolution
import RuleSieve.Proofs.Fix
import RuleSieve.Proofs.WhereFilter
import RuleSieve.Proofs.Conditions
import RuleSieve.Proofs.Message
import RuleSieve.Proofs.Preference
import RuleSieve.Proofs.Extent
import RuleSieve.Proofs.Occurrences
import RuleSieve.Proofs.Replacement
import RuleSieve.Proofs.FloatBits
import RuleSieve.Proofs.Rounding
import RuleSieve.Proofs.Comparison
import RuleSieve.Proofs.Separators
import RuleSieve.Proofs.DigitRun
import RuleSieve.Proofs.IntegerText
import RuleSieve.Proofs.Enclosure
import RuleSieve.Proofs.Positional
import RuleSieve.Proofs.IntegerArithmetic
import RuleSieve.Proofs.FloatText
import RuleSieve.Proofs.FloatArithmetic
import RuleSieve.Proofs.Accumulation
import RuleSieve.Proofs.WideInteger
import RuleSieve.Proofs.Overflow
import RuleSieve.Proofs.Truncation
import RuleSieve.Proofs.ComparisonChain
import RuleSieve.Proofs.Trichotomy
import RuleSieve.Proofs.Average
import RuleSieve.Proofs.Layout
import RuleSieve.Proofs.ProblemPlace
import RuleSieve.Proofs.Boundary
import RuleSieve.Proofs.InPlace
import RuleSieve.Proofs.Coverage
import RuleSieve.Proofs.Spelling
import RuleSieve.Proofs.DecimalText
import RuleSieve.Proofs.ByteOrder
import RuleSieve.Proofs.GroupBy
import RuleSieve.Proofs.Layers
import RuleSieve.Proofs.Registry
import RuleSieve.Proofs.ReportText
import RuleSieve.Proofs.Descent
import RuleSieve.Proofs.CallDepth
import RuleSieve.Proofs.Bookkeeping
