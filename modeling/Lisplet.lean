import Lisplet.Binding
import Lisplet.Session
import Lisplet.Value.Objects
import Lisplet.Proofs.Digits
import Lisplet.Proofs.Gaps
import Lisplet.Proofs.Lexemes
import Lisplet.Proofs.Comparison
import Lisplet.Proofs.Copies
import Lisplet.Proofs.EqualityLaws
import Lisplet.Proofs.ListObjects
import Lisplet.Proofs.ListRuns
import Lisplet.Proofs.PairLaws
import Lisplet.Proofs.ReadValues
import Lisplet.Proofs.RoundTrip
import Lisplet.Proofs.Concatenation
import Lisplet.Proofs.Encoding
import Lisplet.Proofs.Interleaving
import Lisplet.Proofs.TemplatePairs
import Lisplet.Proofs.DepthOrder
import Lisplet.Proofs.ScopeLaws
import Lisplet.Proofs.Survival
import Lisplet.Proofs.Leaks
import Lisplet.Proofs.FileTrip
import Lisplet.Proofs.Loading
import Lisplet.Proofs.Countdown
import Lisplet.Proofs.Clauses
import Lisplet.Proofs.BindingForms
import Lisplet.Proofs.OperandAccess
import Lisplet.Proofs.Counters
import Lisplet.Proofs.LoopRounds
import Lisplet.Proofs.Mapping
import Lisplet.Proofs.FoldsAndSearches
import Lisplet.Proofs.ListProcedures
import Lisplet.Proofs.Consuming
import Lisplet.Proofs.StringSharing
import Lisplet.Proofs.IntegerDivision
import Lisplet.Proofs.NumberTexts
import Lisplet.Proofs.FreshNames
import Lisplet.Proofs.FreshCalls
import Lisplet.Proofs.FreshSymbols
import Lisplet.Proofs.SymbolCapture
import Lisplet.Proofs.AtomBoundaries
import Lisplet.Proofs.RadixNumerals
import Lisplet.Proofs.StringRanges
