import Transpiler.Generate.LocalName
import Transpiler.Main
import Transpiler.Token.Inspect
import Transpiler.Proofs.Command.ArgumentOrder
import Transpiler.Proofs.Command.KeepGoing
import Transpiler.Proofs.Decimal.TextValue
import Transpiler.Proofs.Diagnostic.Underlining
import Transpiler.Proofs.Generate.Confinement
import Transpiler.Proofs.Generate.FirstFault
import Transpiler.Proofs.Generate.Grouping
import Transpiler.Proofs.Generate.Joining
import Transpiler.Proofs.Grammar.Decorators
import Transpiler.Proofs.Grammar.LambdaReading
import Transpiler.Proofs.Grammar.NestingLimit
import Transpiler.Proofs.Grammar.SealedBlocks
import Transpiler.Proofs.Grammar.SpanBrackets
import Transpiler.Proofs.Grammar.TreeListing
import Transpiler.Proofs.Source.LineLookup
import Transpiler.Proofs.Token.CounterBounds
import Transpiler.Proofs.Token.EscapeAgreement
import Transpiler.Proofs.Token.IntegerLiteral
import Transpiler.Proofs.Token.MaximalMunch
