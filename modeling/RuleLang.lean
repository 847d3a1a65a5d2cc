import RuleLang.Main
import RuleLang.Proofs.Command.Batch
import RuleLang.Proofs.Command.Run
import RuleLang.Proofs.Diagnostic.Snippet
import RuleLang.Proofs.Duration.Parts
import RuleLang.Proofs.Eval.Arithmetic
import RuleLang.Proofs.Eval.Builtin
import RuleLang.Proofs.Eval.Dates
import RuleLang.Proofs.Eval.Folding
import RuleLang.Proofs.Eval.Monotonicity
import RuleLang.Proofs.Eval.Registration
import RuleLang.Proofs.Eval.Strictness
import RuleLang.Proofs.Expr.Necessity
import RuleLang.Proofs.Expr.Reach
import RuleLang.Proofs.Grammar.Tower
import RuleLang.Proofs.Grammar.Trace
import RuleLang.Proofs.Program.Canonical
import RuleLang.Proofs.Program.RoundTrip
import RuleLang.Proofs.Token.Spacing
import RuleLang.Proofs.Value.Equality
import RuleLang.Proofs.Value.Magnitudes
