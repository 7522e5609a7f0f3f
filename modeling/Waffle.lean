import Waffle.Core
import Waffle.PublicInputs.Delta
import Waffle.PublicInputs.Permutation
import Waffle.Widget.Key
import Waffle.Widget.Prover
import Waffle.Widget.Verifier
import Waffle.Widget.Agreement
import Waffle.Widget.Chain
import Waffle.Widget.Parallel
import Waffle.Arith.Coarse
import Waffle.Arith.LoopBody
import Waffle.Arith.QuotientLoop
import Waffle.Arith.Linearisation
import Waffle.Arith.ParallelLoop
