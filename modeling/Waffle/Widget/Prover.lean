/- The prover side of the turbo arithmetic widget: the quotient loop over the large domain, the
transcript element, the linearisation and the opening contribution. -/

import Mathlib.Algebra.Order.Ring.Int
import Waffle.Widget.Key

set_option autoImplicit false
set_option relaxedAutoImplicit false

namespace Waffle.Widget.Prover

open Waffle.Core Waffle.Widget.Key

/-- The values one iteration of the quotient loop reads at an index of the large domain. -/
structure GatePoint (R : Type) where
  w1 : R
  w2 : R
  w3 : R
  w4 : R
  q1 : R
  q2 : R
  q3 : R
  q4 : R
  q5 : R
  qM : R
  qC : R
  qArith : R

variable {R : Type} [CommRing R]

/-- The loop body of `compute_quotient_contribution` at one point: the value `T0` it adds into
`quotient_large[i]`. The coarse reductions are erased here; `Waffle.Arith` keeps them. -/
def quotientTerm (alpha alphaBase : R) (p : GatePoint R) : R :=
  let two : R := 2
  let seven : R := 7
  let T0 := p.w1 * p.qM
  let T0 := T0 * p.w2
  let T1 := p.w1 * p.q1
  let T2 := p.w2 * p.q2
  let T3 := p.w3 * p.q3
  let T4 := p.w4 * p.q4
  let T5 := p.w4 ^ 2
  let T5 := T5 - p.w4
  let T6 := p.w4 - two
  let T5 := T5 * T6
  let T5 := T5 * p.q5
  let T5 := T5 * alpha
  let T0 := T0 + T1
  let T2 := T2 + T3
  let T4 := T4 + T5
  let T0 := T0 + T2
  let T0 := T0 + T4
  let T0 := T0 + p.qC
  let T0 := T0 * p.qArith
  let T1 := p.qArith ^ 2
  let T1 := T1 - p.qArith
  let T2 := p.w4 + p.w4
  let T2 := T2 + T2
  let T2 := p.w3 - T2
  let T3 := T2 ^ 2
  let T3 := T3 + T3
  let T4 := T2 + T2
  let T4 := T4 + T2
  let T5 := T4 + T4
  let T4 := T4 + T5
  let T4 := T4 - T3
  let T4 := T4 - seven
  let T2 := T2 * T4
  let T1 := T1 * T2
  let T0 := T0 + T1
  T0 * alphaBase

/-! The gate identity the widget encodes, in three sub-identities. -/

/-- The arithmetic sub-identity `q_m·w_1·w_2 + q_1·w_1 + q_2·w_2 + q_3·w_3 + q_4·w_4 + q_c`. -/
def arithmeticTerm (p : GatePoint R) : R :=
  p.qM * p.w1 * p.w2 + p.q1 * p.w1 + p.q2 * p.w2 + p.q3 * p.w3 + p.q4 * p.w4 + p.qC

/-- The ternary sub-identity `q_5·(w_4² − w_4)(w_4 − 2)`, which vanishes on `w_4 ∈ {0, 1, 2}`. -/
def ternaryTerm (q5 w4 : R) : R := q5 * ((w4 ^ 2 - w4) * (w4 - 2))

/-- The bit-extraction sub-identity `(q_arith² − q_arith)·(9δ − 2δ² − 7)·δ` with `δ = w_3 − 4·w_4`,
active only where `q_arith = 2`. -/
def bitExtractionTerm (qArith w3 w4 : R) : R :=
  (qArith ^ 2 - qArith) * ((9 * (w3 - 4 * w4) - 2 * (w3 - 4 * w4) ^ 2 - 7) * (w3 - 4 * w4))

/-- The part of the identity under `alpha_base`: the arithmetic sub-identity gated by `q_arith`,
plus the bit-extraction sub-identity. -/
def gatedIdentity (p : GatePoint R) : R :=
  p.qArith * arithmeticTerm p + bitExtractionTerm p.qArith p.w3 p.w4

/-- The part of the identity under `alpha_base·alpha`: the ternary sub-identity gated by
`q_arith`. -/
def gatedTernary (p : GatePoint R) : R := p.qArith * ternaryTerm p.q5 p.w4

theorem quotientTerm_eq (alpha alphaBase : R) (p : GatePoint R) :
    quotientTerm alpha alphaBase p =
      alphaBase * gatedIdentity p + alphaBase * alpha * gatedTernary p := by
  simp only [quotientTerm, gatedIdentity, gatedTernary, arithmeticTerm, ternaryTerm,
    bitExtractionTerm]
  ring

-- With `q_arith = 2` and the quad `δ = 3` the bit-extraction term is 12: the source's comment
-- on the loop body puts it at 6.
example : bitExtractionTerm (2 : Int) 3 0 = 12 := by norm_num [bitExtractionTerm]

/-- Where `q_5` is set, the ternary sub-identity holds exactly on `w_4 ∈ {0, 1, 2}`. -/
theorem ternaryTerm_eq_zero_iff [IsDomain R] {q5 : R} (w4 : R) (active : q5 ≠ 0) :
    ternaryTerm q5 w4 = 0 ↔ w4 = 0 ∨ w4 = 1 ∨ w4 = 2 := by
  rw [ternaryTerm, show (w4 ^ 2 - w4) * (w4 - 2) = w4 * (w4 - 1) * (w4 - 2) by ring]
  simp only [mul_eq_zero, active, false_or, sub_eq_zero, or_assoc]

theorem ternaryTerm_eq_zero_iff_at_two :
    (1 : Int) ≠ 0 ∧ (ternaryTerm (1 : Int) 2 = 0 ↔ (2 : Int) = 0 ∨ (2 : Int) = 1 ∨ (2 : Int) = 2) :=
  ⟨one_ne_zero, ternaryTerm_eq_zero_iff 2 one_ne_zero⟩

/-! `compute_quotient_contribution` -/

/-- The indices the nested loop visits, in order: worker `j` of `num_threads` covers
`[j·thread_size, (j+1)·thread_size)`. -/
def threadIndices (numThreads threadSize : Nat) : List Nat :=
  (List.range numThreads).flatMap fun j => List.range' (j * threadSize) threadSize

/-- `quotient_large[i] += term`. -/
def addAt (q : PolyBuffer R) (i : Nat) (term : R) : PolyBuffer R := Function.update q i (q i + term)

/-- The point of the large domain at index `i`. -/
def gatePointAt (w : ProverTurboArithmeticWidget R) (w1Fft w2Fft w3Fft w4Fft : PolyBuffer R) (i : Nat) :
    GatePoint R :=
  ⟨w1Fft i, w2Fft i, w3Fft i, w4Fft i, w.q1Fft i, w.q2Fft i, w.q3Fft i, w.q4Fft i, w.q5Fft i,
    w.qMFft i, w.qCFft i, w.qArithFft i⟩

/-- The parallel loop of `compute_quotient_contribution`, run as one sequence of updates. -/
def quotientLoop (w : ProverTurboArithmeticWidget R) (alpha alphaBase : R)
    (w1Fft w2Fft w3Fft w4Fft quotientLarge : PolyBuffer R) : PolyBuffer R :=
  (threadIndices w.key.largeDomainNumThreads w.key.largeDomainThreadSize).foldl
    (fun q i => addAt q i (quotientTerm alpha alphaBase (gatePointAt w w1Fft w2Fft w3Fft w4Fft i)))
    quotientLarge

theorem foldl_addAt_apply (term : Nat → R) (l : List Nat) (distinct : l.Nodup) (q : PolyBuffer R)
    (k : Nat) :
    l.foldl (fun q i => addAt q i (term i)) q k = if k ∈ l then q k + term k else q k := by
  induction l generalizing q with
  | nil => simp
  | cons a l ih =>
    obtain ⟨fresh, distinct⟩ := List.nodup_cons.mp distinct
    rw [List.foldl_cons, ih distinct]
    by_cases ka : k = a
    · subst ka
      simp [addAt, fresh]
    · simp [addAt, ka, Function.update_noteq ka]

theorem threadIndices_eq_range (numThreads threadSize : Nat) :
    threadIndices numThreads threadSize = List.range (numThreads * threadSize) := by
  induction numThreads with
  | zero => simp [threadIndices]
  | succ n ih =>
    have chunks := List.range'_append_1 0 (n * threadSize) threadSize
    rw [Nat.zero_add, Nat.add_comm] at chunks
    rw [threadIndices, List.range_succ, List.flatMap_append, ← threadIndices, ih, Nat.succ_mul,
      List.range_eq_range', List.range_eq_range', List.flatMap_singleton, chunks]

theorem quotientLoop_apply (w : ProverTurboArithmeticWidget R) (alpha alphaBase : R)
    (w1Fft w2Fft w3Fft w4Fft quotientLarge : PolyBuffer R) (k : Nat) :
    quotientLoop w alpha alphaBase w1Fft w2Fft w3Fft w4Fft quotientLarge k =
      if k < w.key.largeDomainNumThreads * w.key.largeDomainThreadSize then
        quotientLarge k + quotientTerm alpha alphaBase (gatePointAt w w1Fft w2Fft w3Fft w4Fft k)
      else quotientLarge k := by
  rw [quotientLoop, threadIndices_eq_range, foldl_addAt_apply _ _ (List.nodup_range _)]
  simp only [List.mem_range]

/-- `compute_quotient_contribution(alpha_base, transcript)`: the base for the next widget and the
updated `quotient_large`; a missing wire FFT raises the fault. -/
def computeQuotientContribution (w : ProverTurboArithmeticWidget R) (alphaBase : R)
    (transcript : Transcript R) (quotientLarge : PolyBuffer R) : Except String (R × PolyBuffer R) := do
  let alpha := transcript.challenge "alpha"
  let w1Fft ← mapAt w.key.wireFfts "w_1_fft"
  let w2Fft ← mapAt w.key.wireFfts "w_2_fft"
  let w3Fft ← mapAt w.key.wireFfts "w_3_fft"
  let w4Fft ← mapAt w.key.wireFfts "w_4_fft"
  pure (alphaBase * alpha ^ 2, quotientLoop w alpha alphaBase w1Fft w2Fft w3Fft w4Fft quotientLarge)

theorem computeQuotientContribution_of_wireFfts (w : ProverTurboArithmeticWidget R)
    (alphaBase : R) (transcript : Transcript R) (quotientLarge : PolyBuffer R)
    {w1Fft w2Fft w3Fft w4Fft : PolyBuffer R} (h1 : w.key.wireFfts "w_1_fft" = some w1Fft)
    (h2 : w.key.wireFfts "w_2_fft" = some w2Fft) (h3 : w.key.wireFfts "w_3_fft" = some w3Fft)
    (h4 : w.key.wireFfts "w_4_fft" = some w4Fft) :
    computeQuotientContribution w alphaBase transcript quotientLarge =
      .ok (alphaBase * transcript.challenge "alpha" ^ 2,
        quotientLoop w (transcript.challenge "alpha") alphaBase w1Fft w2Fft w3Fft w4Fft
          quotientLarge) := by
  simp [computeQuotientContribution, h1, h2, h3, h4]

/-! `compute_transcript_elements`, `compute_linear_contribution` and
`compute_opening_poly_contribution` -/

/-- `compute_transcript_elements(transcript)`: `q_arith(z)` over the small domain, under
`"q_arith"`. -/
def computeTranscriptElements (w : ProverTurboArithmeticWidget R) (transcript : Transcript R) :
    Transcript R :=
  let z := transcript.challenge "z"
  transcript.addElement "q_arith" (w.qArith.evaluate z w.key.smallDomainSize)

/-- `compute_linear_contribution(alpha_base, transcript, r)`: the base for the next widget and the
updated linearisation polynomial `r`. -/
def computeLinearContribution (w : ProverTurboArithmeticWidget R) (alphaBase : R)
    (transcript : Transcript R) (r : PolyBuffer R) : R × PolyBuffer R :=
  let alpha := transcript.challenge "alpha"
  let wLEval := transcript.element "w_1"
  let wREval := transcript.element "w_2"
  let wOEval := transcript.element "w_3"
  let w4Eval := transcript.element "w_4"
  let qArithEval := transcript.element "q_arith"
  let two : R := 2
  let wLr := wLEval * wREval
  let isW4Bool := (w4Eval ^ 2 - w4Eval) * (w4Eval - two)
  let isW4Bool := isW4Bool * alpha
  (alphaBase * alpha ^ 2, addOverDomain w.key.smallDomainSize r fun i =>
    let T0 := wLr * w.qM i
    let T1 := wLEval * w.q1 i
    let T2 := wREval * w.q2 i
    let T3 := wOEval * w.q3 i
    let T4 := w4Eval * w.q4 i
    let T5 := isW4Bool * w.q5 i
    let T0 := T0 + T1
    let T2 := T2 + T3
    let T4 := T4 + T5
    let T0 := T0 + T2
    let T0 := T0 + T4
    let T0 := T0 + w.qC i
    let T0 := T0 * qArithEval
    T0 * alphaBase)

/-- The point the linearisation reads at coefficient `i`: the wire evaluations of the transcript
and the selector coefficients at `i`. -/
def linearPointAt (w : ProverTurboArithmeticWidget R) (transcript : Transcript R) (i : Nat) :
    GatePoint R :=
  ⟨transcript.element "w_1", transcript.element "w_2", transcript.element "w_3",
    transcript.element "w_4", w.q1 i, w.q2 i, w.q3 i, w.q4 i, w.q5 i, w.qM i, w.qC i, w.qArith i⟩

theorem computeLinearContribution_eq (w : ProverTurboArithmeticWidget R) (alphaBase : R)
    (transcript : Transcript R) (r : PolyBuffer R) :
    computeLinearContribution w alphaBase transcript r =
      (alphaBase * transcript.challenge "alpha" ^ 2,
        addOverDomain w.key.smallDomainSize r fun i =>
          alphaBase *
              (transcript.element "q_arith" * arithmeticTerm (linearPointAt w transcript i)) +
            alphaBase * transcript.challenge "alpha" *
              (transcript.element "q_arith" * ternaryTerm (w.q5 i) (transcript.element "w_4"))) := by
  simp only [computeLinearContribution, linearPointAt, arithmeticTerm, ternaryTerm, Prod.mk.injEq,
    true_and]
  exact congrArg _ (funext fun i => by ring)

/-- `compute_opening_poly_contribution(nu_base, transcript, poly)`: the base for the next widget
and the updated opening polynomial. -/
def computeOpeningPolyContribution (w : ProverTurboArithmeticWidget R) (nuBase : R)
    (transcript : Transcript R) (poly : PolyBuffer R) : R × PolyBuffer R :=
  let nu := transcript.challenge "nu"
  (nuBase * nu, addOverDomain w.key.smallDomainSize poly fun i => w.qArith i * nuBase)

end Waffle.Widget.Prover
