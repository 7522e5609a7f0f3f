/- The challenge bases passed along a round of widget invocations: every invocation receives its
own powers of `alpha` and `nu`, on the prover and on the verifier side. -/

import Waffle.Widget.Verifier

set_option autoImplicit false
set_option relaxedAutoImplicit false

namespace Waffle.Widget.Chain

open Waffle.Core Waffle.Widget.Key Waffle.Widget.Prover Waffle.Widget.Verifier

variable {R : Type} [CommRing R]

/-! The passes of a round, each widget passed the base the previous one returned. -/

/-- The prover's quotient pass over the widgets. -/
def quotientRound (ws : List (ProverTurboArithmeticWidget R)) (transcript : Transcript R)
    (start : R × PolyBuffer R) : Except String (R × PolyBuffer R) :=
  ws.foldlM (fun s w => computeQuotientContribution w s.1 transcript s.2) start

/-- The prover's linearisation pass over the widgets. -/
def linearRound (ws : List (ProverTurboArithmeticWidget R)) (transcript : Transcript R)
    (start : R × PolyBuffer R) : R × PolyBuffer R :=
  ws.foldl (fun s w => computeLinearContribution w s.1 transcript s.2) start

/-- The prover's opening pass over the widgets. -/
def openingRound (ws : List (ProverTurboArithmeticWidget R)) (transcript : Transcript R)
    (start : R × PolyBuffer R) : R × PolyBuffer R :=
  ws.foldl (fun s w => computeOpeningPolyContribution w s.1 transcript s.2) start

/-- The verifier's quotient evaluation pass over `k` widgets: the base and `t_eval`. -/
def quotientEvaluationRound (k : Nat) (transcript : Transcript R) (start : R × R) : R × R :=
  (fun s => computeQuotientEvaluationContribution s.1 transcript s.2)^[k] start

/-- The verifier's batch evaluation pass over `k` widgets: the base and `batch_eval`. -/
def batchEvaluationRound (k : Nat) (transcript : Transcript R) (start : R × R) : R × R :=
  (fun s => computeBatchEvaluationContribution s.2 s.1 transcript)^[k] start

/-- The verifier's scalar multiplication pass over `k` widgets. -/
def scalarMultiplicationRound {G : Type} (onCurve : G → Bool) (key : VerificationKey G)
    (transcript : Transcript R) (start : ChallengeCoefficients R × List G × List R) :
    Nat → Except (String × List G × List R) (ChallengeCoefficients R × List G × List R)
  | 0 => .ok start
  | k + 1 => do
    let s ← scalarMultiplicationRound onCurve key transcript start k
    appendScalarMultiplicationInputs onCurve key s.1 transcript s.2.1 s.2.2

private theorem computeQuotientContribution_base {w : ProverTurboArithmeticWidget R} {alphaBase : R}
    {transcript : Transcript R} {quotientLarge : PolyBuffer R} {s : R × PolyBuffer R}
    (returned : computeQuotientContribution w alphaBase transcript quotientLarge = .ok s) :
    s.1 = alphaBase * transcript.challenge "alpha" ^ 2 := by
  simp only [computeQuotientContribution, mapAt] at returned
  repeat' split at returned
  all_goals cases returned <;> rfl

private theorem appendScalarMultiplicationInputs_base {G : Type} {onCurve : G → Bool}
    {key : VerificationKey G} {challenge : ChallengeCoefficients R} {transcript : Transcript R}
    {points : List G} {scalars : List R} {s : ChallengeCoefficients R × List G × List R}
    (returned : appendScalarMultiplicationInputs onCurve key challenge transcript points scalars =
      .ok s) :
    s.1 = ⟨challenge.alphaBase * challenge.alphaStep ^ 2, challenge.alphaStep,
      challenge.nuBase * challenge.nuStep, challenge.nuStep, challenge.linearNu⟩ := by
  simp only [appendScalarMultiplicationInputs] at returned
  cases pushed : (scalarMultiplicationTerms challenge transcript).foldlM (pushIfOnCurve onCurve key)
    (points, scalars) with
  | error e => simp [pushed] at returned
  | ok v =>
    simp only [pushed, ok_bind] at returned
    cases returned
    rfl

private theorem quotientRound_base (ws : List (ProverTurboArithmeticWidget R)) (transcript : Transcript R)
    (start s : R × PolyBuffer R) (returned : quotientRound ws transcript start = .ok s) :
    s.1 = start.1 * transcript.challenge "alpha" ^ (2 * ws.length) := by
  induction ws generalizing start with
  | nil => cases returned; simp
  | cons w ws ih =>
    simp only [quotientRound, List.foldlM_cons] at returned
    cases first : computeQuotientContribution w start.1 transcript start.2 with
    | error e => simp [first] at returned
    | ok s₀ =>
      simp only [first, ok_bind] at returned
      rw [ih s₀ returned, computeQuotientContribution_base first, List.length_cons]
      ring

private theorem linearRound_base (ws : List (ProverTurboArithmeticWidget R)) (transcript : Transcript R)
    (start : R × PolyBuffer R) :
    (linearRound ws transcript start).1 =
      start.1 * transcript.challenge "alpha" ^ (2 * ws.length) := by
  induction ws generalizing start with
  | nil => simp [linearRound]
  | cons w ws ih =>
    simp only [linearRound, List.foldl_cons] at ih ⊢
    rw [ih, computeLinearContribution_eq, List.length_cons]
    ring

private theorem openingRound_base (ws : List (ProverTurboArithmeticWidget R)) (transcript : Transcript R)
    (start : R × PolyBuffer R) :
    (openingRound ws transcript start).1 = start.1 * transcript.challenge "nu" ^ ws.length := by
  induction ws generalizing start with
  | nil => simp [openingRound]
  | cons w ws ih =>
    simp only [openingRound, List.foldl_cons] at ih ⊢
    rw [ih, computeOpeningPolyContribution, List.length_cons]
    ring

private theorem quotientEvaluationRound_base (k : Nat) (transcript : Transcript R) (start : R × R) :
    (quotientEvaluationRound k transcript start).1 =
      start.1 * transcript.challenge "alpha" ^ (2 * k) := by
  induction k with
  | zero => simp [quotientEvaluationRound]
  | succ k ih =>
    rw [quotientEvaluationRound, Function.iterate_succ_apply', ← quotientEvaluationRound,
      computeQuotientEvaluationContribution_eq, ih]
    ring

private theorem batchEvaluationRound_base (k : Nat) (transcript : Transcript R) (start : R × R) :
    (batchEvaluationRound k transcript start).1 = start.1 * transcript.challenge "nu" ^ k := by
  induction k with
  | zero => simp [batchEvaluationRound]
  | succ k ih =>
    rw [batchEvaluationRound, Function.iterate_succ_apply', ← batchEvaluationRound,
      computeBatchEvaluationContribution, ih]
    ring

private theorem scalarMultiplicationRound_base {G : Type} (onCurve : G → Bool) (key : VerificationKey G)
    (transcript : Transcript R) (start : ChallengeCoefficients R × List G × List R) (k : Nat)
    (s : ChallengeCoefficients R × List G × List R)
    (returned : scalarMultiplicationRound onCurve key transcript start k = .ok s) :
    s.1 = ⟨start.1.alphaBase * start.1.alphaStep ^ (2 * k), start.1.alphaStep,
      start.1.nuBase * start.1.nuStep ^ k, start.1.nuStep, start.1.linearNu⟩ := by
  induction k generalizing s with
  | zero => cases returned; simp
  | succ k ih =>
    simp only [scalarMultiplicationRound] at returned
    cases before : scalarMultiplicationRound onCurve key transcript start k with
    | error e => simp [before] at returned
    | ok s₀ =>
      simp only [before, ok_bind] at returned
      rw [appendScalarMultiplicationInputs_base returned, ih s₀ before]
      simp only [ChallengeCoefficients.mk.injEq]
      refine ⟨by ring, trivial, by ring, trivial, trivial⟩

section Invocation

variable (earlier : List (ProverTurboArithmeticWidget R)) (w : ProverTurboArithmeticWidget R)
  (transcript : Transcript R)

private theorem quotient_invocation (quotientLarge : PolyBuffer R) (s : R × PolyBuffer R)
    (returned : quotientRound earlier transcript (1, quotientLarge) = .ok s) :
    let alpha := transcript.challenge "alpha"
    let j := earlier.length
    s.1 = alpha ^ (2 * j) ∧
      ∀ w1Fft w2Fft w3Fft w4Fft, w.key.wireFfts "w_1_fft" = some w1Fft →
        w.key.wireFfts "w_2_fft" = some w2Fft → w.key.wireFfts "w_3_fft" = some w3Fft →
        w.key.wireFfts "w_4_fft" = some w4Fft →
        ∃ s', computeQuotientContribution w s.1 transcript s.2 = .ok s' ∧
          ∀ k < w.key.largeDomainNumThreads * w.key.largeDomainThreadSize,
            s'.2 k - s.2 k =
              alpha ^ (2 * j) * gatedIdentity (gatePointAt w w1Fft w2Fft w3Fft w4Fft k) +
                alpha ^ (2 * j + 1) * gatedTernary (gatePointAt w w1Fft w2Fft w3Fft w4Fft k) := by
  intro alpha j
  have base : s.1 = alpha ^ (2 * j) := by rw [quotientRound_base _ _ _ _ returned, one_mul]
  refine ⟨base, fun w1Fft w2Fft w3Fft w4Fft h1 h2 h3 h4 => ⟨_,
    computeQuotientContribution_of_wireFfts w s.1 transcript s.2 h1 h2 h3 h4, fun k inDomain => ?_⟩⟩
  simp only [quotientLoop_apply, if_pos inDomain, add_sub_cancel_left, quotientTerm_eq, base,
    pow_succ]

private theorem linear_invocation (r : PolyBuffer R) :
    let alpha := transcript.challenge "alpha"
    let j := earlier.length
    let s := linearRound earlier transcript (1, r)
    s.1 = alpha ^ (2 * j) ∧ ∀ i < w.key.smallDomainSize,
      (computeLinearContribution w s.1 transcript s.2).2 i - s.2 i =
        alpha ^ (2 * j) *
            (transcript.element "q_arith" * arithmeticTerm (linearPointAt w transcript i)) +
          alpha ^ (2 * j + 1) *
            (transcript.element "q_arith" * ternaryTerm (w.q5 i) (transcript.element "w_4")) := by
  intro alpha j s
  have base : s.1 = alpha ^ (2 * j) := by rw [linearRound_base, one_mul]
  refine ⟨base, fun i inDomain => ?_⟩
  simp only [computeLinearContribution_eq, addOverDomain_of_lt _ _ inDomain, add_sub_cancel_left,
    base, pow_succ]

private theorem opening_invocation (poly : PolyBuffer R) :
    let s := openingRound earlier transcript (1, poly)
    s.1 = transcript.challenge "nu" ^ earlier.length ∧ ∀ i < w.key.smallDomainSize,
      (computeOpeningPolyContribution w s.1 transcript s.2).2 i - s.2 i =
        transcript.challenge "nu" ^ earlier.length * w.qArith i := by
  intro s
  have base : s.1 = transcript.challenge "nu" ^ earlier.length := by rw [openingRound_base, one_mul]
  refine ⟨base, fun i inDomain => ?_⟩
  simp only [computeOpeningPolyContribution, addOverDomain_of_lt _ _ inDomain, add_sub_cancel_left,
    base, mul_comm]

private theorem quotientEvaluation_invocation (j : Nat) (tEval : R) :
    let s := quotientEvaluationRound j transcript (1, tEval)
    s.1 = transcript.challenge "alpha" ^ (2 * j) ∧
      (computeQuotientEvaluationContribution s.1 transcript s.2).2 - s.2 =
        transcript.challenge "alpha" ^ (2 * j) * bitExtractionTerm (transcript.element "q_arith")
          (transcript.element "w_3") (transcript.element "w_4") := by
  intro s
  have base : s.1 = transcript.challenge "alpha" ^ (2 * j) := by
    rw [quotientEvaluationRound_base, one_mul]
  exact ⟨base, by rw [computeQuotientEvaluationContribution_eq, add_sub_cancel_left, base]⟩

private theorem batchEvaluation_invocation (j : Nat) (batchEval : R) :
    let s := batchEvaluationRound j transcript (1, batchEval)
    s.1 = transcript.challenge "nu" ^ j ∧
      (computeBatchEvaluationContribution s.2 s.1 transcript).2 - s.2 =
        transcript.challenge "nu" ^ j * transcript.element "q_arith" := by
  intro s
  have base : s.1 = transcript.challenge "nu" ^ j := by rw [batchEvaluationRound_base, one_mul]
  exact ⟨base, by rw [computeBatchEvaluationContribution, add_sub_cancel_left, base, mul_comm]⟩

private theorem scalarMultiplication_invocation (j : Nat) {G : Type} (onCurve : G → Bool)
    (key : VerificationKey G) (linearNu : R) (points : List G) (scalars : List R)
    (s : ChallengeCoefficients R × List G × List R)
    (returned : scalarMultiplicationRound onCurve key transcript
      (⟨1, transcript.challenge "alpha", 1, transcript.challenge "nu", linearNu⟩, points, scalars)
        j = .ok s) :
    let alpha := transcript.challenge "alpha"
    let wL := transcript.element "w_1"
    let wR := transcript.element "w_2"
    let wO := transcript.element "w_3"
    let w4 := transcript.element "w_4"
    let qArithEval := transcript.element "q_arith"
    s.1 =
        ⟨alpha ^ (2 * j), alpha, transcript.challenge "nu" ^ j, transcript.challenge "nu", linearNu⟩ ∧
      ∀ commitment : String → G,
        (∀ name ∈ commitmentNames, key.constraintSelectors name = some (commitment name)) →
        ∃ s', appendScalarMultiplicationInputs onCurve key s.1 transcript s.2.1 s.2.2 = .ok s' ∧
          s'.2.2 = s.2.2 ++ (onCurvePairs onCurve commitment (commitmentNames.zip
            [alpha ^ (2 * j) * (wL * linearNu * qArithEval),
              alpha ^ (2 * j) * (wR * linearNu * qArithEval),
              alpha ^ (2 * j) * (wO * linearNu * qArithEval),
              alpha ^ (2 * j) * (w4 * linearNu * qArithEval),
              alpha ^ (2 * j + 1) * ((w4 ^ 2 - w4) * (w4 - 2) * linearNu * qArithEval),
              alpha ^ (2 * j) * (wL * wR * qArithEval * linearNu),
              alpha ^ (2 * j) * (linearNu * qArithEval),
              transcript.challenge "nu" ^ j])).map Prod.snd := by
  intro alpha wL wR wO w4 qArithEval
  have base := scalarMultiplicationRound_base onCurve key transcript _ j s returned
  simp only [one_mul] at base
  refine ⟨base, fun commitment present => ⟨_,
    appendScalarMultiplicationInputs_of_present onCurve key commitment present _ _ _ _, ?_⟩⟩
  dsimp only
  congr 3
  simp only [base, scalarMultiplicationTerms, commitmentNames, List.zip_cons_cons,
    List.zip_nil_left, List.cons.injEq, Prod.mk.injEq, true_and, and_true, pow_succ]
  refine ⟨?_, ?_, ?_, ?_, ?_, ?_, ?_⟩ <;> ring

end Invocation

/-- Along a round started from `alpha_base = nu_base = 1`, with `alpha_step = alpha` and
`nu_step = nu` on the verifier side, the invocation after `j` earlier ones receives `alpha^(2j)`
and `nu^j` on both sides, and everything it adds, the scalars the verifier appends for the
on-curve commitments included, is `alpha^(2j)·A + alpha^(2j+1)·B` or `nu^j·C`,
where `A` (the arithmetic and bit-extraction sub-identities), `B` (the ternary one) and `C` are
built from the selectors, the wires and the transcript's evaluations alone: no power of `alpha`
or `nu` serves two invocations, nor both sub-identities. -/
theorem invocation_uses_own_challenge_powers (earlier : List (ProverTurboArithmeticWidget R))
    (w : ProverTurboArithmeticWidget R) (transcript : Transcript R) (quotientLarge r poly : PolyBuffer R)
    (tEval batchEval linearNu : R) {G : Type} (onCurve : G → Bool) (key : VerificationKey G)
    (points : List G) (scalars : List R) :
    let j := earlier.length
    let alpha := transcript.challenge "alpha"
    let nu := transcript.challenge "nu"
    let wL := transcript.element "w_1"
    let wR := transcript.element "w_2"
    let wO := transcript.element "w_3"
    let w4 := transcript.element "w_4"
    let qArithEval := transcript.element "q_arith"
    (∀ s, quotientRound earlier transcript (1, quotientLarge) = .ok s →
      s.1 = alpha ^ (2 * j) ∧
        ∀ w1Fft w2Fft w3Fft w4Fft, w.key.wireFfts "w_1_fft" = some w1Fft →
          w.key.wireFfts "w_2_fft" = some w2Fft → w.key.wireFfts "w_3_fft" = some w3Fft →
          w.key.wireFfts "w_4_fft" = some w4Fft →
          ∃ s', computeQuotientContribution w s.1 transcript s.2 = .ok s' ∧
            ∀ k < w.key.largeDomainNumThreads * w.key.largeDomainThreadSize,
              s'.2 k - s.2 k =
                alpha ^ (2 * j) * gatedIdentity (gatePointAt w w1Fft w2Fft w3Fft w4Fft k) +
                  alpha ^ (2 * j + 1) * gatedTernary (gatePointAt w w1Fft w2Fft w3Fft w4Fft k)) ∧
    (let s := linearRound earlier transcript (1, r)
     s.1 = alpha ^ (2 * j) ∧ ∀ i < w.key.smallDomainSize,
        (computeLinearContribution w s.1 transcript s.2).2 i - s.2 i =
          alpha ^ (2 * j) * (qArithEval * arithmeticTerm (linearPointAt w transcript i)) +
            alpha ^ (2 * j + 1) * (qArithEval * ternaryTerm (w.q5 i) w4)) ∧
    (let s := openingRound earlier transcript (1, poly)
     s.1 = nu ^ j ∧ ∀ i < w.key.smallDomainSize,
        (computeOpeningPolyContribution w s.1 transcript s.2).2 i - s.2 i = nu ^ j * w.qArith i) ∧
    (let s := quotientEvaluationRound j transcript (1, tEval)
     s.1 = alpha ^ (2 * j) ∧
        (computeQuotientEvaluationContribution s.1 transcript s.2).2 - s.2 =
          alpha ^ (2 * j) * bitExtractionTerm qArithEval wO w4) ∧
    (let s := batchEvaluationRound j transcript (1, batchEval)
     s.1 = nu ^ j ∧
        (computeBatchEvaluationContribution s.2 s.1 transcript).2 - s.2 = nu ^ j * qArithEval) ∧
    (∀ s, scalarMultiplicationRound onCurve key transcript
        (⟨1, alpha, 1, nu, linearNu⟩, points, scalars) j = .ok s →
      s.1 = ⟨alpha ^ (2 * j), alpha, nu ^ j, nu, linearNu⟩ ∧
        ∀ commitment : String → G,
          (∀ name ∈ commitmentNames, key.constraintSelectors name = some (commitment name)) →
          ∃ s', appendScalarMultiplicationInputs onCurve key s.1 transcript s.2.1 s.2.2 = .ok s' ∧
            s'.2.2 = s.2.2 ++ (onCurvePairs onCurve commitment (commitmentNames.zip
              [alpha ^ (2 * j) * (wL * linearNu * qArithEval),
                alpha ^ (2 * j) * (wR * linearNu * qArithEval),
                alpha ^ (2 * j) * (wO * linearNu * qArithEval),
                alpha ^ (2 * j) * (w4 * linearNu * qArithEval),
                alpha ^ (2 * j + 1) * ((w4 ^ 2 - w4) * (w4 - 2) * linearNu * qArithEval),
                alpha ^ (2 * j) * (wL * wR * qArithEval * linearNu),
                alpha ^ (2 * j) * (linearNu * qArithEval),
                nu ^ j])).map Prod.snd) :=
  ⟨quotient_invocation earlier w transcript quotientLarge, linear_invocation earlier w transcript r,
    opening_invocation earlier w transcript poly,
    quotientEvaluation_invocation transcript earlier.length tEval,
    batchEvaluation_invocation transcript earlier.length batchEval,
    scalarMultiplication_invocation transcript earlier.length onCurve key linearNu points scalars⟩

end Waffle.Widget.Chain
