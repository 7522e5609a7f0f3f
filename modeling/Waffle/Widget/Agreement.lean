/- The prover and the verifier widget agree: the verifier's scalar part and the linearisation
rebuild the quotient identity at `z`, and the scalar multiplication inputs rebuild the
linearisation and the opening polynomial coefficient by coefficient. -/

import Waffle.Widget.Verifier

set_option autoImplicit false
set_option relaxedAutoImplicit false

namespace Waffle.Widget.Agreement

open Waffle.Core Waffle.Widget.Key Waffle.Widget.Prover Waffle.Widget.Verifier

variable {R : Type} [CommRing R]

/-- The point at `z`: the wire evaluations of the transcript and every selector evaluated at `z`
over the small domain. -/
def evaluationPoint (w : ProverTurboArithmeticWidget R) (transcript : Transcript R) (z : R) :
    GatePoint R :=
  let n := w.key.smallDomainSize
  ⟨transcript.element "w_1", transcript.element "w_2", transcript.element "w_3",
    transcript.element "w_4", w.q1.evaluate z n, w.q2.evaluate z n, w.q3.evaluate z n,
    w.q4.evaluate z n, w.q5.evaluate z n, w.qM.evaluate z n, w.qC.evaluate z n,
    w.qArith.evaluate z n⟩

/-- The selector coefficients at `i`, in the order of their commitments. -/
def selectorsAt (w : ProverTurboArithmeticWidget R) (i : Nat) : List R :=
  [w.q1 i, w.q2 i, w.q3 i, w.q4 i, w.q5 i, w.qM i, w.qC i, w.qArith i]

@[simp] theorem computeTranscriptElements_challenge (w : ProverTurboArithmeticWidget R)
    (transcript : Transcript R) :
    (computeTranscriptElements w transcript).challenge = transcript.challenge := rfl

@[simp] theorem computeTranscriptElements_q_arith (w : ProverTurboArithmeticWidget R)
    (transcript : Transcript R) :
    (computeTranscriptElements w transcript).element "q_arith" =
      w.qArith.evaluate (transcript.challenge "z") w.key.smallDomainSize :=
  Transcript.addElement_element_self _ _ _

private theorem computeTranscriptElements_wire (w : ProverTurboArithmeticWidget R)
    (transcript : Transcript R) {name : String} (wire : name ≠ "q_arith") :
    (computeTranscriptElements w transcript).element name = transcript.element name :=
  Transcript.addElement_element_of_ne _ _ wire

@[simp] theorem evaluationPoint_computeTranscriptElements (w : ProverTurboArithmeticWidget R)
    (transcript : Transcript R) (z : R) :
    evaluationPoint w (computeTranscriptElements w transcript) z =
      evaluationPoint w transcript z := by
  simp [evaluationPoint, computeTranscriptElements_wire]

private theorem sum_linear_addition (w : ProverTurboArithmeticWidget R) (alphaBase : R)
    (transcript : Transcript R) (r : PolyBuffer R) (z : R) :
    ∑ i ∈ Finset.range w.key.smallDomainSize,
        ((computeLinearContribution w alphaBase transcript r).2 i - r i) * z ^ i =
      ∑ i ∈ Finset.range w.key.smallDomainSize,
        (alphaBase *
            (transcript.element "q_arith" * arithmeticTerm (linearPointAt w transcript i)) +
          alphaBase * transcript.challenge "alpha" *
            (transcript.element "q_arith" * ternaryTerm (w.q5 i) (transcript.element "w_4"))) *
          z ^ i := by
  refine Finset.sum_congr rfl fun i hi => ?_
  simp only [computeLinearContribution_eq, addOverDomain_of_lt _ _ (Finset.mem_range.mp hi),
    add_sub_cancel_left]

private theorem sum_linearTerm (w : ProverTurboArithmeticWidget R) (transcript : Transcript R)
    (alphaBase alpha qArithEval z : R) :
    ∑ i ∈ Finset.range w.key.smallDomainSize,
        (alphaBase * (qArithEval * arithmeticTerm (linearPointAt w transcript i)) +
          alphaBase * alpha * (qArithEval * ternaryTerm (w.q5 i) (transcript.element "w_4"))) *
          z ^ i =
      alphaBase * (qArithEval * arithmeticTerm (evaluationPoint w transcript z)) +
        alphaBase * alpha *
          (qArithEval *
            ternaryTerm (w.q5.evaluate z w.key.smallDomainSize) (transcript.element "w_4")) := by
  simp only [arithmeticTerm, ternaryTerm, linearPointAt, evaluationPoint, PolyBuffer.evaluate,
    Finset.mul_sum, Finset.sum_mul, ← Finset.sum_add_distrib, mul_add, add_mul]
  exact Finset.sum_congr rfl fun i _ => by ring

/-- After `compute_transcript_elements`, what the verifier's quotient evaluation adds to `t_eval`
plus the linearisation's additions evaluated at `z` is what the quotient loop body adds at the
point of `z`: the arithmetic, ternary and bit-extraction sub-identities all come back. -/
theorem verifier_and_linearisation_rebuild_quotient (w : ProverTurboArithmeticWidget R)
    (transcript : Transcript R) (alphaBase tEval : R) (r : PolyBuffer R) :
    let t := computeTranscriptElements w transcript
    let z := transcript.challenge "z"
    ((computeQuotientEvaluationContribution alphaBase t tEval).2 - tEval) +
        ∑ i ∈ Finset.range w.key.smallDomainSize,
          ((computeLinearContribution w alphaBase t r).2 i - r i) * z ^ i =
      quotientTerm (transcript.challenge "alpha") alphaBase (evaluationPoint w transcript z) := by
  intro t z
  rw [sum_linear_addition, sum_linearTerm, computeQuotientEvaluationContribution_eq,
    quotientTerm_eq]
  simp only [t, evaluationPoint_computeTranscriptElements, computeTranscriptElements_challenge,
    computeTranscriptElements_q_arith,
    computeTranscriptElements_wire w transcript (by decide : "w_3" ≠ "q_arith"),
    computeTranscriptElements_wire w transcript (by decide : "w_4" ≠ "q_arith")]
  simp only [evaluationPoint, gatedIdentity, gatedTernary]
  ring

private theorem scalars_against_selectors (w : ProverTurboArithmeticWidget R) (transcript : Transcript R)
    (alphaBase nuBase nuStep linearNu : R) (r poly : PolyBuffer R) {i : Nat}
    (inDomain : i < w.key.smallDomainSize) :
    (List.zipWith (fun s q => s * q)
        ((scalarMultiplicationTerms
          ⟨alphaBase, transcript.challenge "alpha", nuBase, nuStep, linearNu⟩ transcript).map
            Prod.snd) (selectorsAt w i)).sum =
      linearNu * ((computeLinearContribution w alphaBase transcript r).2 i - r i) +
        ((computeOpeningPolyContribution w nuBase transcript poly).2 i - poly i) := by
  simp only [computeLinearContribution_eq, computeOpeningPolyContribution,
    addOverDomain_of_lt _ _ inDomain, add_sub_cancel_left, scalarMultiplicationTerms, selectorsAt,
    List.map_cons, List.map_nil, List.zipWith_cons_cons, List.zipWith_nil_left, List.sum_cons,
    List.sum_nil, linearPointAt, arithmeticTerm, ternaryTerm]
  ring

private theorem batch_evaluation_of_opening (w : ProverTurboArithmeticWidget R) (transcript : Transcript R)
    (nuBase batchEval : R) (poly : PolyBuffer R) :
    (computeBatchEvaluationContribution batchEval nuBase
        (computeTranscriptElements w transcript)).2 - batchEval =
      ∑ i ∈ Finset.range w.key.smallDomainSize,
        ((computeOpeningPolyContribution w nuBase (computeTranscriptElements w transcript)
            poly).2 i - poly i) * transcript.challenge "z" ^ i := by
  have opening : ∀ i ∈ Finset.range w.key.smallDomainSize,
      ((computeOpeningPolyContribution w nuBase (computeTranscriptElements w transcript) poly).2 i -
        poly i) * transcript.challenge "z" ^ i = w.qArith i * nuBase * transcript.challenge "z" ^ i :=
    fun i hi => by
      simp only [computeOpeningPolyContribution, addOverDomain_of_lt _ _ (Finset.mem_range.mp hi),
        add_sub_cancel_left]
  rw [Finset.sum_congr rfl opening]
  simp only [computeBatchEvaluationContribution, computeTranscriptElements_q_arith,
    add_sub_cancel_left, PolyBuffer.evaluate, Finset.sum_mul]
  exact Finset.sum_congr rfl fun i _ => by ring

/-- After `compute_transcript_elements`, with `alpha_step = alpha`:
`append_scalar_multiplication_inputs` raises the fault when one of the eight commitments is
missing from the key, after the blocks ahead of the first missing name have pushed their
on-curve pairs; with all eight present it returns the next coefficients and appends one
`(commitment, scalar)` pair per on-curve commitment, in order, after the earlier entries. The
scalars against the selector coefficients give `linear_nu` times what the linearisation adds
plus what the opening polynomial gets, and the batch evaluation adds the opening addition
evaluated at `z`. -/
theorem scalar_multiplication_inputs_rebuild_linearisation {G : Type} (onCurve : G → Bool)
    (key : VerificationKey G) (w : ProverTurboArithmeticWidget R) (transcript : Transcript R)
    (alphaBase nuBase nuStep linearNu batchEval : R) (r poly : PolyBuffer R) (points : List G)
    (scalars : List R) :
    let t := computeTranscriptElements w transcript
    let alpha := transcript.challenge "alpha"
    let challenge : ChallengeCoefficients R := ⟨alphaBase, alpha, nuBase, nuStep, linearNu⟩
    let terms := scalarMultiplicationTerms challenge t
    ((∃ name ∈ commitmentNames, key.constraintSelectors name = none) →
        appendScalarMultiplicationInputs onCurve key challenge t points scalars =
          .error ("map::at", points ++ (pushedBeforeFault onCurve key terms).map Prod.fst,
            scalars ++ (pushedBeforeFault onCurve key terms).map Prod.snd)) ∧
      (∀ commitment : String → G,
        (∀ name ∈ commitmentNames, key.constraintSelectors name = some (commitment name)) →
          appendScalarMultiplicationInputs onCurve key challenge t points scalars =
            .ok (⟨alphaBase * alpha ^ 2, alpha, nuBase * nuStep, nuStep, linearNu⟩,
              points ++ (onCurvePairs onCurve commitment terms).map Prod.fst,
              scalars ++ (onCurvePairs onCurve commitment terms).map Prod.snd)) ∧
      (∀ i < w.key.smallDomainSize,
        (List.zipWith (fun s q => s * q) (terms.map Prod.snd) (selectorsAt w i)).sum =
          linearNu * ((computeLinearContribution w alphaBase t r).2 i - r i) +
            ((computeOpeningPolyContribution w nuBase t poly).2 i - poly i)) ∧
      (computeBatchEvaluationContribution batchEval nuBase t).2 - batchEval =
        ∑ i ∈ Finset.range w.key.smallDomainSize,
          ((computeOpeningPolyContribution w nuBase t poly).2 i - poly i) *
            transcript.challenge "z" ^ i := by
  intro t alpha challenge terms
  exact ⟨fun missing => appendScalarMultiplicationInputs_of_missing onCurve key missing _ _ _ _,
    fun commitment present =>
      appendScalarMultiplicationInputs_of_present onCurve key commitment present _ _ _ _,
    fun i inDomain =>
      scalars_against_selectors w t alphaBase nuBase nuStep linearNu r poly inDomain,
    batch_evaluation_of_opening w transcript nuBase batchEval poly⟩

/-- A verification key without the selector commitments: the call raises the fault instead of
appending nothing. -/
theorem append_faults_on_key_without_commitments :
    appendScalarMultiplicationInputs (fun _ : Unit => true) ⟨fun _ => none⟩
      (⟨1, 1, 1, 1, 1⟩ : ChallengeCoefficients Int) ⟨fun _ => 0, fun _ => 0⟩ [] [] =
        .error ("map::at", [], []) := rfl

end Waffle.Widget.Agreement
