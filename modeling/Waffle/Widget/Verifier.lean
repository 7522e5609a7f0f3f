/- The verifier side of the turbo arithmetic widget: the quotient evaluation, the batch evaluation
and the scalar multiplication inputs, all from scalar evaluations and commitments. -/

import Waffle.Widget.Prover

set_option autoImplicit false
set_option relaxedAutoImplicit false

namespace Waffle.Widget.Verifier

open Waffle.Core
open Waffle.Widget.Prover (bitExtractionTerm ternaryTerm)

/-- `VerifierBaseWidget::challenge_coefficients`, passed from widget to widget. -/
structure ChallengeCoefficients (R : Type) where
  alphaBase : R
  alphaStep : R
  nuBase : R
  nuStep : R
  linearNu : R

/-- The selector commitments of `verification_key`, by name. -/
structure VerificationKey (G : Type) where
  constraintSelectors : String → Option G

variable {R : Type} [CommRing R]

/-- `compute_quotient_evaluation_contribution(key, alpha_base, transcript, t_eval)`: the base for
the next widget and the updated `t_eval`. -/
def computeQuotientEvaluationContribution (alphaBase : R) (transcript : Transcript R) (tEval : R) :
    R × R :=
  let alpha := transcript.challenge "alpha"
  let qArithEval := transcript.element "q_arith"
  let w3Eval := transcript.element "w_3"
  let w4Eval := transcript.element "w_4"
  let seven : R := 7
  let T1 := qArithEval ^ 2
  let T1 := T1 - qArithEval
  let T2 := w4Eval + w4Eval
  let T2 := T2 + T2
  let T2 := w3Eval - T2
  let T3 := T2 ^ 2
  let T3 := T3 + T3
  let T4 := T2 + T2
  let T4 := T4 + T2
  let T5 := T4 + T4
  let T4 := T4 + T5
  let T4 := T4 - T3
  let T4 := T4 - seven
  let T2 := T2 * T4
  let T1 := T1 * T2
  let T1 := T1 * alphaBase
  (alphaBase * alpha ^ 2, tEval + T1)

theorem computeQuotientEvaluationContribution_eq (alphaBase : R) (transcript : Transcript R)
    (tEval : R) :
    computeQuotientEvaluationContribution alphaBase transcript tEval =
      (alphaBase * transcript.challenge "alpha" ^ 2,
        tEval + alphaBase * bitExtractionTerm (transcript.element "q_arith")
          (transcript.element "w_3") (transcript.element "w_4")) := by
  simp only [computeQuotientEvaluationContribution, bitExtractionTerm, Prod.mk.injEq, true_and]
  ring

/-- `compute_batch_evaluation_contribution(key, batch_eval, nu_base, transcript)`: the base for the
next widget and the updated `batch_eval`. -/
def computeBatchEvaluationContribution (batchEval nuBase : R) (transcript : Transcript R) : R × R :=
  let qArithEval := transcript.element "q_arith"
  let nu := transcript.challenge "nu"
  let T0 := qArithEval * nuBase
  (nuBase * nu, batchEval + T0)

/-! `append_scalar_multiplication_inputs` -/

/-- The scalar of each selector commitment, in the order the commitments are pushed. -/
def scalarMultiplicationTerms (challenge : ChallengeCoefficients R) (transcript : Transcript R) :
    List (String × R) :=
  let wLEval := transcript.element "w_1"
  let wREval := transcript.element "w_2"
  let wOEval := transcript.element "w_3"
  let w4Eval := transcript.element "w_4"
  let qArithEval := transcript.element "q_arith"
  let qLTerm := wLEval * challenge.alphaBase
  let qLTerm := qLTerm * challenge.linearNu
  let qLTerm := qLTerm * qArithEval
  let qRTerm := wREval * challenge.alphaBase
  let qRTerm := qRTerm * challenge.linearNu
  let qRTerm := qRTerm * qArithEval
  let qOTerm := wOEval * challenge.alphaBase
  let qOTerm := qOTerm * challenge.linearNu
  let qOTerm := qOTerm * qArithEval
  let q4Term := w4Eval * challenge.alphaBase
  let q4Term := q4Term * challenge.linearNu
  let q4Term := q4Term * qArithEval
  let two : R := 2
  let q5Term := w4Eval ^ 2
  let q5Term := q5Term - w4Eval
  let q5Temp := w4Eval - two
  let q5Term := q5Term * q5Temp
  let q5Term := q5Term * challenge.alphaStep
  let q5Term := q5Term * challenge.alphaBase
  let q5Term := q5Term * challenge.linearNu
  let q5Term := q5Term * qArithEval
  let qMTerm := wLEval * wREval
  let qMTerm := qMTerm * challenge.alphaBase
  let qMTerm := qMTerm * qArithEval
  let qMTerm := qMTerm * challenge.linearNu
  let qCTerm := challenge.alphaBase * challenge.linearNu
  let qCTerm := qCTerm * qArithEval
  [("Q_1", qLTerm), ("Q_2", qRTerm), ("Q_3", qOTerm), ("Q_4", q4Term), ("Q_5", q5Term),
    ("Q_M", qMTerm), ("Q_C", qCTerm), ("Q_ARITHMETIC_SELECTOR", challenge.nuBase)]

variable {G : Type} (onCurve : G → Bool)

/-- One block of `append_scalar_multiplication_inputs`: if the commitment under `name` is on the
curve, push it to `points` and its scalar to `scalars`. A missing name raises the fault; the
caller's vectors, passed by reference, keep what the earlier blocks pushed. -/
def pushIfOnCurve (key : VerificationKey G) (acc : List G × List R) (entry : String × R) :
    Except (String × List G × List R) (List G × List R) := do
  let point ← (mapAt key.constraintSelectors entry.1).mapError fun e => (e, acc)
  pure (if onCurve point then (acc.1 ++ [point], acc.2 ++ [entry.2]) else acc)

/-- The names of the eight selector commitments, in the order they are pushed. -/
def commitmentNames : List String :=
  ["Q_1", "Q_2", "Q_3", "Q_4", "Q_5", "Q_M", "Q_C", "Q_ARITHMETIC_SELECTOR"]

private theorem scalarMultiplicationTerms_names (challenge : ChallengeCoefficients R)
    (transcript : Transcript R) :
    (scalarMultiplicationTerms challenge transcript).map Prod.fst = commitmentNames := rfl

/-- The pairs the blocks push: one `(commitment, scalar)` for each entry whose commitment is on
the curve, in order. -/
def onCurvePairs (commitment : String → G) (entries : List (String × R)) : List (G × R) :=
  (entries.filter fun e => onCurve (commitment e.1)).map fun e => (commitment e.1, e.2)

omit [CommRing R] in
private theorem foldlM_pushIfOnCurve (key : VerificationKey G) (commitment : String → G)
    (entries : List (String × R))
    (present : ∀ e ∈ entries, key.constraintSelectors e.1 = some (commitment e.1))
    (points : List G) (scalars : List R) :
    entries.foldlM (pushIfOnCurve onCurve key) (points, scalars) =
      .ok (points ++ (onCurvePairs onCurve commitment entries).map Prod.fst,
        scalars ++ (onCurvePairs onCurve commitment entries).map Prod.snd) := by
  induction entries generalizing points scalars with
  | nil => simp [onCurvePairs]; rfl
  | cons e entries ih =>
    have rest := ih fun e' h => present e' (List.mem_cons_of_mem e h)
    simp only [List.foldlM_cons, pushIfOnCurve,
      mapAt_of_some _ _ (present e (List.mem_cons_self e _)), Except.mapError, ok_bind, pure_bind]
    by_cases curve : onCurve (commitment e.1) <;> simp [curve, rest, onCurvePairs, List.filter_cons]

/-- The pairs the blocks push before the first missing name: one `(commitment, scalar)` for each
entry ahead of it whose commitment is on the curve. -/
def pushedBeforeFault (key : VerificationKey G) : List (String × R) → List (G × R)
  | [] => []
  | e :: rest =>
    match key.constraintSelectors e.1 with
    | none => []
    | some point => (if onCurve point then [(point, e.2)] else []) ++ pushedBeforeFault key rest

omit [CommRing R] in
private theorem foldlM_pushIfOnCurve_fault (key : VerificationKey G) (entries : List (String × R))
    (missing : ∃ e ∈ entries, key.constraintSelectors e.1 = none) (points : List G)
    (scalars : List R) :
    entries.foldlM (pushIfOnCurve onCurve key) (points, scalars) =
      .error ("map::at", points ++ (pushedBeforeFault onCurve key entries).map Prod.fst,
        scalars ++ (pushedBeforeFault onCurve key entries).map Prod.snd) := by
  induction entries generalizing points scalars with
  | nil => simp at missing
  | cons e entries ih =>
    rw [List.foldlM_cons]
    cases found : key.constraintSelectors e.1 with
    | none => simp [pushIfOnCurve, pushedBeforeFault, found, mapAt, Except.mapError]
    | some point =>
      obtain ⟨e', mem, none⟩ := missing
      have later : e' ∈ entries := by
        rcases List.mem_cons.mp mem with rfl | h
        · simp [found] at none
        · exact h
      have rest := ih ⟨e', later, none⟩
      simp only [pushIfOnCurve, mapAt_of_some _ _ found, Except.mapError, ok_bind, pure_bind,
        pushedBeforeFault, found]
      by_cases curve : onCurve point <;> simp [curve, rest]

/-- `append_scalar_multiplication_inputs(key, challenge, transcript, points, scalars)`: the
coefficients for the next widget and the extended `points` and `scalars`. -/
def appendScalarMultiplicationInputs (key : VerificationKey G) (challenge : ChallengeCoefficients R)
    (transcript : Transcript R) (points : List G) (scalars : List R) :
    Except (String × List G × List R) (ChallengeCoefficients R × List G × List R) := do
  let (points, scalars) ←
    (scalarMultiplicationTerms challenge transcript).foldlM (pushIfOnCurve onCurve key)
      (points, scalars)
  pure (⟨challenge.alphaBase * challenge.alphaStep ^ 2, challenge.alphaStep,
    challenge.nuBase * challenge.nuStep, challenge.nuStep, challenge.linearNu⟩, points, scalars)

theorem appendScalarMultiplicationInputs_of_present (key : VerificationKey G)
    (commitment : String → G)
    (present : ∀ name ∈ commitmentNames, key.constraintSelectors name = some (commitment name))
    (challenge : ChallengeCoefficients R) (transcript : Transcript R) (points : List G)
    (scalars : List R) :
    appendScalarMultiplicationInputs onCurve key challenge transcript points scalars =
      .ok (⟨challenge.alphaBase * challenge.alphaStep ^ 2, challenge.alphaStep,
          challenge.nuBase * challenge.nuStep, challenge.nuStep, challenge.linearNu⟩,
        points ++ (onCurvePairs onCurve commitment
          (scalarMultiplicationTerms challenge transcript)).map Prod.fst,
        scalars ++ (onCurvePairs onCurve commitment
          (scalarMultiplicationTerms challenge transcript)).map Prod.snd) := by
  have present' : ∀ e ∈ scalarMultiplicationTerms challenge transcript,
      key.constraintSelectors e.1 = some (commitment e.1) := fun e mem =>
    present e.1 (scalarMultiplicationTerms_names challenge transcript ▸ List.mem_map_of_mem _ mem)
  simp only [appendScalarMultiplicationInputs,
    foldlM_pushIfOnCurve onCurve key commitment _ present', ok_bind]
  rfl

theorem appendScalarMultiplicationInputs_of_missing (key : VerificationKey G)
    (missing : ∃ name ∈ commitmentNames, key.constraintSelectors name = none)
    (challenge : ChallengeCoefficients R) (transcript : Transcript R) (points : List G)
    (scalars : List R) :
    appendScalarMultiplicationInputs onCurve key challenge transcript points scalars =
      .error ("map::at", points ++ (pushedBeforeFault onCurve key
          (scalarMultiplicationTerms challenge transcript)).map Prod.fst,
        scalars ++ (pushedBeforeFault onCurve key
          (scalarMultiplicationTerms challenge transcript)).map Prod.snd) := by
  obtain ⟨name, mem, absent⟩ := missing
  rw [← scalarMultiplicationTerms_names challenge transcript, List.mem_map] at mem
  obtain ⟨e, mem, rfl⟩ := mem
  simp only [appendScalarMultiplicationInputs,
    foldlM_pushIfOnCurve_fault onCurve key _ ⟨e, mem, absent⟩, error_bind]

end Waffle.Widget.Verifier
