/- The loop bodies of `ProverTurboArithmeticWidget::compute_quotient_contribution` and
`VerifierTurboArithmeticWidget::compute_quotient_evaluation_contribution` as the `fr` calls they
make, over the BN254 scalar field: where the calls stay within their contracts, and the input at
which both bodies leave them. -/

import Mathlib
import Waffle.Arith.Coarse
import Waffle.Widget.Verifier

set_option autoImplicit false
set_option relaxedAutoImplicit false

namespace Waffle.Arith.LoopBody

open Waffle.Arith.Coarse Waffle.Widget.Prover

/-- `fr::modulus`, the BN254 scalar field prime. -/
def frModulus : Nat :=
  21888242871839275222246405745257275088548364400416034343698204186575808495617

instance : NeZero frModulus := ⟨by decide⟩

/-- The values the loop bodies name: the wire and selector values at the point, the challenges,
the constants `two` and `seven`, the temporaries `T0`..`T6`, and the accumulators
`quotient_large[i]` and `t_eval`. -/
inductive Slot
  | w1 | w2 | w3 | w4 | q1 | q2 | q3 | q4 | q5 | qM | qC | qArith
  | alpha | alphaBase | two | seven
  | t0 | t1 | t2 | t3 | t4 | t5 | t6
  | quotient | tEval
  deriving DecidableEq, Repr, Fintype

/-- The arithmetic and ternary sub-identities: `T0` ends as `q_arith` times their sum. -/
def arithmeticCalls : List (Call Slot) :=
  [⟨.mulWithCoarseReduction, .w1, .qM, .t0⟩,
   ⟨.mulWithCoarseReduction, .t0, .w2, .t0⟩,
   ⟨.mulWithCoarseReduction, .w1, .q1, .t1⟩,
   ⟨.mulWithCoarseReduction, .w2, .q2, .t2⟩,
   ⟨.mulWithCoarseReduction, .w3, .q3, .t3⟩,
   ⟨.mulWithCoarseReduction, .w4, .q4, .t4⟩,
   ⟨.sqrWithCoarseReduction, .w4, .w4, .t5⟩,
   ⟨.subWithCoarseReduction, .t5, .w4, .t5⟩,
   ⟨.subWithCoarseReduction, .w4, .two, .t6⟩,
   ⟨.mulWithCoarseReduction, .t5, .t6, .t5⟩,
   ⟨.mulWithCoarseReduction, .t5, .q5, .t5⟩,
   ⟨.mul, .t5, .alpha, .t5⟩,
   ⟨.addWithCoarseReduction, .t0, .t1, .t0⟩,
   ⟨.addWithCoarseReduction, .t2, .t3, .t2⟩,
   ⟨.addWithCoarseReduction, .t4, .t5, .t4⟩,
   ⟨.addWithCoarseReduction, .t0, .t2, .t0⟩,
   ⟨.addWithCoarseReduction, .t0, .t4, .t0⟩,
   ⟨.addWithCoarseReduction, .t0, .qC, .t0⟩,
   ⟨.mulWithCoarseReduction, .t0, .qArith, .t0⟩]

/-- `__add_with_coarse_reduction(T2, T2, T2)`, the second step of `T2 = 4·w_4`. -/
def doublingCall : Call Slot := ⟨.addWithCoarseReduction, .t2, .t2, .t2⟩

/-- The bit-extraction sub-identity, the same calls in both widgets: `T1` ends as
`(q_arith² − q_arith)·(9δ − 2δ² − 7)·δ` with `δ = w_3 − 4·w_4`. -/
def bitExtractionCalls : List (Call Slot) :=
  [⟨.sqrWithCoarseReduction, .qArith, .qArith, .t1⟩,
   ⟨.subWithCoarseReduction, .t1, .qArith, .t1⟩,
   ⟨.addWithoutReduction, .w4, .w4, .t2⟩,
   doublingCall,
   ⟨.subWithCoarseReduction, .w3, .t2, .t2⟩,
   ⟨.sqrWithCoarseReduction, .t2, .t2, .t3⟩,
   ⟨.addWithCoarseReduction, .t3, .t3, .t3⟩,
   ⟨.addWithCoarseReduction, .t2, .t2, .t4⟩,
   ⟨.addWithCoarseReduction, .t4, .t2, .t4⟩,
   ⟨.addWithCoarseReduction, .t4, .t4, .t5⟩,
   ⟨.addWithCoarseReduction, .t4, .t5, .t4⟩,
   ⟨.subWithCoarseReduction, .t4, .t3, .t4⟩,
   ⟨.subWithCoarseReduction, .t4, .seven, .t4⟩,
   ⟨.mulWithCoarseReduction, .t2, .t4, .t2⟩,
   ⟨.mulWithCoarseReduction, .t1, .t2, .t1⟩]

/-- One iteration of the loop of `compute_quotient_contribution` at index `i`. -/
def quotientLoopBody : List (Call Slot) :=
  arithmeticCalls ++ bitExtractionCalls ++
    [⟨.addWithCoarseReduction, .t0, .t1, .t0⟩,
     ⟨.mul, .t0, .alphaBase, .t0⟩,
     ⟨.add, .quotient, .t0, .quotient⟩]

/-- The body of `compute_quotient_evaluation_contribution`. -/
def quotientEvaluationBody : List (Call Slot) :=
  bitExtractionCalls ++
    [⟨.mul, .t1, .alphaBase, .t1⟩,
     ⟨.add, .tEval, .t1, .tEval⟩]

/-- At a point of the prover's loop: wire and selector values in coarse form, `alpha`,
`alpha_base` and `quotient_large[i]` fully reduced. -/
def quotientForms : Slot → Form
  | .w1 | .w2 | .w3 | .w4 | .q1 | .q2 | .q3 | .q4 | .q5 | .qM | .qC | .qArith => .coarse
  | .alpha | .alphaBase | .quotient => .reduced
  | .two => .const 2
  | .seven => .const 7
  | _ => .word

/-- In the verifier: the evaluations `q_arith(z)`, `w_3(z)`, `w_4(z)` in coarse form,
`alpha_base` and `t_eval` fully reduced. -/
def quotientEvaluationForms : Slot → Form
  | .w3 | .w4 | .qArith => .coarse
  | .alphaBase | .tEval => .reduced
  | .seven => .const 7
  | _ => .word

/-- The gate point the slots hold, read in the field. -/
def gatePointOf {R : Type} (regs : Slot → R) : GatePoint R :=
  ⟨regs .w1, regs .w2, regs .w3, regs .w4, regs .q1, regs .q2, regs .q3, regs .q4, regs .q5,
    regs .qM, regs .qC, regs .qArith⟩

section Exact

variable {R : Type} [CommRing R]

private theorem exactRun_arithmeticCalls (regs : Slot → R) (two : regs .two = 2) :
    exactRun arithmeticCalls regs .t0 = regs .qArith *
      (arithmeticTerm (gatePointOf regs) + regs .alpha * ternaryTerm (regs .q5) (regs .w4)) := by
  simp only [arithmeticCalls, exactRun, Function.update_apply, Prim.exact, two, reduceCtorEq,
    if_true, if_false, gatePointOf, arithmeticTerm, ternaryTerm]
  ring

private theorem exactRun_bitExtractionCalls (regs : Slot → R) (seven : regs .seven = 7) :
    exactRun bitExtractionCalls regs .t1 =
      bitExtractionTerm (regs .qArith) (regs .w3) (regs .w4) := by
  simp only [bitExtractionCalls, doublingCall, exactRun, Function.update_apply, Prim.exact,
    seven, reduceCtorEq, if_true, if_false, bitExtractionTerm]
  ring

private theorem exactRun_quotientLoopBody (regs : Slot → R) (two : regs .two = 2)
    (seven : regs .seven = 7) :
    exactRun quotientLoopBody regs .quotient =
      regs .quotient + quotientTerm (regs .alpha) (regs .alphaBase) (gatePointOf regs) := by
  have frameA (s : Slot) (h : s ∉ arithmeticCalls.map Call.dst) :
      exactRun arithmeticCalls regs s = regs s := exactRun_frame regs h
  have frameB (s : Slot) (hA : s ∉ arithmeticCalls.map Call.dst)
      (hB : s ∉ bitExtractionCalls.map Call.dst) :
      exactRun bitExtractionCalls (exactRun arithmeticCalls regs) s = regs s := by
    rw [exactRun_frame _ hB, frameA s hA]
  have t0 : exactRun bitExtractionCalls (exactRun arithmeticCalls regs) .t0 = regs .qArith *
      (arithmeticTerm (gatePointOf regs) + regs .alpha * ternaryTerm (regs .q5) (regs .w4)) := by
    rw [exactRun_frame _ (by decide), exactRun_arithmeticCalls regs two]
  have t1 : exactRun bitExtractionCalls (exactRun arithmeticCalls regs) .t1 =
      bitExtractionTerm (regs .qArith) (regs .w3) (regs .w4) := by
    rw [exactRun_bitExtractionCalls _ (by rw [frameA _ (by decide), seven]), frameA _ (by decide),
      frameA _ (by decide), frameA _ (by decide)]
  rw [quotientLoopBody, exactRun_append, exactRun_append]
  generalize exactRun bitExtractionCalls (exactRun arithmeticCalls regs) = B at frameB t0 t1
  simp only [exactRun, Function.update_apply, Prim.exact, reduceCtorEq, if_true, if_false, t0, t1,
    frameB .quotient (by decide) (by decide), frameB .alphaBase (by decide) (by decide),
    quotientTerm_eq, gatedIdentity, gatedTernary, gatePointOf]
  ring

private theorem exactRun_quotientEvaluationBody (regs : Slot → R) (seven : regs .seven = 7) :
    exactRun quotientEvaluationBody regs .tEval =
      regs .tEval + regs .alphaBase * bitExtractionTerm (regs .qArith) (regs .w3) (regs .w4) := by
  have frame (s : Slot) (h : s ∉ bitExtractionCalls.map Call.dst) :
      exactRun bitExtractionCalls regs s = regs s := exactRun_frame regs h
  have t1 := exactRun_bitExtractionCalls regs seven
  rw [quotientEvaluationBody, exactRun_append]
  generalize exactRun bitExtractionCalls regs = B at frame t1
  simp only [exactRun, Function.update_apply, Prim.exact, reduceCtorEq, if_true, if_false, t1,
    frame .tEval (by decide), frame .alphaBase (by decide)]
  ring

end Exact

section Contracts

variable (impl : Implementation frModulus)

private theorem run_within_contract {prog : List (Call Slot)} {forms : Slot → Form} {regs : Slot → Nat}
    {acc : Slot} (point : ∀ s, (forms s).Holds frModulus (regs s))
    (reduced : regs .w4 < frModulus)
    (analysed : (analyse frModulus prog
      (Function.update (fun s => (forms s).bound frModulus) .w4 (frModulus - 1))).map
        (fun out => out acc) = some (frModulus - 1)) :
    ∃ regs', run impl prog regs = .ok regs' ∧ regs' acc < frModulus ∧
      (regs' acc : ZMod frModulus) = exactRun prog (fun s => (regs s : ZMod frModulus)) acc := by
  obtain ⟨out, hout, accBound⟩ := Option.map_eq_some'.mp analysed
  have within (s : Slot) :
      regs s ≤ Function.update (fun s => (forms s).bound frModulus) .w4 (frModulus - 1) s := by
    rcases eq_or_ne s .w4 with rfl | h
    · rw [Function.update_same]
      omega
    · rw [Function.update_noteq h]
      exact Form.le_bound (point s)
  obtain ⟨regs', hrun, bounded⟩ := run_of_analyse impl within hout
  refine ⟨regs', hrun, ?_, congrFun (run_simulates impl hrun) acc⟩
  have := bounded acc
  have := NeZero.pos frModulus
  omega

private theorem run_stops_at_unreduced_doubling {pre rest : List (Call Slot)} {regs bounds : Slot → Nat}
    (within : ∀ s, regs s ≤ bounds s) (analysed : (analyse frModulus pre bounds).isSome = true)
    (kept : Slot.w4 ∉ pre.map Call.dst) (unreduced : frModulus ≤ regs .w4)
    (coarse : regs .w4 < 2 * frModulus) :
    run impl (pre ++ ⟨.addWithoutReduction, .w4, .w4, .t2⟩ :: doublingCall :: rest) regs =
      .error (doublingCall, regs .w4 + regs .w4, regs .w4 + regs .w4) := by
  obtain ⟨out, hout⟩ := Option.isSome_iff_exists.mp analysed
  obtain ⟨mid, hrun, -⟩ := run_of_analyse impl within hout
  have midW4 : mid .w4 = regs .w4 := run_frame impl hrun kept
  have room : 4 * frModulus < 2 ^ 256 := by decide
  have fits : Prim.withinContract frModulus .addWithoutReduction (mid .w4) (mid .w4) = true := by
    simp only [Prim.withinContract, midW4, decide_eq_true_eq]
    omega
  have sum : step impl mid ⟨.addWithoutReduction, .w4, .w4, .t2⟩ =
      .ok (Function.update mid .t2 (regs .w4 + regs .w4)) := by
    rw [step_of_within impl fits, (impl.returns _ _ _ fits).2, midW4]
  have doubled : step impl (Function.update mid .t2 (regs .w4 + regs .w4)) doublingCall =
      .error (doublingCall, regs .w4 + regs .w4, regs .w4 + regs .w4) := by
    rw [step_of_not_within impl] <;> simp only [doublingCall, Function.update_same]
    simp only [Prim.withinContract, Bool.and_eq_false_iff, decide_eq_false_iff_not]
    omega
  rw [run_append_of_ok impl hrun, run_cons_of_ok impl sum, run_cons_of_error impl doubled]

private theorem run_stops_at_doubling {pre rest : List (Call Slot)} {regs bounds : Slot → Nat}
    (within : ∀ s, regs s ≤ bounds s) (analysed : (analyse frModulus pre bounds).isSome = true)
    (kept : Slot.w4 ∉ pre.map Call.dst) (w4 : regs .w4 = 2 ^ 254) :
    run impl (pre ++ ⟨.addWithoutReduction, .w4, .w4, .t2⟩ :: doublingCall :: rest) regs =
      .error (doublingCall, 2 ^ 255, 2 ^ 255) := by
  rw [show (2 : Nat) ^ 255 = 2 ^ 254 + 2 ^ 254 by norm_num, ← w4]
  exact run_stops_at_unreduced_doubling impl within analysed kept (by rw [w4]; decide)
    (by rw [w4]; decide)

end Contracts

/-- A point in the forms the bodies start from, but for `w_4 = 2^254`: a coarse representative,
since `p < 2^254 < 2p`. -/
def failingPoint : Slot → Nat
  | .w4 => 2 ^ 254
  | .two => 2
  | .seven => 7
  | _ => 0

private theorem quotientLoopBody_eq_split : quotientLoopBody = quotientLoopBody.take 21 ++
    ⟨.addWithoutReduction, .w4, .w4, .t2⟩ :: doublingCall :: quotientLoopBody.drop 23 := rfl

private theorem quotientEvaluationBody_eq_split :
    quotientEvaluationBody = quotientEvaluationBody.take 2 ++
      ⟨.addWithoutReduction, .w4, .w4, .t2⟩ :: doublingCall :: quotientEvaluationBody.drop 4 :=
  rfl

/-- At `failingPoint` both bodies call `__add_with_coarse_reduction(T2, T2, T2)` with
`T2 = w_4 + w_4 = 2^255` from `__add_without_reduction`: outside its contract, as `2^255 ≥ 2p`,
and with an exact sum `2^256` that no longer fits in 256 bits. -/
theorem quotient_bodies_leave_coarse_contract (impl : Implementation frModulus) :
    (∀ s, (quotientForms s).Holds frModulus (failingPoint s)) ∧
      run impl quotientLoopBody failingPoint = .error (doublingCall, 2 ^ 255, 2 ^ 255) ∧
    (∀ s, (quotientEvaluationForms s).Holds frModulus (failingPoint s)) ∧
      run impl quotientEvaluationBody failingPoint = .error (doublingCall, 2 ^ 255, 2 ^ 255) := by
  have prover : ∀ s, (quotientForms s).Holds frModulus (failingPoint s) := by decide
  have verifier : ∀ s, (quotientEvaluationForms s).Holds frModulus (failingPoint s) := by decide
  refine ⟨prover, ?_, verifier, ?_⟩
  · rw [quotientLoopBody_eq_split]
    exact run_stops_at_doubling impl (fun s => Form.le_bound (prover s)) (by decide) (by decide) rfl
  · rw [quotientEvaluationBody_eq_split]
    exact run_stops_at_doubling impl (fun s => Form.le_bound (verifier s)) (by decide) (by decide)
      rfl

theorem quotientLoopBody_within_contract (impl : Implementation frModulus) (regs : Slot → Nat)
    (point : ∀ s, (quotientForms s).Holds frModulus (regs s)) (reduced : regs .w4 < frModulus) :
    ∃ regs', run impl quotientLoopBody regs = .ok regs' ∧ regs' .quotient < frModulus ∧
      (regs' .quotient : ZMod frModulus) = regs .quotient +
        quotientTerm (regs .alpha : ZMod frModulus) (regs .alphaBase)
          (gatePointOf fun s => (regs s : ZMod frModulus)) := by
  have analysed : (analyse frModulus quotientLoopBody (Function.update
      (fun s => (quotientForms s).bound frModulus) .w4 (frModulus - 1))).map
        (fun out => out .quotient) = some (frModulus - 1) := by decide
  obtain ⟨regs', hrun, lt, sim⟩ := run_within_contract impl point reduced analysed
  refine ⟨regs', hrun, lt, ?_⟩
  have two : regs .two = 2 := point .two
  have seven : regs .seven = 7 := point .seven
  rw [sim, exactRun_quotientLoopBody _ (by simp [two]) (by simp [seven])]

/-- A point in the forms the bodies start from, `w_4 = 2^254 − p` fully reduced, nonzero
challenges and `q_arith = 2`. -/
def reducedPoint : Slot → Nat
  | .w1 => 1
  | .w2 => 2
  | .w3 => 3
  | .w4 => 2 ^ 254 - frModulus
  | .q1 | .q2 | .q3 | .q4 | .q5 | .qM | .qC => 1
  | .qArith => 2
  | .alpha => 3
  | .alphaBase => 5
  | .two => 2
  | .seven => 7
  | _ => 0

/-- With `w_4(z)` fully reduced, every call of the verifier's body is within its contract, `t_eval`
stays fully reduced, and it gains, mod `p`, `alpha_base` times the bit-extraction sub-identity. -/
theorem quotientEvaluationBody_within_contract (impl : Implementation frModulus)
    (regs : Slot → Nat) (point : ∀ s, (quotientEvaluationForms s).Holds frModulus (regs s))
    (reduced : regs .w4 < frModulus) :
    ∃ regs', run impl quotientEvaluationBody regs = .ok regs' ∧ regs' .tEval < frModulus ∧
      (regs' .tEval : ZMod frModulus) = regs .tEval + regs .alphaBase *
        bitExtractionTerm (regs .qArith : ZMod frModulus) (regs .w3) (regs .w4) := by
  have analysed : (analyse frModulus quotientEvaluationBody (Function.update
      (fun s => (quotientEvaluationForms s).bound frModulus) .w4 (frModulus - 1))).map
        (fun out => out .tEval) = some (frModulus - 1) := by decide
  obtain ⟨regs', hrun, lt, sim⟩ := run_within_contract impl point reduced analysed
  refine ⟨regs', hrun, lt, ?_⟩
  have seven : regs .seven = 7 := point .seven
  rw [sim, exactRun_quotientEvaluationBody _ (by simp [seven])]

theorem quotientEvaluationBody_within_contract_at_reducedPoint :
    (∀ s, (quotientEvaluationForms s).Holds frModulus (reducedPoint s)) ∧
      reducedPoint .w4 < frModulus ∧
      ∃ regs', run (reference frModulus) quotientEvaluationBody reducedPoint = .ok regs' ∧
        regs' .tEval < frModulus ∧
        (regs' .tEval : ZMod frModulus) = reducedPoint .tEval + reducedPoint .alphaBase *
          bitExtractionTerm (reducedPoint .qArith : ZMod frModulus) (reducedPoint .w3)
            (reducedPoint .w4) :=
  have point : ∀ s, (quotientEvaluationForms s).Holds frModulus (reducedPoint s) := by decide
  have reduced : reducedPoint .w4 < frModulus := by decide
  ⟨point, reduced,
    quotientEvaluationBody_within_contract (reference frModulus) reducedPoint point reduced⟩

section Boundary

variable (impl : Implementation frModulus) {regs : Slot → Nat}

theorem quotientLoopBody_stops_of_unreduced
    (point : ∀ s, (quotientForms s).Holds frModulus (regs s)) (unreduced : frModulus ≤ regs .w4) :
    run impl quotientLoopBody regs =
      .error (doublingCall, regs .w4 + regs .w4, regs .w4 + regs .w4) := by
  rw [quotientLoopBody_eq_split]
  exact run_stops_at_unreduced_doubling impl (fun s => Form.le_bound (point s)) (by decide)
    (by decide) unreduced (point .w4)

private theorem quotientEvaluationBody_stops_of_unreduced
    (point : ∀ s, (quotientEvaluationForms s).Holds frModulus (regs s))
    (unreduced : frModulus ≤ regs .w4) :
    run impl quotientEvaluationBody regs =
      .error (doublingCall, regs .w4 + regs .w4, regs .w4 + regs .w4) := by
  rw [quotientEvaluationBody_eq_split]
  exact run_stops_at_unreduced_doubling impl (fun s => Form.le_bound (point s)) (by decide)
    (by decide) unreduced (point .w4)

/-- The verifier's body finishes exactly when `w_4(z)` is fully reduced; otherwise it stops at the
doubling call, whose operands are then `w_4(z) + w_4(z)`. -/
theorem quotientEvaluationBody_finishes_iff
    (point : ∀ s, (quotientEvaluationForms s).Holds frModulus (regs s)) :
    ((∃ regs', run impl quotientEvaluationBody regs = .ok regs') ↔ regs .w4 < frModulus) ∧
      (frModulus ≤ regs .w4 → run impl quotientEvaluationBody regs =
        .error (doublingCall, regs .w4 + regs .w4, regs .w4 + regs .w4)) := by
  have stops := quotientEvaluationBody_stops_of_unreduced impl point
  refine ⟨⟨fun ⟨regs', finished⟩ => Nat.lt_of_not_le fun unreduced => ?_, fun reduced => ?_⟩, stops⟩
  · rw [stops unreduced] at finished
    cases finished
  · have analysed : (analyse frModulus quotientEvaluationBody (Function.update
        (fun s => (quotientEvaluationForms s).bound frModulus) .w4 (frModulus - 1))).map
          (fun out => out .tEval) = some (frModulus - 1) := by decide
    obtain ⟨regs', hrun, -⟩ := run_within_contract impl point reduced analysed
    exact ⟨regs', hrun⟩

end Boundary

theorem quotientEvaluationBody_finishes_iff_at_failingPoint :
    (∀ s, (quotientEvaluationForms s).Holds frModulus (failingPoint s)) ∧
      ((∃ regs', run (reference frModulus) quotientEvaluationBody failingPoint = .ok regs') ↔
          failingPoint .w4 < frModulus) ∧
        (frModulus ≤ failingPoint .w4 →
          run (reference frModulus) quotientEvaluationBody failingPoint =
            .error (doublingCall, failingPoint .w4 + failingPoint .w4,
              failingPoint .w4 + failingPoint .w4)) :=
  have point : ∀ s, (quotientEvaluationForms s).Holds frModulus (failingPoint s) := by decide
  ⟨point, quotientEvaluationBody_finishes_iff (reference frModulus) point⟩

/-- The scratch temporaries `T0 .. T6`. -/
def temporaries : List Slot := [.t0, .t1, .t2, .t3, .t4, .t5, .t6]

theorem quotientLoopBody_reads : ∀ s ∈ readsBeforeWrite [] quotientLoopBody, s ∉ temporaries := by
  decide

private theorem quotientEvaluationBody_reads :
    ∀ s ∈ readsBeforeWrite [] quotientEvaluationBody, s ∉ temporaries := by
  decide

theorem run_agree_outside_temporaries (impl : Implementation frModulus) {prog : List (Call Slot)}
    (reads : ∀ s ∈ readsBeforeWrite [] prog, s ∉ temporaries) {regs regs' : Slot → Nat}
    (agree : ∀ s ∉ temporaries, regs s = regs' s) :
    OutcomesAgree (· ∉ temporaries) (run impl prog regs) (run impl prog regs') := by
  have outcomes := run_agree impl (fun _ h => absurd h (List.not_mem_nil _))
    (fun s h => agree s (reads s h))
  cases hr : run impl prog regs <;> cases hr' : run impl prog regs' <;>
    rw [hr, hr'] at outcomes <;> simp only [OutcomesAgree] at outcomes ⊢
  · exact outcomes
  · intro s outside
    by_cases written : s ∈ prog.map Call.dst
    · exact outcomes s (.inr written)
    · rw [run_frame impl hr written, run_frame impl hr' written, agree s outside]

/-- Neither loop body reads `T0 .. T6` before writing them: from two states equal outside the
temporaries each body stops at the same call with the same operands, or finishes in states equal
outside the temporaries. Whatever the temporaries held before, uninitialised or left by an earlier
iteration, never reaches a call. -/
theorem loop_bodies_ignore_prior_temporaries (impl : Implementation frModulus)
    {regs regs' : Slot → Nat} (agree : ∀ s ∉ temporaries, regs s = regs' s) :
    OutcomesAgree (· ∉ temporaries) (run impl quotientLoopBody regs)
        (run impl quotientLoopBody regs') ∧
      OutcomesAgree (· ∉ temporaries) (run impl quotientEvaluationBody regs)
        (run impl quotientEvaluationBody regs') :=
  ⟨run_agree_outside_temporaries impl quotientLoopBody_reads agree,
    run_agree_outside_temporaries impl quotientEvaluationBody_reads agree⟩

theorem loop_bodies_ignore_prior_temporaries_at_reducedPoint :
    (∀ s ∉ temporaries, reducedPoint s = Function.update reducedPoint .t3 5 s) ∧
      OutcomesAgree (· ∉ temporaries) (run (reference frModulus) quotientLoopBody reducedPoint)
          (run (reference frModulus) quotientLoopBody (Function.update reducedPoint .t3 5)) ∧
        OutcomesAgree (· ∉ temporaries)
          (run (reference frModulus) quotientEvaluationBody reducedPoint)
          (run (reference frModulus) quotientEvaluationBody (Function.update reducedPoint .t3 5)) :=
  have agree : ∀ s ∉ temporaries, reducedPoint s = Function.update reducedPoint .t3 5 s := by
    decide
  ⟨agree, loop_bodies_ignore_prior_temporaries (reference frModulus) agree⟩

end Waffle.Arith.LoopBody
