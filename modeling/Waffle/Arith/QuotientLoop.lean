/- The loop of `ProverTurboArithmeticWidget::compute_quotient_contribution` over the large domain at
the integers, every iteration checked against the contracts, and its refinement of the field
model `quotientLoop`. -/

import Waffle.Arith.LoopBody

set_option autoImplicit false
set_option relaxedAutoImplicit false

namespace Waffle.Arith.QuotientLoop

open Waffle.Core Waffle.Arith.Coarse Waffle.Arith.LoopBody Waffle.Widget.Key Waffle.Widget.Prover

/-- The loop over `indices`, in order: iteration `i` runs the body, checked against the contracts,
on `point i` and `quotient_large[i]`, and writes the accumulator back. -/
def quotientLoopChecked (impl : Implementation frModulus) (point : Nat → Slot → Nat) :
    List Nat → (Nat → Nat) → Except (Call Slot × Nat × Nat) (Nat → Nat)
  | [], quotient => .ok quotient
  | i :: indices, quotient =>
    run impl quotientLoopBody (Function.update (point i) .quotient (quotient i)) >>= fun regs =>
      quotientLoopChecked impl point indices (Function.update quotient i (regs .quotient))

theorem quotientLoopChecked_eq_loopChecked (impl : Implementation frModulus)
    (point : Nat → Slot → Nat) :
    quotientLoopChecked impl point = loopChecked impl quotientLoopBody .quotient point := by
  funext indices quotient
  induction indices generalizing quotient with
  | nil => rfl
  | cons i indices ih => simp only [quotientLoopChecked, loopChecked, ih]

/-- What the loop reads at every index is in the forms the body needs, `w_4` fully reduced. -/
structure LoopForms (point : Nat → Slot → Nat) : Prop where
  forms : ∀ i s, (quotientForms s).Holds frModulus (point i s)
  reduced : ∀ i, point i .w4 < frModulus

/-- The field value iteration `i` adds. -/
def termAt (point : Nat → Slot → Nat) (i : Nat) : ZMod frModulus :=
  quotientTerm (point i .alpha : ZMod frModulus) (point i .alphaBase)
    (gatePointOf fun s => (point i s : ZMod frModulus))

private theorem forms_update_quotient {point : Slot → Nat}
    (forms : ∀ s, (quotientForms s).Holds frModulus (point s)) {q : Nat} (start : q < frModulus)
    (s : Slot) : (quotientForms s).Holds frModulus (Function.update point .quotient q s) := by
  rcases eq_or_ne s .quotient with rfl | h
  · rw [Function.update_same]
    exact start
  · rw [Function.update_noteq h]
    exact forms s

theorem iteration_ok_of_reduced (impl : Implementation frModulus) {point : Slot → Nat}
    (forms : ∀ s, (quotientForms s).Holds frModulus (point s)) {v : Nat} (entry : v < frModulus)
    (reduced : point .w4 < frModulus) :
    ∃ regs, run impl quotientLoopBody (Function.update point .quotient v) = .ok regs ∧
      regs .quotient < frModulus := by
  obtain ⟨regs, hrun, lt, -⟩ := quotientLoopBody_within_contract impl _
    (forms_update_quotient forms entry) (by rwa [Function.update_noteq (by decide)])
  exact ⟨regs, hrun, lt⟩

theorem iteration_stops_of_unreduced (impl : Implementation frModulus) {point : Slot → Nat}
    (forms : ∀ s, (quotientForms s).Holds frModulus (point s)) {v : Nat} (entry : v < frModulus)
    (unreduced : frModulus ≤ point .w4) :
    run impl quotientLoopBody (Function.update point .quotient v) =
      .error (doublingCall, point .w4 + point .w4, point .w4 + point .w4) := by
  rw [quotientLoopBody_stops_of_unreduced impl (forms_update_quotient forms entry)
    (by rwa [Function.update_noteq (by decide)]), Function.update_noteq (by decide)]

section Run

variable (impl : Implementation frModulus) {point : Nat → Slot → Nat}
  (inForms : LoopForms point)

include inForms in
theorem iteration_within_contract (i : Nat) {v : Nat} (start : v < frModulus) :
    ∃ regs, run impl quotientLoopBody (Function.update (point i) .quotient v) = .ok regs ∧
      regs .quotient < frModulus ∧ (regs .quotient : ZMod frModulus) = v + termAt point i := by
  obtain ⟨regs, hrun, lt, value⟩ := quotientLoopBody_within_contract impl _
    (forms_update_quotient (inForms.forms i) start)
    (by rw [Function.update_noteq (by decide)]; exact inForms.reduced i)
  refine ⟨regs, hrun, lt, ?_⟩
  simp only [value, termAt, gatePointOf, Function.update_same,
    Function.update_noteq (show Slot.alpha ≠ .quotient by decide), Function.update_noteq
    (show Slot.alphaBase ≠ .quotient by decide), Function.update_apply, reduceCtorEq, if_false]

include inForms in
private theorem quotientLoopChecked_ok (indices : List Nat) {quotient : Nat → Nat}
    (start : ∀ i, quotient i < frModulus) :
    ∃ q, quotientLoopChecked impl point indices quotient = .ok q ∧ (∀ i, q i < frModulus) ∧
      ∀ k, (q k : ZMod frModulus) = quotient k + indices.count k * termAt point k := by
  obtain ⟨q, hq, qlt, -, -, qval⟩ := loopChecked_ok impl (· < frModulus) (termAt point)
    (fun i _ start => let ⟨regs, hrun, lt, value⟩ := iteration_within_contract impl inForms i start
      ⟨regs, hrun, lt, lt, value⟩) indices start
  exact ⟨q, by rw [quotientLoopChecked_eq_loopChecked]; exact hq, qlt, qval⟩

end Run

/-- The integers `point` stand for what the widget's loop reads in the field: the gate point at
every index, `alpha` and `alpha_base`. -/
structure Represents (w : ProverTurboArithmeticWidget (ZMod frModulus))
    (w1Fft w2Fft w3Fft w4Fft : PolyBuffer (ZMod frModulus)) (alpha alphaBase : Nat)
    (point : Nat → Slot → Nat) : Prop where
  reads : ∀ i,
    gatePointAt w w1Fft w2Fft w3Fft w4Fft i = gatePointOf fun s => (point i s : ZMod frModulus)
  alpha_eq : ∀ i, point i .alpha = alpha
  alphaBase_eq : ∀ i, point i .alphaBase = alphaBase

/-- At the integers, with every `w_4` value fully reduced and the rest in the loop's forms, the
loop of `compute_quotient_contribution` runs with every call in contract, leaves
`quotient_large` fully reduced, and computes mod `p` what the field model `quotientLoop` does. -/
theorem quotientLoopChecked_refines_quotientLoop (impl : Implementation frModulus)
    {w : ProverTurboArithmeticWidget (ZMod frModulus)}
    {w1Fft w2Fft w3Fft w4Fft : PolyBuffer (ZMod frModulus)}
    {alpha alphaBase : Nat} {point : Nat → Slot → Nat} {quotient : Nat → Nat}
    (represents : Represents w w1Fft w2Fft w3Fft w4Fft alpha alphaBase point)
    (inForms : LoopForms point) (start : ∀ i, quotient i < frModulus) :
    ∃ q, quotientLoopChecked impl point
        (threadIndices w.key.largeDomainNumThreads w.key.largeDomainThreadSize) quotient = .ok q ∧
      (∀ i, q i < frModulus) ∧
      (fun i => (q i : ZMod frModulus)) =
        quotientLoop w alpha alphaBase w1Fft w2Fft w3Fft w4Fft
          fun i => (quotient i : ZMod frModulus) := by
  obtain ⟨q, hq, qlt, qval⟩ := quotientLoopChecked_ok impl inForms
    (threadIndices w.key.largeDomainNumThreads w.key.largeDomainThreadSize) start
  refine ⟨q, hq, qlt, funext fun k => ?_⟩
  rw [qval k, quotientLoop_apply, threadIndices_eq_range,
    List.count_eq_of_nodup (List.nodup_range _)]
  simp only [List.mem_range, termAt, represents.reads k, represents.alpha_eq k,
    represents.alphaBase_eq k]
  split_ifs <;> simp

/-- A widget over one index of the large domain whose values are those of `reducedPoint`. -/
def reducedWidget : ProverTurboArithmeticWidget (ZMod frModulus) where
  key := ⟨fun _ => none, fun _ => none, fun _ => none, 1, 1, 1⟩
  q1 _ := 0
  q2 _ := 0
  q3 _ := 0
  q4 _ := 0
  q5 _ := 0
  qM _ := 0
  qC _ := 0
  qArith _ := 0
  q1Fft _ := reducedPoint .q1
  q2Fft _ := reducedPoint .q2
  q3Fft _ := reducedPoint .q3
  q4Fft _ := reducedPoint .q4
  q5Fft _ := reducedPoint .q5
  qMFft _ := reducedPoint .qM
  qCFft _ := reducedPoint .qC
  qArithFft _ := reducedPoint .qArith

theorem quotientLoopChecked_refines_at_reducedWidget :
    Represents reducedWidget (fun _ => reducedPoint .w1) (fun _ => reducedPoint .w2)
        (fun _ => reducedPoint .w3) (fun _ => reducedPoint .w4) 3 5 (fun _ => reducedPoint) ∧
      LoopForms (fun _ => reducedPoint) ∧ (∀ _ : Nat, 0 < frModulus) ∧
      ∃ q, quotientLoopChecked (reference frModulus) (fun _ => reducedPoint) [0] (fun _ => 0) =
          .ok q ∧
        (∀ i, q i < frModulus) ∧
        (fun i => (q i : ZMod frModulus)) =
          quotientLoop reducedWidget ((3 : Nat) : ZMod frModulus) ((5 : Nat) : ZMod frModulus)
            (fun _ => reducedPoint .w1) (fun _ => reducedPoint .w2)
            (fun _ => reducedPoint .w3) (fun _ => reducedPoint .w4)
            fun _ => ((0 : Nat) : ZMod frModulus) :=
  have represents : Represents reducedWidget (fun _ => reducedPoint .w1) (fun _ => reducedPoint .w2)
      (fun _ => reducedPoint .w3) (fun _ => reducedPoint .w4) 3 5 (fun _ => reducedPoint) :=
    ⟨fun _ => rfl, fun _ => rfl, fun _ => rfl⟩
  have inForms : LoopForms (fun _ => reducedPoint) := ⟨fun _ => by decide, fun _ => by decide⟩
  have start : ∀ _ : Nat, 0 < frModulus := fun _ => NeZero.pos frModulus
  ⟨represents, inForms, start,
    quotientLoopChecked_refines_quotientLoop (reference frModulus) represents inForms start⟩

section Boundary

variable (impl : Implementation frModulus)

/-- The checked loop over any indices, from a fully reduced buffer and points in the loop's
forms, finishes exactly when every `w_4` it reads is fully reduced, and every stop is the
doubling call of a visited index whose `w_4` is not, with operands `w_4 + w_4`. -/
theorem quotientLoopChecked_finishes_iff {point : Nat → Slot → Nat}
    (forms : ∀ i s, (quotientForms s).Holds frModulus (point i s)) (indices : List Nat)
    {quotient : Nat → Nat} (start : ∀ i, quotient i < frModulus) :
    ((∃ q, quotientLoopChecked impl point indices quotient = .ok q) ↔
        ∀ i ∈ indices, point i .w4 < frModulus) ∧
      ∀ e, quotientLoopChecked impl point indices quotient = .error e →
        ∃ i ∈ indices, frModulus ≤ point i .w4 ∧
          e = (doublingCall, point i .w4 + point i .w4, point i .w4 + point i .w4) := by
  obtain ⟨finished, stopped⟩ := loopChecked_finishes_iff impl (· < frModulus)
    (fun i => point i .w4 < frModulus) _
    (fun i _ entry reduced => iteration_ok_of_reduced impl (forms i) entry reduced)
    (fun i _ entry unreduced => iteration_stops_of_unreduced impl (forms i) entry
      (Nat.le_of_not_lt unreduced)) indices start
  rw [quotientLoopChecked_eq_loopChecked]
  exact ⟨finished, fun e h =>
    let ⟨i, mem, unreduced, stop⟩ := stopped e h
    ⟨i, mem, Nat.le_of_not_lt unreduced, stop⟩⟩

end Boundary

theorem quotientLoopChecked_finishes_iff_at_failingPoint :
    (∀ (_ : Nat) (s : Slot), (quotientForms s).Holds frModulus (failingPoint s)) ∧
      (∀ _ : Nat, 0 < frModulus) ∧
      ((∃ q, quotientLoopChecked (reference frModulus) (fun _ => failingPoint) [0, 1]
            (fun _ => 0) = .ok q) ↔ ∀ i ∈ [0, 1], failingPoint .w4 < frModulus) ∧
        ∀ e, quotientLoopChecked (reference frModulus) (fun _ => failingPoint) [0, 1]
            (fun _ => 0) = .error e →
          ∃ i ∈ [0, 1], frModulus ≤ failingPoint .w4 ∧
            e = (doublingCall, failingPoint .w4 + failingPoint .w4,
              failingPoint .w4 + failingPoint .w4) :=
  have forms : ∀ (_ : Nat) (s : Slot), (quotientForms s).Holds frModulus (failingPoint s) :=
    fun _ => by decide
  have start : ∀ _ : Nat, 0 < frModulus := fun _ => NeZero.pos frModulus
  ⟨forms, start, quotientLoopChecked_finishes_iff (reference frModulus) forms [0, 1] start⟩

/-! The nested loop as the C++ writes it. -/

/-- The state iteration `i` of a worker starts in: the temporaries as the previous iteration left
them, or uninitialised, and the point's values and `quotient_large[i]` elsewhere. -/
def iterationState (temps point : Slot → Nat) (q : Nat) : Slot → Nat :=
  fun s => if s ∈ temporaries then temps s else if s = .quotient then q else point s

/-- One worker's loop over its indices: `T0 .. T6` are declared once, before the loop, so each
iteration starts from the temporaries the previous one left. -/
def workerLoopChecked (impl : Implementation frModulus) (point : Nat → Slot → Nat) :
    List Nat → (Slot → Nat) → (Nat → Nat) → Except (Call Slot × Nat × Nat) (Nat → Nat)
  | [], _, quotient => .ok quotient
  | i :: indices, temps, quotient =>
    run impl quotientLoopBody (iterationState temps (point i) (quotient i)) >>= fun regs =>
      workerLoopChecked impl point indices regs (Function.update quotient i (regs .quotient))

/-- The nested loop of `compute_quotient_contribution`, workers one after another: worker `j`
covers `[j·thread_size, (j+1)·thread_size)` with temporaries starting as `temps j`. -/
def nestedLoopChecked (impl : Implementation frModulus) (point : Nat → Slot → Nat)
    (threadSize : Nat) (temps : Nat → Slot → Nat) :
    List Nat → (Nat → Nat) → Except (Call Slot × Nat × Nat) (Nat → Nat)
  | [], quotient => .ok quotient
  | j :: workers, quotient =>
    workerLoopChecked impl point (List.range' (j * threadSize) threadSize) (temps j) quotient >>=
      nestedLoopChecked impl point threadSize temps workers

private theorem workerLoopChecked_eq (impl : Implementation frModulus) (point : Nat → Slot → Nat)
    (indices : List Nat) (temps : Slot → Nat) (quotient : Nat → Nat) :
    workerLoopChecked impl point indices temps quotient =
      quotientLoopChecked impl point indices quotient := by
  induction indices generalizing temps quotient with
  | nil => rfl
  | cons i indices ih =>
    have agree : ∀ s ∉ temporaries, iterationState temps (point i) (quotient i) s =
        Function.update (point i) .quotient (quotient i) s := fun s outside => by
      simp only [iterationState, outside, if_false, Function.update_apply]
    have outcomes := run_agree_outside_temporaries impl quotientLoopBody_reads agree
    simp only [workerLoopChecked, quotientLoopChecked]
    revert outcomes
    cases run impl quotientLoopBody (iterationState temps (point i) (quotient i)) <;>
      cases run impl quotientLoopBody (Function.update (point i) .quotient (quotient i)) <;>
      simp only [OutcomesAgree, false_imp_iff]
    · intro same
      rw [same]
      rfl
    · intro same
      show workerLoopChecked impl point indices _ _ = quotientLoopChecked impl point indices _
      rw [← same .quotient (by decide)]
      exact ih _ _

/-- The nested loop of `compute_quotient_contribution` with its per-worker temporaries, declared
once per worker and uninitialised, has exactly the outcome of the loop over the workers' indices
in order whose iterations start from the point alone: the same stop, or the same buffer. -/
theorem nestedLoopChecked_eq_quotientLoopChecked (impl : Implementation frModulus)
    (point : Nat → Slot → Nat) (numThreads threadSize : Nat) (temps : Nat → Slot → Nat)
    (quotient : Nat → Nat) :
    nestedLoopChecked impl point threadSize temps (List.range numThreads) quotient =
      quotientLoopChecked impl point (threadIndices numThreads threadSize) quotient := by
  rw [threadIndices, quotientLoopChecked_eq_loopChecked]
  generalize List.range numThreads = workers
  induction workers generalizing quotient with
  | nil => rfl
  | cons j workers ih =>
    rw [nestedLoopChecked, List.flatMap_cons, loopChecked_append, workerLoopChecked_eq,
      quotientLoopChecked_eq_loopChecked]
    cases loopChecked impl quotientLoopBody .quotient point
      (List.range' (j * threadSize) threadSize) quotient with
    | error e => rfl
    | ok q => exact ih q

end Waffle.Arith.QuotientLoop
