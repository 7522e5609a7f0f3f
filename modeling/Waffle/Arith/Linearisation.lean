/- The small-domain loops of `ProverTurboArithmeticWidget::compute_linear_contribution` and
`compute_opening_poly_contribution` as the `fr` calls they make. Both call only `__mul` and
`__add`. The range analysis finds what the loops need of the values they read: the accumulators
and `q_c[i]` fully reduced, as `__add` adds them to a reduced value, and every value they
multiply below `2p`. From values in those forms, in any order over the domain, the loops keep
every call within its contract and compute mod `p` what the field model does. -/

import Waffle.Arith.LoopBody

set_option autoImplicit false
set_option relaxedAutoImplicit false

namespace Waffle.Arith.Linearisation

open Waffle.Core Waffle.Arith.Coarse Waffle.Arith.LoopBody Waffle.Widget.Key
  Waffle.Widget.Prover

/-- The values the two bodies name: the evaluations and challenges they read, the selector
coefficients at `i`, the temporaries `T0`..`T5`, and the accumulators `r[i]` and `poly[i]`. -/
inductive SmallSlot
  | wLr | wLEval | wREval | wOEval | w4Eval | isW4Bool | qArithEval | alphaBase | nuBase
  | qM | q1 | q2 | q3 | q4 | q5 | qC | qArith
  | t0 | t1 | t2 | t3 | t4 | t5
  | r | poly
  deriving DecidableEq, Repr, Fintype

/-- The body of the `ITERATE_OVER_DOMAIN` loop of `compute_linear_contribution`. -/
def linearBody : List (Call SmallSlot) :=
  [⟨.mul, .wLr, .qM, .t0⟩,
   ⟨.mul, .wLEval, .q1, .t1⟩,
   ⟨.mul, .wREval, .q2, .t2⟩,
   ⟨.mul, .wOEval, .q3, .t3⟩,
   ⟨.mul, .w4Eval, .q4, .t4⟩,
   ⟨.mul, .isW4Bool, .q5, .t5⟩,
   ⟨.add, .t0, .t1, .t0⟩,
   ⟨.add, .t2, .t3, .t2⟩,
   ⟨.add, .t4, .t5, .t4⟩,
   ⟨.add, .t0, .t2, .t0⟩,
   ⟨.add, .t0, .t4, .t0⟩,
   ⟨.add, .t0, .qC, .t0⟩,
   ⟨.mul, .t0, .qArithEval, .t0⟩,
   ⟨.mul, .t0, .alphaBase, .t0⟩,
   ⟨.add, .r, .t0, .r⟩]

/-- The body of the `ITERATE_OVER_DOMAIN` loop of `compute_opening_poly_contribution`. -/
def openingBody : List (Call SmallSlot) :=
  [⟨.mul, .qArith, .nuBase, .t0⟩,
   ⟨.add, .poly, .t0, .poly⟩]

/-- The linearisation's loop over `indices`, `r[i]` the accumulator. -/
def linearLoopChecked (impl : Implementation frModulus) (point : Nat → SmallSlot → Nat) :
    List Nat → (Nat → Nat) → Except (Call SmallSlot × Nat × Nat) (Nat → Nat) :=
  loopChecked impl linearBody .r point

/-- The opening polynomial's loop over `indices`, `poly[i]` the accumulator. -/
def openingLoopChecked (impl : Implementation frModulus) (point : Nat → SmallSlot → Nat) :
    List Nat → (Nat → Nat) → Except (Call SmallSlot × Nat × Nat) (Nat → Nat) :=
  loopChecked impl openingBody .poly point

/-- The forms the linearisation's body needs of what it reads: `q_c[i]` and `r[i]` fully reduced,
every value it multiplies below `2p`. -/
def linearForms : SmallSlot → Form
  | .qC | .r => .reduced
  | .t0 | .t1 | .t2 | .t3 | .t4 | .t5 | .nuBase | .qArith | .poly => .word
  | _ => .coarse

/-- The forms the opening polynomial's body needs: `poly[i]` fully reduced, `q_arith[i]` and
`nu_base` below `2p`. -/
def openingForms : SmallSlot → Form
  | .poly => .reduced
  | .qArith | .nuBase => .coarse
  | _ => .word

section Reads

variable {R : Type} [CommRing R]

/-- The names the linearisation's body reads besides `r[i]`. -/
def linearInputs : List SmallSlot :=
  [.wLr, .wLEval, .wREval, .wOEval, .w4Eval, .isW4Bool, .qArithEval, .alphaBase,
   .qM, .q1, .q2, .q3, .q4, .q5, .qC]

/-- What the linearisation's body reads at coefficient `i`, the preamble's `w_lr` and `is_w_4_bool`
included; `0` for the names it does not read. -/
def linearRead (w : ProverTurboArithmeticWidget R) (alphaBase : R) (transcript : Transcript R)
    (i : Nat) : SmallSlot → R
  | .wLr => transcript.element "w_1" * transcript.element "w_2"
  | .wLEval => transcript.element "w_1"
  | .wREval => transcript.element "w_2"
  | .wOEval => transcript.element "w_3"
  | .w4Eval => transcript.element "w_4"
  | .isW4Bool => (transcript.element "w_4" ^ 2 - transcript.element "w_4") *
      (transcript.element "w_4" - 2) * transcript.challenge "alpha"
  | .qArithEval => transcript.element "q_arith"
  | .alphaBase => alphaBase
  | .qM => w.qM i
  | .q1 => w.q1 i
  | .q2 => w.q2 i
  | .q3 => w.q3 i
  | .q4 => w.q4 i
  | .q5 => w.q5 i
  | .qC => w.qC i
  | _ => 0

/-- The names the opening polynomial's body reads besides `poly[i]`. -/
def openingInputs : List SmallSlot := [.qArith, .nuBase]

/-- What the opening polynomial's body reads at coefficient `i`: `q_arith[i]` and `nu_base`. -/
def openingRead (w : ProverTurboArithmeticWidget R) (nuBase : R) (i : Nat) : SmallSlot → R
  | .qArith => w.qArith i
  | .nuBase => nuBase
  | _ => 0

private theorem linearBody_reads : ∀ s ∈ readsBeforeWrite [.r] linearBody, s ∈ linearInputs := by
  decide

private theorem openingBody_reads : ∀ s ∈ readsBeforeWrite [.poly] openingBody, s ∈ openingInputs := by
  decide

private theorem exactRun_linearBody (w : ProverTurboArithmeticWidget R) (alphaBase : R)
    (transcript : Transcript R) (i : Nat) (v : R) :
    exactRun linearBody (Function.update (linearRead w alphaBase transcript i) .r v) .r =
      v + (alphaBase *
          (transcript.element "q_arith" * arithmeticTerm (linearPointAt w transcript i)) +
        alphaBase * transcript.challenge "alpha" *
          (transcript.element "q_arith" * ternaryTerm (w.q5 i) (transcript.element "w_4"))) := by
  simp only [linearBody, exactRun, Function.update_apply, Prim.exact, reduceCtorEq, if_true,
    if_false, linearRead, linearPointAt, arithmeticTerm, ternaryTerm]
  ring

private theorem exactRun_openingBody (w : ProverTurboArithmeticWidget R) (nuBase : R) (i : Nat) (v : R) :
    exactRun openingBody (Function.update (openingRead w nuBase i) .poly v) .poly =
      v + w.qArith i * nuBase := by
  simp only [openingBody, exactRun, Function.update_apply, Prim.exact, reduceCtorEq, if_true,
    if_false, openingRead]

end Reads

private theorem linearBody_analysed :
    (analyse frModulus linearBody fun s => (linearForms s).bound frModulus).map
      (fun out => out .r) = some (frModulus - 1) := by
  decide

private theorem openingBody_analysed :
    (analyse frModulus openingBody fun s => (openingForms s).bound frModulus).map
      (fun out => out .poly) = some (frModulus - 1) := by
  decide

section Domain

/- A body the range analysis accepts from the forms `forms`, its accumulator `acc` fully reduced,
that reads `inputs` and adds `term i` to what stands in the accumulator, run from values in those
forms that stand for what it reads. -/
variable (impl : Implementation frModulus) {body : List (Call SmallSlot)} {acc : SmallSlot}
  {forms : SmallSlot → Form} {inputs : List SmallSlot} {read : Nat → SmallSlot → ZMod frModulus}
  {term : Nat → ZMod frModulus}
  (analysed : (analyse frModulus body fun s => (forms s).bound frModulus).map
    (fun out => out acc) = some (frModulus - 1))
  (reducedAcc : forms acc = .reduced)
  (readsInputs : ∀ s ∈ readsBeforeWrite [acc] body, s ∈ inputs)
  (adds : ∀ i v, exactRun body (Function.update (read i) acc v) acc = v + term i)
  {point : Nat → SmallSlot → Nat} (inForms : ∀ i s, (forms s).Holds frModulus (point i s))
  (reads : ∀ i, ∀ s ∈ inputs, (point i s : ZMod frModulus) = read i s)

include analysed reducedAcc readsInputs adds inForms reads in
private theorem iteration_of_forms (i v : Nat) (entry : v < frModulus) :
    ∃ regs, run impl body (Function.update (point i) acc v) = .ok regs ∧
      regs acc < frModulus ∧ (regs acc : ZMod frModulus) = v + term i := by
  have inForms' (s : SmallSlot) : (forms s).Holds frModulus (Function.update (point i) acc v s) := by
    rcases eq_or_ne s acc with rfl | fresh
    · rw [Function.update_same, reducedAcc]
      exact entry
    · rw [Function.update_noteq fresh]
      exact inForms i s
  obtain ⟨regs, hrun, lt, value⟩ := run_of_forms impl analysed inForms'
  have onWritten : ∀ s ∈ [acc], ((Function.update (point i) acc v s : Nat) : ZMod frModulus) =
      Function.update (read i) acc (v : ZMod frModulus) s := fun s hs => by
    rw [List.mem_singleton.mp hs, Function.update_same, Function.update_same]
  have onReads : ∀ s ∈ readsBeforeWrite [acc] body,
      ((Function.update (point i) acc v s : Nat) : ZMod frModulus) =
        Function.update (read i) acc (v : ZMod frModulus) s := fun s hs => by
    have fresh : s ≠ acc := fun h => not_mem_of_mem_readsBeforeWrite hs (by simp [h])
    rw [Function.update_noteq fresh, Function.update_noteq fresh, reads i s (readsInputs s hs)]
  refine ⟨regs, hrun, lt, ?_⟩
  rw [value, ← adds]
  exact exactRun_agree onWritten onReads (.inl (List.mem_singleton_self acc))

include analysed reducedAcc readsInputs adds inForms reads in
private theorem loopChecked_refines_addOverDomain {n : Nat} {indices : List Nat}
    (nodup : indices.Nodup) (covers : ∀ i, i ∈ indices ↔ i < n)
    {buffer : Nat → Nat} (start : ∀ i, buffer i < frModulus) :
    ∃ q, loopChecked impl body acc point indices buffer = .ok q ∧ (∀ i < n, q i < frModulus) ∧
      (∀ i, n ≤ i → q i = buffer i) ∧
      (fun i => (q i : ZMod frModulus)) =
        addOverDomain n (fun i => (buffer i : ZMod frModulus)) term := by
  have iteration (i v : Nat) (entry : v < frModulus) :
      ∃ regs, run impl body (Function.update (point i) acc v) = .ok regs ∧
        regs acc < frModulus ∧ regs acc < frModulus ∧ (regs acc : ZMod frModulus) = v + term i :=
    let ⟨regs, hrun, lt, value⟩ :=
      iteration_of_forms impl analysed reducedAcc readsInputs adds inForms reads i v entry
    ⟨regs, hrun, lt, lt, value⟩
  obtain ⟨q, hq, -, visited, frame, qval⟩ :=
    loopChecked_ok impl (· < frModulus) term iteration indices start
  refine ⟨q, hq, fun i h => visited i ((covers i).mpr h),
    fun i h => frame i fun mem => absurd ((covers i).mp mem) (Nat.not_lt.mpr h), funext fun i => ?_⟩
  rw [qval i]
  by_cases inDomain : i < n
  · rw [List.count_eq_one_of_mem nodup ((covers i).mpr inDomain), addOverDomain_of_lt _ _ inDomain]
    simp
  · rw [List.count_eq_zero_of_not_mem (fun mem => inDomain ((covers i).mp mem)),
      addOverDomain_of_le _ _ (Nat.le_of_not_lt inDomain)]
    simp

end Domain

/-- At the integers, from values in the forms the linearisation's body needs that stand for what
it reads and a fully reduced `r`, the loop of `compute_linear_contribution` run over the small
domain in any order, each index once, keeps every call within its contract, leaves the domain's
entries of `r` fully reduced and the others untouched, and computes mod `p` the `r` of the field
model. -/
theorem linearLoopChecked_refines_computeLinearContribution (impl : Implementation frModulus)
    {w : ProverTurboArithmeticWidget (ZMod frModulus)} {alphaBase : ZMod frModulus}
    {transcript : Transcript (ZMod frModulus)} {point : Nat → SmallSlot → Nat}
    (inForms : ∀ i s, (linearForms s).Holds frModulus (point i s))
    (reads : ∀ i, ∀ s ∈ linearInputs,
      (point i s : ZMod frModulus) = linearRead w alphaBase transcript i s)
    {indices : List Nat} (nodup : indices.Nodup)
    (covers : ∀ i, i ∈ indices ↔ i < w.key.smallDomainSize)
    {r : Nat → Nat} (start : ∀ i, r i < frModulus) :
    ∃ r', linearLoopChecked impl point indices r = .ok r' ∧
      (∀ i < w.key.smallDomainSize, r' i < frModulus) ∧
      (∀ i, w.key.smallDomainSize ≤ i → r' i = r i) ∧
      (fun i => (r' i : ZMod frModulus)) =
        (computeLinearContribution w alphaBase transcript fun i => (r i : ZMod frModulus)).2 := by
  rw [computeLinearContribution_eq]
  exact loopChecked_refines_addOverDomain impl linearBody_analysed rfl linearBody_reads
    (exactRun_linearBody w alphaBase transcript) inForms reads nodup covers start

/-- A widget over a one-coefficient small domain whose selectors are all `1`. -/
def unitWidget : ProverTurboArithmeticWidget (ZMod frModulus) where
  key := ⟨fun _ => none, fun _ => none, fun _ => none, 1, 1, 1⟩
  q1 _ := 1
  q2 _ := 1
  q3 _ := 1
  q4 _ := 1
  q5 _ := 1
  qM _ := 1
  qC _ := 1
  qArith _ := 1
  q1Fft _ := 1
  q2Fft _ := 1
  q3Fft _ := 1
  q4Fft _ := 1
  q5Fft _ := 1
  qMFft _ := 1
  qCFft _ := 1
  qArithFft _ := 1

/-- Every value `1` but `is_w_4_bool`, which is `0` when `w_4(z) = 1`. -/
def unitPoint : SmallSlot → Nat
  | .isW4Bool => 0
  | _ => 1

theorem linearLoopChecked_refines_at_unitWidget :
    (∀ (_ : Nat) (s : SmallSlot), (linearForms s).Holds frModulus (unitPoint s)) ∧
      (∀ (i : Nat), ∀ s ∈ linearInputs, (unitPoint s : ZMod frModulus) =
        linearRead unitWidget 1 ⟨fun _ => 1, fun _ => 1⟩ i s) ∧
      [0].Nodup ∧ (∀ i, i ∈ [0] ↔ i < unitWidget.key.smallDomainSize) ∧
      (∀ _ : Nat, 1 < frModulus) ∧
      ∃ r', linearLoopChecked (reference frModulus) (fun _ => unitPoint) [0] (fun _ => 1) =
          .ok r' ∧
        (∀ i < unitWidget.key.smallDomainSize, r' i < frModulus) ∧
        (∀ i, unitWidget.key.smallDomainSize ≤ i → r' i = 1) ∧
        (fun i => (r' i : ZMod frModulus)) = (computeLinearContribution unitWidget 1
          ⟨fun _ => 1, fun _ => 1⟩ fun _ => ((1 : Nat) : ZMod frModulus)).2 :=
  have inForms : ∀ (_ : Nat) (s : SmallSlot), (linearForms s).Holds frModulus (unitPoint s) :=
    fun _ s => by cases s <;> decide
  have reads : ∀ (i : Nat), ∀ s ∈ linearInputs, (unitPoint s : ZMod frModulus) =
      linearRead unitWidget 1 ⟨fun _ => 1, fun _ => 1⟩ i s := fun _ s mem => by
    cases s <;> simp [linearInputs] at mem <;> simp [unitPoint, linearRead, unitWidget]
  have covers : ∀ i, i ∈ [0] ↔ i < unitWidget.key.smallDomainSize := fun i => by
    simp [unitWidget]
  have start : ∀ _ : Nat, 1 < frModulus := fun _ => by decide
  ⟨inForms, reads, List.nodup_singleton 0, covers, start,
    linearLoopChecked_refines_computeLinearContribution (reference frModulus) inForms reads
      (List.nodup_singleton 0) covers start⟩

/-- The same for the loop of `compute_opening_poly_contribution` and its `poly`. -/
theorem openingLoopChecked_refines_computeOpeningPolyContribution
    (impl : Implementation frModulus) {w : ProverTurboArithmeticWidget (ZMod frModulus)}
    {nuBase : ZMod frModulus} {transcript : Transcript (ZMod frModulus)}
    {point : Nat → SmallSlot → Nat}
    (inForms : ∀ i s, (openingForms s).Holds frModulus (point i s))
    (reads : ∀ i, ∀ s ∈ openingInputs, (point i s : ZMod frModulus) = openingRead w nuBase i s)
    {indices : List Nat} (nodup : indices.Nodup)
    (covers : ∀ i, i ∈ indices ↔ i < w.key.smallDomainSize)
    {poly : Nat → Nat} (start : ∀ i, poly i < frModulus) :
    ∃ poly', openingLoopChecked impl point indices poly = .ok poly' ∧
      (∀ i < w.key.smallDomainSize, poly' i < frModulus) ∧
      (∀ i, w.key.smallDomainSize ≤ i → poly' i = poly i) ∧
      (fun i => (poly' i : ZMod frModulus)) =
        (computeOpeningPolyContribution w nuBase transcript
          fun i => (poly i : ZMod frModulus)).2 :=
  loopChecked_refines_addOverDomain impl openingBody_analysed rfl openingBody_reads
    (exactRun_openingBody w nuBase) inForms reads nodup covers start

theorem openingLoopChecked_refines_at_unitWidget :
    (∀ (_ : Nat) (s : SmallSlot), (openingForms s).Holds frModulus 1) ∧
      (∀ (i : Nat), ∀ s ∈ openingInputs, ((1 : Nat) : ZMod frModulus) =
        openingRead unitWidget 1 i s) ∧
      [0].Nodup ∧ (∀ i, i ∈ [0] ↔ i < unitWidget.key.smallDomainSize) ∧
      (∀ _ : Nat, 1 < frModulus) ∧
      ∃ poly', openingLoopChecked (reference frModulus) (fun _ _ => 1) [0] (fun _ => 1) =
          .ok poly' ∧
        (∀ i < unitWidget.key.smallDomainSize, poly' i < frModulus) ∧
        (∀ i, unitWidget.key.smallDomainSize ≤ i → poly' i = 1) ∧
        (fun i => (poly' i : ZMod frModulus)) = (computeOpeningPolyContribution unitWidget 1
          ⟨fun _ => 1, fun _ => 1⟩ fun _ => ((1 : Nat) : ZMod frModulus)).2 :=
  have inForms : ∀ (_ : Nat) (s : SmallSlot), (openingForms s).Holds frModulus 1 :=
    fun _ s => by cases s <;> decide
  have reads : ∀ (i : Nat), ∀ s ∈ openingInputs, ((1 : Nat) : ZMod frModulus) =
      openingRead unitWidget 1 i s := fun _ s mem => by
    cases s <;> simp [openingInputs] at mem <;> simp [openingRead, unitWidget]
  have covers : ∀ i, i ∈ [0] ↔ i < unitWidget.key.smallDomainSize := fun i => by
    simp [unitWidget]
  have start : ∀ _ : Nat, 1 < frModulus := fun _ => by decide
  ⟨inForms, reads, List.nodup_singleton 0, covers, start,
    openingLoopChecked_refines_computeOpeningPolyContribution (reference frModulus) inForms reads
      (List.nodup_singleton 0) covers start⟩

end Waffle.Arith.Linearisation
