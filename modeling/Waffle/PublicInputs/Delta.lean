/- `compute_public_input_delta`: the loop over the public inputs and its closed form. -/

import Mathlib

set_option autoImplicit false
set_option relaxedAutoImplicit false

namespace Waffle.PublicInputs.Delta

variable {F : Type} [Field F]

/-- The running values of the loop of `compute_public_input_delta`. -/
structure DeltaState (F : Type) where
  numerator : F
  denominator : F
  workRoot : F

/-- One pass of the loop body for the public input `witness`, where `k0` is
`fr::field_t::coset_generators[0]`. -/
def deltaStep (beta gamma subgroupGenerator k0 : F) (s : DeltaState F) (witness : F) :
    DeltaState F :=
  let T0 := witness + gamma
  let T1 := s.workRoot * beta
  let T2 := T1 * k0
  let T1 := T1 + T0
  let T2 := T2 + T0
  { numerator := s.numerator * T2
    denominator := s.denominator * T1
    workRoot := s.workRoot * subgroupGenerator }

/-- The loop state before the first public input. -/
def deltaInit : DeltaState F := ⟨1, 1, 1⟩

/-- `compute_public_input_delta(inputs, beta, gamma, subgroup_generator)`; the coset generators of
the field are a parameter, and `invert()` is the field inverse (`0` goes to `0`, as `x^(p-2)`). -/
def computePublicInputDelta (cosetGenerators : Nat → F) (inputs : List F)
    (beta gamma subgroupGenerator : F) : F :=
  let s := inputs.foldl (deltaStep beta gamma subgroupGenerator (cosetGenerators 0)) deltaInit
  s.denominator⁻¹ * s.numerator

/-- The numerator factor of the public input `v` at the row with subgroup element `root`. -/
def numeratorFactor (beta gamma k0 root v : F) : F := v + gamma + beta * k0 * root

/-- The denominator factor of the public input `v` at the row with subgroup element `root`. -/
def denominatorFactor (beta gamma root v : F) : F := v + gamma + beta * root

variable (beta gamma g k0 : F)

private theorem foldl_deltaStep (l : List F) (s : DeltaState F) :
    l.foldl (deltaStep beta gamma g k0) s =
      { numerator := s.numerator *
          ∏ i : Fin l.length, numeratorFactor beta gamma k0 (s.workRoot * g ^ (i : Nat)) (l.get i)
        denominator := s.denominator *
          ∏ i : Fin l.length, denominatorFactor beta gamma (s.workRoot * g ^ (i : Nat)) (l.get i)
        workRoot := s.workRoot * g ^ l.length } := by
  induction l generalizing s with
  | nil => simp
  | cons a l ih =>
    rw [List.foldl_cons, ih]
    simp only [deltaStep, numeratorFactor, denominatorFactor, List.length_cons, Fin.prod_univ_succ,
      Fin.val_zero, Fin.val_succ, List.get_cons_zero, List.get_cons_succ', pow_zero, pow_succ',
      mul_one, mul_assoc, DeltaState.mk.injEq]
    refine ⟨?_, ?_, trivial⟩ <;> ring

private theorem foldl_deltaStep_init (l : List F) :
    l.foldl (deltaStep beta gamma g k0) deltaInit =
      { numerator := ∏ i : Fin l.length, numeratorFactor beta gamma k0 (g ^ (i : Nat)) (l.get i)
        denominator := ∏ i : Fin l.length, denominatorFactor beta gamma (g ^ (i : Nat)) (l.get i)
        workRoot := g ^ l.length } := by
  simp [foldl_deltaStep, deltaInit]

/-- `compute_public_input_delta` is the product of the numerator factors times the inverse of the
product of the denominator factors. After `n` passes the loop holds the first `n` factors of each
product and `work_root = g^n`. No public inputs give `1`, and a vanishing denominator factor gives
`0`: nothing is signalled. -/
theorem computePublicInputDelta_closed_form (cosetGenerators : Nat → F) (inputs : List F) :
    computePublicInputDelta cosetGenerators inputs beta gamma g =
        (∏ i : Fin inputs.length, (inputs.get i + gamma + beta * cosetGenerators 0 * g ^ (i : Nat))) *
          (∏ i : Fin inputs.length, (inputs.get i + gamma + beta * g ^ (i : Nat)))⁻¹ ∧
      (∀ n, (inputs.take n).foldl (deltaStep beta gamma g (cosetGenerators 0)) deltaInit =
        { numerator := ∏ i : Fin (inputs.take n).length,
            ((inputs.take n).get i + gamma + beta * cosetGenerators 0 * g ^ (i : Nat))
          denominator := ∏ i : Fin (inputs.take n).length,
            ((inputs.take n).get i + gamma + beta * g ^ (i : Nat))
          workRoot := g ^ (inputs.take n).length }) ∧
      computePublicInputDelta cosetGenerators [] beta gamma g = 1 ∧
      ((∃ i : Fin inputs.length, inputs.get i + gamma + beta * g ^ (i : Nat) = 0) →
        computePublicInputDelta cosetGenerators inputs beta gamma g = 0) := by
  have closed : computePublicInputDelta cosetGenerators inputs beta gamma g =
      (∏ i : Fin inputs.length, (inputs.get i + gamma + beta * cosetGenerators 0 * g ^ (i : Nat))) *
        (∏ i : Fin inputs.length, (inputs.get i + gamma + beta * g ^ (i : Nat)))⁻¹ := by
    simp only [computePublicInputDelta, foldl_deltaStep_init, numeratorFactor, denominatorFactor]
    exact mul_comm _ _
  refine ⟨closed, fun n => foldl_deltaStep_init beta gamma g _ _, by simp [computePublicInputDelta,
    deltaInit], ?_⟩
  rintro ⟨i, vanishes⟩
  have zero : ∏ j : Fin inputs.length, (inputs.get j + gamma + beta * g ^ (j : Nat)) = 0 :=
    Finset.prod_eq_zero (Finset.mem_univ i) vanishes
  rw [closed, zero, inv_zero, mul_zero]

end Waffle.PublicInputs.Delta
