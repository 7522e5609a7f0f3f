/- The copy-permutation grand product with the public-input cells forced to zero equals `delta`. -/

import Waffle.PublicInputs.Delta

set_option autoImplicit false
set_option relaxedAutoImplicit false

namespace Waffle.PublicInputs.Permutation

open Waffle.PublicInputs.Delta (computePublicInputDelta computePublicInputDelta_closed_form)

/-- A copy-permutation layout reserving one row per public input, as the design comment of
`compute_public_input_delta` describes it. Row `i` has a cell `forcedCell i` in the first column
(label `g^i`) and a cell `inputCell i` in the second (label `k0·g^i`); `pi` maps the first to the
second, and the honest assignment is constant along `pi` with the public input in `inputCell i`. -/
structure PublicInputLayout (ι F : Type) [Monoid F] (inputs : List F) (g k0 : F) where
  label : ι → F
  pi : Equiv.Perm ι
  forcedCell : Fin inputs.length → ι
  inputCell : Fin inputs.length → ι
  honest : ι → F
  forcedCell_injective : Function.Injective forcedCell
  forcedCell_ne_inputCell : ∀ i j, forcedCell i ≠ inputCell j
  label_forcedCell : ∀ i, label (forcedCell i) = g ^ (i : Nat)
  label_inputCell : ∀ i, label (inputCell i) = k0 * g ^ (i : Nat)
  pi_forcedCell : ∀ i, pi (forcedCell i) = inputCell i
  honest_pi : ∀ c, honest (pi c) = honest c
  honest_inputCell : ∀ i, honest (inputCell i) = inputs.get i

/-- The permutation grand product over every cell,
`∏_c (w(c) + β·label(c) + γ) / (w(c) + β·σ(c) + γ)`. -/
def grandProduct {ι F : Type} [Fintype ι] [Field F] (w label sigma : ι → F) (beta gamma : F) : F :=
  ∏ c, (w c + beta * label c + gamma) / (w c + beta * sigma c + gamma)

namespace PublicInputLayout

variable {ι F : Type} [DecidableEq ι] [Field F] {inputs : List F} {g k0 : F}
  (L : PublicInputLayout ι F inputs g k0)

/-- The cells the arithmetic gate forces to zero. -/
def forcedCells : Finset ι := Finset.univ.image L.forcedCell

/-- The wire values the prover commits to: the honest values, with the forced cells at zero. -/
def wire (c : ι) : F := if c ∈ L.forcedCells then 0 else L.honest c

/-- The copy-permutation selector: `label (pi c)`, except `label c` itself on a forced cell. -/
def sigma (c : ι) : F := if c ∈ L.forcedCells then L.label c else L.label (L.pi c)

private theorem forcedCell_mem (i : Fin inputs.length) : L.forcedCell i ∈ L.forcedCells :=
  Finset.mem_image_of_mem _ (Finset.mem_univ i)

@[simp] theorem wire_forcedCell (i : Fin inputs.length) : L.wire (L.forcedCell i) = 0 :=
  if_pos (L.forcedCell_mem i)

@[simp] theorem sigma_forcedCell (i : Fin inputs.length) :
    L.sigma (L.forcedCell i) = L.label (L.forcedCell i) :=
  if_pos (L.forcedCell_mem i)

private theorem wire_of_not_mem {c : ι} (outside : c ∉ L.forcedCells) : L.wire c = L.honest c :=
  if_neg outside

private theorem sigma_of_not_mem {c : ι} (outside : c ∉ L.forcedCells) :
    L.sigma c = L.label (L.pi c) :=
  if_neg outside

omit [DecidableEq ι] in
private theorem honest_forcedCell (i : Fin inputs.length) : L.honest (L.forcedCell i) = inputs.get i := by
  rw [← L.honest_pi, L.pi_forcedCell, L.honest_inputCell]

private theorem symm_forcedCell_not_mem (i : Fin inputs.length) :
    L.pi.symm (L.forcedCell i) ∉ L.forcedCells := by
  simp only [forcedCells, Finset.mem_image, Finset.mem_univ, true_and, not_exists]
  intro j hj
  exact L.forcedCell_ne_inputCell i j (by rw [← L.pi_forcedCell, hj, Equiv.apply_symm_apply])

private theorem denominator_at_symm (beta gamma : F) (i : Fin inputs.length) :
    L.wire (L.pi.symm (L.forcedCell i)) + beta * L.sigma (L.pi.symm (L.forcedCell i)) + gamma =
      inputs.get i + gamma + beta * g ^ (i : Nat) := by
  have outside := L.symm_forcedCell_not_mem i
  have honest := L.honest_pi (L.pi.symm (L.forcedCell i))
  simp only [wire, sigma, outside, if_false, Equiv.apply_symm_apply] at honest ⊢
  rw [← honest, L.honest_forcedCell, L.label_forcedCell]
  ring

variable [Fintype ι]

private theorem prod_split (f : ι → F) :
    ∏ c, f c = (∏ i : Fin inputs.length, f (L.forcedCell i)) * ∏ c ∈ L.forcedCellsᶜ, f c := by
  rw [← Finset.prod_mul_prod_compl L.forcedCells, forcedCells,
    Finset.prod_image fun i _ j _ h => L.forcedCell_injective h]

variable (beta gamma : F)

omit [DecidableEq ι] in
private theorem prod_honest_balanced :
    ∏ c, (L.honest c + beta * L.label c + gamma) =
      ∏ c, (L.honest c + beta * L.label (L.pi c) + gamma) := by
  rw [← Equiv.prod_comp L.pi (fun c => L.honest c + beta * L.label c + gamma)]
  simp only [L.honest_pi]

private theorem prod_wire_split (s : ι → F) (forced : ∀ i, s (L.forcedCell i) = L.label (L.forcedCell i)) :
    ∏ c, (L.wire c + beta * s c + gamma) =
      (∏ i : Fin inputs.length, (beta * g ^ (i : Nat) + gamma)) *
        ∏ c ∈ L.forcedCellsᶜ, (L.honest c + beta * s c + gamma) := by
  rw [L.prod_split]
  congr 1
  · exact Finset.prod_congr rfl fun i _ => by
      rw [wire_forcedCell, forced, L.label_forcedCell, zero_add]
  · exact Finset.prod_congr rfl fun c hc => by rw [L.wire_of_not_mem (Finset.mem_compl.mp hc)]

private theorem prod_honest_split (s : ι → F) :
    ∏ c, (L.honest c + beta * s c + gamma) =
      (∏ i : Fin inputs.length, (inputs.get i + gamma + beta * s (L.forcedCell i))) *
        ∏ c ∈ L.forcedCellsᶜ, (L.honest c + beta * s c + gamma) := by
  rw [L.prod_split]
  congr 1
  exact Finset.prod_congr rfl fun i _ => by rw [L.honest_forcedCell]; ring

end PublicInputLayout

open PublicInputLayout in
/-- With the public-input rows forced to zero and their `sigma` entries pointing back at
themselves, the grand product over every cell equals `compute_public_input_delta`, whenever no
denominator factor of the product vanishes. -/
theorem grandProduct_eq_computePublicInputDelta {ι F : Type} [Fintype ι] [DecidableEq ι] [Field F]
    (cosetGenerators : Nat → F) (inputs : List F) (beta gamma g : F)
    (L : PublicInputLayout ι F inputs g (cosetGenerators 0))
    (nonzero : ∀ c, L.wire c + beta * L.sigma c + gamma ≠ 0) :
    grandProduct L.wire L.label L.sigma beta gamma =
      computePublicInputDelta cosetGenerators inputs beta gamma g := by
  set E := ∏ i : Fin inputs.length, (beta * g ^ (i : Nat) + gamma)
  set X := ∏ c ∈ L.forcedCellsᶜ, (L.honest c + beta * L.label c + gamma)
  set Y := ∏ c ∈ L.forcedCellsᶜ, (L.honest c + beta * L.label (L.pi c) + gamma)
  have numerator := L.prod_wire_split beta gamma L.label fun _ => rfl
  have denominator : ∏ c, (L.wire c + beta * L.sigma c + gamma) = E * Y := by
    rw [L.prod_wire_split beta gamma L.sigma L.sigma_forcedCell]
    exact congrArg _ (Finset.prod_congr rfl fun c hc => by
      rw [L.sigma_of_not_mem (Finset.mem_compl.mp hc)])
  have balanced := L.prod_honest_balanced beta gamma
  rw [L.prod_honest_split, L.prod_honest_split beta gamma fun c => L.label (L.pi c)] at balanced
  simp only [L.label_forcedCell, L.pi_forcedCell, L.label_inputCell, ← mul_assoc] at balanced
  have forcedRows : E ≠ 0 := Finset.prod_ne_zero_iff.mpr fun i _ => by
    simpa [L.label_forcedCell] using nonzero (L.forcedCell i)
  have otherCells : Y ≠ 0 := Finset.prod_ne_zero_iff.mpr fun c hc => by
    have outside := Finset.mem_compl.mp hc
    simpa [L.wire_of_not_mem outside, L.sigma_of_not_mem outside] using nonzero c
  have inputRows : ∏ i : Fin inputs.length, (inputs.get i + gamma + beta * g ^ (i : Nat)) ≠ 0 :=
    Finset.prod_ne_zero_iff.mpr fun i _ => L.denominator_at_symm beta gamma i ▸ nonzero _
  rw [grandProduct, Finset.prod_div_distrib, numerator, denominator,
    mul_div_mul_left _ _ forcedRows,
    (computePublicInputDelta_closed_form beta gamma g cosetGenerators inputs).1, ← div_eq_mul_inv,
    div_eq_div_iff otherCells inputRows, mul_comm]
  exact balanced

instance factPrimeSeven : Fact (Nat.Prime 7) := ⟨by norm_num⟩

/-- Two public inputs over `ZMod 7` with `g = 2` and `k0 = 3`: the forced cells `0, 1` and the
input cells `2, 3`, swapped row by row by `pi`. -/
def twoInputLayout : PublicInputLayout (Fin 4) (ZMod 7) [1, 4] 2 3 where
  label := ![1, 2, 3, 6]
  pi := Equiv.swap 0 2 * Equiv.swap 1 3
  forcedCell := ![0, 1]
  inputCell := ![2, 3]
  honest := ![1, 4, 1, 4]
  forcedCell_injective := by decide
  forcedCell_ne_inputCell := by decide
  label_forcedCell := by decide
  label_inputCell := by decide
  pi_forcedCell := by decide
  honest_pi := by decide
  honest_inputCell := by decide

theorem grandProduct_two_inputs :
    (∀ c, twoInputLayout.wire c + 1 * twoInputLayout.sigma c + 2 ≠ 0) ∧
      grandProduct twoInputLayout.wire twoInputLayout.label twoInputLayout.sigma 1 2 =
        computePublicInputDelta (fun _ => (3 : ZMod 7)) [1, 4] 1 2 2 :=
  ⟨by decide,
    grandProduct_eq_computePublicInputDelta (fun _ => 3) [1, 4] 1 2 2 twoInputLayout (by decide)⟩

end Waffle.PublicInputs.Permutation
