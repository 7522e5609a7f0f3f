/- The proving key as the turbo arithmetic widget reads it, and the widget's constructors and
assignment operators, which bind its sixteen selector members by name. -/

import Waffle.Core

set_option autoImplicit false
set_option relaxedAutoImplicit false

namespace Waffle.Widget.Key

open Waffle.Core

/-- The parts of `proving_key` the turbo arithmetic widget reads. The quotient buffer
`quotient_large` is passed to the widget explicitly. -/
structure ProvingKey (R : Type) where
  constraintSelectors : String → Option (PolyBuffer R)
  constraintSelectorFfts : String → Option (PolyBuffer R)
  wireFfts : String → Option (PolyBuffer R)
  smallDomainSize : Nat
  largeDomainNumThreads : Nat
  largeDomainThreadSize : Nat

/-- `ProverTurboArithmeticWidget`: the key it reads and its sixteen selector members, the
coefficient forms `q_1 .. q_arith` and the large-domain forms `q_1_fft .. q_arith_fft`. -/
structure ProverTurboArithmeticWidget (R : Type) where
  key : ProvingKey R
  q1 : PolyBuffer R
  q2 : PolyBuffer R
  q3 : PolyBuffer R
  q4 : PolyBuffer R
  q5 : PolyBuffer R
  qM : PolyBuffer R
  qC : PolyBuffer R
  qArith : PolyBuffer R
  q1Fft : PolyBuffer R
  q2Fft : PolyBuffer R
  q3Fft : PolyBuffer R
  q4Fft : PolyBuffer R
  q5Fft : PolyBuffer R
  qMFft : PolyBuffer R
  qCFft : PolyBuffer R
  qArithFft : PolyBuffer R

variable {R : Type}

/-- The sixteen member lookups in declaration order, the selectors in `selectors` and the FFT
forms in `ffts`; the first missing name raises the fault. -/
def lookupMembers (key : ProvingKey R) (selectors ffts : String → Option (PolyBuffer R)) :
    Except String (ProverTurboArithmeticWidget R) := do
  let q1 ← mapAt selectors "q_1"
  let q2 ← mapAt selectors "q_2"
  let q3 ← mapAt selectors "q_3"
  let q4 ← mapAt selectors "q_4"
  let q5 ← mapAt selectors "q_5"
  let qM ← mapAt selectors "q_m"
  let qC ← mapAt selectors "q_c"
  let qArith ← mapAt selectors "q_arith"
  let q1Fft ← mapAt ffts "q_1_fft"
  let q2Fft ← mapAt ffts "q_2_fft"
  let q3Fft ← mapAt ffts "q_3_fft"
  let q4Fft ← mapAt ffts "q_4_fft"
  let q5Fft ← mapAt ffts "q_5_fft"
  let qMFft ← mapAt ffts "q_m_fft"
  let qCFft ← mapAt ffts "q_c_fft"
  let qArithFft ← mapAt ffts "q_arith_fft"
  pure ⟨key, q1, q2, q3, q4, q5, qM, qC, qArith,
    q1Fft, q2Fft, q3Fft, q4Fft, q5Fft, qMFft, qCFft, qArithFft⟩

/-- The member initialisers the three constructors share: each selector from
`constraint_selectors`, each FFT form from `constraint_selector_ffts`. -/
def bindMembers (key : ProvingKey R) : Except String (ProverTurboArithmeticWidget R) :=
  lookupMembers key key.constraintSelectors key.constraintSelectorFfts

/-- `ProverTurboArithmeticWidget(proving_key* input_key, program_witness*)`. -/
def construct (inputKey : ProvingKey R) : Except String (ProverTurboArithmeticWidget R) :=
  bindMembers inputKey

/-- The copy constructor: `ProverBaseWidget(other)` copies `other`'s key, then the members bind. -/
def copyConstruct (other : ProverTurboArithmeticWidget R) :
    Except String (ProverTurboArithmeticWidget R) :=
  bindMembers other.key

/-- The move constructor, with the same initialisers as the copy constructor. -/
def moveConstruct (other : ProverTurboArithmeticWidget R) :
    Except String (ProverTurboArithmeticWidget R) :=
  bindMembers other.key

/-- The body the two assignment operators share: after `ProverBaseWidget::operator=(other)` the
members are looked up again in declaration order, the FFT forms in `constraint_selectors`. -/
def rebindMembers (key : ProvingKey R) : Except String (ProverTurboArithmeticWidget R) := do
  let q1 ← mapAt key.constraintSelectors "q_1"
  let q2 ← mapAt key.constraintSelectors "q_2"
  let q3 ← mapAt key.constraintSelectors "q_3"
  let q4 ← mapAt key.constraintSelectors "q_4"
  let q5 ← mapAt key.constraintSelectors "q_5"
  let qM ← mapAt key.constraintSelectors "q_m"
  let qC ← mapAt key.constraintSelectors "q_c"
  let qArith ← mapAt key.constraintSelectors "q_arith"
  let q1Fft ← mapAt key.constraintSelectors "q_1_fft"
  let q2Fft ← mapAt key.constraintSelectors "q_2_fft"
  let q3Fft ← mapAt key.constraintSelectors "q_3_fft"
  let q4Fft ← mapAt key.constraintSelectors "q_4_fft"
  let q5Fft ← mapAt key.constraintSelectors "q_5_fft"
  let qMFft ← mapAt key.constraintSelectors "q_m_fft"
  let qCFft ← mapAt key.constraintSelectors "q_c_fft"
  let qArithFft ← mapAt key.constraintSelectors "q_arith_fft"
  pure ⟨key, q1, q2, q3, q4, q5, qM, qC, qArith,
    q1Fft, q2Fft, q3Fft, q4Fft, q5Fft, qMFft, qCFft, qArithFft⟩

/-- `operator=(const ProverTurboArithmeticWidget& other)`: the widget `*this` becomes. -/
def copyAssign (other : ProverTurboArithmeticWidget R) :
    Except String (ProverTurboArithmeticWidget R) :=
  rebindMembers other.key

/-- `operator=(ProverTurboArithmeticWidget&& other)`: the widget `*this` becomes. -/
def moveAssign (other : ProverTurboArithmeticWidget R) :
    Except String (ProverTurboArithmeticWidget R) :=
  rebindMembers other.key

/-- The names of the eight FFT members. -/
def selectorFftNames : List String :=
  ["q_1_fft", "q_2_fft", "q_3_fft", "q_4_fft", "q_5_fft", "q_m_fft", "q_c_fft", "q_arith_fft"]

/-- A key holding the eight selectors in `constraint_selectors` and the eight FFT forms in
`constraint_selector_ffts`, and nothing else. -/
def separateMapsKey : ProvingKey Int where
  constraintSelectors name :=
    if name ∈ ["q_1", "q_2", "q_3", "q_4", "q_5", "q_m", "q_c", "q_arith"] then some 0 else none
  constraintSelectorFfts name := if name ∈ selectorFftNames then some 0 else none
  wireFfts _ := none
  smallDomainSize := 0
  largeDomainNumThreads := 0
  largeDomainThreadSize := 0

theorem assignment_faults_where_constructors_bind :
    ∃ w, construct separateMapsKey = .ok w ∧ copyConstruct w = .ok w ∧ moveConstruct w = .ok w ∧
      copyAssign w = .error "map::at" ∧ moveAssign w = .error "map::at" :=
  ⟨_, rfl, rfl, rfl, rfl, rfl⟩

end Waffle.Widget.Key
