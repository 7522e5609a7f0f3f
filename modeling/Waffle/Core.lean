/- Polynomial buffers, the Fiat-Shamir transcript and `std::map::at`, as the widgets read them. -/

import Mathlib.Algebra.BigOperators.Ring
import Mathlib.Tactic.Ring

set_option autoImplicit false
set_option relaxedAutoImplicit false

namespace Waffle.Core

/-- A `barretenberg::polynomial` buffer read by index: coefficients over the small domain, or
evaluations over the large one. -/
abbrev PolyBuffer (R : Type) := Nat → R

section PolyBuffer

variable {R : Type} [CommRing R]

/-- `polynomial::evaluate(z, n)`: the value at `z` of the first `n` coefficients. -/
def PolyBuffer.evaluate (p : PolyBuffer R) (z : R) (n : Nat) : R :=
  ∑ i ∈ Finset.range n, p i * z ^ i

/-- One `ITERATE_OVER_DOMAIN` pass over a domain of size `n` that adds `term i` into `r[i]`;
the entries past the domain are not touched. -/
def addOverDomain (n : Nat) (r : PolyBuffer R) (term : Nat → R) : PolyBuffer R :=
  fun i => if i < n then r i + term i else r i

@[simp] theorem addOverDomain_of_lt {n i : Nat} (r : PolyBuffer R) (term : Nat → R) (h : i < n) :
    addOverDomain n r term i = r i + term i := if_pos h

@[simp] theorem addOverDomain_of_le {n i : Nat} (r : PolyBuffer R) (term : Nat → R) (h : n ≤ i) :
    addOverDomain n r term i = r i := if_neg (Nat.not_lt.mpr h)

end PolyBuffer

/-! The transcript is the shared sequential log of the round; the widgets read challenges and
elements by name and append elements. -/

/-- The transcript as the widgets use it: `get_challenge` and `get_element` by name, each read
through `serialize_from_buffer`. -/
structure Transcript (R : Type) where
  challenge : String → R
  element : String → R

namespace Transcript

variable {R : Type}

/-- `add_element(name, value)`: later reads of `name` see `value`. -/
def addElement (t : Transcript R) (name : String) (value : R) : Transcript R :=
  { t with element := Function.update t.element name value }

@[simp] theorem addElement_challenge (t : Transcript R) (name : String) (value : R) :
    (t.addElement name value).challenge = t.challenge := rfl

@[simp] theorem addElement_element_self (t : Transcript R) (name : String) (value : R) :
    (t.addElement name value).element name = value := Function.update_same _ _ _

@[simp] theorem addElement_element_of_ne (t : Transcript R) {name other : String} (value : R)
    (h : other ≠ name) : (t.addElement name value).element other = t.element other :=
  Function.update_noteq h _ _

end Transcript

/-! `std::map::at` on a string-keyed map raises `std::out_of_range` for a missing key. -/

/-- `map.at(name)`: the entry under `name`, or the `std::out_of_range` fault. -/
def mapAt {α : Type} (m : String → Option α) (name : String) : Except String α :=
  match m name with
  | some v => .ok v
  | none => .error "map::at"

section MapAt

variable {α β : Type} (m : String → Option α) (name : String)

@[simp] theorem mapAt_of_some {v : α} (h : m name = some v) : mapAt m name = .ok v := by
  simp [mapAt, h]

@[simp] theorem mapAt_of_none (h : m name = none) : mapAt m name = .error "map::at" := by
  simp [mapAt, h]

@[simp] theorem ok_bind {ε : Type} (a : α) (f : α → Except ε β) :
    (Except.ok a >>= f : Except ε β) = f a := rfl

@[simp] theorem error_bind {ε : Type} (e : ε) (f : α → Except ε β) :
    (Except.error e >>= f : Except ε β) = .error e := rfl

end MapAt

end Waffle.Core
