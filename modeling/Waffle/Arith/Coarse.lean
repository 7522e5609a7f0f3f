/- Field elements as integers below 2^256 and the primitives of `barretenberg::fr` by the contracts
their names state: a straight-line program of calls, run with every call checked against its
contract, its exact meaning in the field, and a range analysis that proves a run stays in
contract. -/

import Mathlib.Data.ZMod.Basic

set_option autoImplicit false
set_option relaxedAutoImplicit false

namespace Waffle.Arith.Coarse

/-- The primitives of `barretenberg::fr` that the quotient loops call. -/
inductive Prim
  | mulWithCoarseReduction
  | sqrWithCoarseReduction
  | addWithCoarseReduction
  | subWithCoarseReduction
  | addWithoutReduction
  | mul
  | add
  deriving DecidableEq, Repr

namespace Prim

/-- What a primitive computes in the field, reductions aside. A square reads one operand. -/
def exact {R : Type} [CommRing R] : Prim → R → R → R
  | mulWithCoarseReduction, a, b => a * b
  | sqrWithCoarseReduction, a, _ => a * a
  | addWithCoarseReduction, a, b => a + b
  | subWithCoarseReduction, a, b => a - b
  | addWithoutReduction, a, b => a + b
  | mul, a, b => a * b
  | add, a, b => a + b

/-- Whether operands are within a primitive's contract: each operand below `2p` for the coarse
primitives and for `__mul` (a Montgomery product of such operands needs one subtraction), an
unreduced sum that still fits in 256 bits, and for `__add` a sum below `2p`, which one
conditional subtraction reduces. -/
def withinContract (p : Nat) : Prim → Nat → Nat → Bool
  | sqrWithCoarseReduction, a, _ => a < 2 * p
  | addWithoutReduction, a, b => a + b < 2 ^ 256
  | add, a, b => a + b < 2 * p
  | _, a, b => a < 2 * p && b < 2 * p

/-- What a primitive returns within its contract: a value congruent mod `p` to the exact result,
below `2p` after a coarse reduction, below `p` after a full one, and the integer sum itself
without reduction. -/
def Returns (p : Nat) (op : Prim) (a b r : Nat) : Prop :=
  (r : ZMod p) = op.exact (a : ZMod p) (b : ZMod p) ∧
    match op with
    | addWithoutReduction => r = a + b
    | mul | add => r < p
    | _ => r < 2 * p

/-- The largest value a primitive can return on operands at most `a` and `b`. -/
def resultBound (p : Nat) : Prim → Nat → Nat → Nat
  | addWithoutReduction, a, b => a + b
  | mul, _, _ | add, _, _ => p - 1
  | _, _, _ => 2 * p - 1

variable {p : Nat}

private theorem withinContract_mono {op : Prim} {a b A B : Nat} (ha : a ≤ A) (hb : b ≤ B)
    (h : op.withinContract p A B = true) : op.withinContract p a b = true := by
  cases op <;> simp only [withinContract, Bool.and_eq_true, decide_eq_true_eq] at h ⊢ <;> omega

private theorem le_resultBound {op : Prim} {a b A B r : Nat} (ha : a ≤ A) (hb : b ≤ B)
    (h : op.Returns p a b r) : r ≤ op.resultBound p A B := by
  obtain ⟨-, h⟩ := h
  cases op <;> simp only [resultBound] at h ⊢ <;> omega

end Prim

/-- An implementation of the primitives that keeps every contract. -/
structure Implementation (p : Nat) where
  run : Prim → Nat → Nat → Nat
  returns : ∀ (op : Prim) (a b : Nat), op.withinContract p a b = true →
    op.Returns p a b (run op a b)

/-- The primitives computed exactly and reduced fully, an unreduced sum kept whole: the
contracts can all be met at once. -/
def reference (p : Nat) [NeZero p] : Implementation p where
  run
    | .addWithoutReduction, a, b => a + b
    | op, a, b => (op.exact (a : ZMod p) (b : ZMod p)).val
  returns op a b _ := by
    have lt (x : ZMod p) : x.val < p := ZMod.val_lt x
    have lt_two_mul (x : ZMod p) : x.val < 2 * p := by have := lt x; omega
    cases op <;> simp only [Prim.Returns, ZMod.natCast_val, ZMod.cast_id', id, Nat.cast_add,
      Prim.exact, and_self, lt, lt_two_mul]

/-- How a value is represented when a loop body starts: in coarse form (below `2p`), fully
reduced (below `p`), a known constant, or any 256-bit value, as an uninitialised temporary. -/
inductive Form
  | coarse
  | reduced
  | const (n : Nat)
  | word
  deriving DecidableEq, Repr

namespace Form

def Holds (p : Nat) : Form → Nat → Prop
  | coarse, v => v < 2 * p
  | reduced, v => v < p
  | const n, v => v = n
  | word, v => v < 2 ^ 256

instance (p : Nat) (f : Form) (v : Nat) : Decidable (f.Holds p v) :=
  match f with
  | coarse => inferInstanceAs (Decidable (v < 2 * p))
  | reduced => inferInstanceAs (Decidable (v < p))
  | const n => inferInstanceAs (Decidable (v = n))
  | word => inferInstanceAs (Decidable (v < 2 ^ 256))

/-- The largest value of a form. -/
def bound (p : Nat) : Form → Nat
  | coarse => 2 * p - 1
  | reduced => p - 1
  | const n => n
  | word => 2 ^ 256 - 1

theorem le_bound {p v : Nat} {f : Form} (h : f.Holds p v) : v ≤ f.bound p := by
  cases f <;> simp only [Holds, bound] at h ⊢ <;> omega

end Form

/-- One call `op(src1, src2, dst)` of a loop body over the named values `ι`; a square names its
operand twice. -/
structure Call (ι : Type) where
  op : Prim
  src1 : ι
  src2 : ι
  dst : ι
  deriving DecidableEq, Repr

section Run

variable {ι : Type} [DecidableEq ι] {p : Nat}

/-- One call, checked against its contract: out of contract the run stops at the call, with the
operands it was given. -/
def step (impl : Implementation p) (regs : ι → Nat) (c : Call ι) :
    Except (Call ι × Nat × Nat) (ι → Nat) :=
  let a := regs c.src1
  let b := regs c.src2
  if c.op.withinContract p a b then .ok (Function.update regs c.dst (impl.run c.op a b))
  else .error (c, a, b)

/-- A loop body run call after call. -/
def run (impl : Implementation p) :
    List (Call ι) → (ι → Nat) → Except (Call ι × Nat × Nat) (ι → Nat)
  | [], regs => .ok regs
  | c :: prog, regs => step impl regs c >>= run impl prog

/-- What a loop body computes in the field. -/
def exactRun {R : Type} [CommRing R] : List (Call ι) → (ι → R) → ι → R
  | [], regs => regs
  | c :: prog, regs =>
    exactRun prog (Function.update regs c.dst (c.op.exact (regs c.src1) (regs c.src2)))

/-- The range analysis: an upper bound for every named value after the body, or `none` when it
cannot show that some call is within its contract. -/
def analyse (p : Nat) : List (Call ι) → (ι → Nat) → Option (ι → Nat)
  | [], bounds => some bounds
  | c :: prog, bounds =>
    if c.op.withinContract p (bounds c.src1) (bounds c.src2) then
      analyse p prog
        (Function.update bounds c.dst (c.op.resultBound p (bounds c.src1) (bounds c.src2)))
    else none

variable (impl : Implementation p)

@[simp] theorem run_nil (regs : ι → Nat) : run impl [] regs = .ok regs := rfl

private theorem run_cons (c : Call ι) (prog : List (Call ι)) (regs : ι → Nat) :
    run impl (c :: prog) regs = step impl regs c >>= run impl prog := rfl

theorem step_of_within {regs : ι → Nat} {c : Call ι}
    (h : c.op.withinContract p (regs c.src1) (regs c.src2) = true) :
    step impl regs c =
      .ok (Function.update regs c.dst (impl.run c.op (regs c.src1) (regs c.src2))) := if_pos h

theorem step_of_not_within {regs : ι → Nat} {c : Call ι}
    (h : c.op.withinContract p (regs c.src1) (regs c.src2) = false) :
    step impl regs c = .error (c, regs c.src1, regs c.src2) := if_neg (by simp [h])

private theorem run_append (prog₁ prog₂ : List (Call ι)) (regs : ι → Nat) :
    run impl (prog₁ ++ prog₂) regs = run impl prog₁ regs >>= run impl prog₂ := by
  induction prog₁ generalizing regs with
  | nil => rfl
  | cons c prog ih =>
    simp only [List.cons_append, run_cons]
    cases step impl regs c with
    | error e => rfl
    | ok regs' => exact ih regs'

theorem run_cons_of_ok {c : Call ι} {prog : List (Call ι)} {regs mid : ι → Nat}
    (h : step impl regs c = .ok mid) : run impl (c :: prog) regs = run impl prog mid := by
  rw [run_cons, h]
  rfl

theorem run_cons_of_error {c : Call ι} {prog : List (Call ι)} {regs : ι → Nat}
    {e : Call ι × Nat × Nat} (h : step impl regs c = .error e) :
    run impl (c :: prog) regs = .error e := by
  rw [run_cons, h]
  rfl

theorem run_append_of_ok {prog₁ prog₂ : List (Call ι)} {regs mid : ι → Nat}
    (h : run impl prog₁ regs = .ok mid) :
    run impl (prog₁ ++ prog₂) regs = run impl prog₂ mid := by
  rw [run_append, h]
  rfl

private theorem step_eq_ok {regs regs' : ι → Nat} {c : Call ι} (h : step impl regs c = .ok regs') :
    c.op.withinContract p (regs c.src1) (regs c.src2) = true ∧
      regs' = Function.update regs c.dst (impl.run c.op (regs c.src1) (regs c.src2)) := by
  cases within : c.op.withinContract p (regs c.src1) (regs c.src2)
  · rw [step_of_not_within impl within] at h
    cases h
  · rw [step_of_within impl within] at h
    cases h
    exact ⟨rfl, rfl⟩

private theorem run_cons_eq_ok {c : Call ι} {prog : List (Call ι)} {regs regs' : ι → Nat}
    (h : run impl (c :: prog) regs = .ok regs') :
    ∃ mid, step impl regs c = .ok mid ∧ run impl prog mid = .ok regs' := by
  rw [run_cons] at h
  cases hstep : step impl regs c with
  | error e => rw [hstep] at h; cases h
  | ok mid => rw [hstep] at h; exact ⟨mid, rfl, h⟩

theorem run_frame {prog : List (Call ι)} {regs regs' : ι → Nat}
    (h : run impl prog regs = .ok regs')
    {i : ι} (hi : i ∉ prog.map Call.dst) : regs' i = regs i := by
  induction prog generalizing regs with
  | nil => cases h; rfl
  | cons c prog ih =>
    simp only [List.map_cons, List.mem_cons, not_or] at hi
    obtain ⟨mid, hstep, hrun⟩ := run_cons_eq_ok impl h
    rw [ih hrun hi.2, (step_eq_ok impl hstep).2, Function.update_noteq hi.1]

private theorem step_simulates {regs regs' : ι → Nat} {c : Call ι} (h : step impl regs c = .ok regs') :
    (fun i => (regs' i : ZMod p)) =
      Function.update (fun i => (regs i : ZMod p)) c.dst
        (c.op.exact (regs c.src1 : ZMod p) (regs c.src2)) := by
  obtain ⟨within, rfl⟩ := step_eq_ok impl h
  funext i
  rcases eq_or_ne i c.dst with rfl | hi
  · simp only [Function.update_same]
    exact (impl.returns c.op _ _ within).1
  · simp only [Function.update_noteq hi]

theorem run_simulates {prog : List (Call ι)} {regs regs' : ι → Nat}
    (h : run impl prog regs = .ok regs') :
    (fun i => (regs' i : ZMod p)) = exactRun prog (fun i => (regs i : ZMod p)) := by
  induction prog generalizing regs with
  | nil => cases h; rfl
  | cons c prog ih =>
    obtain ⟨mid, hstep, hrun⟩ := run_cons_eq_ok impl h
    rw [ih hrun, step_simulates impl hstep]
    rfl

section Exact

variable {R : Type} [CommRing R]

theorem exactRun_append (prog₁ prog₂ : List (Call ι)) (regs : ι → R) :
    exactRun (prog₁ ++ prog₂) regs = exactRun prog₂ (exactRun prog₁ regs) := by
  induction prog₁ generalizing regs with
  | nil => rfl
  | cons c prog ih => exact ih _

theorem exactRun_frame {prog : List (Call ι)} (regs : ι → R) {i : ι}
    (hi : i ∉ prog.map Call.dst) :
    exactRun prog regs i = regs i := by
  induction prog generalizing regs with
  | nil => rfl
  | cons c prog ih =>
    simp only [List.map_cons, List.mem_cons, not_or] at hi
    rw [exactRun, ih _ hi.2, Function.update_noteq hi.1]

end Exact

/-- The operands a body reads before any of its calls writes them, the values `written` aside. -/
def readsBeforeWrite (written : List ι) : List (Call ι) → List ι
  | [] => []
  | c :: prog =>
    [c.src1, c.src2].filter (fun i => i ∉ written) ++ readsBeforeWrite (c.dst :: written) prog

theorem not_mem_of_mem_readsBeforeWrite {prog : List (Call ι)} {written : List ι} {i : ι}
    (h : i ∈ readsBeforeWrite written prog) : i ∉ written := by
  induction prog generalizing written with
  | nil => cases h
  | cons c prog ih =>
    rcases List.mem_append.mp h with h | h
    · simpa using (List.mem_filter.mp h).2
    · exact fun w => ih h (List.mem_cons_of_mem c.dst w)

/-- Two outcomes of a body agree on the values `S` picks: the same stop at the same operands, or
two finished states equal on `S`. -/
def OutcomesAgree (S : ι → Prop) :
    Except (Call ι × Nat × Nat) (ι → Nat) → Except (Call ι × Nat × Nat) (ι → Nat) → Prop
  | .error e, .error e' => e = e'
  | .ok s, .ok s' => ∀ i, S i → s i = s' i
  | _, _ => False

omit [DecidableEq ι] in
private theorem OutcomesAgree.mono {S T : ι → Prop} {r r' : Except (Call ι × Nat × Nat) (ι → Nat)}
    (h : OutcomesAgree S r r') (sub : ∀ i, T i → S i) : OutcomesAgree T r r' := by
  cases r <;> cases r' <;> simp only [OutcomesAgree] at h ⊢
  · exact h
  · exact fun i hi => h i (sub i hi)

theorem run_agree {prog : List (Call ι)} {written : List ι} {regs regs' : ι → Nat}
    (onWritten : ∀ i ∈ written, regs i = regs' i)
    (onReads : ∀ i ∈ readsBeforeWrite written prog, regs i = regs' i) :
    OutcomesAgree (fun i => i ∈ written ∨ i ∈ prog.map Call.dst)
      (run impl prog regs) (run impl prog regs') := by
  induction prog generalizing written regs regs' with
  | nil => simpa [OutcomesAgree] using onWritten
  | cons c prog ih =>
    have operand (i : ι) (read : i = c.src1 ∨ i = c.src2) : regs i = regs' i := by
      by_cases w : i ∈ written
      · exact onWritten i w
      · refine onReads i (List.mem_append_left _ (List.mem_filter.mpr ⟨?_, by simpa using w⟩))
        rcases read with rfl | rfl <;> simp
    have a := operand c.src1 (.inl rfl)
    have b := operand c.src2 (.inr rfl)
    cases within : c.op.withinContract p (regs c.src1) (regs c.src2)
    · have within' := within
      rw [a, b] at within'
      rw [run_cons_of_error impl (step_of_not_within impl within),
        run_cons_of_error impl (step_of_not_within impl within')]
      simp only [OutcomesAgree, a, b]
    · have within' := within
      rw [a, b] at within'
      rw [run_cons_of_ok impl (step_of_within impl within),
        run_cons_of_ok impl (step_of_within impl within'), ← a, ← b]
      have keep (i : ι) (same : regs i = regs' i) :
          Function.update regs c.dst (impl.run c.op (regs c.src1) (regs c.src2)) i =
            Function.update regs' c.dst (impl.run c.op (regs c.src1) (regs c.src2)) i := by
        simp only [Function.update_apply, same]
      refine (ih (fun i hi => ?_) (fun i hi => keep i (onReads i
        (List.mem_append_right _ hi)))).mono fun i hi => ?_
      · rcases List.mem_cons.mp hi with rfl | hi
        · simp only [Function.update_same]
        · exact keep i (onWritten i hi)
      · simp only [List.map_cons, List.mem_cons] at hi
        simp only [List.mem_cons]
        tauto

theorem exactRun_agree {R : Type} [CommRing R] {prog : List (Call ι)} {written : List ι}
    {regs regs' : ι → R} (onWritten : ∀ i ∈ written, regs i = regs' i)
    (onReads : ∀ i ∈ readsBeforeWrite written prog, regs i = regs' i) {i : ι}
    (hi : i ∈ written ∨ i ∈ prog.map Call.dst) : exactRun prog regs i = exactRun prog regs' i := by
  induction prog generalizing written regs regs' with
  | nil => exact onWritten i (by simpa using hi)
  | cons c prog ih =>
    have operand (j : ι) (read : j = c.src1 ∨ j = c.src2) : regs j = regs' j := by
      by_cases w : j ∈ written
      · exact onWritten j w
      · refine onReads j (List.mem_append_left _ (List.mem_filter.mpr ⟨?_, by simpa using w⟩))
        rcases read with rfl | rfl <;> simp
    rw [exactRun, exactRun, operand c.src1 (.inl rfl), operand c.src2 (.inr rfl)]
    refine @ih (c.dst :: written) _ _ (fun j hj => ?_) (fun j hj => ?_) ?_
    · rcases List.mem_cons.mp hj with rfl | hj
      · simp only [Function.update_same]
      · simp only [Function.update_apply, onWritten j hj]
    · simp only [Function.update_apply, onReads j (List.mem_append_right _ hj)]
    · simp only [List.map_cons, List.mem_cons] at hi
      simp only [List.mem_cons]
      tauto

theorem run_of_analyse {prog : List (Call ι)} {regs bounds out : ι → Nat}
    (within : ∀ i, regs i ≤ bounds i) (h : analyse p prog bounds = some out) :
    ∃ regs', run impl prog regs = .ok regs' ∧ ∀ i, regs' i ≤ out i := by
  induction prog generalizing regs bounds with
  | nil => cases h; exact ⟨regs, rfl, within⟩
  | cons c prog ih =>
    simp only [analyse] at h
    split at h
    · rename_i bounded
      have inContract := Prim.withinContract_mono (within c.src1) (within c.src2) bounded
      rw [run_cons, step_of_within impl inContract]
      refine ih (fun i => ?_) h
      rcases eq_or_ne i c.dst with rfl | hi
      · simp only [Function.update_same]
        exact Prim.le_resultBound (within _) (within _) (impl.returns _ _ _ inContract)
      · simp only [Function.update_noteq hi]
        exact within i
    · cases h

theorem run_of_forms [NeZero p] {prog : List (Call ι)} {forms : ι → Form} {acc : ι}
    (analysed : (analyse p prog fun i => (forms i).bound p).map (fun out => out acc) =
      some (p - 1))
    {regs : ι → Nat} (inForms : ∀ i, (forms i).Holds p (regs i)) :
    ∃ regs', run impl prog regs = .ok regs' ∧ regs' acc < p ∧
      (regs' acc : ZMod p) = exactRun prog (fun i => (regs i : ZMod p)) acc := by
  obtain ⟨out, hout, accBound⟩ := Option.map_eq_some'.mp analysed
  obtain ⟨regs', hrun, bounded⟩ := run_of_analyse impl (fun i => Form.le_bound (inForms i)) hout
  refine ⟨regs', hrun, ?_, congrFun (run_simulates impl hrun) acc⟩
  have := bounded acc
  have := NeZero.pos p
  omega

end Run

section Loop

variable {ι : Type} [DecidableEq ι] {p : Nat} (impl : Implementation p)

/-- A loop over `indices`, in order: iteration `i` runs `body` on `point i` with `buffer[i]` in
the accumulator `acc`, and writes the accumulator back. -/
def loopChecked (body : List (Call ι)) (acc : ι) (point : Nat → ι → Nat) :
    List Nat → (Nat → Nat) → Except (Call ι × Nat × Nat) (Nat → Nat)
  | [], buffer => .ok buffer
  | i :: indices, buffer =>
    run impl body (Function.update (point i) acc (buffer i)) >>= fun regs =>
      loopChecked body acc point indices (Function.update buffer i (regs acc))

variable {body : List (Call ι)} {acc : ι} {point : Nat → ι → Nat}

theorem loopChecked_append (indices₁ indices₂ : List Nat) (buffer : Nat → Nat) :
    loopChecked impl body acc point (indices₁ ++ indices₂) buffer =
      loopChecked impl body acc point indices₁ buffer >>=
        loopChecked impl body acc point indices₂ := by
  induction indices₁ generalizing buffer with
  | nil => rfl
  | cons i indices ih =>
    simp only [List.cons_append, loopChecked]
    cases run impl body (Function.update (point i) acc (buffer i)) with
    | error e => rfl
    | ok regs => exact ih _

private theorem update_of_forall {Inv : Nat → Prop} {buffer : Nat → Nat} (start : ∀ k, Inv (buffer k))
    (i : Nat) {v : Nat} (h : Inv v) (k : Nat) : Inv (Function.update buffer i v k) := by
  rw [Function.update_apply]
  split_ifs
  exacts [h, start k]

theorem loopChecked_ok (Inv : Nat → Prop) (term : Nat → ZMod p)
    (iteration : ∀ i v, Inv v → ∃ regs, run impl body (Function.update (point i) acc v) = .ok regs ∧
      regs acc < p ∧ Inv (regs acc) ∧ (regs acc : ZMod p) = v + term i)
    (indices : List Nat) {buffer : Nat → Nat} (start : ∀ i, Inv (buffer i)) :
    ∃ q, loopChecked impl body acc point indices buffer = .ok q ∧ (∀ k, Inv (q k)) ∧
      (∀ k ∈ indices, q k < p) ∧ (∀ k ∉ indices, q k = buffer k) ∧
      ∀ k, (q k : ZMod p) = buffer k + indices.count k * term k := by
  induction indices generalizing buffer with
  | nil => exact ⟨buffer, rfl, start, fun _ h => absurd h (List.not_mem_nil _), fun _ _ => rfl,
      fun k => by simp⟩
  | cons i indices ih =>
    obtain ⟨regs, hrun, lt, inv, value⟩ := iteration i (buffer i) (start i)
    obtain ⟨q, hq, qInv, visited, frame, qval⟩ := ih (update_of_forall start i inv)
    refine ⟨q, by rw [loopChecked, hrun]; exact hq, qInv, fun k mem => ?_, fun k out => ?_,
      fun k => ?_⟩
    · by_cases again : k ∈ indices
      · exact visited k again
      · obtain rfl := (List.mem_cons.mp mem).resolve_right again
        rwa [frame k again, Function.update_same]
    · rw [List.mem_cons, not_or] at out
      rw [frame k out.2, Function.update_noteq out.1]
    · rw [qval k, List.count_cons]
      rcases eq_or_ne k i with rfl | h
      · simp only [Function.update_same, value, beq_self_eq_true, if_true, Nat.cast_add,
          Nat.cast_one, add_mul, one_mul, add_assoc, add_comm (term k)]
      · simp only [Function.update_noteq h, beq_iff_eq, Ne.symm h, if_false, add_zero]

theorem loopChecked_ok_apply (Inv : Nat → Prop)
    (iteration : ∀ i v, Inv v →
      ∃ regs, run impl body (Function.update (point i) acc v) = .ok regs ∧ Inv (regs acc))
    {indices : List Nat} (distinct : indices.Nodup) {buffer : Nat → Nat}
    (start : ∀ i, Inv (buffer i)) :
    ∃ q, loopChecked impl body acc point indices buffer = .ok q ∧
      (∀ k ∈ indices, ∃ regs,
        run impl body (Function.update (point k) acc (buffer k)) = .ok regs ∧ q k = regs acc) ∧
      ∀ k ∉ indices, q k = buffer k := by
  induction indices generalizing buffer with
  | nil => exact ⟨buffer, rfl, fun _ h => absurd h (List.not_mem_nil _), fun _ _ => rfl⟩
  | cons i indices ih =>
    obtain ⟨fresh, distinct⟩ := List.nodup_cons.mp distinct
    obtain ⟨regs, hrun, inv⟩ := iteration i (buffer i) (start i)
    obtain ⟨q, hq, visited, frame⟩ := ih distinct (update_of_forall start i inv)
    refine ⟨q, by rw [loopChecked, hrun]; exact hq, fun k mem => ?_, fun k out => ?_⟩
    · rcases List.mem_cons.mp mem with rfl | later
      · exact ⟨regs, hrun, by rw [frame k fresh, Function.update_same]⟩
      · have other : k ≠ i := fun same => fresh (same ▸ later)
        simpa only [Function.update_noteq other] using visited k later
    · rw [List.mem_cons, not_or] at out
      rw [frame k out.2, Function.update_noteq out.1]

theorem loopChecked_finishes_iff (Inv good : Nat → Prop) (stop : Nat → Call ι × Nat × Nat)
    (finishes : ∀ i v, Inv v → good i →
      ∃ regs, run impl body (Function.update (point i) acc v) = .ok regs ∧ Inv (regs acc))
    (stops : ∀ i v, Inv v → ¬good i →
      run impl body (Function.update (point i) acc v) = .error (stop i))
    (indices : List Nat) {buffer : Nat → Nat} (start : ∀ i, Inv (buffer i)) :
    ((∃ q, loopChecked impl body acc point indices buffer = .ok q) ↔ ∀ i ∈ indices, good i) ∧
      ∀ e, loopChecked impl body acc point indices buffer = .error e →
        ∃ i ∈ indices, ¬good i ∧ e = stop i := by
  induction indices generalizing buffer with
  | nil => exact ⟨⟨fun _ _ h => absurd h (List.not_mem_nil _), fun _ => ⟨buffer, rfl⟩⟩,
      fun _ h => nomatch h⟩
  | cons i indices ih =>
    rw [List.forall_mem_cons]
    by_cases ok : good i
    · obtain ⟨regs, hrun, inv⟩ := finishes i (buffer i) (start i) ok
      obtain ⟨finished, stopped⟩ := ih (update_of_forall start i inv)
      rw [loopChecked, hrun]
      refine ⟨finished.trans (and_iff_right ok).symm, fun e h => ?_⟩
      obtain ⟨j, mem, bad, rfl⟩ := stopped e h
      exact ⟨j, List.mem_cons_of_mem i mem, bad, rfl⟩
    · rw [loopChecked, stops i (buffer i) (start i) ok]
      exact ⟨⟨fun ⟨_, h⟩ => (nomatch h), fun all => absurd all.1 ok⟩,
        fun e h => ⟨i, List.mem_cons_self i indices, ok, by cases h; rfl⟩⟩

end Loop

end Waffle.Arith.Coarse
