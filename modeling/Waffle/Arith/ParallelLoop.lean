/- The `omp parallel for` of `ProverTurboArithmeticWidget::compute_quotient_contribution` at the
integers: every worker carries its own temporaries `T0 .. T6` from iteration to iteration and runs
each iteration checked against the contracts, and the workers interleave in any order. The
integer machine is simulated, step for step, by the worker machine of `Waffle.Widget.Parallel`
over `ℤ`, whose invariant then says what every interleaving ends with. -/

import Waffle.Arith.QuotientLoop
import Waffle.Widget.Parallel

set_option autoImplicit false
set_option relaxedAutoImplicit false

namespace Waffle.Arith.ParallelLoop

open Waffle.Core Waffle.Arith.Coarse Waffle.Arith.LoopBody Waffle.Arith.QuotientLoop
  Waffle.Widget.Prover Waffle.Widget.Parallel

/-- The integer state of the parallel loop: `quotient_large`, every worker's loop counter and
every worker's temporaries. -/
structure CheckedWorkers where
  quotientLarge : Nat → Nat
  next : Nat → Nat
  temps : Nat → Slot → Nat

/-- Worker `j` runs its next iteration, if it has one left: the body, checked against the
contracts, from the worker's temporaries, the point of its index and the buffer's entry. -/
def checkedWorkerStep (impl : Implementation frModulus) (point : Nat → Slot → Nat)
    (threadSize : Nat) (s : CheckedWorkers) (j : Nat) :
    Except (Call Slot × Nat × Nat) CheckedWorkers :=
  if s.next j < (j + 1) * threadSize then
    run impl quotientLoopBody
        (iterationState (s.temps j) (point (s.next j)) (s.quotientLarge (s.next j))) >>=
      fun regs => .ok ⟨Function.update s.quotientLarge (s.next j) (regs .quotient),
        Function.update s.next j (s.next j + 1), Function.update s.temps j regs⟩
  else .ok s

/-- The workers at the start of the loop: each counter at the start of its chunk, the
temporaries as they happen to be. -/
def startCheckedWorkers (threadSize : Nat) (quotientLarge : Nat → Nat)
    (temps : Nat → Slot → Nat) : CheckedWorkers :=
  ⟨quotientLarge, fun j => j * threadSize, temps⟩

/-- The workers after the steps of `schedule`, in order, stopping at the first call out of
contract. -/
def runCheckedWorkers (impl : Implementation frModulus) (point : Nat → Slot → Nat)
    (threadSize : Nat) (s : CheckedWorkers) (schedule : List Nat) :
    Except (Call Slot × Nat × Nat) CheckedWorkers :=
  schedule.foldlM (checkedWorkerStep impl point threadSize) s

/-- What every state the checked workers reach satisfies: each counter inside its chunk, and every
entry a worker has still to run holding its first value. -/
structure CheckedInvariant (threadSize : Nat) (quotient : Nat → Nat) (s : CheckedWorkers) :
    Prop where
  next_ge : ∀ j, j * threadSize ≤ s.next j
  next_le : ∀ j, s.next j ≤ (j + 1) * threadSize
  untouched : ∀ j k, s.next j ≤ k → k < (j + 1) * threadSize → s.quotientLarge k = quotient k

private theorem startCheckedWorkers_invariant (threadSize : Nat) (quotient : Nat → Nat)
    (temps : Nat → Slot → Nat) :
    CheckedInvariant threadSize quotient (startCheckedWorkers threadSize quotient temps) :=
  ⟨fun _ => le_rfl, fun j => Nat.mul_le_mul_right _ (Nat.le_succ j), fun _ _ _ _ => rfl⟩

section Step

variable (impl : Implementation frModulus) {point : Nat → Slot → Nat} {threadSize : Nat}
  {quotient : Nat → Nat} {s : CheckedWorkers}

private theorem checkedWorkerStep_of_left (inv : CheckedInvariant threadSize quotient s) {j : Nat}
    (left : s.next j < (j + 1) * threadSize) :
    (∀ e, run impl quotientLoopBody
        (Function.update (point (s.next j)) .quotient (quotient (s.next j))) = .error e →
      checkedWorkerStep impl point threadSize s j = .error e) ∧
    ∀ regs, run impl quotientLoopBody
        (Function.update (point (s.next j)) .quotient (quotient (s.next j))) = .ok regs →
      ∃ temps, checkedWorkerStep impl point threadSize s j =
        .ok ⟨Function.update s.quotientLarge (s.next j) (regs .quotient),
          Function.update s.next j (s.next j + 1), temps⟩ := by
  have entry := inv.untouched j (s.next j) le_rfl left
  have agree : ∀ x ∉ temporaries,
      iterationState (s.temps j) (point (s.next j)) (s.quotientLarge (s.next j)) x =
        Function.update (point (s.next j)) .quotient (quotient (s.next j)) x :=
    fun x outside => by simp only [iterationState, outside, if_false, entry, Function.update_apply]
  have outcomes := run_agree_outside_temporaries impl quotientLoopBody_reads agree
  unfold checkedWorkerStep
  rw [if_pos left]
  constructor
  · intro e fresh
    rw [fresh] at outcomes
    cases hrun : run impl quotientLoopBody
        (iterationState (s.temps j) (point (s.next j)) (s.quotientLarge (s.next j))) with
    | error e' =>
      rw [hrun] at outcomes
      rw [show e' = e from outcomes]
      rfl
    | ok regs' => rw [hrun] at outcomes; exact outcomes.elim
  · intro regs fresh
    rw [fresh] at outcomes
    cases hrun : run impl quotientLoopBody
        (iterationState (s.temps j) (point (s.next j)) (s.quotientLarge (s.next j))) with
    | error e => rw [hrun] at outcomes; exact outcomes.elim
    | ok regs' =>
      rw [hrun] at outcomes
      have same : regs' .quotient = regs .quotient := outcomes .quotient (by decide)
      exact ⟨Function.update s.temps j regs', by rw [← same]; rfl⟩

private theorem checkedWorkerStep_ok_cases (inv : CheckedInvariant threadSize quotient s) {j : Nat}
    {s' : CheckedWorkers} (h : checkedWorkerStep impl point threadSize s j = .ok s') :
    (¬s.next j < (j + 1) * threadSize ∧ s' = s) ∨
      (s.next j < (j + 1) * threadSize ∧
        (∃ regs, run impl quotientLoopBody
          (Function.update (point (s.next j)) .quotient (quotient (s.next j))) = .ok regs) ∧
        s'.next = Function.update s.next j (s.next j + 1) ∧
        ∀ k, k ≠ s.next j → s'.quotientLarge k = s.quotientLarge k) := by
  by_cases left : s.next j < (j + 1) * threadSize
  · cases fresh : run impl quotientLoopBody
        (Function.update (point (s.next j)) .quotient (quotient (s.next j))) with
    | error e =>
      rw [(checkedWorkerStep_of_left impl inv left).1 e fresh] at h
      cases h
    | ok regs =>
      obtain ⟨temps, step⟩ := (checkedWorkerStep_of_left impl inv left).2 regs fresh
      rw [step] at h
      cases h
      exact .inr ⟨left, ⟨regs, rfl⟩, rfl, fun k other => Function.update_noteq other _ _⟩
  · unfold checkedWorkerStep at h
    rw [if_neg left] at h
    cases h
    exact .inl ⟨left, rfl⟩

private theorem checkedWorkerStep_error_cases (inv : CheckedInvariant threadSize quotient s) {j : Nat}
    {e : Call Slot × Nat × Nat} (h : checkedWorkerStep impl point threadSize s j = .error e) :
    s.next j < (j + 1) * threadSize ∧ run impl quotientLoopBody
      (Function.update (point (s.next j)) .quotient (quotient (s.next j))) = .error e := by
  by_cases left : s.next j < (j + 1) * threadSize
  · refine ⟨left, ?_⟩
    cases fresh : run impl quotientLoopBody
        (Function.update (point (s.next j)) .quotient (quotient (s.next j))) with
    | error e' =>
      rw [(checkedWorkerStep_of_left impl inv left).1 e' fresh] at h
      cases h
      rfl
    | ok regs =>
      obtain ⟨temps, step⟩ := (checkedWorkerStep_of_left impl inv left).2 regs fresh
      rw [step] at h
      cases h
  · unfold checkedWorkerStep at h
    rw [if_neg left] at h
    cases h

private theorem checkedWorkerStep_invariant (inv : CheckedInvariant threadSize quotient s) {j : Nat}
    {s' : CheckedWorkers} (h : checkedWorkerStep impl point threadSize s j = .ok s') :
    CheckedInvariant threadSize quotient s' := by
  rcases checkedWorkerStep_ok_cases impl inv h with ⟨-, rfl⟩ | ⟨left, -, next, buffer⟩
  · exact inv
  · refine ⟨fun j' => ?_, fun j' => ?_, fun j' k lo hi => ?_⟩
    · rw [next, Function.update_apply]
      split_ifs with same
      · subst same
        exact Nat.le_succ_of_le (inv.next_ge j')
      · exact inv.next_ge j'
    · rw [next, Function.update_apply]
      split_ifs with same
      · subst same
        exact left
      · exact inv.next_le j'
    · rw [next, Function.update_apply] at lo
      split_ifs at lo with same
      · subst same
        rw [buffer k (by omega)]
        exact inv.untouched j' k (by omega) hi
      · have other : k ≠ s.next j := by
          rintro rfl
          exact same (chunk_unique (Nat.le_trans (inv.next_ge j') lo) hi (inv.next_ge j) left)
        rw [buffer k other]
        exact inv.untouched j' k lo hi

end Step

/-- The integer workers and the workers over `ℤ` agree: the same counters, the same buffer. -/
structure Simulates (s : CheckedWorkers) (t : Workers ℤ) : Prop where
  next_eq : t.next = s.next
  buffer_eq : ∀ k, t.quotientLarge k = s.quotientLarge k

section Simulation

variable (impl : Implementation frModulus) {point : Nat → Slot → Nat}
  {numThreads threadSize : Nat} {quotient q : Nat → Nat}
  (runs : ∀ i < numThreads * threadSize, ∃ regs,
    run impl quotientLoopBody (Function.update (point i) .quotient (quotient i)) = .ok regs ∧
      q i = regs .quotient)

include runs in
private theorem checkedWorkerStep_simulates {s : CheckedWorkers} {t : Workers ℤ} (sim : Simulates s t)
    (inv : CheckedInvariant threadSize quotient s) {j : Nat} (worker : j < numThreads) :
    ∃ s', checkedWorkerStep impl point threadSize s j = .ok s' ∧
      Simulates s' (workerStep threadSize (fun k => (q k : ℤ) - quotient k) t j) := by
  unfold workerStep
  rw [sim.next_eq]
  by_cases left : s.next j < (j + 1) * threadSize
  case neg =>
    exact ⟨s, by unfold checkedWorkerStep; rw [if_neg left], by rw [if_neg left]; exact sim⟩
  case pos =>
    obtain ⟨regs, fresh, value⟩ :=
      runs (s.next j) (Nat.lt_of_lt_of_le left (Nat.mul_le_mul_right _ worker))
    obtain ⟨temps, step⟩ := (checkedWorkerStep_of_left impl inv left).2 regs fresh
    rw [if_pos left]
    refine ⟨_, step, rfl, fun k => ?_⟩
    simp only [addAt, Function.update_apply]
    split_ifs
    · rw [sim.buffer_eq, inv.untouched j _ le_rfl left, ← value]
      ring
    · exact sim.buffer_eq k

include runs in
private theorem runCheckedWorkers_simulates (schedule : List Nat)
    (workers : ∀ j ∈ schedule, j < numThreads) {s : CheckedWorkers} {t : Workers ℤ}
    (sim : Simulates s t) (inv : CheckedInvariant threadSize quotient s) :
    ∃ s', runCheckedWorkers impl point threadSize s schedule = .ok s' ∧
      Simulates s' (runWorkers threadSize (fun k => (q k : ℤ) - quotient k) t schedule) := by
  induction schedule generalizing s t with
  | nil => exact ⟨s, rfl, sim⟩
  | cons j schedule ih =>
    have worker := workers j (List.mem_cons_self j schedule)
    obtain ⟨s', step, sim'⟩ := checkedWorkerStep_simulates impl runs sim inv worker
    obtain ⟨s'', rest, sim''⟩ := ih (fun j' mem => workers j' (List.mem_cons_of_mem j mem)) sim'
      (checkedWorkerStep_invariant impl inv step)
    refine ⟨s'', ?_, sim''⟩
    rw [runCheckedWorkers, List.foldlM_cons, step]
    exact rest

end Simulation

/-- At the integers, with every point in the loop's forms and every `w_4` fully reduced, every
interleaving of the `num_threads` workers of `compute_quotient_contribution` that lets each finish
its chunk, each worker carrying its own uninitialised temporaries from iteration to iteration,
keeps every call within its contract and ends with exactly the `quotient_large` of the sequential
checked loop over the workers' indices. -/
theorem runCheckedWorkers_eq_quotientLoopChecked (impl : Implementation frModulus)
    {point : Nat → Slot → Nat} (inForms : LoopForms point) {numThreads threadSize : Nat}
    (schedule : List Nat) (workers : ∀ j ∈ schedule, j < numThreads)
    (complete : ∀ j < numThreads, threadSize ≤ schedule.count j) {quotient : Nat → Nat}
    (start : ∀ i, quotient i < frModulus) (temps : Nat → Slot → Nat) :
    ∃ s q, runCheckedWorkers impl point threadSize (startCheckedWorkers threadSize quotient temps)
        schedule = .ok s ∧
      quotientLoopChecked impl point (threadIndices numThreads threadSize) quotient = .ok q ∧
      s.quotientLarge = q := by
  have domain (k : Nat) :
      k ∈ threadIndices numThreads threadSize ↔ k < numThreads * threadSize := by
    rw [threadIndices_eq_range, List.mem_range]
  have distinct : (threadIndices numThreads threadSize).Nodup := by
    rw [threadIndices_eq_range]
    exact List.nodup_range _
  obtain ⟨q, hq, visited, frame⟩ := loopChecked_ok_apply impl (· < frModulus)
    (fun i _ entry => let ⟨regs, hrun, lt, _⟩ := iteration_within_contract impl inForms i entry
      ⟨regs, hrun, lt⟩) distinct start
  have begin : Simulates (startCheckedWorkers threadSize quotient temps)
      (startWorkers threadSize fun k => (quotient k : ℤ)) := ⟨rfl, fun _ => rfl⟩
  obtain ⟨s, hs, sim⟩ := runCheckedWorkers_simulates impl
    (fun i lt => visited i ((domain i).mpr lt)) schedule workers begin
    (startCheckedWorkers_invariant threadSize quotient temps)
  refine ⟨s, q, hs, by rw [quotientLoopChecked_eq_loopChecked]; exact hq, funext fun k => ?_⟩
  have final : (s.quotientLarge k : ℤ) = q k := by
    rw [← sim.buffer_eq k, runWorkers_complete schedule workers complete k]
    split_ifs with inDomain
    · ring
    · rw [frame k fun mem => inDomain ((domain k).mp mem)]
  exact_mod_cast final

theorem runCheckedWorkers_eq_at_reversed_schedule :
    LoopForms (fun _ => reducedPoint) ∧ (∀ j ∈ [1, 0], j < 2) ∧
      (∀ j < 2, 1 ≤ [1, 0].count j) ∧ (∀ _ : Nat, 0 < frModulus) ∧
      ∃ s q, runCheckedWorkers (reference frModulus) (fun _ => reducedPoint) 1
          (startCheckedWorkers 1 (fun _ => 0) fun _ _ => 0) [1, 0] = .ok s ∧
        quotientLoopChecked (reference frModulus) (fun _ => reducedPoint) (threadIndices 2 1)
          (fun _ => 0) = .ok q ∧
        s.quotientLarge = q :=
  have inForms : LoopForms (fun _ => reducedPoint) := ⟨fun _ => by decide, fun _ => by decide⟩
  have workers : ∀ j ∈ [1, 0], j < 2 := by decide
  have complete : ∀ j < 2, 1 ≤ [1, 0].count j := by decide
  have start : ∀ _ : Nat, 0 < frModulus := fun _ => NeZero.pos frModulus
  ⟨inForms, workers, complete, start, runCheckedWorkers_eq_quotientLoopChecked (reference frModulus)
    inForms [1, 0] workers complete start fun _ _ => 0⟩

section Boundary

variable (impl : Implementation frModulus) {point : Nat → Slot → Nat} {threadSize : Nat}
  {quotient : Nat → Nat} {s : CheckedWorkers}
  (forms : ∀ i s, (quotientForms s).Holds frModulus (point i s))
  (start : ∀ i, quotient i < frModulus) {numThreads : Nat}

include forms start in
private theorem runCheckedWorkers_ok_of_reduced
    (reduced : ∀ i < numThreads * threadSize, point i .w4 < frModulus) (schedule : List Nat)
    (workers : ∀ j ∈ schedule, j < numThreads) (inv : CheckedInvariant threadSize quotient s) :
    ∃ s', runCheckedWorkers impl point threadSize s schedule = .ok s' := by
  induction schedule generalizing s with
  | nil => exact ⟨s, rfl⟩
  | cons j schedule ih =>
    have step : ∃ s₁, checkedWorkerStep impl point threadSize s j = .ok s₁ := by
      by_cases left : s.next j < (j + 1) * threadSize
      · have inDomain : s.next j < numThreads * threadSize := Nat.lt_of_lt_of_le left
          (Nat.mul_le_mul_right _ (workers j (List.mem_cons_self j schedule)))
        obtain ⟨regs, fresh, -⟩ :=
          iteration_ok_of_reduced impl (forms (s.next j)) (start (s.next j)) (reduced _ inDomain)
        obtain ⟨temps, h⟩ := (checkedWorkerStep_of_left impl inv left).2 regs fresh
        exact ⟨_, h⟩
      · exact ⟨s, by unfold checkedWorkerStep; rw [if_neg left]⟩
    obtain ⟨s₁, h⟩ := step
    obtain ⟨s', rest⟩ := ih (fun j' mem => workers j' (List.mem_cons_of_mem j mem))
      (checkedWorkerStep_invariant impl inv h)
    exact ⟨s', by rw [runCheckedWorkers, List.foldlM_cons, h]; exact rest⟩

private theorem runCheckedWorkers_stops (schedule : List Nat) (workers : ∀ j ∈ schedule, j < numThreads)
    (inv : CheckedInvariant threadSize quotient s) {e : Call Slot × Nat × Nat}
    (h : runCheckedWorkers impl point threadSize s schedule = .error e) :
    ∃ i < numThreads * threadSize, run impl quotientLoopBody
      (Function.update (point i) .quotient (quotient i)) = .error e := by
  induction schedule generalizing s with
  | nil => cases h
  | cons j schedule ih =>
    rw [runCheckedWorkers, List.foldlM_cons] at h
    cases hstep : checkedWorkerStep impl point threadSize s j with
    | ok s₁ =>
      rw [hstep] at h
      exact ih (fun j' mem => workers j' (List.mem_cons_of_mem j mem))
        (checkedWorkerStep_invariant impl inv hstep) h
    | error e' =>
      rw [hstep] at h
      cases h
      obtain ⟨left, fresh⟩ := checkedWorkerStep_error_cases impl inv hstep
      exact ⟨s.next j, Nat.lt_of_lt_of_le left
        (Nat.mul_le_mul_right _ (workers j (List.mem_cons_self j schedule))), fresh⟩

private theorem runCheckedWorkers_ok_runs {schedule : List Nat} {s' : CheckedWorkers}
    (inv : CheckedInvariant threadSize quotient s)
    (h : runCheckedWorkers impl point threadSize s schedule = .ok s') (j : Nat) :
    s'.next j = min ((j + 1) * threadSize) (s.next j + schedule.count j) ∧
      ∀ i, s.next j ≤ i → i < s'.next j → ∃ regs, run impl quotientLoopBody
        (Function.update (point i) .quotient (quotient i)) = .ok regs := by
  induction schedule generalizing s with
  | nil =>
    cases h
    exact ⟨by simp [inv.next_le j],
      fun i lo hi => absurd (Nat.lt_of_le_of_lt lo hi) (Nat.lt_irrefl _)⟩
  | cons a schedule ih =>
    rw [runCheckedWorkers, List.foldlM_cons] at h
    cases hstep : checkedWorkerStep impl point threadSize s a with
    | error e => rw [hstep] at h; cases h
    | ok s₁ =>
      rw [hstep] at h
      obtain ⟨count, ran⟩ := ih (checkedWorkerStep_invariant impl inv hstep) h
      rw [List.count_cons]
      rcases checkedWorkerStep_ok_cases impl inv hstep with
        ⟨done, rfl⟩ | ⟨left, ⟨regs, fresh⟩, next, -⟩
      · refine ⟨?_, ran⟩
        have := inv.next_le j
        rw [count]
        split_ifs with same
        · rw [beq_iff_eq] at same
          subst same
          omega
        · rfl
      · rw [next, Function.update_apply] at count ran
        by_cases same : j = a
        · subst same
          simp only [if_true, beq_self_eq_true] at count ran ⊢
          refine ⟨by rw [count]; omega, fun i lo hi => ?_⟩
          rcases Nat.eq_or_lt_of_le lo with rfl | later
          · exact ⟨regs, fresh⟩
          · exact ran i later hi
        · simp only [same, if_false, beq_iff_eq, Ne.symm same, add_zero] at count ran ⊢
          exact ⟨count, ran⟩

end Boundary

/-- At the integers, over large-domain points in the loop's forms and a fully reduced
`quotient_large`, every interleaving of the `num_threads` workers of
`compute_quotient_contribution` that schedules each worker at least `thread_size` times, each
worker carrying its own uninitialised temporaries from iteration to iteration, runs to the end
exactly when every `w_4` value of the domain is fully reduced; and every stop is at the doubling
call of an index of the domain whose `w_4` is not, with operands `w_4 + w_4`. -/
theorem runCheckedWorkers_finishes_iff (impl : Implementation frModulus)
    {point : Nat → Slot → Nat} (forms : ∀ i s, (quotientForms s).Holds frModulus (point i s))
    {numThreads threadSize : Nat} (schedule : List Nat) (workers : ∀ j ∈ schedule, j < numThreads)
    (complete : ∀ j < numThreads, threadSize ≤ schedule.count j) {quotient : Nat → Nat}
    (start : ∀ i, quotient i < frModulus) (temps : Nat → Slot → Nat) :
    ((∃ s, runCheckedWorkers impl point threadSize (startCheckedWorkers threadSize quotient temps)
        schedule = .ok s) ↔ ∀ i < numThreads * threadSize, point i .w4 < frModulus) ∧
      ∀ e, runCheckedWorkers impl point threadSize (startCheckedWorkers threadSize quotient temps)
          schedule = .error e →
        ∃ i < numThreads * threadSize, frModulus ≤ point i .w4 ∧
          e = (doublingCall, point i .w4 + point i .w4, point i .w4 + point i .w4) := by
  have inv := startCheckedWorkers_invariant threadSize quotient temps
  refine ⟨⟨fun ⟨s, h⟩ i inDomain => ?_, fun reduced =>
    runCheckedWorkers_ok_of_reduced impl forms start reduced schedule workers inv⟩, fun e h => ?_⟩
  · obtain ⟨j, worker, lo, hi⟩ := exists_chunk inDomain
    obtain ⟨count, ran⟩ := runCheckedWorkers_ok_runs impl inv h j
    have finished : s.next j = (j + 1) * threadSize := by
      have := complete j worker
      rw [count]
      show min ((j + 1) * threadSize) (j * threadSize + schedule.count j) = (j + 1) * threadSize
      rw [Nat.succ_mul]
      omega
    obtain ⟨regs, fresh⟩ := ran i lo (finished ▸ hi)
    refine Nat.lt_of_not_le fun unreduced => ?_
    rw [iteration_stops_of_unreduced impl (forms i) (start i) unreduced] at fresh
    cases fresh
  · obtain ⟨i, inDomain, fresh⟩ := runCheckedWorkers_stops impl schedule workers inv h
    by_cases reduced : point i .w4 < frModulus
    · obtain ⟨regs, ok, -⟩ := iteration_ok_of_reduced impl (forms i) (start i) reduced
      rw [ok] at fresh
      cases fresh
    · have unreduced := Nat.le_of_not_lt reduced
      rw [iteration_stops_of_unreduced impl (forms i) (start i) unreduced] at fresh
      cases fresh
      exact ⟨i, inDomain, unreduced, rfl⟩

theorem runCheckedWorkers_finishes_iff_at_failingPoint :
    (∀ (_ : Nat) (s : Slot), (quotientForms s).Holds frModulus (failingPoint s)) ∧
      (∀ j ∈ [1, 0], j < 2) ∧ (∀ j < 2, 1 ≤ [1, 0].count j) ∧ (∀ _ : Nat, 0 < frModulus) ∧
      ((∃ s, runCheckedWorkers (reference frModulus) (fun _ => failingPoint) 1
          (startCheckedWorkers 1 (fun _ => 0) fun _ _ => 0) [1, 0] = .ok s) ↔
        ∀ i < 2 * 1, failingPoint .w4 < frModulus) ∧
      ∀ e, runCheckedWorkers (reference frModulus) (fun _ => failingPoint) 1
          (startCheckedWorkers 1 (fun _ => 0) fun _ _ => 0) [1, 0] = .error e →
        ∃ i < 2 * 1, frModulus ≤ failingPoint .w4 ∧
          e = (doublingCall, failingPoint .w4 + failingPoint .w4,
            failingPoint .w4 + failingPoint .w4) :=
  have forms : ∀ (_ : Nat) (s : Slot), (quotientForms s).Holds frModulus (failingPoint s) :=
    fun _ => by decide
  have workers : ∀ j ∈ [1, 0], j < 2 := by decide
  have complete : ∀ j < 2, 1 ≤ [1, 0].count j := by decide
  have start : ∀ _ : Nat, 0 < frModulus := fun _ => NeZero.pos frModulus
  ⟨forms, workers, complete, start, runCheckedWorkers_finishes_iff (reference frModulus) forms
    [1, 0] workers complete start fun _ _ => 0⟩

end Waffle.Arith.ParallelLoop
