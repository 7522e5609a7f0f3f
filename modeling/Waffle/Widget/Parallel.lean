/- The parallel loop of `compute_quotient_contribution`: the workers' updates touch disjoint
entries, so every interleaving of the workers, indeed every order of the updates, ends with the
buffer one sequential loop gives. -/

import Waffle.Widget.Prover

set_option autoImplicit false
set_option relaxedAutoImplicit false

namespace Waffle.Widget.Parallel

open Waffle.Core Waffle.Widget.Key Waffle.Widget.Prover

variable {R : Type} [CommRing R]

/-- The iteration of the loop at index `i`: `quotient_large[i] += T0`, with `T0` the loop body at
the point of index `i`. -/
def loopUpdate (w : ProverTurboArithmeticWidget R) (alpha alphaBase : R)
    (w1Fft w2Fft w3Fft w4Fft : PolyBuffer R) : PolyBuffer R → Nat → PolyBuffer R :=
  fun q i => addAt q i (quotientTerm alpha alphaBase (gatePointAt w w1Fft w2Fft w3Fft w4Fft i))

private theorem loopUpdate_local (w w' : ProverTurboArithmeticWidget R) (alpha alphaBase : R)
    (w1Fft w2Fft w3Fft w4Fft w1Fft' w2Fft' w3Fft' w4Fft' q q' : PolyBuffer R) (i : Nat) :
    (∀ k, k ≠ i → loopUpdate w alpha alphaBase w1Fft w2Fft w3Fft w4Fft q i k = q k) ∧
      (gatePointAt w w1Fft w2Fft w3Fft w4Fft i = gatePointAt w' w1Fft' w2Fft' w3Fft' w4Fft' i →
        q i = q' i →
        loopUpdate w alpha alphaBase w1Fft w2Fft w3Fft w4Fft q i i =
          loopUpdate w' alpha alphaBase w1Fft' w2Fft' w3Fft' w4Fft' q' i i) := by
  refine ⟨fun k ne => Function.update_noteq ne _ _, fun point entry => ?_⟩
  simp only [loopUpdate, addAt, Function.update_same, point, entry]

/-! The workers of the `omp parallel for`. Worker `j` owns `[j·thread_size, (j+1)·thread_size)`
and keeps its own loop counter; a schedule says which worker runs its next iteration. -/

/-- The shared buffer and every worker's loop counter. -/
structure Workers (R : Type) where
  quotientLarge : PolyBuffer R
  next : Nat → Nat

/-- Worker `j` runs its next iteration, if it has one left: `quotient_large[i] += term i` at its
counter `i`. -/
def workerStep (threadSize : Nat) (term : Nat → R) (s : Workers R) (j : Nat) : Workers R :=
  if s.next j < (j + 1) * threadSize then
    ⟨addAt s.quotientLarge (s.next j) (term (s.next j)), Function.update s.next j (s.next j + 1)⟩
  else s

/-- The workers at the start of the loop: each counter at the start of its chunk. -/
def startWorkers (threadSize : Nat) (quotientLarge : PolyBuffer R) : Workers R :=
  ⟨quotientLarge, fun j => j * threadSize⟩

/-- The workers after the steps of `schedule`, in order. -/
def runWorkers (threadSize : Nat) (term : Nat → R) (s : Workers R) (schedule : List Nat) :
    Workers R :=
  schedule.foldl (workerStep threadSize term) s

theorem chunk_unique {threadSize i j j' : Nat} (lo : j * threadSize ≤ i)
    (hi : i < (j + 1) * threadSize) (lo' : j' * threadSize ≤ i) (hi' : i < (j' + 1) * threadSize) :
    j = j' := by
  have below := Nat.lt_of_mul_lt_mul_right (Nat.lt_of_le_of_lt lo hi')
  have above := Nat.lt_of_mul_lt_mul_right (Nat.lt_of_le_of_lt lo' hi)
  omega

theorem exists_chunk {numThreads threadSize k : Nat} (inDomain : k < numThreads * threadSize) :
    ∃ j < numThreads, j * threadSize ≤ k ∧ k < (j + 1) * threadSize := by
  have positive : 0 < threadSize := Nat.pos_of_ne_zero fun zero => by simp [zero] at inDomain
  have split := Nat.div_add_mod k threadSize
  have rest := Nat.mod_lt k positive
  refine ⟨k / threadSize, (Nat.div_lt_iff_lt_mul positive).mpr inDomain, ?_, ?_⟩ <;>
    rw [Nat.mul_comm] at split <;> [omega; (rw [Nat.succ_mul]; omega)]

/-- The indices the workers have passed. -/
def Passed (numThreads threadSize : Nat) (s : Workers R) (k : Nat) : Prop :=
  ∃ j < numThreads, j * threadSize ≤ k ∧ k < s.next j

/-- What every reachable state satisfies: each counter inside its chunk, and the buffer holding
the term exactly at the indices the workers have passed. -/
structure WorkersInvariant (numThreads threadSize : Nat) (term : Nat → R) (start : PolyBuffer R)
    (s : Workers R) : Prop where
  next_ge : ∀ j, j * threadSize ≤ s.next j
  next_le : ∀ j, s.next j ≤ (j + 1) * threadSize
  passed : ∀ k, Passed numThreads threadSize s k → s.quotientLarge k = start k + term k
  untouched : ∀ k, ¬ Passed numThreads threadSize s k → s.quotientLarge k = start k

variable {numThreads threadSize : Nat} {term : Nat → R} {start : PolyBuffer R}

private theorem startWorkers_invariant :
    WorkersInvariant numThreads threadSize term start (startWorkers threadSize start) :=
  ⟨fun _ => le_rfl, fun j => Nat.mul_le_mul_right _ (Nat.le_succ j),
    fun _ ⟨_, _, lo, hi⟩ => absurd (Nat.lt_of_le_of_lt lo hi) (Nat.lt_irrefl _), fun _ _ => rfl⟩

section Step

variable {s : Workers R} {j : Nat} (inv : WorkersInvariant numThreads threadSize term start s)
  (worker : j < numThreads) (left : s.next j < (j + 1) * threadSize)

include inv left in
private theorem next_not_passed : ¬ Passed numThreads threadSize s (s.next j) := fun ⟨j', _, lo, hi⟩ => by
  have same : j' = j :=
    chunk_unique lo (Nat.lt_of_lt_of_le hi (inv.next_le j')) (inv.next_ge j) left
  subst same
  exact Nat.lt_irrefl _ hi

include inv worker in
private theorem passed_after_step (q : PolyBuffer R) (k : Nat) :
    Passed numThreads threadSize ⟨q, Function.update s.next j (s.next j + 1)⟩ k ↔
      Passed numThreads threadSize s k ∨ k = s.next j := by
  constructor
  · rintro ⟨j', bound, lo, hi⟩
    by_cases same : j' = j
    · subst same
      simp only [Function.update_same] at hi
      rcases Nat.lt_succ_iff_lt_or_eq.mp hi with hi | rfl
      · exact .inl ⟨j', bound, lo, hi⟩
      · exact .inr rfl
    · exact .inl ⟨j', bound, lo, by simpa only [Function.update_noteq same] using hi⟩
  · rintro (⟨j', bound, lo, hi⟩ | rfl)
    · refine ⟨j', bound, lo, ?_⟩
      by_cases same : j' = j
      · subst same; simp only [Function.update_same]; omega
      · simpa only [Function.update_noteq same] using hi
    · exact ⟨j, worker, inv.next_ge j, by simp only [Function.update_same]; omega⟩

end Step

private theorem workerStep_invariant {s : Workers R} {j : Nat}
    (inv : WorkersInvariant numThreads threadSize term start s) (worker : j < numThreads) :
    WorkersInvariant numThreads threadSize term start (workerStep threadSize term s j) := by
  unfold workerStep
  split
  case isFalse => exact inv
  case isTrue left =>
    have fresh := next_not_passed inv left
    have passed := passed_after_step inv worker (addAt s.quotientLarge (s.next j) (term (s.next j)))
    refine ⟨fun j' => ?_, fun j' => ?_, fun k hk => ?_, fun k hk => ?_⟩
    · by_cases same : j' = j
      · subst same; simp only [Function.update_same]; exact Nat.le_succ_of_le (inv.next_ge j')
      · simp only [Function.update_noteq same]; exact inv.next_ge j'
    · by_cases same : j' = j
      · subst same; simp only [Function.update_same]; exact left
      · simp only [Function.update_noteq same]; exact inv.next_le j'
    · rcases (passed k).mp hk with hk | rfl
      · have other : k ≠ s.next j := fun same => fresh (same ▸ hk)
        simp only [addAt, Function.update_noteq other, inv.passed k hk]
      · simp only [addAt, Function.update_same, inv.untouched _ fresh]
    · have other : k ≠ s.next j := fun same => hk ((passed k).mpr (.inr same))
      simp only [addAt, Function.update_noteq other]
      exact inv.untouched k fun before => hk ((passed k).mpr (.inl before))

private theorem runWorkers_invariant (schedule : List Nat) (workers : ∀ j ∈ schedule, j < numThreads)
    {s : Workers R} (inv : WorkersInvariant numThreads threadSize term start s) :
    WorkersInvariant numThreads threadSize term start (runWorkers threadSize term s schedule) := by
  induction schedule generalizing s with
  | nil => exact inv
  | cons j schedule ih =>
    exact ih (fun j' mem => workers j' (List.mem_cons_of_mem j mem))
      (workerStep_invariant inv (workers j (List.mem_cons_self j schedule)))

private theorem workerStep_next (s : Workers R) (a j : Nat) :
    (workerStep threadSize term s a).next j =
      if a = j ∧ s.next j < (j + 1) * threadSize then s.next j + 1 else s.next j := by
  unfold workerStep
  by_cases same : a = j
  · subst same
    split
    · simp_all
    · simp only [true_and]; rw [if_neg (by omega)]
  · split <;> simp [same, Ne.symm same, Function.update_noteq]

private theorem runWorkers_next (schedule : List Nat) (s : Workers R) (j : Nat)
    (inside : s.next j ≤ (j + 1) * threadSize) :
    (runWorkers threadSize term s schedule).next j =
      min ((j + 1) * threadSize) (s.next j + schedule.count j) := by
  induction schedule generalizing s with
  | nil => simp [runWorkers, inside]
  | cons a schedule ih =>
    have step : (workerStep threadSize term s a).next j =
        if a = j ∧ s.next j < (j + 1) * threadSize then s.next j + 1 else s.next j :=
      workerStep_next s a j
    have inside' : (workerStep threadSize term s a).next j ≤ (j + 1) * threadSize := by
      rw [step]; split <;> omega
    rw [runWorkers, List.foldl_cons, ← runWorkers, ih _ inside', step, List.count_cons]
    by_cases same : a = j
    · subst same; split <;> simp_all <;> omega
    · simp [same]

theorem runWorkers_complete (schedule : List Nat) (workers : ∀ j ∈ schedule, j < numThreads)
    (complete : ∀ j < numThreads, threadSize ≤ schedule.count j) (k : Nat) :
    (runWorkers threadSize term (startWorkers threadSize start) schedule).quotientLarge k =
      if k < numThreads * threadSize then start k + term k else start k := by
  have inv : WorkersInvariant numThreads threadSize term start
      (runWorkers threadSize term (startWorkers threadSize start) schedule) :=
    runWorkers_invariant schedule workers startWorkers_invariant
  have finished : ∀ j < numThreads,
      (runWorkers threadSize term (startWorkers threadSize start) schedule).next j =
        (j + 1) * threadSize := fun j bound => by
    rw [runWorkers_next _ _ _ (Nat.mul_le_mul_right _ (Nat.le_succ j))]
    have := complete j bound
    simp only [startWorkers, Nat.succ_mul]
    omega
  split
  case isTrue inDomain =>
    obtain ⟨j, bound, lo, hi⟩ := exists_chunk inDomain
    exact inv.passed k ⟨j, bound, lo, (finished j bound).symm ▸ hi⟩
  case isFalse outside =>
    refine inv.untouched k fun ⟨j, bound, _, hi⟩ => outside ?_
    rw [finished j bound] at hi
    exact Nat.lt_of_lt_of_le hi (Nat.mul_le_mul_right _ bound)

/-- The nested loops update every index below `num_threads·thread_size` once and no other; an
update writes only its own entry of `quotient_large` and reads only that entry and the point of
its index. Hence every order of the updates, and every interleaving of the workers that lets each
finish its chunk, ends with the buffer of one sequential loop over
`0 .. num_threads·thread_size − 1`. -/
theorem parallel_quotient_loop_sequential (w : ProverTurboArithmeticWidget R) (alpha alphaBase : R)
    (w1Fft w2Fft w3Fft w4Fft quotientLarge : PolyBuffer R) :
    let numThreads := w.key.largeDomainNumThreads
    let threadSize := w.key.largeDomainThreadSize
    let update := loopUpdate w alpha alphaBase w1Fft w2Fft w3Fft w4Fft
    let sequential := (List.range (numThreads * threadSize)).foldl update quotientLarge
    threadIndices numThreads threadSize = List.range (numThreads * threadSize) ∧
      (∀ q i k, k ≠ i → update q i k = q k) ∧
      (∀ (w' : ProverTurboArithmeticWidget R) (w1Fft' w2Fft' w3Fft' w4Fft' q q' : PolyBuffer R) (i : Nat),
        gatePointAt w w1Fft w2Fft w3Fft w4Fft i = gatePointAt w' w1Fft' w2Fft' w3Fft' w4Fft' i →
          q i = q' i →
          update q i i = loopUpdate w' alpha alphaBase w1Fft' w2Fft' w3Fft' w4Fft' q' i i) ∧
      quotientLoop w alpha alphaBase w1Fft w2Fft w3Fft w4Fft quotientLarge = sequential ∧
      (∀ order : List Nat, order.Perm (threadIndices numThreads threadSize) →
        order.foldl update quotientLarge = sequential) ∧
      (∀ schedule : List Nat, (∀ j ∈ schedule, j < numThreads) →
        (∀ j < numThreads, threadSize ≤ schedule.count j) →
          (runWorkers threadSize
            (fun i => quotientTerm alpha alphaBase (gatePointAt w w1Fft w2Fft w3Fft w4Fft i))
            (startWorkers threadSize quotientLarge) schedule).quotientLarge = sequential) := by
  intro numThreads threadSize update sequential
  have tiles := threadIndices_eq_range numThreads threadSize
  have sequential_apply : ∀ k, sequential k =
      if k < numThreads * threadSize then
        quotientLarge k + quotientTerm alpha alphaBase (gatePointAt w w1Fft w2Fft w3Fft w4Fft k)
      else quotientLarge k := fun k => by
    simp only [sequential, update]
    unfold loopUpdate
    rw [foldl_addAt_apply _ _ (List.nodup_range _)]
    simp only [List.mem_range]
  refine ⟨tiles, fun q i k => (loopUpdate_local w w alpha alphaBase w1Fft w2Fft w3Fft w4Fft
      w1Fft w2Fft w3Fft w4Fft q q i).1 k,
    fun w' w1Fft' w2Fft' w3Fft' w4Fft' q q' i => (loopUpdate_local w w' alpha alphaBase w1Fft w2Fft
      w3Fft w4Fft w1Fft' w2Fft' w3Fft' w4Fft' q q' i).2,
    by rw [quotientLoop, tiles]; rfl, fun order perm => funext fun k => ?_,
    fun schedule workers complete => funext fun k => ?_⟩
  · rw [tiles] at perm
    simp only [update]
    unfold loopUpdate
    rw [foldl_addAt_apply _ _ (perm.nodup_iff.mpr (List.nodup_range _))]
    simp only [perm.mem_iff, List.mem_range, sequential_apply]
  · rw [runWorkers_complete schedule workers complete, sequential_apply]

end Waffle.Widget.Parallel
