import Mathlib.Algebra.BigOperators.Ring.Finset
import Mathlib.Algebra.Order.BigOperators.Group.Finset
import Mathlib.Data.Nat.Count
import Mathlib.Tactic.Linarith
import Mathlib.Tactic.Ring

/-! Smooth weighted rotation.

Every turn raises the counter of each candidate by its weight, picks a candidate whose
counter is then largest and lowers that counter by the weights of all candidates. -/

namespace Infrastructure.Balance

open Finset Nat

variable {ι : Type} [DecidableEq ι]

structure Pick (weight : ι → ℤ) (candidates : Finset ι) (before : ι → ℤ) (best : ι)
    (after : ι → ℤ) : Prop where
  candidate : best ∈ candidates
  largest : ∀ i ∈ candidates, before i + weight i ≤ before best + weight best
  raised : ∀ i, after i = before i + (if i ∈ candidates then weight i else 0) -
    if i = best then ∑ j ∈ candidates, weight j else 0

section

variable {weight before after : ι → ℤ} {candidates all : Finset ι} {best : ι}

theorem Pick.sum (pick : Pick weight candidates before best after) (set : Finset ι) :
    ∑ i ∈ set, after i = ∑ i ∈ set, before i + ∑ i ∈ set ∩ candidates, weight i -
      if best ∈ set then ∑ j ∈ candidates, weight j else 0 := by
  simp only [pick.raised, sum_sub_distrib, sum_add_distrib, sum_ite_mem, sum_ite_eq']

theorem Pick.sum_of_subset (pick : Pick weight candidates before best after) {set : Finset ι}
    (within : candidates ⊆ set) : ∑ i ∈ set, after i = ∑ i ∈ set, before i := by
  rw [pick.sum, if_pos (within pick.candidate), inter_eq_right.mpr within]
  ring

/-- No set of `k` of the `n` counters is worth more than `k (n - k)` times the bound. -/
def Level (all : Finset ι) (bound : ℤ) (counter : ι → ℤ) : Prop :=
  ∀ set ⊆ all, ∑ i ∈ set, counter i ≤ bound * (set.card * (all.card - set.card))

omit [DecidableEq ι] in
theorem level_zero {bound : ℤ} (nonneg : 0 ≤ bound) : Level all bound fun _ => 0 := by
  intro set within
  have smaller : (set.card : ℤ) ≤ all.card := by exact_mod_cast card_le_card within
  rw [sum_const_zero]
  apply mul_nonneg nonneg
  apply mul_nonneg
  · positivity
  · linarith

/-- A set that gains but keeps its largest counter is held down by its neighbours, with the pick
added and with a candidate taken out: the levels are concave in the size. -/
theorem Pick.level {bound : ℤ} (pick : Pick weight candidates before best after)
    (within : candidates ⊆ all) (nonneg : ∀ i ∈ all, 0 ≤ weight i)
    (heavy : ∑ i ∈ all, weight i ≤ bound)
    (level : Level all bound before) : Level all bound after := by
  intro set inside
  have share {part : Finset ι} (small : part ⊆ candidates) : ∑ i ∈ part,
      weight i ≤ ∑ i ∈ candidates, weight i :=
    sum_le_sum_of_subset_of_nonneg small fun i mem _ => nonneg i (within mem)
  have total : ∑ i ∈ candidates, weight i ≤ bound :=
    (sum_le_sum_of_subset_of_nonneg within fun i mem _ => nonneg i mem).trans heavy
  by_cases chosen : best ∈ set
  · rw [pick.sum, if_pos chosen]
    linarith [level set inside, share (inter_subset_right : set ∩ candidates ⊆ candidates)]
  · rw [pick.sum, if_neg chosen, sub_zero]
    rcases (set ∩ candidates).eq_empty_or_nonempty with none | ⟨i, mem⟩
    · rw [none, sum_empty, add_zero]
      exact level set inside
    · have has := (mem_inter.mp mem).1
      have eligible := (mem_inter.mp mem).2
      have wider := level (insert best set) (insert_subset (within pick.candidate) inside)
      have narrower := level (set.erase i) ((erase_subset i set).trans inside)
      rw [sum_insert chosen, card_insert_of_notMem chosen] at wider
      have split := add_sum_erase set before has
      have size : ((set.erase i).card : ℤ) = set.card - 1 := by
        rw [card_erase_of_mem has, cast_sub (card_pos.mpr ⟨i, has⟩), cast_one]
      rw [size] at narrower
      push_cast at wider
      have concave : bound * ((set.card + 1) * (all.card - (set.card + 1))) +
          bound * ((set.card - 1) * (all.card - (set.card - 1))) =
          2 * (bound * (set.card * (all.card - set.card))) - 2 * bound := by ring
      -- the pick is a candidate outside the set
      have gain : weight best + ∑ j ∈ set ∩ candidates, weight j ≤ bound := by
        rw [← sum_insert (fun inside => chosen (mem_inter.mp inside).1)]
        exact (share (insert_subset pick.candidate inter_subset_right)).trans total
      have rest : ∑ j ∈ set ∩ candidates, weight j - weight i ≤ bound := by
        linarith [share (inter_subset_right : set ∩ candidates ⊆ candidates), nonneg i (inside has)]
      linarith [pick.largest i eligible]

theorem Level.bounds {bound : ℤ} {counter : ι → ℤ} (level : Level all bound counter)
    (zero : ∑ i ∈ all, counter i = 0) {i : ι} (mem : i ∈ all) :
    -(bound * (all.card - 1)) ≤ counter i ∧ counter i ≤ bound * (all.card - 1) := by
  constructor
  · have others := level (all.erase i) (erase_subset i all)
    have split := add_sum_erase all counter mem
    have size : ((all.erase i).card : ℤ) = all.card - 1 := by
      rw [card_erase_of_mem mem, cast_sub (card_pos.mpr ⟨i, mem⟩), cast_one]
    rw [size] at others
    linarith
  · have alone := level {i} (singleton_subset_iff.mpr mem)
    rw [sum_singleton, card_singleton] at alone
    push_cast at alone
    linarith

end

/-- A run of turns over the same candidates, from zero counters. -/
structure Rotation (weight : ι → ℤ) (candidates : Finset ι) (counter : ℕ → ι → ℤ)
    (chosen : ℕ → ι) : Prop where
  start : ∀ i, counter 0 i = 0
  turn : ∀ time, Pick weight candidates (counter time) (chosen time) (counter (time + 1))

namespace Rotation

variable {weight : ι → ℤ} {candidates : Finset ι} {counter : ℕ → ι → ℤ} {chosen : ℕ → ι}
variable (rotation : Rotation weight candidates counter chosen)
include rotation

theorem sum_zero (time : ℕ) : ∑ i ∈ candidates, counter time i = 0 := by
  induction time with
  | zero => simp [rotation.start]
  | succ time ih => rw [(rotation.turn time).sum_of_subset Subset.rfl, ih]

/-- A counter says how far its target's picks are behind its share of the turns. -/
theorem counter_eq {i : ι} (mem : i ∈ candidates) (time : ℕ) : counter time i = time * weight i -
      (∑ j ∈ candidates, weight j) * Nat.count (fun turn => chosen turn = i) time := by
  induction time with
  | zero => simp [rotation.start]
  | succ time ih =>
    rw [(rotation.turn time).raised, if_pos mem, ih, count_succ]
    by_cases picked : chosen time = i
    · rw [if_pos picked.symm, if_pos picked]
      push_cast
      ring
    · rw [if_neg (Ne.symm picked), if_neg picked]
      push_cast
      ring

theorem counter_outside {i : ι} (out : i ∉ candidates) (time : ℕ) : counter time i = 0 := by
  induction time with
  | zero => exact rotation.start i
  | succ time ih =>
    have other : i ≠ chosen time := fun eq => out (eq ▸ (rotation.turn time).candidate)
    rw [(rotation.turn time).raised, if_neg out, if_neg other, ih]
    ring

theorem chosen_pos (positive : ∀ i ∈ candidates, 0 < weight i) (time : ℕ) :
    0 < counter time (chosen time) + weight (chosen time) := by
  have turn := rotation.turn time
  have total : 0 < ∑ i ∈ candidates, weight i := sum_pos positive ⟨_, turn.candidate⟩
  by_contra low
  have none : ∑ i ∈ candidates, (counter time i + weight i) ≤ 0 :=
    sum_nonpos fun i mem => (turn.largest i mem).trans (not_lt.mp low)
  rw [sum_add_distrib, rotation.sum_zero, zero_add] at none
  linarith

theorem neg_lt_counter (positive : ∀ i ∈ candidates, 0 < weight i) {i : ι} (mem : i ∈ candidates)
    (time : ℕ) :
    -∑ j ∈ candidates, weight j < counter time i := by
  induction time with
  | zero =>
    rw [rotation.start]
    linarith [sum_pos positive ⟨i, mem⟩]
  | succ time ih =>
    rw [(rotation.turn time).raised, if_pos mem]
    by_cases picked : i = chosen time
    · rw [if_pos picked, picked]
      linarith [rotation.chosen_pos positive time]
    · rw [if_neg picked]
      linarith [positive i mem]

theorem count_sum (time : ℕ) :
    ∑ i ∈ candidates, Nat.count (fun turn => chosen turn = i) time = time := by
  induction time with
  | zero => simp
  | succ time ih =>
    simp only [count_succ, sum_add_distrib, ih, sum_ite_eq, if_pos (rotation.turn time).candidate]

section

variable (positive : ∀ i ∈ candidates, 0 < weight i) {total : ℕ}
    (weighs : (total : ℤ) = ∑ i ∈ candidates, weight i)

include positive total weighs

/-- After as many turns as the candidates weigh together, every counter is back at zero. -/
theorem counter_total (i : ι) : counter total i = 0 := by
  have most (j : ι) (mem : j ∈ candidates) :
      (Nat.count (fun turn => chosen turn = j) total : ℤ) ≤ weight j := by
    have behind := rotation.neg_lt_counter positive mem total
    have pos := sum_pos positive ⟨j, mem⟩
    rw [rotation.counter_eq mem, weighs] at behind
    by_contra more
    nlinarith [not_le.mp more]
  have all : ∑ j ∈ candidates, (Nat.count (fun turn => chosen turn = j) total : ℤ) =
      ∑ j ∈ candidates, weight j := by
    rw [← weighs]
    exact_mod_cast rotation.count_sum total
  by_cases mem : i ∈ candidates
  · have exact := (sum_eq_sum_iff_of_le most).mp all i mem
    rw [rotation.counter_eq mem, exact, weighs]
    ring
  · exact rotation.counter_outside mem total

theorem count_window {i : ι} (mem : i ∈ candidates) {start : ℕ}
    (eq : counter (start + total) i = counter start i) :
    (Nat.count (fun turn => chosen (start + turn) = i) total : ℤ) = weight i := by
  have pos := sum_pos positive ⟨i, mem⟩
  rw [rotation.counter_eq mem, rotation.counter_eq mem, count_add] at eq
  push_cast at eq
  rw [weighs] at eq
  have scaled : (∑ j ∈ candidates, weight j) *
      (Nat.count (fun turn => chosen (start + turn) = i) total : ℤ) =
      (∑ j ∈ candidates, weight j) * weight i := by linarith
  exact mul_left_cancel₀ pos.ne' scaled

end

end Rotation

end Infrastructure.Balance
