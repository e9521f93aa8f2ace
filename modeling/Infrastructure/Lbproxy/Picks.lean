import Infrastructure.Balance.Rotation
import Infrastructure.Lbproxy.Pool

/-! What sequences of picks do to the counters of a group. -/

namespace Infrastructure.Lbproxy

open Balance Finset

namespace Group

/-- Where the loop of a pick is after it has visited some targets. -/
structure Visited (g : Group) (counter : Nat → Int) (visited : List Nat) (scan : Scan) : Prop where
  current : ∀ i, scan.current i = counter i + if i ∈ visited then g.weight i else 0
  total : scan.total = ∑ i ∈ visited.toFinset, g.weight i
  none : visited = [] → scan.best = none
  best : visited ≠ [] → ∃ best ∈ visited, scan.best = some best ∧
    ∀ i ∈ visited, counter i + g.weight i ≤ counter best + g.weight best

variable {g : Group} {counter : Nat → Int} {visited : List Nat} {scan : Scan}

theorem Visited.next (pre : Visited g counter visited scan) {i : Nat} (new : i ∉ visited) :
    Visited g counter (visited ++ [i]) (g.visit scan i) := by
  have raised : (g.visit scan i).current i = counter i + g.weight i := by
    simp [visit, pre.current i, new]
  have kept {j : Nat} (mem : j ∈ visited) : (g.visit scan i).current j =
      counter j + g.weight j := by
    have other : j ≠ i := fun eq => new (eq ▸ mem)
    simp [visit, other, pre.current j, mem]
  constructor
  · intro j
    by_cases eq : j = i
    · subst eq
      simp [raised]
    · simp [visit, eq, pre.current j]
  · have fresh : i ∉ visited.toFinset := by simpa using new
    have union : (visited ++ [i]).toFinset = insert i visited.toFinset := by
      ext j
      simp
    rw [union, sum_insert fresh, add_comm, ← pre.total]
    rfl
  · simp
  · intro _
    by_cases empty : visited = []
    · subst empty
      have first : (g.visit scan i).best = some i := by simp [visit, pre.none rfl]
      exact ⟨i, by simp, first, by simp⟩
    · obtain ⟨best, mem, got, largest⟩ := pre.best empty
      have choice : (g.visit scan i).best =
          if (g.visit scan i).current best < (g.visit scan i).current i then some i
          else some best := by
        simp [visit, got]
      rw [kept mem, raised] at choice
      by_cases larger : counter best + g.weight best < counter i + g.weight i
      · rw [if_pos larger] at choice
        apply Exists.intro i
        constructor
        · simp
        · constructor
          · exact choice
          · intro j among
            rcases List.mem_append.mp among with old | last
            · exact (largest j old).trans larger.le
            · rw [List.mem_singleton.mp last]
      · rw [if_neg larger] at choice
        apply Exists.intro best
        constructor
        · exact List.mem_append_left [i] mem
        · constructor
          · exact choice
          · intro j among
            rcases List.mem_append.mp among with old | last
            · exact largest j old
            · rw [List.mem_singleton.mp last]
              exact not_lt.mp larger

theorem visited_foldl (nodup : visited.Nodup) :
    Visited g counter visited (visited.foldl g.visit ⟨counter, 0, Option.none⟩) := by
  induction visited using List.reverseRecOn with
  | nil => exact ⟨by simp, by simp, by simp, by simp⟩
  | append_singleton visited last ih =>
    have split := List.nodup_append.mp nodup
    have new : last ∉ visited := fun mem =>
      split.2.2 last mem last (List.mem_singleton_self last) rfl
    rw [List.foldl_append]
    exact (ih split.1).next new

variable {state : Nat → TargetState} {exclude : Nat → Bool}

theorem eligibleTargets_nodup : (g.eligibleTargets state exclude).Nodup := List.nodup_range.filter _

theorem candidates_nodup : (g.candidates state exclude).Nodup := by
  unfold candidates
  split
  · exact List.nodup_range.filter _
  · exact eligibleTargets_nodup

theorem candidates_lt {i : Nat} (mem : i ∈ g.candidates state exclude) : i < g.targets.length := by
  unfold candidates at mem
  split at mem
  · simpa using (List.mem_filter.mp mem).1
  · simpa using (List.mem_filter.mp mem).1

theorem visited_scan : Visited g g.current (g.candidates state exclude) (g.scan state exclude) :=
  visited_foldl candidates_nodup

@[simp] theorem pick_targets : (g.pick state exclude).2.targets = g.targets := by
  unfold pick
  dsimp only
  split
  · rfl
  · rfl

theorem pick_nothing (empty : g.candidates state exclude = []) :
    (g.pick state exclude).1 = Option.none ∧ (g.pick state exclude).2.current = g.current := by
  simp [pick, visited_scan.none empty]

theorem pick_turn (some : g.candidates state exclude ≠ []) :
    ∃ best, (g.pick state exclude).1 = Option.some best ∧
      Pick g.weight (g.candidates state exclude).toFinset g.current best
        (g.pick state exclude).2.current := by
  have visited : Visited g g.current (g.candidates state exclude) (g.scan state exclude) :=
    visited_scan
  obtain ⟨best, mem, got, largest⟩ := visited.best some
  apply Exists.intro best
  constructor
  · simp [pick, got]
  · constructor
    · simpa using mem
    · intro i among
      exact largest i (by simpa using among)
    · intro i
      by_cases eq : i = best
      · subst eq
        simp [pick, got, visited.current i, visited.total, mem]
      · simp [pick, got, visited.current i, eq]

theorem weight_pos (pos : ∀ t ∈ g.targets, 0 < t.weight) {i : Nat} (mem : i < g.targets.length) :
    0 < g.weight i := by
  simp [weight, List.getElem?_eq_getElem mem, pos]

def pair : Group where
  name := "web"
  targets := [⟨"a", "10.0.0.1", 80, 2⟩, ⟨"b", "10.0.0.2", 80, 1⟩]

theorem pair_positive : ∀ t ∈ pair.targets, 0 < t.weight := by decide

/-- The group after a sequence of picks, each with its own health of the targets and exclusions. -/
def picks (g : Group) : List ((Nat → TargetState) × (Nat → Bool)) → Group
  | [] => g
  | (state, exclude) :: rounds => (g.pick state exclude).2.picks rounds

def totalWeight (g : Group) : Int := ∑ i ∈ range g.targets.length, g.weight i

/-- What holds of the counters between picks. -/
structure Balanced (g : Group) : Prop where
  positive : ∀ t ∈ g.targets, 0 < t.weight
  zero : ∑ i ∈ range g.targets.length, g.current i = 0
  level : Level (range g.targets.length) g.totalWeight g.current

theorem totalWeight_nonneg (pos : ∀ t ∈ g.targets, 0 < t.weight) : 0 ≤ g.totalWeight :=
  sum_nonneg fun _ mem => (weight_pos pos (mem_range.mp mem)).le

@[simp] theorem pick_totalWeight : (g.pick state exclude).2.totalWeight = g.totalWeight := by
  simp only [totalWeight, weight, pick_targets]

theorem balanced_start (pos : ∀ t ∈ g.targets, 0 < t.weight) (zero : ∀ i, g.current i = 0) :
    Balanced g := by
  have start : g.current = fun _ => 0 := funext zero
  constructor
  · exact pos
  · simp [zero]
  · rw [start]
    exact level_zero (totalWeight_nonneg pos)

theorem Balanced.pick (balanced : Balanced g) (state : Nat → TargetState) (exclude : Nat → Bool) :
    Balanced (g.pick state exclude).2 := by
  by_cases empty : g.candidates state exclude = []
  · have eq := (pick_nothing empty).2
    constructor
    · rw [pick_targets]
      exact balanced.positive
    · rw [pick_targets, eq]
      exact balanced.zero
    · rw [pick_targets, pick_totalWeight, eq]
      exact balanced.level
  · obtain ⟨best, -, turn⟩ := pick_turn empty
    have within : (g.candidates state exclude).toFinset ⊆ range g.targets.length := by
      intro i mem
      exact mem_range.mpr (candidates_lt (by simpa using mem))
    constructor
    · rw [pick_targets]
      exact balanced.positive
    · rw [pick_targets, turn.sum_of_subset within]
      exact balanced.zero
    · rw [pick_targets, pick_totalWeight]
      apply turn.level within
      · intro i mem
        exact (weight_pos balanced.positive (mem_range.mp mem)).le
      · exact le_rfl
      · exact balanced.level

theorem Balanced.picks (balanced : Balanced g)
    (rounds : List ((Nat → TargetState) × (Nat → Bool))) :
    Balanced (g.picks rounds) ∧ (g.picks rounds).targets = g.targets := by
  induction rounds generalizing g with
  | nil => exact ⟨balanced, rfl⟩
  | cons round rounds ih =>
    have rest := ih (balanced.pick round.1 round.2)
    rw [pick_targets] at rest
    exact rest

theorem picks_bounded (g : Group) (positive : ∀ t ∈ g.targets, 0 < t.weight)
    (zero : ∀ i, g.current i = 0) (rounds : List ((Nat → TargetState) × (Nat → Bool))) :
    ∑ i ∈ range g.targets.length, (g.picks rounds).current i = 0 ∧ ∀ i < g.targets.length,
        -(2 * g.targets.length * g.totalWeight) ≤ (g.picks rounds).current i ∧
          (g.picks rounds).current i ≤ 2 * g.targets.length * g.totalWeight := by
  obtain ⟨balanced, same⟩ := (balanced_start positive zero).picks rounds
  have sum := balanced.zero
  have level := balanced.level
  simp only [totalWeight, weight, same] at sum level
  constructor
  · exact sum
  · intro i inside
    have bounds := level.bounds sum (mem_range.mpr inside)
    have size : g.totalWeight * (g.targets.length - 1) ≤ 2 * g.targets.length * g.totalWeight := by
      have nonneg := totalWeight_nonneg positive
      nlinarith [Int.natCast_nonneg g.targets.length]
    rw [card_range] at bounds
    constructor
    · calc -(2 * g.targets.length * g.totalWeight)
          ≤ -(g.totalWeight * (g.targets.length - 1)) := neg_le_neg size
        _ ≤ (g.picks rounds).current i := bounds.1
    · calc (g.picks rounds).current i
          ≤ g.totalWeight * (g.targets.length - 1) := bounds.2
        _ ≤ 2 * g.targets.length * g.totalWeight := size

theorem picks_bounded_pair :
    ((pair.picks [(fun _ => {}, fun _ => false), (fun _ => {}, fun i => i == 0)]).current 0 = -1 ∧
      pair.totalWeight = 3) ∧ -(2 * 2 * pair.totalWeight) ≤
        (pair.picks [(fun _ => {}, fun _ => false), (fun _ => {}, fun i => i == 0)]).current 0 :=
  ⟨by decide, ((picks_bounded pair pair_positive (fun _ => rfl) _).2 0 (by decide)).1⟩

/-- The group after so many picks with nothing excluded and the same health throughout. -/
def after (g : Group) (state : Nat → TargetState) : Nat → Group
  | 0 => g
  | time + 1 => ((g.after state time).pick state fun _ => false).2

def picked (g : Group) (state : Nat → TargetState) (time : Nat) : Option Nat :=
  ((g.after state time).pick state fun _ => false).1

@[simp] theorem after_targets (time : Nat) : (g.after state time).targets = g.targets := by
  induction time with
  | zero => rfl
  | succ time ih => simp [after, ih]

theorem pick_congr {h : Group} (targets : g.targets = h.targets) (current : g.current = h.current) :
    (g.pick state exclude).2.current = (h.pick state exclude).2.current := by
  have scans : g.scan state exclude = h.scan state exclude := by
    cases g
    cases h
    cases targets
    cases current
    rfl
  unfold pick
  dsimp only
  rw [scans]
  split
  · exact current
  · rfl

theorem picked_turn (some : g.eligibleTargets state (fun _ => false) ≠ []) (time : Nat) : ∃ best,
    g.picked state time = Option.some best ∧
      Pick g.weight (g.eligibleTargets state fun _ => false).toFinset
        (g.after state time).current best
        (g.after state (time + 1)).current := by
  have weights : (g.after state time).weight = g.weight := by
    funext i
    simp only [weight, after_targets]
  have eligible : (g.after state time).candidates state (fun _ => false) =
      g.eligibleTargets state fun _ => false := by
    have eq : (g.after state time).eligibleTargets state (fun _ => false) =
        g.eligibleTargets state fun _ => false := by
      simp only [eligibleTargets, after_targets]
    rw [candidates, eq, if_neg some]
  have turn := pick_turn (eligible ▸ some)
  rw [weights, eligible] at turn
  exact turn

/-- From zero counters, the picks among the eligible targets are a rotation. -/
theorem picked_rotation (zero : ∀ i, g.current i = 0)
    (some : g.eligibleTargets state (fun _ => false) ≠ []) :
    Rotation g.weight (g.eligibleTargets state fun _ => false).toFinset
      (fun time => (g.after state time).current)
      fun time => (g.picked state time).getD 0 := by
  constructor
  · exact zero
  · intro time
    obtain ⟨best, got, turn⟩ := picked_turn some time
    rw [got]
    exact turn

theorem after_periodic {total : Nat} (back : (g.after state total).current = g.current)
    (start : Nat) :
    (g.after state (start + total)).current = (g.after state start).current := by
  induction start with
  | zero =>
    rw [Nat.zero_add]
    exact back
  | succ start ih =>
    rw [Nat.add_right_comm]
    exact pick_congr (by simp) ih

/-- A cycle is as many picks as the eligible targets weigh together, and may begin anywhere. -/
theorem picked_exactly_weight (g : Group) (state : Nat → TargetState)
    (positive : ∀ t ∈ g.targets, 0 < t.weight) (zero : ∀ i, g.current i = 0)
    (some : g.eligibleTargets state (fun _ => false) ≠ []) (total : Nat)
    (weighs : (total : Int) = ((g.eligibleTargets state fun _ => false).map g.weight).sum)
    (start : Nat) :
    (∀ i ∈ g.eligibleTargets state fun _ => false,
        (Nat.count (fun time => g.picked state (start + time) = Option.some i) total : Int) =
          g.weight i) ∧
      (∀ time i, g.picked state time = Option.some i → i ∈ g.eligibleTargets state fun _ => false) ∧
      ∀ i, (g.after state (start + total)).current i = (g.after state start).current i := by
  have rotation := picked_rotation zero some
  have heavy : ∀ i ∈ (g.eligibleTargets state fun _ => false).toFinset, 0 < g.weight i := by
    intro i mem
    have among : i ∈ g.eligibleTargets state fun _ => false := by simpa using mem
    have inside : i < g.targets.length := by simpa using (List.mem_filter.mp among).1
    exact weight_pos positive inside
  rw [← List.sum_toFinset g.weight eligibleTargets_nodup] at weighs
  have back : (g.after state total).current = g.current := by
    funext i
    rw [rotation.counter_total heavy weighs, zero]
  have cycle := after_periodic back start
  constructor
  · intro i mem
    have count := rotation.count_window heavy weighs (by simpa using mem) (congrFun cycle i)
    have same : ∀ time, g.picked state (start + time) = Option.some i ↔
        (g.picked state (start + time)).getD 0 = i := by
      intro time
      obtain ⟨best, found, -⟩ := picked_turn some (start + time)
      simp [found]
    simp only [same]
    exact count
  · constructor
    · intro time i found
      obtain ⟨best, this, turn⟩ := picked_turn some time
      rw [found] at this
      cases this
      simpa using turn.candidate
    · intro i
      rw [cycle]

theorem picked_exactly_weight_pair : pair.picked (fun _ => {}) 1 = some 1 ∧
      (Nat.count (fun time => pair.picked (fun _ => {}) (1 + time) = some 0) 3 : Int) = 2 :=
  ⟨by decide,
    (picked_exactly_weight pair (fun _ => {}) pair_positive (fun _ => rfl) (by decide) 3
      (by decide) 1).1 0 (by decide)⟩

end Group

end Infrastructure.Lbproxy
