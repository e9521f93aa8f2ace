import Infrastructure.Lbproxy.Pool
import Mathlib.Data.List.Infix

/-! Health over whole histories of check and traffic results, newest result first. -/

namespace Infrastructure.Lbproxy

/-- A result, with the error if it failed. -/
inductive Observation where
  | check (failure : Option String)
  | traffic (failure : Option String)
  deriving DecidableEq, Repr

abbrev Observations := List Observation

/-- How many checks in a row make a target healthy, and how many results in a row eject it. -/
structure Thresholds where
  healthy : Nat
  unhealthy : Nat
  healthy_pos : 0 < healthy
  unhealthy_pos : 0 < unhealthy

namespace Thresholds

def observe (hc : Thresholds) (s : TargetState) : Observation → TargetState
  | .check failure => s.observeCheck failure hc.healthy hc.unhealthy
  | .traffic failure => s.observeTraffic failure hc.unhealthy

def state (hc : Thresholds) : Observations → TargetState
  | [] => {}
  | latest :: past => hc.observe (hc.state past) latest

def Ejected (hc : Thresholds) (history : Observations) : Prop :=
  (hc.state history).eligible = false

end Thresholds

/-- Failed traffic results in a row up to now, whatever the checks in between. -/
def failedTraffic : Observations → Nat
  | [] => 0
  | .check _ :: past => failedTraffic past
  | .traffic none :: _ => 0
  | .traffic (some _) :: past => failedTraffic past + 1

def failedChecks : Observations → Nat
  | [] => 0
  | .traffic _ :: past => failedChecks past
  | .check none :: _ => 0
  | .check (some _) :: past => failedChecks past + 1

def passedChecks : Observations → Nat
  | [] => 0
  | .traffic _ :: past => passedChecks past
  | .check none :: past => passedChecks past + 1
  | .check (some _) :: _ => 0

namespace Thresholds

variable {hc : Thresholds} {history past : Observations}

theorem ejected_iff : hc.Ejected history ↔ (hc.state history).health = .unhealthy := by
  simp [Ejected, TargetState.eligible]

theorem state_check_passed :
    hc.state (.check none :: past) = if hc.healthy ≤ (hc.state past).successes + 1 then
      { health := .healthy, successes := (hc.state past).successes + 1 }
    else { hc.state past with
      successes := (hc.state past).successes + 1, failures := 0, lastError := "" } := rfl

theorem state_check_failed (err : String) : hc.state (.check (some err) :: past) =
    if hc.unhealthy ≤ (hc.state past).failures + 1 then
      { hc.state past with
        failures := (hc.state past).failures + 1, successes := 0, lastError :=
          err, health := .unhealthy }
    else { hc.state past with
      failures := (hc.state past).failures + 1, successes := 0, lastError := err } := rfl

theorem state_traffic_passed :
    hc.state (.traffic none :: past) = { hc.state past with passive := 0 } := rfl

theorem state_traffic_failed (err : String) : hc.state (.traffic (some err) :: past) =
    if hc.unhealthy ≤ (hc.state past).passive + 1 then
      { hc.state past with
        passive := (hc.state past).passive + 1, lastError := err, health :=
          .unhealthy, successes := 0 }
    else { hc.state past with passive := (hc.state past).passive + 1, lastError := err } := rfl

theorem passive_check_failed (err : String) :
    (hc.state (.check (some err) :: past)).passive = (hc.state past).passive := by
  rw [state_check_failed]
  split
  · rfl
  · rfl

theorem passive_traffic_failed (err : String) :
    (hc.state (.traffic (some err) :: past)).passive = (hc.state past).passive + 1 := by
  rw [state_traffic_failed]
  split
  · rfl
  · rfl

/-- How the counters go with the history: failed checks exactly, failed traffic at most. -/
structure Tracks (hc : Thresholds) (history : Observations) : Prop where
  failures : (hc.state history).failures = failedChecks history
  passive : (hc.state history).passive ≤ failedTraffic history
  checks : hc.unhealthy ≤ (hc.state history).failures → hc.Ejected history
  traffic : hc.unhealthy ≤ (hc.state history).passive → hc.Ejected history

theorem Tracks.next (before : Tracks hc past) (latest : Observation) :
    Tracks hc (latest :: past) := by
  obtain ⟨failures, passive, checks, traffic⟩ := before
  have pos := hc.unhealthy_pos
  rw [ejected_iff] at checks traffic
  match latest with
  | .check none =>
    by_cases enough : hc.healthy ≤ (hc.state past).successes + 1
    · constructor <;> simp [ejected_iff, state_check_passed, enough, failedChecks, pos.ne']
    · constructor
      · simp [state_check_passed, enough, failedChecks]
      · simpa [state_check_passed, enough, failedTraffic] using passive
      · simp [state_check_passed, enough, pos.ne']
      · simpa [ejected_iff, state_check_passed, enough] using traffic
  | .check (some err) =>
    by_cases enough : hc.unhealthy ≤ (hc.state past).failures + 1
    · constructor <;> simp [ejected_iff, state_check_failed, enough, failedChecks, failedTraffic,
        ← failures, passive]
    · constructor
      · simp [state_check_failed, enough, failedChecks, ← failures]
      · simpa [state_check_failed, enough, failedTraffic] using passive
      · simp [state_check_failed, enough]
      · simpa [ejected_iff, state_check_failed, enough] using traffic
  | .traffic none =>
    constructor
    · simpa [state_traffic_passed, failedChecks] using failures
    · simp [state_traffic_passed]
    · simpa [ejected_iff, state_traffic_passed] using checks
    · simp [state_traffic_passed, pos.ne']
  | .traffic (some err) =>
    by_cases enough : hc.unhealthy ≤ (hc.state past).passive + 1
    · constructor <;> simp [ejected_iff, state_traffic_failed, enough, failedChecks, failedTraffic,
        failures, passive]
    · constructor
      · simpa [state_traffic_failed, enough, failedChecks] using failures
      · simpa [state_traffic_failed, enough, failedTraffic] using passive
      · simpa [ejected_iff, state_traffic_failed, enough] using checks
      · simp [state_traffic_failed, enough]

theorem tracks (history : Observations) : Tracks hc history := by
  induction history with
  | nil =>
    have few := hc.unhealthy_pos
    constructor
    · rfl
    · exact le_rfl
    · intro many
      exact absurd few (Nat.not_lt.mpr many)
    · intro many
      exact absurd few (Nat.not_lt.mpr many)
  | cons latest past ih => exact ih.next latest

/-- A passed check that starts the traffic count afresh in the middle of a run, also of a target
that is in. -/
def CutsShort (hc : Thresholds) (s : TargetState) (latest : Observation) : Prop :=
  latest = .check none ∧ hc.healthy ≤ s.successes + 1 ∧ 0 < s.passive ∧ s.passive < hc.unhealthy

def Uncut (hc : Thresholds) : Observations → Prop
  | [] => True
  | latest :: past => ¬ hc.CutsShort (hc.state past) latest ∧ hc.Uncut past

/-- Until a run has ejected the target, it is counted in full. -/
theorem Uncut.passive_eq (uncut : hc.Uncut history)
    (unfinished : failedTraffic history < hc.unhealthy) :
    (hc.state history).passive = failedTraffic history := by
  induction history with
  | nil => rfl
  | cons latest past ih =>
    obtain ⟨whole, before⟩ := uncut
    match latest with
    | .check none =>
      have eq := ih before unfinished
      by_cases enough : hc.healthy ≤ (hc.state past).successes + 1
      · have zero : failedTraffic past = 0 := by
          by_contra positive
          apply whole
          rw [CutsShort, eq]
          exact ⟨rfl, enough, Nat.pos_of_ne_zero positive, unfinished⟩
        simp [state_check_passed, enough, failedTraffic, zero]
      · simp [state_check_passed, enough, failedTraffic, eq]
    | .check (some err) =>
      rw [passive_check_failed]
      exact ih before unfinished
    | .traffic none => rfl
    | .traffic (some err) =>
      rw [passive_traffic_failed, ih before (Nat.lt_of_succ_lt unfinished)]
      rfl

theorem Uncut.ejected (uncut : hc.Uncut history) {err : String}
    (latest : history = .traffic (some err) :: past) (run : failedTraffic history = hc.unhealthy) :
    hc.Ejected history := by
  apply (tracks history).traffic
  subst latest
  have before : (hc.state past).passive = failedTraffic past := by
    apply Uncut.passive_eq uncut.2
    rw [← run]
    exact Nat.lt_succ_self _
  rw [passive_traffic_failed, before, ← run]
  exact le_rfl

theorem Uncut.le_passive {recent older : Observations} (uncut : hc.Uncut (recent ++ older))
    (stays : ∀ inner, inner <:+ recent → ¬ hc.Ejected (inner ++ older)) :
    failedTraffic recent ≤ (hc.state (recent ++ older)).passive := by
  induction recent with
  | nil => exact Nat.zero_le _
  | cons latest recent ih =>
    have pre := ih uncut.2 fun inner suffix =>
      stays inner (suffix.trans (List.suffix_cons latest recent))
    have low : (hc.state (recent ++ older)).passive < hc.unhealthy := by
      by_contra many
      exact stays recent (List.suffix_cons latest recent) ((tracks _).traffic (Nat.not_lt.mp many))
    rw [List.cons_append]
    match latest with
    | .check none =>
      by_cases enough : hc.healthy ≤ (hc.state (recent ++ older)).successes + 1
      · have zero : (hc.state (recent ++ older)).passive = 0 := by
          by_contra positive
          exact uncut.1 ⟨rfl, enough, Nat.pos_of_ne_zero positive, low⟩
        rw [zero] at pre
        exact pre.trans (Nat.zero_le _)
      · simpa [state_check_passed, enough, failedTraffic] using pre
    | .check (some err) =>
      rw [passive_check_failed]
      exact pre
    | .traffic none => exact Nat.zero_le _
    | .traffic (some err) =>
      rw [passive_traffic_failed]
      exact Nat.succ_le_succ pre

section

variable {latest : Observation} (before : ¬ hc.Ejected past) (after : hc.Ejected (latest :: past))

include latest before after

theorem ejected_only_by_run : (∃ err, latest = .traffic (some err)) ∧ hc.unhealthy ≤ failedTraffic
    (latest :: past) ∨
      (∃ err, latest = .check (some err)) ∧ hc.unhealthy ≤ failedChecks (latest :: past) := by
  have kept : Tracks hc past := tracks past
  rw [ejected_iff] at before after
  match latest with
  | .check none =>
    by_cases enough : hc.healthy ≤ (hc.state past).successes + 1
    · simp [state_check_passed, enough] at after
    · exact absurd (by simpa [state_check_passed, enough] using after) before
  | .check (some err) =>
    by_cases enough : hc.unhealthy ≤ (hc.state past).failures + 1
    · right
      rw [failedChecks, ← kept.failures]
      exact ⟨⟨err, rfl⟩, enough⟩
    · exact absurd (by simpa [state_check_failed, enough] using after) before
  | .traffic none => exact absurd after before
  | .traffic (some err) =>
    by_cases enough : hc.unhealthy ≤ (hc.state past).passive + 1
    · left
      exact ⟨⟨err, rfl⟩, enough.trans (Nat.succ_le_succ kept.passive)⟩
    · exact absurd (by simpa [state_traffic_failed, enough] using after) before

theorem successes_of_ejection : (hc.state (latest :: past)).successes = 0 := by
  rcases ejected_only_by_run before after with ⟨⟨err, rfl⟩, -⟩ | ⟨⟨err, rfl⟩, -⟩
  · rw [ejected_iff] at before after
    by_cases enough : hc.unhealthy ≤ (hc.state past).passive + 1
    · simp [state_traffic_failed, enough]
    · exact absurd (by simpa [state_traffic_failed, enough] using after) before
  · rw [state_check_failed]
    split
    · rfl
    · rfl

end

/-- Until enough checks in a row have passed since the ejection, the target stays out. -/
theorem stays_ejected {ejection : Observations} (out : hc.Ejected ejection)
    (fresh : (hc.state ejection).successes = 0) (since : Observations) :
    (∃ pre, pre <:+ since ∧ hc.healthy ≤ passedChecks pre) ∨ hc.Ejected (since ++ ejection) ∧
        (hc.state (since ++ ejection)).successes ≤ passedChecks since := by
  induction since with
  | nil => exact .inr ⟨out, fresh.le⟩
  | cons latest since ih =>
    rcases ih with ⟨pre, suffix, ok⟩ | ⟨still, counted⟩
    · exact .inl ⟨pre, suffix.trans (List.suffix_cons latest since), ok⟩
    · rw [ejected_iff] at still
      rw [ejected_iff, List.cons_append]
      match latest with
      | .check none =>
        by_cases enough : hc.healthy ≤ (hc.state (since ++ ejection)).successes + 1
        · left
          exact ⟨.check none :: since, List.suffix_rfl, enough.trans (Nat.succ_le_succ counted)⟩
        · right
          simp [state_check_passed, enough, still, passedChecks, counted]
      | .check (some err) =>
        right
        rw [state_check_failed]
        split
        · exact ⟨rfl, Nat.zero_le _⟩
        · exact ⟨still, Nat.zero_le _⟩
      | .traffic none => exact .inr ⟨still, counted⟩
      | .traffic (some err) =>
        right
        rw [state_traffic_failed]
        split
        · exact ⟨rfl, Nat.zero_le _⟩
        · exact ⟨still, counted⟩

/-- What the history of a target says about its ejections. -/
structure Lawful (hc : Thresholds) (history : Observations) : Prop where
  /-- The failed traffic result that completes a run ejects the target at once. -/
  traffic : ∀ err past, history = .traffic (some err) :: past →
    failedTraffic history = hc.unhealthy →
    hc.Ejected history
  /-- Nor does a target stay in while a run happens, wherever the run is taken to begin. -/
  stretch : ∀ recent older, history = recent ++ older → hc.unhealthy ≤ failedTraffic recent →
    ∃ inner, inner <:+ recent ∧ hc.Ejected (inner ++ older)
  checks : hc.unhealthy ≤ failedChecks history → hc.Ejected history
  only : ∀ latest past, history = latest :: past → ¬ hc.Ejected past → hc.Ejected history →
    (∃ err, latest = .traffic (some err)) ∧ hc.unhealthy ≤ failedTraffic history ∨
      (∃ err, latest = .check (some err)) ∧ hc.unhealthy ≤ failedChecks history
  back : ∀ since ejecting past, history = since ++ ejecting :: past → ¬ hc.Ejected past →
    hc.Ejected (ejecting :: past) → ¬ hc.Ejected history →
      ∃ pre, pre <:+ since ∧ hc.healthy ≤ passedChecks pre

/-- Only the laws for traffic need that no passed check cuts a run short. -/
theorem lawful_of_uncut (hc : Thresholds) (history : Observations) (uncut : hc.Uncut history) :
    hc.Lawful history := by
  constructor
  · intro err past latest run
    exact uncut.ejected latest run
  · intro recent older parts run
    subst parts
    by_contra none
    have stays : ∀ inner, inner <:+ recent → ¬ hc.Ejected (inner ++ older) :=
      fun inner suffix out => none ⟨inner, suffix, out⟩
    exact stays recent List.suffix_rfl ((tracks _).traffic (run.trans (uncut.le_passive stays)))
  · intro run
    rw [← (tracks history).failures] at run
    exact (tracks history).checks run
  · intro latest past parts before after
    subst parts
    exact ejected_only_by_run before after
  · intro since ejecting past parts before out eligible
    subst parts
    rcases stays_ejected out (successes_of_ejection before out) since with passed | still
    · exact passed
    · exact absurd still.1 eligible

theorem lawful_three_failures : Lawful ⟨2, 3, by decide, by decide⟩
    [.traffic (some "refused"), .check none, .traffic (some "refused"),
      .traffic (some "refused")] :=
  lawful_of_uncut _ _ (by simp [Uncut, CutsShort, state, observe, TargetState.observeTraffic])

/-- Two checks passed by a target that is in hide a run of three failed traffic results. -/
theorem not_lawful_of_cut : ¬ Lawful ⟨2, 3, by decide, by decide⟩
    [.traffic (some "refused"), .check none, .check none, .traffic (some "refused"),
      .traffic (some "refused")] := by
  intro lawful
  have out := lawful.traffic _ _ rfl rfl
  exact absurd out
    (by simp [ejected_iff, state, observe, TargetState.observeTraffic, TargetState.observeCheck])

end Thresholds

end Infrastructure.Lbproxy
