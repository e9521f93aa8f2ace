import Infrastructure.Domain.Resource
import Infrastructure.State.Rules

/-! Phases and conditions, the part of the observed state every kind shares. -/

namespace Infrastructure.Domain

open Concurrency State

inductive Phase where
  | unset
  | pending
  | reconciling
  | ready
  | error
  | deleting
  | terminated
  deriving DecidableEq, Repr

inductive ConditionStatus where
  | isTrue
  | isFalse
  | unknown
  deriving DecidableEq, Repr

inductive ConditionType where
  | ready
  | synced
  | healthy
  | progressing
  | degraded
  | scheduled
  | bound
  deriving DecidableEq, Repr

structure Condition where
  type : ConditionType
  status : ConditionStatus
  reason : String
  message : String
  lastTransitionTime : Int
  deriving DecidableEq, Repr

structure StatusBase where
  observedGeneration : Int64 := 0
  phase : Phase := .unset
  conditions : List Condition := []
  deriving DecidableEq, Repr

namespace StatusBase

def replaceCondition (cond : Condition) : List Condition → List Condition
  | [] => [cond]
  | head :: tail =>
    if head.type = cond.type then cond :: tail else head :: replaceCondition cond tail

def setCondition (status : StatusBase) (cond : Condition) : StatusBase :=
  { status with conditions := replaceCondition cond status.conditions }

def stampCondition (status : StatusBase) (type : ConditionType) (val : ConditionStatus)
    (reason message : String) : Prog StatusBase := do
  let time ← Program.perform Op.now
  return status.setCondition ⟨type, val, reason, message, time⟩

def setPhase (status : StatusBase) (phase : Phase) (reason message : String) : Prog StatusBase :=
  let status := { status with phase := phase }
  match phase with
  | .ready => do
      let status ← status.stampCondition .ready .isTrue reason message
      status.stampCondition .progressing .isFalse reason message
  | .reconciling => status.stampCondition .progressing .isTrue reason message
  | .error => do
      let status ← status.stampCondition .ready .isFalse "Error" message
      status.stampCondition .progressing .isFalse reason message
  | .deleting => do
      let status ← status.stampCondition .ready .isFalse "Deleting" message
      status.stampCondition .progressing .isTrue "Deleting" message
  | .pending => status.stampCondition .ready .isFalse "Pending" message
  | .terminated => return status
  | .unset => return status

def markReconciled (status : StatusBase) (generation : Int64) : StatusBase :=
  { status with observedGeneration := generation }

theorem setPhase_ambient (status : StatusBase) (phase : Phase) (reason message : String) :
    (status.setPhase phase reason message).Uses (fun op => op.ambient = true) fun _ => True := by
  cases phase <;> simp [setPhase, stampCondition, Program.Uses, Op.ambient]

def getCondition (status : StatusBase) (type : ConditionType) : Option Condition :=
  status.conditions.find? (·.type = type)

/-- The condition of the type is there and true. -/
def Shows (status : StatusBase) (type : ConditionType) : Prop :=
  (status.getCondition type).any (·.status = .isTrue)

def Unique (status : StatusBase) : Prop := (status.conditions.map Condition.type).Nodup

/-- The conditions say what the phase says. -/
def Agrees (status : StatusBase) : Prop :=
  (status.Shows .ready ↔ status.phase = .ready) ∧
    (status.Shows .progressing ↔ status.phase = .reconciling ∨ status.phase = .deleting)

/-- A phase change for which the conditions that it leaves as they are still fit. -/
def Fits (pre : Phase) : Phase → Prop
  | .ready | .error | .deleting => True
  | .reconciling => pre ≠ .ready
  | .pending => pre ≠ .reconciling ∧ pre ≠ .deleting
  | .terminated | .unset => pre ≠ .ready ∧ pre ≠ .reconciling ∧ pre ≠ .deleting

/-- The statuses that phase changes of a kind lead to from the empty one. -/
inductive Phased (ok : Phase → Phase → Prop) : StatusBase → Prop
  | empty : Phased ok {}
  | change {status later : StatusBase} {phase : Phase} {reason message : String} :
      Phased ok status →
      ok status.phase phase → (status.setPhase phase reason message).Returns later → Phased ok later

section

variable {status later : StatusBase} {phase : Phase} {reason message : String}

theorem types_replace (cond : Condition) (conds : List Condition) :
    (replaceCondition cond conds).map Condition.type =
      if cond.type ∈ conds.map Condition.type then conds.map Condition.type
      else conds.map Condition.type ++ [cond.type] := by
  induction conds with
  | nil => simp [replaceCondition]
  | cons head tail ih =>
    unfold replaceCondition
    split <;> grind

theorem find_replace (cond : Condition) (conds : List Condition) (type : ConditionType) :
    (replaceCondition cond conds).find? (·.type = type) =
      if cond.type = type then some cond else conds.find? (·.type = type) := by
  induction conds with
  | nil => simp [replaceCondition, List.find?_cons]; grind
  | cons head tail ih =>
    unfold replaceCondition
    split <;> grind

theorem Unique.setCondition (unique : status.Unique) (cond : Condition) :
    (status.setCondition cond).Unique := by
  unfold Unique StatusBase.setCondition at *
  rw [types_replace]
  split
  · exact unique
  · next fresh => simpa [List.nodup_append, unique] using fresh

@[simp] theorem setCondition_phase (cond : Condition) :
    (status.setCondition cond).phase = status.phase := rfl

@[simp] theorem shows_setCondition (cond : Condition) (type : ConditionType) :
    (status.setCondition cond).Shows type ↔ if cond.type = type then cond.status = .isTrue else
    status.Shows type := by
  unfold Shows getCondition StatusBase.setCondition
  rw [find_replace]
  split <;> simp

theorem Phased.step (post : (status.setPhase phase reason message).Returns later) :
    (status.Unique → later.Unique) ∧ (status.Agrees →
      (later.Agrees ↔ Fits status.phase phase)) := by
  have touched : ∀ type, Shows { status with phase := phase } type ↔ status.Shows type :=
    fun _ => Iff.rfl
  cases phase with
  | unset | terminated =>
    obtain rfl := post
    refine ⟨id, fun agrees => ?_⟩
    simp only [Agrees, Fits, touched] at *
    grind
  | reconciling | pending =>
    obtain ⟨time, rfl⟩ := post
    refine ⟨fun unique => unique.setCondition _, fun agrees => ?_⟩
    simp [Agrees, Fits, touched] at *
    grind
  | ready | error | deleting =>
    obtain ⟨time, time', rfl⟩ := post
    refine ⟨fun unique => (unique.setCondition _).setCondition _, fun agrees => ?_⟩
    simp [Agrees, Fits]

variable {ok : Phase → Phase → Prop} (run : Phased ok status)

include run

theorem Phased.unique : status.Unique := by
  induction run with
  | empty => exact List.nodup_nil
  | change _ _ returns ih => exact (step returns).1 ih

theorem Phased.agrees (fits : ∀ pre next, ok pre next → Fits pre next) : status.Agrees := by
  induction run with
  | empty => simp [Agrees, Shows, getCondition]
  | change _ allowed returns ih => exact ((step returns).2 ih).mpr (fits _ _ allowed)

/-- In every run no type is there twice; the conditions agree with the phase as long as every change
fits, and cease to with one that does not. -/
theorem agrees_iff_fits (returns : (status.setPhase phase reason message).Returns later) :
    status.Unique ∧
    ((∀ pre next, ok pre next → Fits pre next) →
      status.Agrees ∧ (later.Agrees ↔ Fits status.phase phase)) :=
  ⟨run.unique, fun fits => ⟨run.agrees fits, (Phased.step returns).2 (run.agrees fits)⟩⟩

omit run in
theorem exists_setPhase (status : StatusBase) (phase : Phase) :
    ∃ later, (status.setPhase phase "" "").Returns later ∧ later.phase = phase := by
  cases phase with
  | unset | terminated => exact ⟨_, rfl, rfl⟩
  | reconciling | pending => exact ⟨_, ⟨0, rfl⟩, rfl⟩
  | ready | error | deleting => exact ⟨_, ⟨0, 0, rfl⟩, rfl⟩

theorem Phased.moves (phase : Phase) (allowed : ok status.phase phase) :
    ∃ later, Phased ok later ∧ later.phase = phase := by
  obtain ⟨later, returns, reached⟩ := exists_setPhase status phase
  exact ⟨later, run.change allowed returns, reached⟩

end

/-- A resource is created, reconciled, ready and then deleted; from there it does not go back to
pending. -/
theorem agrees_iff_fits_deleted :
    ∃ status later, Phased Fits status ∧ status.phase = .deleting ∧ status.Unique ∧
    status.Agrees ∧ (status.setPhase .pending "" "").Returns later ∧ ¬later.Agrees := by
  obtain ⟨created, run, phase⟩ := (Phased.empty : Phased Fits {}).moves .pending ⟨nofun, nofun⟩
  obtain ⟨reconciled, run, phase⟩ := run.moves .reconciling (phase ▸ nofun)
  obtain ⟨served, run, phase⟩ := run.moves .ready trivial
  obtain ⟨status, run, phase⟩ := run.moves .deleting trivial
  obtain ⟨later, returns, -⟩ := exists_setPhase status .pending
  obtain ⟨unique, agrees⟩ := agrees_iff_fits run returns
  obtain ⟨agrees, ends⟩ := agrees fun _ _ => id
  exact ⟨status, later, run, phase, unique, agrees, returns, fun still => (ends.mp still).2 phase⟩

/-- A resource that leaves the ready phase to be reconciled still shows itself ready. -/
theorem ready_while_reconciling :
    ∃ status, Phased (fun _ _ => True) status ∧ status.phase = .reconciling ∧
    status.Shows .ready ∧ ¬status.Agrees := by
  have first : (setPhase {} .ready "" "").Returns _ := ⟨0, 0, rfl⟩
  have run : Phased (fun _ _ => True) _ := .change .empty trivial first
  refine ⟨_, run.change trivial (show (setPhase _ .reconciling "" "").Returns _ from ⟨0, rfl⟩), rfl,
    rfl, ?_⟩
  exact fun agrees => absurd (agrees.1.mp rfl) (by decide)

end StatusBase

end Infrastructure.Domain
