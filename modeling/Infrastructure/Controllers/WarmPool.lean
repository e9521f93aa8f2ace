import Infrastructure.Cluster.Formats

/-! Which instances of a warm pool an eviction keeps. -/

namespace Infrastructure.Controllers.FunctionController

open Concurrency State Domain List

def keptFrom {α : Type} (keeps : Nat → α → Bool) : Nat → List α → List α
  | _, [] => []
  | i, item :: items =>
    if keeps i item then item :: keptFrom keeps (i + 1) items else keptFrom keeps (i + 1) items

theorem keptFrom_congr {α : Type} {keeps others : Nat → α → Bool} {i other : Nat} (items : List α)
    (eq : ∀ pos item, keeps (i + pos) item = others (other + pos) item) :
    keptFrom keeps i items = keptFrom others other items := by
  induction items generalizing i other with
  | nil => rfl
  | cons item items ih =>
    have later : keptFrom keeps (i + 1) items = keptFrom others (other + 1) items := by
      apply ih
      intro pos item
      rw [Nat.add_assoc, Nat.add_assoc, eq]
    have here : keeps i item = others other item := eq 0 item
    rw [keptFrom, keptFrom, later, here]

variable (c : FunctionController)

/-- How long an instance has been idle; unknown for one whose last use cannot be read. -/
def idleTime (now : Int) (inst : FunctionInstance) : Option Int :=
  (c.parseTime inst.status.lastUsedAt).map fun since => now - since

def idleTTL (policy : WarmPoolPolicy) : Int := policy.idleTTLSeconds * 1000000000

/-- Idle for at least the ttl, or since no time that is known. -/
def IdleLong (policy : WarmPoolPolicy) (now : Int) (inst : FunctionInstance) : Prop :=
  ∀ idle, c.idleTime now inst = some idle → idleTTL policy ≤ idle

/-- A position, oldest use first, that the maximum has no room for. -/
def BeyondMax (policy : WarmPoolPolicy) (count pos : Nat) : Prop :=
  0 < policy.maxWarm ∧ (pos : Int) < count - policy.maxWarm

/-- A position that is not among the newest that the minimum asks for. -/
def BeyondMin (policy : WarmPoolPolicy) (count pos : Nat) : Prop :=
  (pos : Int) < count - policy.minWarm

/-- What an eviction is for, beyond the instances in the order of their last use. -/
structure Evicts (policy : WarmPoolPolicy) (now : Int) (order : List FunctionInstance)
    (keeps : Nat → FunctionInstance → Bool) : Prop where
  atMost : 0 < policy.maxWarm → ((keptFrom keeps 0 order).length : Int) ≤ policy.maxWarm
  newest : ∀ pos inst, order[pos]? = some inst → ¬BeyondMax policy order.length pos →
    ¬BeyondMin policy order.length pos → keeps pos inst = true
  dropped : ∀ pos inst, order[pos]? = some inst → keeps pos inst = false →
    BeyondMax policy order.length pos ∨
      (BeyondMin policy order.length pos ∧ c.IdleLong policy now inst)
  fresh : ∀ pos inst, order[pos]? = some inst → ¬BeyondMax policy order.length pos →
    ¬c.IdleLong policy now inst → keeps pos inst = true

def keeps (policy : WarmPoolPolicy) (now : Int) (count pos : Nat)
    (inst : FunctionInstance) : Bool :=
  decide (surplus policy count ≤ pos) &&
    (decide ((count : Int) - policy.minWarm ≤ pos) || !c.expired policy now inst)

section

variable {c} {policy : WarmPoolPolicy} {now : Int} {count pos : Nat} {inst : FunctionInstance}

theorem expired_iff : c.expired policy now inst = true ↔
    ∀ since, c.parseTime inst.status.lastUsedAt = some since →
      durationOfSeconds policy.idleTTLSeconds ≤ timeSub now since := by
  rw [expired]
  cases c.parseTime inst.status.lastUsedAt with
  | none => simp
  | some since => simp

theorem beyondMax_iff : BeyondMax policy count pos ↔ pos < surplus policy count := by
  rw [BeyondMax, surplus]
  split <;> omega

theorem keeps_eq_true : c.keeps policy now count pos inst = true ↔ ¬BeyondMax policy count pos ∧
      (¬BeyondMin policy count pos ∨ c.expired policy now inst = false) := by
  rw [beyondMax_iff, BeyondMin, keeps]
  simp

theorem length_keptFrom_le {α : Type} {keeps : Nat → α → Bool} (items : List α) (bound i : Nat)
    (early : ∀ pos item, pos < bound → keeps pos item = false) :
    (keptFrom keeps i items).length ≤ items.length - (bound - i) := by
  induction items generalizing i with
  | nil => simp [keptFrom]
  | cons item items ih =>
    have rest := ih (i + 1)
    rw [keptFrom]
    split
    · next kept =>
      have late : bound ≤ i := by
        by_contra pre
        simp [early i item (by omega)] at kept
      simp only [length_cons]
      omega
    · simp only [length_cons]
      omega

theorem keeps_atMost (order : List FunctionInstance) (capped : 0 < policy.maxWarm) :
    ((keptFrom (c.keeps policy now order.length) 0 order).length : Int) ≤ policy.maxWarm := by
  have early (pos : Nat) (inst : FunctionInstance) (pre : pos < surplus policy order.length) :
      c.keeps policy now order.length pos inst = false := by
    simp [keeps, pre]
  have bound := length_keptFrom_le order (surplus policy order.length) 0 early
  rw [surplus] at bound
  split at bound <;> omega

/-- The result of an eviction: what is kept, or an error of one of the deletions. -/
def Outcome (c : FunctionController) (items kept : List FunctionInstance) :
    Except Error (List FunctionInstance) → Prop
  | .ok result => result = kept
  | .error err => ∃ inst ∈ items, (c.deleteInstance inst).Returns (.error err)

theorem Outcome.error_mono {items more kept others : List FunctionInstance} {err : Error}
    (outcome : Outcome c items kept (.error err)) (incl : ∀ inst ∈ items, inst ∈ more) :
    Outcome c more others (.error err) := by
  obtain ⟨inst, mem, out⟩ := outcome
  exact ⟨inst, incl inst mem, out⟩

/-- The scan keeps the positions from the floor on, and of the others what has not expired. -/
theorem evictExpired_returns (floorStart : Int) (i : Nat) (items : List FunctionInstance) :
    (c.evictExpired policy now floorStart i items).Uses (fun _ => True)
    (Outcome c items (keptFrom (fun pos inst =>
        decide (floorStart ≤ (pos : Int)) || !c.expired policy now inst) i items)) := by
  induction items generalizing i with
  | nil => exact rfl
  | cons inst items ih =>
    have incl (other : FunctionInstance) (mem : other ∈ items) : other ∈ inst :: items :=
      .tail _ mem
    rw [evictExpired, keptFrom]
    split
    · next stays =>
      rw [if_pos (by simpa using stays)]
      apply (ih (i + 1)).bind
      intro reply rest
      cases reply with
      | error err => exact rest.error_mono incl
      | ok others =>
        have eq : others = _ := rest
        exact congrArg (inst :: ·) eq
    · next goes =>
      rw [if_neg (by simpa using goes)]
      apply (c.deleteInstance inst).uses_returns.bind
      intro reply out
      cases reply with
      | error err => exact ⟨inst, .head _, out⟩
      | ok done =>
        apply (ih (i + 1)).mono (fun _ => id)
        intro reply rest
        cases reply with
        | error err => exact rest.error_mono incl
        | ok others => exact rest

theorem deleteEach_returns (items : List FunctionInstance) :
    (c.deleteEach items).Uses (fun _ => True) fun reply => ∀ err, reply = .error err →
      ∃ inst ∈ items, (c.deleteInstance inst).Returns (.error err) := by
  induction items with
  | nil => nofun
  | cons inst items ih =>
    apply (c.deleteInstance inst).uses_returns.bind
    intro reply out
    cases reply with
    | error err =>
      intro other eq
      cases eq
      exact ⟨inst, .head _, out⟩
    | ok done =>
      apply ih.mono (fun _ => id)
      intro reply rest err bad
      obtain ⟨other, mem, out⟩ := rest err bad
      exact ⟨other, .tail _ mem, out⟩

theorem keptFrom_all {α : Type} {keeps : Nat → α → Bool} (i : Nat) (items : List α)
    (all : ∀ pos item, i ≤ pos → keeps pos item = true) : keptFrom keeps i items = items := by
  induction items generalizing i with
  | nil => rfl
  | cons item items ih =>
    rw [keptFrom, if_pos (all i item le_rfl),
      ih (i + 1) fun pos item later => all pos item (by omega)]

theorem keptFrom_drop {α : Type} {keeps : Nat → α → Bool} (items : List α) (bound : Nat)
    (early : ∀ pos item, pos < bound → keeps pos item = false) :
    keptFrom keeps 0 items = keptFrom (fun pos => keeps (bound + pos)) 0 (items.drop bound) := by
  have general (i : Nat) (within : i ≤ bound) :
      keptFrom keeps i items =
        keptFrom (fun pos => keeps (bound + pos)) 0 (items.drop (bound - i)) := by
    induction items generalizing i with
    | nil => simp [keptFrom]
    | cons item items ih =>
      rcases Nat.lt_or_ge i bound with pre | reached
      · have step : bound - i = bound - (i + 1) + 1 := by omega
        rw [keptFrom, early i item pre, if_neg (by simp), ih (i + 1) pre, step, drop_succ_cons]
      · have eq : i = bound := by omega
        rw [eq, Nat.sub_self, drop_zero]
        exact keptFrom_congr _ fun pos item => by rw [Nat.zero_add]
  exact general 0 (Nat.zero_le _)

theorem keeps_drop (order : List FunctionInstance) :
    keptFrom (c.keeps policy now order.length) 0 order =
      keptFrom (fun pos inst =>
        decide (((order.drop (surplus policy order.length)).length : Int) -
          policy.minWarm ≤ (pos : Int)) ||
          !c.expired policy now inst) 0 (order.drop (surplus policy order.length)) := by
  rw [keptFrom_drop order (surplus policy order.length)]
  · apply keptFrom_congr
    intro pos inst
    have within : surplus policy order.length ≤ order.length := by
      rw [surplus]
      split <;> omega
    have hit : surplus policy order.length ≤ surplus policy order.length + (0 + pos) := by omega
    have eq : ((order.length : Int) - policy.minWarm ≤
        ((surplus policy order.length + (0 + pos) : Nat) : Int)) ↔
        ((order.length - surplus policy order.length : Nat) : Int) - policy.minWarm ≤
          ((0 + pos : Nat) : Int) := by
      omega
    simp only [keeps, hit, decide_true, Bool.true_and, length_drop, eq]
  · intro pos inst pre
    simp [keeps, pre]

theorem evictIdle_returns (live : List FunctionInstance) :
    (c.evictIdle live policy now).Uses (fun _ => True)
      (Outcome c live (keptFrom (c.keeps policy now (c.byLastUse.order live).length) 0
        (c.byLastUse.order live))) := by
  have incl (inst : FunctionInstance) (mem : inst ∈ c.byLastUse.order live) : inst ∈ live :=
    (c.byLastUse.perm live).subset mem
  apply (deleteEach_returns _).bind
  intro reply bad
  cases reply with
  | error err =>
    obtain ⟨inst, mem, out⟩ := bad err rfl
    exact ⟨inst, incl inst (mem_of_mem_take mem), out⟩
  | ok done =>
    dsimp only
    rw [keeps_drop]
    split
    · next few =>
      rw [keptFrom_all]
      · exact rfl
      · intro pos inst _
        simp only [Bool.or_eq_true, decide_eq_true_eq]
        left
        omega
    · apply (evictExpired_returns _ 0 _).mono (fun _ => id)
      intro reply rest
      cases reply with
      | error err => exact rest.error_mono fun inst mem => incl inst (mem_of_mem_drop mem)
      | ok result => exact rest

end

/-- An instance that the maximum has room for and the minimum does not protect. -/
def Exposed (policy : WarmPoolPolicy) (order : List FunctionInstance) (since : Int) : Prop :=
  ∃ pos inst, order[pos]? = some inst ∧ ¬BeyondMax policy order.length pos ∧
    BeyondMin policy order.length pos ∧ c.parseTime inst.status.lastUsedAt = some since

section

variable {c} {policy : WarmPoolPolicy} {now : Int} {order : List FunctionInstance}

theorem evicts_iff : c.Evicts policy now order (c.keeps policy now order.length) ↔
    ∀ since, c.Exposed policy order since →
      durationOfSeconds policy.idleTTLSeconds ≤ timeSub now since →
        idleTTL policy ≤ now - since := by
  constructor
  · rintro evicts since ⟨pos, inst, got, within, beyond, read⟩ hit
    have old : c.expired policy now inst = true := by
      rw [expired_iff]
      intro other eq
      rw [read] at eq
      cases eq
      exact hit
    have gone : c.keeps policy now order.length pos inst = false := by
      rw [← Bool.not_eq_true, keeps_eq_true]
      simp [beyond, old]
    rcases evicts.dropped pos inst got gone with beyond | ⟨-, long⟩
    · exact absurd beyond within
    · exact long _ (by rw [idleTime, read]; rfl)
  · intro honest
    have long {pos : Nat} {inst : FunctionInstance} (got : order[pos]? = some inst)
        (within : ¬BeyondMax policy order.length pos) (beyond : BeyondMin policy order.length pos)
        (old : c.expired policy now inst = true) : c.IdleLong policy now inst := by
      intro idle known
      rw [idleTime] at known
      obtain ⟨since, read, rfl⟩ := Option.map_eq_some_iff.mp known
      exact honest since ⟨pos, inst, got, within, beyond, read⟩ (expired_iff.mp old since read)
    constructor
    · exact keeps_atMost order
    · intro pos inst _ within protected_
      exact keeps_eq_true.mpr ⟨within, .inl protected_⟩
    · intro pos inst got gone
      by_cases beyond : BeyondMax policy order.length pos
      · exact .inl beyond
      · rw [← Bool.not_eq_true, keeps_eq_true] at gone
        simp only [beyond, not_false_eq_true, true_and, not_or, not_not, Bool.not_eq_false] at gone
        exact .inr ⟨gone.1, long got beyond gone.1 gone.2⟩
    · intro pos inst got within young
      rw [keeps_eq_true]
      refine ⟨within, ?_⟩
      by_contra lost
      simp only [not_or, not_not, Bool.not_eq_false] at lost
      exact young (long got within lost.1 lost.2)

end

/-- An eviction keeps what it should exactly where the 64-bit ttl is no shorter than the ttl for an
instance that depends on it. -/
theorem evictIdle_evicts_iff (live : List FunctionInstance) (policy : WarmPoolPolicy) (now : Int) :
    (c.evictIdle live policy now).Uses (fun _ => True)
        (Outcome c live (keptFrom (c.keeps policy now (c.byLastUse.order live).length) 0
          (c.byLastUse.order live))) ∧
      (c.Evicts policy now (c.byLastUse.order live)
        (c.keeps policy now (c.byLastUse.order live).length) ↔
        ∀ since, c.Exposed policy (c.byLastUse.order live) since →
          durationOfSeconds policy.idleTTLSeconds ≤ timeSub now since →
            idleTTL policy ≤ now - since) :=
  ⟨evictIdle_returns live, evicts_iff⟩

def noonInstance : FunctionInstance where
  metadata := { uid := "fninst-1" }
  spec := ⟨"fn", "function-compute-30000"⟩
  status := { state := .warm, lastUsedAt := Cluster.noon }

/-- A ttl of 9223372037 seconds is negative in 64 bits, and the pool drops an instance that was just
used. -/
theorem evictIdle_long_ttl :
    (Cluster.sampleController.evictIdle [noonInstance] { maxWarm := 32, idleTTLSeconds :=
      9223372037 } 0).Uses
        (fun _ => True) (fun reply => ∀ result, reply = .ok result → result = []) ∧
      ¬Cluster.sampleController.Evicts { maxWarm := 32, idleTTLSeconds := 9223372037 } 0
        (Cluster.sampleController.byLastUse.order [noonInstance])
        (Cluster.sampleController.keeps { maxWarm := 32, idleTTLSeconds := 9223372037 } 0
          (Cluster.sampleController.byLastUse.order [noonInstance]).length) := by
  have order : Cluster.sampleController.byLastUse.order [noonInstance] = [noonInstance] :=
    mergeSort_singleton _
  constructor
  · apply (evictIdle_returns [noonInstance]).mono fun _ => id
    rintro reply outcome result rfl
    rw [order] at outcome
    exact Eq.trans outcome (by decide)
  · rw [order]
    intro evicts
    have within : ¬BeyondMax { maxWarm := 32, idleTTLSeconds := 9223372037 } 1 0 := by
      unfold BeyondMax
      decide
    have kept := evicts.fresh 0 noonInstance rfl within fun long => absurd (long 0 rfl) (by decide)
    exact absurd kept (by decide)

end Infrastructure.Controllers.FunctionController
