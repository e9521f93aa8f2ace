import Mathlib.Logic.Function.Basic

/-! Target groups: the health of a target and the choice of the next one. -/

namespace Infrastructure.Lbproxy

inductive Health where
  | unknown
  | healthy
  | unhealthy
  deriving DecidableEq, Repr

structure TargetState where
  health : Health := .unknown
  successes : Nat := 0
  failures : Nat := 0
  passive : Nat := 0
  lastError : String := ""
  deriving DecidableEq, Repr

namespace TargetState

/-- A target that no check has decided on counts as healthy. -/
def eligible (s : TargetState) : Bool := s.health != .unhealthy

def observeCheck (s : TargetState) (failure : Option String)
    (healthy unhealthy : Nat) : TargetState :=
  match failure with
  | none =>
    let s := { s with successes := s.successes + 1, failures := 0, lastError := "" }
    -- also for a target that is healthy already
    if healthy ≤ s.successes then { s with health := .healthy, passive := 0 } else s
  | some err =>
    let s := { s with failures := s.failures + 1, successes := 0, lastError := err }
    if unhealthy ≤ s.failures then { s with health := .unhealthy } else s

def observeTraffic (s : TargetState) (failure : Option String) (unhealthy : Nat) : TargetState :=
  match failure with
  | none => { s with passive := 0 }
  | some err =>
    let s := { s with passive := s.passive + 1, lastError := err }
    if unhealthy ≤ s.passive then { s with health := .unhealthy, successes := 0 } else s

end TargetState

structure Target where
  id : String
  address : String
  port : Nat
  weight : Int
  deriving DecidableEq, Repr

/-- Targets are named by their position, and `current` holds their round-robin counters. -/
structure Group where
  name : String
  targets : List Target
  current : Nat → Int := fun _ => 0
  failingOpen : Bool := false

namespace Group

variable (g : Group)

def weight (i : Nat) : Int := (g.targets[i]?.map Target.weight).getD 0

def eligibleTargets (state : Nat → TargetState) (exclude : Nat → Bool) : List Nat :=
  (List.range g.targets.length).filter fun i => !exclude i && (state i).eligible

/-- With none eligible, every target not excluded. -/
def candidates (state : Nat → TargetState) (exclude : Nat → Bool) : List Nat :=
  if g.eligibleTargets state exclude = [] then
    (List.range g.targets.length).filter fun i => !exclude i
  else g.eligibleTargets state exclude

/-- The counters, the total and the best target so far. -/
structure Scan where
  current : Nat → Int
  total : Int := 0
  best : Option Nat := none

def visit (scan : Scan) (i : Nat) : Scan :=
  let current := Function.update scan.current i (scan.current i + g.weight i)
  { current
    total := scan.total + g.weight i
    best :=
      match scan.best with
      | none => some i
      | some best => if current best < current i then some i else some best }

def scan (state : Nat → TargetState) (exclude : Nat → Bool) : Scan :=
  (g.candidates state exclude).foldl g.visit ⟨g.current, 0, none⟩

/-- Whether the group sends traffic everywhere for want of an eligible target. -/
def failsOpen (state : Nat → TargetState) (exclude : Nat → Bool) : Bool :=
  if g.eligibleTargets state exclude = [] then
    g.failingOpen || !(g.candidates state exclude).isEmpty
  else false

def pick (state : Nat → TargetState) (exclude : Nat → Bool) : Option Nat × Group :=
  let scan := g.scan state exclude
  match scan.best with
  | none => (none, { g with failingOpen := g.failsOpen state exclude })
  | some best =>
    (some best, { g with
      failingOpen := g.failsOpen state exclude
      current := Function.update scan.current best (scan.current best - scan.total) })

end Group

end Infrastructure.Lbproxy
