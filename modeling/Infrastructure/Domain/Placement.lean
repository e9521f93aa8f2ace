import Infrastructure.Domain.Status
import Infrastructure.State.Logged

/-! Hosts, pools of hosts, and what the statuses of the kinds placed on them share. Amounts of CPU
are exact. -/

namespace Infrastructure.Domain

open Concurrency State

def kindNode : String := "node"

def kindNodePool : String := "node_pool"

structure NodeCapacity where
  cpus : Int
  memoryMb : Int
  maxPods : Int := 0
  deriving DecidableEq, Repr

structure NodeSpec where
  hostname : String
  address : String
  labels : List (String × String) := []
  capacity : NodeCapacity
  deriving DecidableEq, Repr

structure NodeAllocated where
  cpus : Rat := 0
  memoryMb : Int := 0
  pods : Int := 0
  deriving DecidableEq, Repr

structure NodeStatus extends StatusBase where
  allocated : NodeAllocated := {}
  lastSeen : String := ""
  deriving DecidableEq, Repr

abbrev Node := Resource NodeSpec NodeStatus

structure NodePoolSpec where
  name : String
  nodeSelector : List (String × String) := []
  minNodes : Int := 0
  maxNodes : Int := 0
  deriving DecidableEq, Repr

structure NodePoolStatus extends StatusBase where
  readyNodes : Int := 0
  totalNodes : Int := 0
  deriving DecidableEq, Repr

abbrev NodePool := Resource NodePoolSpec NodePoolStatus

structure Placement (ST : Type) where
  nodeName : ST → String
  place : String → ST → ST
  base : ST → StatusBase
  setBase : StatusBase → ST → ST
  nodeName_place : ∀ node status, nodeName (place node status) = node
  nodeName_setBase : ∀ base status, nodeName (setBase base status) = nodeName status

theorem StatusBase.setPhase_looks (status : StatusBase) (phase : Phase) (why msg : String) :
    (status.setPhase phase why msg).Uses Op.Looking fun _ => True := by
  cases phase <;> simp [StatusBase.setPhase, StatusBase.stampCondition, Program.Uses, Op.Looking,
    Op.looks]

namespace Placement

variable {S ST : Type} (p : Placement ST)

def on (res : Resource S ST) : String := p.nodeName res.status

def move (node : String) (res : Resource S ST) : Resource S ST :=
  { res with status := p.place node res.status }

def setPhase (res : Resource S ST) (phase : Phase) (reason msg : String) :
    Prog (Resource S ST) := do
  let base ← (p.base res.status).setPhase phase reason msg
  return { res with status := p.setBase base res.status }

theorem setPhase_looks (res : Resource S ST) (phase : Phase) (why msg : String) :
    (p.setPhase res phase why msg).Uses Op.Looking fun later =>
      ∃ base, later = { res with status := p.setBase base res.status } := by
  apply (StatusBase.setPhase_looks _ phase why msg).bind
  intro base _
  exact ⟨base, rfl⟩

end Placement

end Infrastructure.Domain
