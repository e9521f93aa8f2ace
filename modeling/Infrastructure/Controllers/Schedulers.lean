import Infrastructure.Controllers.Placement
import Infrastructure.Domain.Compute
import Infrastructure.Domain.Disk

/-! The four schedulers. They run one after the other in the process that leads. -/

namespace Infrastructure.Controllers

open Concurrency State Domain Program Registry

/-- The registries of the schedulers, and what they take a node's silence for. -/
structure Schedulers where
  computeCodec : Codec ComputeSpec ComputeStatus
  microVMCodec : Codec MicroVMSpec MicroVMStatus
  diskCodec : Codec DiskSpec DiskStatus
  replicaCodec : Codec AsyncDiskReplicaSpec AsyncDiskReplicaStatus
  nodeCodec : Codec NodeSpec NodeStatus
  poolCodec : Codec NodePoolSpec NodePoolStatus
  parseTime : String → Option Int
  readyWindow : Int

namespace Schedulers

variable (c : Schedulers)

def computes : Registry ComputeSpec ComputeStatus := ⟨kindCompute, c.computeCodec⟩

def microVMs : Registry MicroVMSpec MicroVMStatus := ⟨kindMicroVM, c.microVMCodec⟩

def disks : Registry DiskSpec DiskStatus := ⟨kindDisk, c.diskCodec⟩

def replicas : Registry AsyncDiskReplicaSpec AsyncDiskReplicaStatus :=
  ⟨kindAsyncDiskReplica, c.replicaCodec⟩

def nodes : Registry NodeSpec NodeStatus := ⟨kindNode, c.nodeCodec⟩

def pools : Registry NodePoolSpec NodePoolStatus := ⟨kindNodePool, c.poolCodec⟩

theorem computes_nodes : c.computes.Disjoint c.nodes :=
  disjoint_of_kinds (k := kindCompute) (l := kindNode) rfl rfl (by decide)

theorem computes_pools : c.computes.Disjoint c.pools :=
  disjoint_of_kinds (k := kindCompute) (l := kindNodePool) rfl rfl (by decide)

theorem nodes_pools : c.nodes.Disjoint c.pools :=
  disjoint_of_kinds (k := kindNode) (l := kindNodePool) rfl rfl (by decide)

def ready (now : Int) (nodes : List Node) : String → Bool :=
  readyNodes c.parseTime c.readyWindow now nodes

structure NodeReport where
  phase : Phase
  reason : String
  message : String

def nodeReport (ready : Bool) (lastSeen : String) : NodeReport :=
  if ready then ⟨.ready, "Ready", "node available for scheduling"⟩
  else if lastSeen = "" then ⟨.pending, "NeverSeen", "node has not heartbeated"⟩
  else ⟨.pending, "Stale", "node heartbeat is stale"⟩

def writeNodeStatus (alloc : Allocation) (ready : String → Bool) : List Node → Prog (List Error)
  | [] => return []
  | node :: nodes => do
      let uid := node.metadata.uid
      let committed := (alloc uid).getD {}
      let want : NodeAllocated := ⟨committed.cpus, committed.mem, committed.pods⟩
      let report := nodeReport (ready uid) node.status.lastSeen
      if node.status.allocated = want ∧ node.status.phase = report.phase then
        writeNodeStatus alloc ready nodes
      else
        let base ← node.status.toStatusBase.setPhase report.phase report.reason report.message
        let base := if report.phase = .ready then
          base.markReconciled node.metadata.generation else base
        let status := { node.status with toStatusBase := base, allocated := want }
        match ← c.nodes.put { node with status := status } with
        | .error err =>
          let errors ← writeNodeStatus alloc ready nodes
          return .wrap ("controllers: save node " ++ uid) err :: errors
        | .ok _ => writeNodeStatus alloc ready nodes

def writePoolStatus (nodes : List Node) (ready : String → Bool) : List NodePool → Prog (List Error)
  | [] => return []
  | pool :: pools => do
      let members := nodes.filter fun node => matchLabels node.spec.labels pool.spec.nodeSelector
      let total : Int := members.length
      let readyCount : Int := (members.filter fun node => ready node.metadata.uid).length
      if pool.status.totalNodes = total ∧ pool.status.readyNodes = readyCount ∧
        pool.status.phase = .ready then
        writePoolStatus nodes ready pools
      else
        let base ← pool.status.toStatusBase.setPhase .ready "Counted" "node pool reconciled"
        let base := base.markReconciled pool.metadata.generation
        let status :=
          { pool.status with toStatusBase := base, totalNodes := total, readyNodes := readyCount }
        match ← c.pools.put { pool with status := status } with
        | .error err =>
          let errors ← writePoolStatus nodes ready pools
          return .wrap ("controllers: save node pool " ++ pool.metadata.uid) err :: errors
        | .ok _ => writePoolStatus nodes ready pools

/-- What a step that joins its own errors adds to those of the pass. -/
def joined (errors : List Error) : List Error :=
  match Error.joinAll errors with
  | .ok () => []
  | .error err => [err]

/-- The pass of a kind that has a node pool: the placements, then what the nodes and pools
report. -/
def reconcileIn {S ST : Type} (r : Registry S ST) (p : Placement ST) (plural : String)
    (withDefaults : S → S) (poolId : S → String) (demand : S → Demand) :
    Prog (Except Error Unit) := do
  match ← c.nodes.list with
  | .error err => return .error (.wrap "controllers: list nodes" err)
  | .ok nodes =>
    match ← r.list with
    | .error err => return .error (.wrap ("controllers: list " ++ plural) err)
    | .ok items =>
      let items := items.map fun item => { item with spec := withDefaults item.spec }
      match ← c.pools.list with
      | .error err => return .error (.wrap "controllers: list node pools" err)
      | .ok pools =>
        let now ← perform Op.now
        let ready := c.ready now nodes
        let choose (alloc : Allocation) (item : Resource S ST) : Prog String :=
          match poolSelector pools (poolId item.spec) with
          | none => return ""
          | some selector => return pickNode nodes alloc ready selector (demand item.spec)
        let (alloc, errors) ← schedule r p ready nodes choose (fun item => demand item.spec) items
        let nodeErrors ← c.writeNodeStatus alloc ready nodes
        let poolErrors ← c.writePoolStatus nodes ready pools
        return Error.joinAll (errors ++ joined nodeErrors ++ joined poolErrors)

/-- `SchedulerController.Reconcile`. -/
def reconcileComputes : Prog (Except Error Unit) :=
  c.reconcileIn c.computes computePlacement "computes" ComputeSpec.withDefaults
    (·.nodePoolId) fun spec => ⟨spec.cpu, spec.memoryMb⟩

/-- `MicroVMSchedulerController.Reconcile`. -/
def reconcileMicroVMs : Prog (Except Error Unit) :=
  c.reconcileIn c.microVMs microVMPlacement "microvms" id
    (·.nodePoolId) fun spec => ⟨spec.vcpus, spec.memoryMb⟩

/-- `DiskSchedulerController.Reconcile`: any ready node will do. -/
def reconcileDisks : Prog (Except Error Unit) := do
  match ← c.nodes.list with
  | .error err => return .error (.wrap "controllers: list nodes" err)
  | .ok nodes =>
    match ← c.disks.list with
    | .error err => return .error (.wrap "controllers: list disks" err)
    | .ok disks =>
      let now ← perform Op.now
      let ready := c.ready now nodes
      let choose (alloc : Allocation) (_ : Disk) : Prog String :=
        return pickNode nodes alloc ready [] {}
      let (_, errors) ← schedule c.disks diskPlacement ready nodes choose (fun _ => {}) disks
      return Error.joinAll errors

/-- A node for a replica: one of its pool other than the primary of its disk. -/
def chooseForReplica (nodes : List Node) (pools : List NodePool) (ready : String → Bool)
    (alloc : Allocation) (replica : AsyncDiskReplica) : Prog String := do
  match ← c.disks.get replica.spec.diskId with
  | .error _ => return ""
  | .ok disk =>
    if disk.status.nodeName = "" then return ""
    else
      match poolSelector pools replica.spec.targetNodePoolId with
      | none => return ""
      | some selector => return pickNodeExcluding nodes alloc ready selector disk.status.nodeName

/-- `AsyncDiskReplicaSchedulerController.Reconcile`. -/
def reconcileReplicas : Prog (Except Error Unit) := do
  match ← c.nodes.list with
  | .error err => return .error (.wrap "controllers: list nodes" err)
  | .ok nodes =>
    match ← c.replicas.list with
    | .error err => return .error (.wrap "controllers: list async disk replicas" err)
    | .ok replicas =>
      match ← c.pools.list with
      | .error err => return .error (.wrap "controllers: list node pools" err)
      | .ok pools =>
        let now ← perform Op.now
        let ready := c.ready now nodes
        let (_, errors) ← schedule c.replicas asyncDiskReplicaPlacement ready nodes
          (c.chooseForReplica nodes pools ready) (fun _ => {}) replicas
        return Error.joinAll errors

def ReadyNode (shared : Shared) (name : String) : Prop :=
  ∃ node, c.nodes.stored shared name = some node ∧
    nodeReady c.parseTime c.readyWindow node shared.clock = true

section

variable {c} {listed : List Node} {s : Shared}

section

variable (listing : c.nodes.Listing s listed) (filed : c.nodes.Filed s) {name : String}

include listing filed name

theorem readyNode_of_ready (ready : c.ready s.clock listed name = true) : c.ReadyNode s name := by
  obtain ⟨node, mem, named, alive⟩ := readyNodes_listed ready
  obtain ⟨uid, got⟩ := listing.sound node mem
  have eq : uid = name := (filed uid node got).symm.trans named
  exact ⟨node, eq ▸ got, alive⟩

theorem ready_of_readyNode (alive : c.ReadyNode s name) (listable : c.nodes.Listable name) :
    c.ready s.clock listed name = true := by
  obtain ⟨node, got, seen⟩ := alive
  apply readyNodes_of_listed (listing.complete name node got listable) (filed name node got)
  intro other mem named
  obtain ⟨uid, also⟩ := listing.sound other mem
  have eq : uid = name := (filed uid other also).symm.trans named
  rw [eq, got] at also
  cases also
  exact seen

end

end

section

variable {c} {inv : Logged → Prop} {s : Logged}

theorem writeNodeStatus_keeps (alloc : Allocation) (ready : String → Bool) (nodes : List Node)
    (saved : ∀ node ∈ nodes, ∀ now base allocated shared, inv now → c.nodes.Saves now.shared
      { node with status := { node.status with toStatusBase := base, allocated := allocated } }
        shared →
      inv (now.over shared)) (holds : inv s) :
    (c.writeNodeStatus alloc ready nodes).Keeps logged inv (fun _ => inv) s := by
  induction nodes generalizing s with
  | nil => exact holds
  | cons node nodes ih =>
    have ih {now : Logged} := @ih now fun other mem => saved other (.tail _ mem)
    have saved := saved node (.head _)
    rw [writeNodeStatus]
    dsimp only
    split
    · exact ih holds
    · apply (keeps_looking (StatusBase.setPhase_looks _ _ _ _) holds).bind
      rintro base _ ⟨-, rfl⟩
      apply keeps_put holds fun s' saves => saved _ _ _ s' holds saves
      · intro err
        exact (ih holds).bind fun _ _ kept => kept
      · intro reply s' saves _
        have kept := saved _ _ _ s' holds saves
        cases reply with
        | error err => exact (ih kept).bind fun _ _ last => last
        | ok result => exact ih kept

theorem writePoolStatus_keeps (nodes : List Node) (ready : String → Bool) (pools : List NodePool)
    (saved : ∀ pool ∈ pools, ∀ now status shared, inv now →
      c.pools.Saves now.shared { pool with status := status } shared →
      inv (now.over shared)) (holds : inv s) :
    (c.writePoolStatus nodes ready pools).Keeps logged inv (fun _ => inv) s := by
  induction pools generalizing s with
  | nil => exact holds
  | cons pool pools ih =>
    have ih {now : Logged} := @ih now fun other mem => saved other (.tail _ mem)
    have saved := saved pool (.head _)
    rw [writePoolStatus]
    dsimp only
    split
    · exact ih holds
    · apply (keeps_looking (StatusBase.setPhase_looks _ _ _ _) holds).bind
      rintro base _ ⟨-, rfl⟩
      apply keeps_put holds fun s' saves => saved _ _ s' holds saves
      · intro err
        exact (ih holds).bind fun _ _ kept => kept
      · intro reply s' saves _
        have kept := saved _ _ s' holds saves
        cases reply with
        | error err => exact (ih kept).bind fun _ _ last => last
        | ok result => exact ih kept

/-- What a scheduler does to the records that it lists, in terms of the nodes that it lists. -/
structure Moves {S ST : Type} (c : Schedulers) (r : Registry S ST) (p : Placement ST)
    (inv : Logged → Prop) (s : Logged) : Prop where
  clears : ∀ nodes items, c.nodes.Listing s.shared nodes → r.Listing s.shared items →
    ∀ item ∈ items, stranded p (c.ready s.shared.clock nodes) item = true →
    ∀ now, inv now → Admissible r p inv item.metadata.uid "" now
  places : ∀ nodes items, c.nodes.Listing s.shared nodes → r.Listing s.shared items →
    ∀ item ∈ items, item.metadata.isDeleting = false →
    (p.on item = "" ∨ c.ready s.shared.clock nodes (p.on item) = false) →
    ∀ node, c.ready s.shared.clock nodes node = true →
    ∀ now, inv now → Admissible r p inv item.metadata.uid node now

theorem reconcileDisks_keeps (holds : inv s) (moves : c.Moves c.disks diskPlacement inv s) :
    c.reconcileDisks.Keeps logged inv (fun _ => inv) s := by
  refine keeps_list holds (fun _ => holds) ?_
  intro nodes nodesFound
  refine keeps_list holds (fun _ => holds) ?_
  intro disks disksFound
  apply keeps_look rfl holds
  intro time ran
  obtain ⟨-, rfl⟩ : _ ∧ time = s.shared.clock := ran
  refine (schedule_keeps holds ?_ ?_).bind fun _ _ kept => kept
  · exact moves.clears nodes disks nodesFound disksFound
  · intro alloc disk mem copy copies live waiting now kept
    obtain ⟨metadata, -, diskLive, unplaced⟩ := copies.waiting live waiting
    rw [metadata]
    refine ⟨kept, ?_⟩
    intro picked
    exact moves.places nodes disks nodesFound disksFound disk mem diskLive
      unplaced _ (pickNode_ready picked) now kept

theorem chooseForReplica_keeps (nodes : List Node) (pools : List NodePool) (ready : String → Bool)
    (alloc : Allocation) (rep : AsyncDiskReplica) (holds : inv s) :
    (c.chooseForReplica nodes pools ready alloc rep).Keeps logged inv (fun node s' =>
      s' = s ∧ (node ≠ "" → ∃ disk, c.disks.stored s.shared rep.spec.diskId = some disk ∧
        node ≠ disk.status.nodeName)) s := by
  refine keeps_get holds (fun _ => ⟨rfl, fun named => absurd rfl named⟩) ?_
  intro disk got
  dsimp only
  split
  · exact ⟨rfl, fun named => absurd rfl named⟩
  · cases poolSelector pools rep.spec.targetNodePoolId with
    | none => exact ⟨rfl, fun named => absurd rfl named⟩
    | some selector => exact ⟨rfl, fun picked => ⟨disk, got, pickNodeExcluding_ne picked⟩⟩

theorem reconcileReplicas_keeps (holds : inv s) (clears : ∀ uid now, inv now →
      Admissible c.replicas asyncDiskReplicaPlacement inv uid "" now)
    (places : ∀ replicas, c.replicas.Listing s.shared replicas → ∀ rep ∈ replicas,
      ∀ now disk node, inv now → c.disks.stored now.shared rep.spec.diskId = some disk →
      node ≠ disk.status.nodeName →
        Admissible c.replicas asyncDiskReplicaPlacement inv rep.metadata.uid node now) :
    c.reconcileReplicas.Keeps logged inv (fun _ => inv) s := by
  refine keeps_list holds (fun _ => holds) ?_
  intro nodes _
  refine keeps_list holds (fun _ => holds) ?_
  intro replicas replicasFound
  refine keeps_list holds (fun _ => holds) ?_
  intro pools _
  apply keeps_look rfl holds
  intro time _
  refine (schedule_keeps holds ?_ ?_).bind fun _ _ kept => kept
  · intro rep _ _ now kept
    exact clears _ now kept
  · intro alloc rep mem copy copies live waiting now kept
    obtain ⟨metadata, spec, -⟩ := copies.waiting live waiting
    apply (chooseForReplica_keeps nodes pools _ alloc copy kept).mono
    rintro node _ ⟨rfl, away⟩
    refine ⟨kept, ?_⟩
    intro picked
    obtain ⟨disk, got, ne⟩ := away picked
    rw [spec] at got
    rw [metadata]
    exact places replicas replicasFound rep mem _ disk node kept got ne

end

section

variable {c} {allowed : Op → Prop}

theorem writeNodeStatus_uses (looks : ∀ op, op.looks = true → allowed op)
    (puts : ∀ node, (c.nodes.put node).Uses allowed fun _ => True) (alloc : Allocation)
    (ready : String → Bool)
    (nodes : List Node) : (c.writeNodeStatus alloc ready nodes).Uses allowed fun _ => True := by
  induction nodes with
  | nil => trivial
  | cons node nodes ih =>
    rw [writeNodeStatus]
    dsimp only
    split
    · exact ih
    · apply ((StatusBase.setPhase_looks _ _ _ _).mono looks fun _ => id).bind
      intro base _
      exact (puts _).tries (fun _ => ih.bind fun _ _ => trivial) fun _ => ih

theorem writePoolStatus_uses (looks : ∀ op, op.looks = true → allowed op)
    (puts : ∀ pool, (c.pools.put pool).Uses allowed fun _ => True) (nodes : List Node)
    (ready : String → Bool)
    (pools : List NodePool) : (c.writePoolStatus nodes ready pools).Uses allowed fun _ => True := by
  induction pools with
  | nil => trivial
  | cons pool pools ih =>
    rw [writePoolStatus]
    dsimp only
    split
    · exact ih
    · apply ((StatusBase.setPhase_looks _ _ _ _).mono looks fun _ => id).bind
      intro base _
      exact (puts _).tries (fun _ => ih.bind fun _ _ => trivial) fun _ => ih

theorem reconcileIn_uses {S ST : Type} {r : Registry S ST} {p : Placement ST} (plural : String)
    (withDefaults : S → S) (poolId : S → String) (demand : S → Demand)
    (looks : ∀ op, op.looks = true → allowed op)
    (puts : ∀ item, (r.put item).Uses allowed fun _ => True)
    (nodes : ∀ node, (c.nodes.put node).Uses allowed fun _ => True)
    (pools : ∀ pool, (c.pools.put pool).Uses allowed fun _ => True) :
    (c.reconcileIn r p plural withDefaults poolId demand).Uses allowed fun _ => True := by
  refine (c.nodes.list_looks.mono looks fun _ => id).tries (fun _ => trivial) ?_
  intro listed
  refine (r.list_looks.mono looks fun _ => id).tries (fun _ => trivial) ?_
  intro items
  refine (c.pools.list_looks.mono looks fun _ => id).tries (fun _ => trivial) ?_
  intro groups
  refine .perform (looks _ rfl) ?_
  intro now
  refine (schedule_uses looks puts ?_).bind ?_
  · intro alloc item
    split <;> trivial
  · intro out _
    apply (writeNodeStatus_uses looks nodes _ _ _).bind
    intro nodeErrors _
    exact (writePoolStatus_uses looks pools _ _ _).bind fun _ _ => trivial

end

end Schedulers

end Infrastructure.Controllers
