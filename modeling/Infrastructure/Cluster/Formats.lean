import Mathlib.Data.List.GetD
import Infrastructure.Controllers.FunctionController
import Infrastructure.Controllers.Schedulers
import Infrastructure.Manager.Instances
import Infrastructure.Text.Format

/-! The schedulers and the agents of all nodes over one store, a codec that encodes every record of
a kind, and a small site whose runs can be evaluated. -/

namespace Infrastructure

open Concurrency State Domain Text

abbrev NodeName := { name : String // name ≠ "" }

structure Cluster extends Controllers.Schedulers, Manager.Networks

namespace Cluster

variable (cluster : Cluster)

def computeReconciler (node : String) : Manager.ComputeReconciler where
  toNetworks := cluster.toNetworks
  computeCodec := cluster.computeCodec
  diskCodec := cluster.diskCodec
  nodeName := node

/-- The ways the record of a node may change. -/
inductive NodeChange where
  | heartbeat (node : Node)
  | retire (uid : String)

def changeNode : NodeChange → Prog (Except Error Unit)
  | .heartbeat node => do
      match ← cluster.nodes.put node with
      | .error err => return .error err
      | .ok _ => return .ok ()
  | .retire uid => cluster.nodes.delete uid

theorem mine_of_named {node : NodeName} {cp : Compute}
    (mine : (cluster.computeReconciler node).mine cp = true)
    (live : cp.metadata.isDeleting = false) : cp.status.nodeName = node := by
  by_contra other
  have named : (node : String) ≠ "" := node.2
  simp [Manager.ComputeReconciler.mine, computeReconciler, named, other, live] at mine

end Cluster

namespace Domain

section

open Format

/-- Values of a finite type by their place in a list of all of them. -/
def enumFormat {α : Type} [DecidableEq α] (values : List α) (default : α)
    (all : ∀ val, val ∈ values) : Format α :=
  nat.via (fun val => values.idxOf val) (fun i => values.getD i default) (by
    intro val
    have inside := List.idxOf_lt_length_of_mem (all val)
    rw [List.getD_eq_getElem _ _ inside, List.getElem_idxOf])

def phaseFormat : Format Phase :=
  enumFormat [.unset, .pending, .reconciling, .ready, .error, .deleting, .terminated] .unset
    (by intro val; cases val <;> decide)

def conditionStatusFormat : Format ConditionStatus :=
  enumFormat [.isTrue, .isFalse, .unknown] .unknown (by intro val; cases val <;> decide)

def conditionTypeFormat : Format ConditionType :=
  enumFormat [.ready, .synced, .healthy, .progressing, .degraded, .scheduled, .bound] .ready
    (by intro val; cases val <;> decide)

def conditionFormat : Format Condition :=
  (conditionTypeFormat.pair (conditionStatusFormat.pair (string.pair (string.pair int)))).via
    (fun val => (val.type, val.status, val.reason, val.message, val.lastTransitionTime))
    (fun (type, status, reason, msg, time) => ⟨type, status, reason, msg, time⟩) (fun _ => rfl)

def statusBaseFormat : Format StatusBase :=
  (int64.pair (phaseFormat.pair (list conditionFormat))).via
    (fun val => (val.observedGeneration, val.phase, val.conditions))
    (fun (generation, phase, conditions) => ⟨generation, phase, conditions⟩) (fun _ => rfl)

def ownerReferenceFormat : Format OwnerReference :=
  (string.pair (string.pair (string.pair string))).via
    (fun val => (val.apiVersion, val.kind, val.uid, val.name))
    (fun (v, kind, uid, name) => ⟨v, kind, uid, name⟩) (fun _ => rfl)

def pairsFormat : Format (List (String × String)) := list (string.pair string)

def objectMetaFormat : Format ObjectMeta :=
  (string.pair (string.pair (string.pair (string.pair (string.pair (pairsFormat.pair
    (pairsFormat.pair ((list ownerReferenceFormat).pair ((list string).pair (int64.pair (string.pair
    ((option int).pair int)))))))))))).via
    (fun val => (val.uid, val.name, val.organizationID, val.projectID, val.ownerUID, val.labels,
      val.annotations, val.ownerRefs, val.finalizers, val.generation, val.resourceVersion,
      val.deletionTimestamp, val.createdAt))
    (fun (uid, name, organization, project, owner, labels, annotations, owners, finalizers,
      generation, v, deletion, created) =>
      ⟨uid, name, organization, project, owner, labels, annotations, owners, finalizers,
        generation, v, deletion, created⟩) (fun _ => rfl)

def resourceFormat {S ST : Type} (spec : Format S) (status : Format ST) : Format (Resource S ST) :=
  (string.pair (string.pair (objectMetaFormat.pair (spec.pair status)))).via
    (fun val => (val.apiVersion, val.kind, val.metadata, val.spec, val.status))
    (fun (v, kind, metadata, spec, status) => ⟨v, kind, metadata, spec, status⟩) (fun _ => rfl)

def Codec.ofFormat {S ST : Type} (spec : Format S) (status : Format ST) : Codec S ST where
  marshal res := .ok ((resourceFormat spec status).write res)
  unmarshal data :=
    match (resourceFormat spec status).read data with
    | some (res, []) => .ok res
    | _ => .error (.new "invalid input")
  roundTrip res data written := by
    cases written
    have reread := (resourceFormat spec status).read_write res []
    rw [List.append_nil] at reread
    simp only [reread]

def diskRefFormat : Format ComputeDiskRef :=
  (string.pair (string.pair bool)).via (fun val => (val.diskId, val.mountPath, val.readOnly))
    (fun (disk, path, readOnly) => ⟨disk, path, readOnly⟩) (fun _ => rfl)

def computeCodec : Codec ComputeSpec ComputeStatus := .ofFormat
  ((string.pair (string.pair (string.pair (string.pair (string.pair (rat.pair (int.pair (int.pair
    (string.pair (string.pair (pairsFormat.pair ((list string).pair ((list diskRefFormat).pair
    bool))))))))))))).via
    (fun val => (val.name, val.subnetId, val.securityGroupId, val.nodePoolId, val.hostname, val.cpu,
      val.memoryMb, val.pidsMax, val.image, val.command, val.env, val.ports, val.disks,
        val.privileged))
    (fun (name, subnet, group, pool, host, cpu, memory, pids, image, cmd, env, ports, disks,
      privileged) =>
      ⟨name, subnet, group, pool, host, cpu, memory, pids, image, cmd, env, ports, disks,
        privileged⟩)
    (fun _ => rfl))
  ((statusBaseFormat.pair
    (string.pair (string.pair (string.pair (string.pair (bool.pair string)))))).via
    (fun val => (val.toStatusBase, val.ip, val.netns, val.vethHost, val.rootfs, val.ready,
      val.nodeName))
    (fun (base, ip, netns, veth, rootfs, ready, node) => ⟨base, ip, netns, veth, rootfs, ready,
      node⟩) (fun _ => rfl))

def microVMCodec : Codec MicroVMSpec MicroVMStatus := .ofFormat
  ((string.pair (string.pair (string.pair (string.pair (string.pair (int.pair (int.pair
    (string.pair (string.pair (string.pair (string.pair (string.pair string)))))))))))).via
    (fun val => (val.name, val.subnetId, val.securityGroupId, val.nodePoolId, val.hostname,
      val.vcpus, val.memoryMb, val.kernelPath, val.initrdPath, val.cmdLine, val.image,
      val.sshAuthorizedKey, val.userData))
    (fun (name, subnet, group, pool, host, cpus, memory, kernel, initrd, line, image, key, data) =>
      ⟨name, subnet, group, pool, host, cpus, memory, kernel, initrd, line, image, key,
        data⟩) (fun _ => rfl))
  ((statusBaseFormat.pair (string.pair (string.pair (int.pair (bool.pair string))))).via
    (fun val => (val.toStatusBase, val.ip, val.tap, val.pid, val.ready, val.nodeName))
    (fun (base, ip, tap, pid, ready, node) => ⟨base, ip, tap, pid, ready, node⟩) (fun _ => rfl))

def diskCodec : Codec DiskSpec DiskStatus := .ofFormat
  ((string.pair (int.pair string)).via (fun val => (val.name, val.sizeMb, val.kmsKeyId))
    (fun (name, size, key) => ⟨name, size, key⟩) (fun _ => rfl))
  ((statusBaseFormat.pair (bool.pair (string.pair string))).via
    (fun val => (val.toStatusBase, val.encrypted, val.path, val.nodeName))
    (fun (base, encrypted, path, node) => ⟨base, encrypted, path, node⟩) (fun _ => rfl))

def replicaCodec : Codec AsyncDiskReplicaSpec AsyncDiskReplicaStatus := .ofFormat
  ((string.pair (string.pair int)).via
    (fun val => (val.diskId, val.targetNodePoolId, val.intervalSeconds))
    (fun (disk, pool, interval) => ⟨disk, pool, interval⟩) (fun _ => rfl))
  ((statusBaseFormat.pair (string.pair (string.pair int))).via
    (fun val => (val.toStatusBase, val.nodeName, val.lastSyncedAt, val.bytesSynced))
    (fun (base, node, synced, bytes) => ⟨base, node, synced, bytes⟩) (fun _ => rfl))

def nodeCodec : Codec NodeSpec NodeStatus := .ofFormat
  ((string.pair (string.pair (pairsFormat.pair (int.pair (int.pair int))))).via
    (fun val => (val.hostname, val.address, val.labels, val.capacity.cpus, val.capacity.memoryMb,
      val.capacity.maxPods))
    (fun (host, address, labels, cpus, memory, pods) => ⟨host, address, labels,
      ⟨cpus, memory, pods⟩⟩) (fun _ => rfl))
  ((statusBaseFormat.pair (rat.pair (int.pair (int.pair string)))).via
    (fun val => (val.toStatusBase, val.allocated.cpus, val.allocated.memoryMb, val.allocated.pods,
      val.lastSeen))
    (fun (base, cpus, memory, pods, seen) => ⟨base, ⟨cpus, memory, pods⟩, seen⟩) (fun _ => rfl))

def nodePoolCodec : Codec NodePoolSpec NodePoolStatus := .ofFormat
  ((string.pair (pairsFormat.pair (int.pair int))).via
    (fun val => (val.name, val.nodeSelector, val.minNodes, val.maxNodes))
    (fun (name, selector, least, most) => ⟨name, selector, least, most⟩) (fun _ => rfl))
  ((statusBaseFormat.pair (int.pair int)).via
    (fun val => (val.toStatusBase, val.readyNodes, val.totalNodes))
    (fun (base, ready, total) => ⟨base, ready, total⟩) (fun _ => rfl))

def subnetCodec : Codec SubnetSpec SubnetStatus := .ofFormat
  ((string.pair string).via (fun val => (val.vpcId, val.cidr))
    (fun (vpc, cidr) => ⟨vpc, cidr⟩) (fun _ => rfl))
  ((statusBaseFormat.pair string).via (fun val => (val.toStatusBase, val.gateway))
    (fun (base, gateway) => ⟨base, gateway⟩) (fun _ => rfl))

def securityGroupCodec : Codec SecurityGroupSpec SecurityGroupStatus := .ofFormat
  (string.via (·.name) (fun name => ⟨name⟩) (fun _ => rfl))
  ((statusBaseFormat.pair string).via (fun val => (val.toStatusBase, val.chain))
    (fun (base, chain) => ⟨base, chain⟩) (fun _ => rfl))

def vpcCodec : Codec Manager.VPCSpec Manager.VPCStatus := .ofFormat
  (string.via (·.cidr) (fun cidr => ⟨cidr⟩) (fun _ => rfl))
  ((statusBaseFormat.pair string).via (fun val => (val.toStatusBase, val.bridgeName))
    (fun (base, bridge) => ⟨base, bridge⟩) (fun _ => rfl))

def warmPoolFormat : Format WarmPoolPolicy :=
  (int.pair (int.pair (int.pair bool))).via
    (fun val => (val.minWarm, val.maxWarm, val.idleTTLSeconds, val.allowColdStart))
    (fun (least, most, ttl, cold) => ⟨least, most, ttl, cold⟩) (fun _ => rfl)

def functionCodec : Codec FunctionSpec FunctionStatus := .ofFormat
  ((string.pair (string.pair (string.pair (string.pair (rat.pair (int.pair (int.pair (string.pair
    (string.pair (pairsFormat.pair (int.pair warmPoolFormat))))))))))).via
    (fun val => (val.name, val.subnetId, val.securityGroupId, val.nodePoolId, val.cpu, val.memoryMb,
      val.pidsMax, val.image, val.command, val.env, val.port, val.warmPool))
    (fun (name, subnet, group, pool, cpu, memory, pids, image, cmd, env, port, warm) =>
      ⟨name, subnet, group, pool, cpu, memory, pids, image, cmd, env, port, warm⟩) (fun _ => rfl))
  ((statusBaseFormat.pair int).via (fun val => (val.toStatusBase, val.warmCount))
    (fun (base, count) => ⟨base, count⟩) (fun _ => rfl))

def instanceStateFormat : Format InstanceState :=
  enumFormat [.unset, .warm, .assigned] .unset (by intro val; cases val <;> decide)

def functionInstanceCodec : Codec FunctionInstanceSpec FunctionInstanceStatus := .ofFormat
  ((string.pair string).via (fun val => (val.functionId, val.computeId))
    (fun (fn, cp) => ⟨fn, cp⟩) (fun _ => rfl))
  ((statusBaseFormat.pair (instanceStateFormat.pair (string.pair (int.pair string)))).via
    (fun val => (val.toStatusBase, val.state, val.lastUsedAt, val.port, val.nodeName))
    (fun (base, state, used, port, node) => ⟨base, state, used, port, node⟩) (fun _ => rfl))

end

end Domain

def storeOf (entries : List (String × Bytes)) : Store :=
  entries.foldr (fun entry store => store.insert entry.1 entry.2) ∅

def Registry.entry {S ST : Type} (r : Registry S ST) (res : Resource S ST) : String × Bytes :=
  (r.key res.metadata.uid, (r.codec.marshal (res.stamp r.kind)).toOption.getD [])

namespace Cluster

def noon : String := "2026-01-01T12:00:00Z"

def fiveMinutes : Int := 300 * 10 ^ 9

def fivePast : String := "2026-01-01T12:05:00Z"

def tenPast : String := "2026-01-01T12:10:00Z"

/-- Noon is the origin of time; a node is ready for a minute after its heartbeat. -/
def sampleCluster : Cluster where
  computeCodec := computeCodec
  microVMCodec := microVMCodec
  diskCodec := diskCodec
  replicaCodec := replicaCodec
  nodeCodec := nodeCodec
  poolCodec := nodePoolCodec
  parseTime text :=
    if text = noon then some 0
    else if text = fivePast then some fiveMinutes
    else if text = tenPast then some (2 * fiveMinutes)
    else none
  readyWindow := 60 * 10 ^ 9
  subnetCodec := subnetCodec
  vpcCodec := vpcCodec
  sgCodec := securityGroupCodec
  parseCIDR text := if text = "10.0.0.0/24" then .ok ⟨[10, 0, 0, 0], 24, 32⟩ else
    .error (.new "invalid CIDR address")
  reserves := true

/-- A stable sort is one of the orders that `sort.Slice` may give. -/
def mergeByLastUse : Controllers.Arrangement Controllers.usedEarlier where
  order items := items.mergeSort fun first second =>
    decide (first.status.lastUsedAt ≤ second.status.lastUsedAt)
  perm items := List.mergeSort_perm items _
  sorted items := by
    refine (List.pairwise_mergeSort ?_ ?_ items).imp ?_
    · intro first second third left right
      simp only [decide_eq_true_eq] at left right ⊢
      exact le_trans left right
    · intro first second
      simp only [Bool.or_eq_true, decide_eq_true_eq]
      exact le_total _ _
    · intro first second pre
      exact not_lt.mpr (of_decide_eq_true pre)

def sampleController : Controllers.FunctionController where
  functions := ⟨kindFunction, functionCodec⟩
  instances := ⟨kindFunctionInstance, functionInstanceCodec⟩
  computes := sampleCluster.computes
  subnets := sampleCluster.subnets
  vpcs := sampleCluster.vpcs
  securityGroups := ⟨kindSecurityGroup, securityGroupCodec⟩
  parseTime := sampleCluster.parseTime
  format time := if time < fiveMinutes then noon else if time < 2 * fiveMinutes then
    fivePast else tenPast
  byLastUse := mergeByLastUse

def hostNode (uid : String) : Node where
  metadata := { uid := uid }
  spec := { hostname := uid, address := "192.0.2.1", capacity := ⟨4, 4096, 0⟩ }
  status := { lastSeen := noon }

def sampleSite : List (String × Bytes) :=
  [sampleCluster.nodes.entry (hostNode "node-a"), sampleCluster.nodes.entry (hostNode "node-b"),
    sampleCluster.vpcs.entry
      { metadata := { uid := "vpc-1" }, spec := ⟨"10.0.0.0/24"⟩
        status := { bridgeName := "br-vpc-1" } },
    sampleCluster.subnets.entry
      { metadata := { uid := "subnet-1" }, spec := ⟨"vpc-1", "10.0.0.0/24"⟩
        status := { gateway := "10.0.0.1" } }]

def faultless (pass : Prog (Except Error Unit)) (before : Logged) : Logged :=
  (pass.run (fun op now => loggedAnswer now op) before).2

def wait (duration : Int) (before : Logged) : Logged :=
  before.over { before.shared with clock := before.shared.clock + duration }

def beat (cluster : Cluster) (uid seen : String) (now : Logged) : NodeChange :=
  match cluster.nodes.stored now.shared uid with
  | some node => .heartbeat { node with status := { node.status with lastSeen := seen } }
  | none => .retire uid

theorem faultless_passes {Call : Type} {body : Call → Prog (Except Error Unit)}
    {admits : Call → Logged → Prop} {start pre : Logged} (hit : Passes logged body admits start pre)
    (call : Call)
    (ok : admits call pre) : Passes logged body admits start (faultless (body call) pre) :=
  Passes.answered loggedAnswer_exec hit call ok

theorem wait_drift {duration : Int} (forward : 0 ≤ duration) (pre : Logged) :
    logged.drift pre (wait duration pre) :=
  ⟨⟨rfl, Int.le_add_of_nonneg_right forward⟩, rfl⟩

end Cluster

end Infrastructure
