import Infrastructure.Domain.Compute
import Infrastructure.Domain.Disk
import Infrastructure.Domain.Network
import Infrastructure.Manager.Agent
import Infrastructure.Manager.VPC

/-! The agents of computes and micro-VMs: they gather what an instance depends on, bring it up on
their host and take it down again. Commands name the node they run on and the instance. -/

namespace Infrastructure.Manager

open Concurrency State Domain Net

/-- What becomes of an attempt to gather the dependencies of an instance. -/
inductive Outcome (α : Type) where
  | failed (err : Error)
  | waiting (reason msg : String)
  | ready (val : α)

/-- The registries that instances depend on. With `reserves`, addresses are reserved in the
store. -/
structure Networks where
  subnetCodec : Codec SubnetSpec SubnetStatus
  vpcCodec : Codec VPCSpec VPCStatus
  sgCodec : Codec SecurityGroupSpec SecurityGroupStatus
  parseCIDR : String → Except Error IPNet
  reserves : Bool

structure Attachment where
  vpcId : String
  bridge : String
  cidr : String
  gateway : String
  sgChain : String
  deriving DecidableEq, Repr

namespace Networks

variable (networks : Networks)

def subnets : Registry SubnetSpec SubnetStatus := ⟨kindSubnet, networks.subnetCodec⟩

def vpcs : Registry VPCSpec VPCStatus := ⟨kindVPC, networks.vpcCodec⟩

def sgs : Registry SecurityGroupSpec SecurityGroupStatus := ⟨kindSecurityGroup, networks.sgCodec⟩

def missing (kind uid : String) (err : Error) : Error :=
  if err.is errNotFound then .new (kind ++ " " ++ quoted uid ++ " not found") else err

def chain (sgId : String) : Prog (Outcome String) := do
  if sgId = "" then return .ready ""
  else
    match ← networks.sgs.get sgId with
    | .error err => return .failed (missing "security group" sgId err)
    | .ok sg =>
      if sg.status.chain = "" then return .waiting "WaitingForSG" "security-group chain not ready"
      else return .ready sg.status.chain

/-- The part of `resolve` that computes and micro-VMs share. -/
def attach (subnetId sgId : String) : Prog (Outcome Attachment) := do
  match ← networks.subnets.get subnetId with
  | .error err => return .failed (missing "subnet" subnetId err)
  | .ok subnet =>
    if subnet.status.gateway = "" then return .waiting "WaitingForSubnet" "subnet gateway not ready"
    else
      match ← networks.vpcs.get subnet.spec.vpcId with
      | .error err => return .failed (missing "vpc" subnet.spec.vpcId err)
      | .ok vpc =>
        if vpc.status.bridgeName = "" then return .waiting "WaitingForVPC" "vpc bridge not ready"
        else
          match ← networks.chain sgId with
          | .failed err => return .failed err
          | .waiting reason msg => return .waiting reason msg
          | .ready sgChain =>
            let gateway := subnet.status.gateway
            return .ready ⟨vpc.metadata.uid, vpc.status.bridgeName, subnet.spec.cidr, gateway,
              sgChain⟩

/-- The text of an owner, a byte a character. -/
def ownerText (owner : Bytes) : String :=
  String.ofList (owner.map fun byte => Char.ofNat byte.toNat)

/-- A free address for an instance that has none, or a claim on the one that it has. -/
def address (subnetId uid ip : String) (attachment : Attachment)
    (usedIPs : Prog (Except Error (List String))) :
    Prog (Except Error String) := do
  if ip = "" then
    match ← usedIPs with
    | .error err => return .error err
    | .ok used =>
      if networks.reserves then
        allocate networks.parseCIDR attachment.cidr subnetId uid (attachment.gateway :: used)
      else return allocateIP networks.parseCIDR attachment.cidr (attachment.gateway :: used)
  else if networks.reserves then
    match ← claim subnetId ip uid with
    | .error err => return .error err
    | .ok (true, _) => return .ok ip
    | .ok (false, owner) =>
      return .error (.new ("address " ++ ip ++ " is reserved by " ++ ownerText owner ++
        "; recreate this instance to get another"))
  else return .ok ip

/-- Gives an address back; without reservations there is nothing to give back. -/
def giveBack (subnetId uid ip : String) : Prog (Except Error Unit) :=
  if networks.reserves ∧ ip ≠ "" then release subnetId ip uid else return .ok ()

/-- The VPC of a subnet, empty if it cannot be found. -/
def vpcOf (subnetId : String) : Prog String := do
  match ← networks.subnets.get subnetId with
  | .error _ => return ""
  | .ok subnet => return subnet.spec.vpcId

/-- The chain of a security group, empty if it cannot be found. -/
def sgChain (sgId : String) : Prog String := do
  if sgId = "" then return ""
  else
    match ← networks.sgs.get sgId with
    | .error _ => return ""
    | .ok sg => return sg.status.chain

end Networks

/-- The addresses that the other records of a kind list. -/
def usedIPs {S ST : Type} (registry : Registry S ST) (plural : String) (ip : ST → String)
    (exclude : String) :
    Prog (Except Error (List String)) := do
  match ← registry.list with
  | .error err => return .error (.wrap ("manager: list " ++ plural) err)
  | .ok resources => return .ok ((resources.filter fun other => other.metadata.uid != exclude).map
      (fun other => ip other.status) |>.filter (· != ""))

/-- Records a failed step and returns `result`; the result of the write is ignored. -/
def failedWith {S ST : Type} (registry : Registry S ST) (placement : Placement ST)
    (res : Resource S ST) (reason : String) (err result : Error) : Prog (Except Error Unit) := do
  let res ← placement.setPhase res .error reason err.text
  let _ ← registry.put res
  return .error result

def failed {S ST : Type} (registry : Registry S ST) (placement : Placement ST) (res : Resource S ST)
    (reason : String) (err : Error) : Prog (Except Error Unit) :=
  failedWith registry placement res reason err err

/-- Records that a dependency is missing. -/
def postponed {S ST : Type} (registry : Registry S ST) (placement : Placement ST)
    (res : Resource S ST) (reason msg : String) : Prog (Except Error Unit) := do
  let res ← placement.setPhase res .pending reason msg
  match ← registry.put res with
  | .error err => return .error err
  | .ok _ => return .ok ()

/-- The agent of computes on one node; an empty name takes care of every compute. -/
structure ComputeReconciler extends Networks where
  computeCodec : Codec ComputeSpec ComputeStatus
  diskCodec : Codec DiskSpec DiskStatus
  nodeName : String

namespace ComputeReconciler

structure ComputeMount where
  source : String
  target : String
  readOnly : Bool
  deriving DecidableEq, Repr

structure ComputeRequest where
  uid : String
  spec : ComputeSpec
  attachment : Attachment
  ip : String
  disks : List ComputeMount

variable (r : ComputeReconciler)

def computes : Registry ComputeSpec ComputeStatus := ⟨kindCompute, r.computeCodec⟩

def disks : Registry DiskSpec DiskStatus := ⟨kindDisk, r.diskCodec⟩

def mounts : List ComputeDiskRef → Prog (Outcome (List ComputeMount))
  | [] => return .ready []
  | ref :: refs => do
      match ← r.disks.get ref.diskId with
      | .error err => return .failed (Networks.missing "disk" ref.diskId err)
      | .ok disk =>
        if disk.status.path = "" then return .waiting "WaitingForDisk" "disk not provisioned"
        else
          match ← mounts refs with
          | .failed err => return .failed err
          | .waiting reason msg => return .waiting reason msg
          | .ready rest => return .ready (⟨disk.status.path, ref.mountPath, ref.readOnly⟩ :: rest)

/-- `resolve`, for a compute whose spec has its defaults. -/
def resolve (cp : Compute) : Prog (Outcome ComputeRequest) := do
  match cp.spec.validateRuntimeLimits with
  | .error err => return .failed err
  | .ok () =>
    match ← r.attach cp.spec.subnetId cp.spec.securityGroupId with
    | .failed err => return .failed err
    | .waiting reason msg => return .waiting reason msg
    | .ready attachment =>
      match ← r.mounts cp.spec.disks with
      | .failed err => return .failed err
      | .waiting reason msg => return .waiting reason msg
      | .ready disks =>
        let used := usedIPs r.computes "computes" (·.ip) cp.metadata.uid
        match ← r.address cp.spec.subnetId cp.metadata.uid cp.status.ip attachment used with
        | .error err => return .failed err
        | .ok ip => return .ready ⟨cp.metadata.uid, cp.spec, attachment, ip, disks⟩

def ensureCommand (req : ComputeRequest) : List String :=
  ["EnsureCompute", r.nodeName, req.uid, req.ip, req.attachment.bridge,
    req.attachment.gateway, req.attachment.sgChain] ++
    req.disks.flatMap fun mount => [mount.source, mount.target]

def computeName (lead uid : String) : String :=
  lead ++ Crypto.hexEncode (Crypto.wordBytes (fnv32a (bytesOf uid)))

def ensure (cp : Compute) : Prog (Except Error Unit) := do
  let cp := { cp with
    metadata := cp.metadata.addFinalizer computeFinalizer, spec := cp.spec.withDefaults }
  match ← r.resolve cp with
  | .failed err => failed r.computes computePlacement cp "ResolveError" err
  | .waiting reason msg => postponed r.computes computePlacement cp reason msg
  | .ready req =>
    let cp := { cp with status := { cp.status with ip := req.ip } }
    let cp ← computePlacement.setPhase cp .reconciling "Reconciling" "starting instance"
    match ← Program.perform (Op.host (r.ensureCommand req)) with
    | .error err => failed r.computes computePlacement cp "ComputeError" err
    | .ok rootfs =>
      let cp := { cp with status := { cp.status with
        ip := req.ip
        netns := computeName "ns-" cp.metadata.uid
        vethHost := computeName "vh-" cp.metadata.uid
        rootfs := rootfs
        ready := true
        toStatusBase := cp.status.toStatusBase.markReconciled cp.metadata.generation } }
      let cp ← computePlacement.setPhase cp .ready "Running" "instance ready"
      match ← r.computes.put cp with
      | .error err => return .error (.wrap ("manager: save compute " ++ quoted cp.metadata.uid) err)
      | .ok _ => return .ok ()

def teardown (cp : Compute) : Prog (Except Error Unit) := do
  let vpcId ← r.vpcOf cp.spec.subnetId
  let sgChain ← r.sgChain cp.spec.securityGroupId
  let bridge := if vpcId = "" then "" else bridgeName vpcId
  let cmd := ["DeleteCompute", r.nodeName, cp.metadata.uid, vpcId, cp.status.ip,
    cp.status.rootfs, sgChain, bridge] ++ cp.spec.disks.map fun ref => ref.mountPath
  match ← Program.perform (Op.host cmd) with
  | .error err => return .error err
  | .ok _ => return .ok ()

/-- A compute that waits for its deletion without a node is everyone's. -/
def mine (cp : Compute) : Bool :=
  !(r.nodeName != "" && cp.status.nodeName != r.nodeName &&
    (cp.status.nodeName != "" || !cp.metadata.isDeleting))

def agent : Agent ComputeSpec ComputeStatus where
  registry := r.computes
  placement := computePlacement
  title := "compute"
  plural := "computes"
  finalizer := computeFinalizer
  mine := r.mine
  ensure := r.ensure
  teardown := r.teardown
  failure := "ComputeError"
  release cp := r.giveBack cp.spec.subnetId cp.metadata.uid cp.status.ip
  farewell := "instance removed"

end ComputeReconciler

/-- The agents of the other kinds look after a record on their own node only. -/
def minePlaced {S ST : Type} (placement : Placement ST) (nodeName : String)
    (res : Resource S ST) : Bool :=
  !(nodeName != "" && placement.on res != nodeName)

structure MicroVMRequest where
  uid : String
  spec : MicroVMSpec
  attachment : Attachment
  ip : String

structure MicroVMReconciler extends Networks where
  microVMCodec : Codec MicroVMSpec MicroVMStatus
  nodeName : String

namespace MicroVMReconciler

variable (r : MicroVMReconciler)

def microVMs : Registry MicroVMSpec MicroVMStatus := ⟨kindMicroVM, r.microVMCodec⟩

def resolve (vm : MicroVM) : Prog (Outcome MicroVMRequest) := do
  if maxRuntimeCPU < vm.spec.vcpus ∨ maxRuntimeMemoryMB < vm.spec.memoryMb then
    return .failed (.new "microvm: runtime sizing exceeds admission limits")
  else
    match ← r.attach vm.spec.subnetId vm.spec.securityGroupId with
    | .failed err => return .failed err
    | .waiting reason msg => return .waiting reason msg
    | .ready attachment =>
      let used := usedIPs r.microVMs "microvms" (·.ip) vm.metadata.uid
      match ← r.address vm.spec.subnetId vm.metadata.uid vm.status.ip attachment used with
      | .error err => return .failed err
      | .ok ip => return .ready ⟨vm.metadata.uid, vm.spec, attachment, ip⟩

def ensureCommand (req : MicroVMRequest) : List String :=
  ["EnsureMicroVM", r.nodeName, req.uid, req.ip, req.attachment.bridge,
    req.attachment.gateway, req.attachment.sgChain, req.spec.kernelPath, req.spec.image]

/-- The reply of the command is the process id of the hypervisor. -/
def ensure (vm : MicroVM) : Prog (Except Error Unit) := do
  let vm := { vm with metadata := vm.metadata.addFinalizer microVMFinalizer }
  match ← r.resolve vm with
  | .failed err => failed r.microVMs microVMPlacement vm "ResolveError" err
  | .waiting reason msg => postponed r.microVMs microVMPlacement vm reason msg
  | .ready req =>
    let vm := { vm with status := { vm.status with ip := req.ip } }
    let vm ← microVMPlacement.setPhase vm .reconciling "Reconciling" "starting micro-VM"
    match ← Program.perform (Op.host (r.ensureCommand req)) with
    | .error err => failed r.microVMs microVMPlacement vm "MicroVMError" err
    | .ok pid =>
      let vm := { vm with status := { vm.status with
        ip := req.ip
        tap := ifaceName "tap-" vm.metadata.uid
        pid := (Text.atoi pid.toList).getD 0
        ready := true
        toStatusBase := vm.status.toStatusBase.markReconciled vm.metadata.generation } }
      let vm ← microVMPlacement.setPhase vm .ready "Running" "micro-VM ready"
      match ← r.microVMs.put vm with
      | .error err => return .error (.wrap ("manager: save microvm " ++ quoted vm.metadata.uid) err)
      | .ok _ => return .ok ()

def teardown (vm : MicroVM) : Prog (Except Error Unit) := do
  let sgChain ← r.sgChain vm.spec.securityGroupId
  match ← Program.perform (Op.host
      ["DeleteMicroVM", r.nodeName, vm.metadata.uid, vm.status.tap, vm.status.ip, sgChain]) with
  | .error err => return .error err
  | .ok _ => return .ok ()

def agent : Agent MicroVMSpec MicroVMStatus where
  registry := r.microVMs
  placement := microVMPlacement
  title := "microvm"
  plural := "microvms"
  finalizer := microVMFinalizer
  mine := minePlaced microVMPlacement r.nodeName
  ensure := r.ensure
  teardown := r.teardown
  failure := "MicroVMError"
  release vm := r.giveBack vm.spec.subnetId vm.metadata.uid vm.status.ip
  farewell := "micro-VM removed"

end MicroVMReconciler

section

variable (networks : Networks) {acts : List String → Prop}

theorem permitted {α : Type} {prog : Prog α} {post : α → Prop}
    (uses : prog.Uses Op.Looking post) : prog.Uses (Permitted acts) post :=
  uses.mono (fun _ => permitted_of_looks) fun _ => id

theorem chain_looks (sgId : String) : (networks.chain sgId).Uses Op.Looking fun _ => True := by
  rw [Networks.chain]
  split
  · trivial
  · refine (networks.sgs.get_looks sgId).tries (fun _ => trivial) ?_
    intro sg
    dsimp only
    split <;> trivial

theorem attach_looks (subnetId sgId : String) :
    (networks.attach subnetId sgId).Uses Op.Looking fun _ => True := by
  refine (networks.subnets.get_looks subnetId).tries (fun _ => trivial) ?_
  intro subnet
  dsimp only
  split
  · trivial
  · refine (networks.vpcs.get_looks subnet.spec.vpcId).tries (fun _ => trivial) ?_
    intro vpc
    dsimp only
    split
    · trivial
    · apply (chain_looks networks sgId).bind
      intro outcome _
      cases outcome <;> trivial

theorem usedIPs_looks {S ST : Type} (registry : Registry S ST) (plural : String) (ip : ST → String)
    (exclude : String) :
    (usedIPs registry plural ip exclude).Uses Op.Looking fun _ => True := by
  apply registry.list_looks.bind
  intro reply _
  cases reply <;> trivial

theorem address_permitted (subnetId uid ip : String) (attachment : Attachment)
    {used : Prog (Except Error (List String))} (looks : used.Uses Op.Looking fun _ => True) :
    (networks.address subnetId uid ip attachment used).Uses (Permitted acts) fun _ => True := by
  rw [Networks.address]
  split
  · refine (permitted looks).tries (fun _ => trivial) ?_
    intro used
    dsimp only
    split
    · exact allocate_uses (fun _ => trivial) _ _ (fun ip => ⟨subnetId, ip, rfl⟩) _
    · trivial
  · split
    · apply (claim_uses (fun _ => trivial) ⟨subnetId, ip, rfl⟩).bind
      intro reply _
      match reply with
      | .error err => trivial
      | .ok (true, _) => trivial
      | .ok (false, _) => trivial
    · trivial

theorem giveBack_permitted (subnetId uid ip : String) :
    (networks.giveBack subnetId uid ip).Uses (Permitted acts) fun _ => True := by
  rw [Networks.giveBack]
  split
  · exact releaseOf_uses (fun _ => trivial) ⟨subnetId, ip, rfl⟩ _
  · trivial

theorem vpcOf_looks (subnetId : String) :
    (networks.vpcOf subnetId).Uses Op.Looking fun _ => True := by
  apply (networks.subnets.get_looks subnetId).bind
  intro reply _
  cases reply <;> trivial

theorem sgChain_looks (sgId : String) : (networks.sgChain sgId).Uses Op.Looking fun _ => True := by
  rw [Networks.sgChain]
  split
  · trivial
  · apply (networks.sgs.get_looks sgId).bind
    intro reply _
    cases reply <;> trivial

end

section

variable {S ST : Type} {registry : Registry S ST} {placement : Placement ST} {finalizer : String}
variable {withDefaults : S → S} {acts : Resource S ST → List String → Prop}
    {copy edited : Resource S ST}

theorem failedWith_tends (why : String) (err out : Error)
    (upkeep : Upkeep placement finalizer withDefaults copy edited) :
    Tends registry (Upkeep placement finalizer withDefaults) acts copy
      (failedWith registry placement edited why err out) := by
  apply Tends.after (permitted (placement.setPhase_looks _ _ _ _))
  rintro _ ⟨base, rfl⟩
  exact .save upkeep.uid (upkeep.setBase base) (fun _ => ⟨_, rfl⟩) fun _ => .done _ _

theorem failed_tends (why : String) (err : Error)
    (upkeep : Upkeep placement finalizer withDefaults copy edited) :
    Tends registry (Upkeep placement finalizer withDefaults) acts copy
      (failed registry placement edited why err) :=
  failedWith_tends why err err upkeep

theorem postponed_tends (why msg : String)
    (upkeep : Upkeep placement finalizer withDefaults copy edited) :
    Tends registry (Upkeep placement finalizer withDefaults) acts copy
      (postponed registry placement edited why msg) := by
  apply Tends.after (permitted (placement.setPhase_looks _ _ _ _))
  rintro _ ⟨base, rfl⟩
  exact .save upkeep.uid (upkeep.setBase base) (fun _ => ⟨_, rfl⟩) fun _ => .done _ _

theorem Upkeep.adopted (placement : Placement ST) (finalizer : String) (withDefaults : S → S)
    (copy : Resource S ST) {spec : S} (tidy : spec = copy.spec ∨ spec = withDefaults copy.spec) :
    Upkeep placement finalizer withDefaults copy
      { copy with metadata := copy.metadata.addFinalizer finalizer, spec := spec } := by
  have metadata : (copy.metadata.addFinalizer finalizer).uid = copy.metadata.uid ∧
      (copy.metadata.addFinalizer finalizer).deletionTimestamp = copy.metadata.deletionTimestamp ∧
      ∀ name ∈ (copy.metadata.addFinalizer finalizer).finalizers, name ∈ copy.metadata.finalizers ∨
        name = finalizer := by
    rw [ObjectMeta.addFinalizer]
    split
    · exact ⟨rfl, rfl, fun _ seen => .inl seen⟩
    · refine ⟨rfl, rfl, ?_⟩
      intro name seen
      simpa using seen
  exact ⟨metadata.1, metadata.2.1, rfl, metadata.2.2, tidy⟩

theorem Upkeep.status (upkeep : Upkeep placement finalizer withDefaults copy edited) {status : ST}
    (eq : placement.nodeName status = placement.nodeName edited.status) :
    Upkeep placement finalizer withDefaults copy { edited with status := status } :=
  ⟨upkeep.uid, upkeep.mark, eq.trans upkeep.node, upkeep.finalizers, upkeep.spec⟩

end

namespace ComputeReconciler

variable (r : ComputeReconciler)

inductive Acts (cp : Compute) : List String → Prop
  | ensure (mine : r.mine cp = true) (live : cp.metadata.isDeleting = false) (rest : List String) :
      Acts cp ("EnsureCompute" :: r.nodeName :: cp.metadata.uid :: rest)
  | delete (rest : List String) :
      Acts cp ("DeleteCompute" :: r.nodeName :: cp.metadata.uid :: rest)

variable {r} {acts : List String → Prop}

theorem mounts_looks (refs : List ComputeDiskRef) :
    (r.mounts refs).Uses Op.Looking fun _ => True := by
  induction refs with
  | nil => trivial
  | cons ref refs ih =>
    refine (r.disks.get_looks ref.diskId).tries (fun _ => trivial) ?_
    intro disk
    dsimp only
    split
    · trivial
    · apply ih.bind
      intro outcome _
      cases outcome <;> trivial

theorem resolve_permitted (cp : Compute) : (r.resolve cp).Uses (Permitted acts) fun outcome =>
    ∀ req, outcome = .ready req → req.uid = cp.metadata.uid := by
  rw [resolve]
  split
  · nofun
  · apply (permitted (attach_looks r.toNetworks _ _)).bind
    intro outcome _
    cases outcome with
    | failed err => nofun
    | waiting reason msg => nofun
    | ready attachment =>
      apply (permitted (mounts_looks cp.spec.disks)).bind
      intro outcome _
      cases outcome with
      | failed err => nofun
      | waiting reason msg => nofun
      | ready disks =>
        refine (address_permitted r.toNetworks _ _ _ _ (usedIPs_looks _ _ _ _)).tries
          (fun _ => nofun) ?_
        intro ip req eq
        cases eq
        rfl

theorem ensure_tends (cp : Compute) (mine : r.mine cp = true)
    (live : cp.metadata.isDeleting = false) :
    Tends r.computes (Upkeep computePlacement computeFinalizer ComputeSpec.withDefaults) r.Acts cp
      (r.ensure cp) := by
  have adopted :=
    Upkeep.adopted computePlacement computeFinalizer ComputeSpec.withDefaults cp (.inr rfl)
  apply Tends.after (resolve_permitted _)
  intro outcome named
  cases outcome with
  | failed err => exact failed_tends _ _ adopted
  | waiting reason msg => exact postponed_tends _ _ adopted
  | ready req =>
    have own : r.Acts cp (r.ensureCommand req) := by
      rw [ensureCommand, (named req rfl).trans adopted.uid]
      exact .ensure mine live _
    apply Tends.after (permitted (computePlacement.setPhase_looks _ _ _ _))
    rintro _ ⟨base, rfl⟩
    refine .act own ?_
    intro reply
    cases reply with
    | error err => exact failed_tends _ _ (adopted.status rfl)
    | ok rootfs =>
      apply Tends.after (permitted (computePlacement.setPhase_looks _ _ _ _))
      rintro _ ⟨final, rfl⟩
      exact .save adopted.uid (adopted.status rfl) (fun _ => ⟨_, rfl⟩) fun _ => .done _ _

theorem teardown_permitted (cp : Compute) :
    (r.teardown cp).Uses (Permitted (r.Acts cp)) fun _ => True := by
  apply (permitted (vpcOf_looks r.toNetworks _)).bind
  intro vpcId _
  apply (permitted (sgChain_looks r.toNetworks _)).bind
  intro sgChain _
  refine .perform (.delete _) ?_
  intro reply
  cases reply <;> trivial

theorem agent_finalize_tends (cp : Compute) :
    Tends r.computes (Upkeep computePlacement computeFinalizer ComputeSpec.withDefaults) r.Acts cp
      (r.agent.finalize cp) :=
  finalize_tends r.agent teardown_permitted (fun _ => giveBack_permitted r.toNetworks _ _ _) cp

end ComputeReconciler

end Infrastructure.Manager
