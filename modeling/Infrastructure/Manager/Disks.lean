import Infrastructure.Manager.Instances

/-! The agents of disks and of the copies that other nodes keep of them. -/

namespace Infrastructure.Manager

open Concurrency State Domain Program

/-- `crypto.DeriveKey`, over the HKDF of the standard library. -/
def deriveKey (hkdf : Bytes → String → Nat → Except Error Bytes) (master : Bytes) (info : String)
    (length : Nat) :
    Except Error Bytes :=
  if master = [] then .error (.new "crypto: empty master key")
  else
    match hkdf master info length with
    | .error err => .error (.wrap "crypto: derive key" err)
    | .ok key => .ok key

structure DiskReconciler where
  diskCodec : Codec DiskSpec DiskStatus
  hkdf : Bytes → String → Nat → Except Error Bytes
  master : Bytes
  nodeName : String

namespace DiskReconciler

variable (r : DiskReconciler)

def disks : Registry DiskSpec DiskStatus := ⟨kindDisk, r.diskCodec⟩

def passphrase (disk : Disk) : Except (String × Error) Bytes :=
  if disk.spec.kmsKeyId = "" then .ok []
  else if r.master = [] then
    .error ("NoKMSKey", .new "disk encryption requested but no KMS master key configured")
  else
    match deriveKey r.hkdf r.master
        ("disk:" ++ disk.spec.kmsKeyId ++ ":" ++ disk.metadata.uid) 32 with
    | .error err => .error ("KeyError", err)
    | .ok key => .ok key

def ensureCommand (disk : Disk) (passphrase : Bytes) : List String :=
  ["EnsureDisk", r.nodeName, disk.metadata.uid, toString disk.spec.sizeMb,
    Crypto.hexEncode passphrase]

/-- The reply of the command is the path of the disk. -/
def ensure (disk : Disk) : Prog (Except Error Unit) := do
  if maxDiskSizeMB < disk.spec.sizeMb then return .error (.new "disk: size exceeds admission limit")
  else
    let disk := { disk with metadata := disk.metadata.addFinalizer diskFinalizer }
    match r.passphrase disk with
    | .error (reason, err) => failed r.disks diskPlacement disk reason err
    | .ok passphrase =>
      let disk ← diskPlacement.setPhase disk .reconciling "Reconciling" "provisioning disk"
      match ← perform (Op.host (r.ensureCommand disk passphrase)) with
      | .error err => failed r.disks diskPlacement disk "DiskError" err
      | .ok path =>
        let disk := { disk with status := { disk.status with
          encrypted := !passphrase.isEmpty
          path := path
          toStatusBase := disk.status.toStatusBase.markReconciled disk.metadata.generation } }
        let disk ← diskPlacement.setPhase disk .ready "Provisioned" "disk ready"
        match ← r.disks.put disk with
        | .error err =>
          return .error (.wrap ("manager: save disk " ++ quoted disk.metadata.uid) err)
        | .ok _ => return .ok ()

def teardown (disk : Disk) : Prog (Except Error Unit) := do
  match ← perform (Op.host ["DeleteDisk", r.nodeName, disk.metadata.uid]) with
  | .error err => return .error err
  | .ok _ => return .ok ()

def agent : Agent DiskSpec DiskStatus where
  registry := r.disks
  placement := diskPlacement
  title := "disk"
  plural := "disks"
  finalizer := diskFinalizer
  mine := minePlaced diskPlacement r.nodeName
  ensure := r.ensure
  teardown := r.teardown
  failure := "DiskError"
  release _ := return .ok ()
  farewell := "disk removed"

end DiskReconciler

/-- `net.JoinHostPort`. -/
def joinHostPort (host port : String) : String :=
  if host.toList.contains ':' then "[" ++ host ++ "]:" ++ port else host ++ ":" ++ port

/-- `parseTime` and `formatTime` are those of the RFC 3339 layout, in nanoseconds. -/
structure AsyncDiskReplicaReconciler where
  replicaCodec : Codec AsyncDiskReplicaSpec AsyncDiskReplicaStatus
  diskCodec : Codec DiskSpec DiskStatus
  nodeCodec : Codec NodeSpec NodeStatus
  parseTime : String → Option Int
  formatTime : Int → String
  dir : String
  replicationPort : String
  nodeName : String

namespace AsyncDiskReplicaReconciler

variable (r : AsyncDiskReplicaReconciler)

def replicas : Registry AsyncDiskReplicaSpec AsyncDiskReplicaStatus :=
  ⟨kindAsyncDiskReplica, r.replicaCodec⟩

def disks : Registry DiskSpec DiskStatus := ⟨kindDisk, r.diskCodec⟩

def nodes : Registry NodeSpec NodeStatus := ⟨kindNode, r.nodeCodec⟩

def localPath (uid : String) : String :=
  .ofList (Text.joinText [r.dir.toList, (uid ++ ".img").toList])

def dueToSync (replica : AsyncDiskReplica) : Prog Bool := do
  if replica.status.lastSyncedAt = "" then return true
  else
    match r.parseTime replica.status.lastSyncedAt with
    | none => return true
    | some last =>
      let now ← perform Op.now
      return decide (replica.spec.intervalOrDefault * 10 ^ 9 ≤ now - last)

/-- The copy is made and measured; the reply is its size. -/
def pull (replica : AsyncDiskReplica) (address diskId : String) : Prog (Except Error String) := do
  let dest := r.localPath replica.metadata.uid
  match ← perform (Op.host
      ["PullDisk", r.nodeName, replica.metadata.uid, address, diskId, dest]) with
  | .error err => return .error err
  | .ok _ => perform (Op.host ["Stat", r.nodeName, dest])

def sync (replica : AsyncDiskReplica) (disk : Disk) : Prog (Except Error Unit) := do
  match ← r.nodes.get disk.status.nodeName with
  | .error err => failed r.replicas asyncDiskReplicaPlacement replica "PrimaryNodeMissing" err
  | .ok node =>
    let address := joinHostPort node.spec.address r.replicationPort
    match ← perform (Op.host ["MkdirAll", r.nodeName, r.dir]) with
    | .error err =>
      failedWith r.replicas asyncDiskReplicaPlacement replica "SyncError" err
        (.wrap "manager: replica dir" err)
    | .ok _ =>
      match ← r.pull replica address disk.metadata.uid with
      | .error err => failed r.replicas asyncDiskReplicaPlacement replica "SyncError" err
      | .ok size =>
        let now ← perform Op.now
        let replica := { replica with status := { replica.status with
          lastSyncedAt := r.formatTime now
          bytesSynced := (Text.atoi size.toList).getD 0
          toStatusBase := replica.status.toStatusBase.markReconciled replica.metadata.generation } }
        let replica ← asyncDiskReplicaPlacement.setPhase replica .ready "Synced"
          "replica up to date"
        match ← r.replicas.put replica with
        | .error err => return .error err
        | .ok _ => return .ok ()

def ensure (replica : AsyncDiskReplica) : Prog (Except Error Unit) := do
  let replica :=
    { replica with metadata := replica.metadata.addFinalizer asyncDiskReplicaFinalizer }
  let waiting (msg : String) : Prog (Except Error Unit) :=
    postponed r.replicas asyncDiskReplicaPlacement replica "WaitingForDisk" msg
  match ← r.disks.get replica.spec.diskId with
  | .error err =>
    if err.is errNotFound then waiting ("disk " ++ replica.spec.diskId ++ " does not exist")
    else return .error (.wrap ("manager: load disk " ++ quoted replica.spec.diskId) err)
  | .ok disk =>
    if disk.status.nodeName = "" then waiting "disk has no primary node yet"
    else
      let due ← r.dueToSync replica
      if due then r.sync replica disk else return .ok ()

def teardown (replica : AsyncDiskReplica) : Prog (Except Error Unit) := do
  match ← perform (Op.host
      ["RemoveReplica", r.nodeName, replica.metadata.uid, r.localPath replica.metadata.uid]) with
  | .error err => return .error err
  | .ok _ => return .ok ()

def agent : Agent AsyncDiskReplicaSpec AsyncDiskReplicaStatus where
  registry := r.replicas
  placement := asyncDiskReplicaPlacement
  title := "async disk replica"
  plural := "async disk replicas"
  finalizer := asyncDiskReplicaFinalizer
  mine := minePlaced asyncDiskReplicaPlacement r.nodeName
  ensure := r.ensure
  teardown := r.teardown
  failure := "DeleteError"
  release _ := return .ok ()
  farewell := "replica removed"

end AsyncDiskReplicaReconciler

/-- A command that names the node it runs on and the record it is for. -/
def Names (nodeName uid : String) (cmd : List String) : Prop :=
  ∃ name rest, cmd = name :: nodeName :: uid :: rest

section

variable {S ST : Type} (agent : Agent S ST) {acts : String → List String → Prop} {uid : String}
    {res : Resource S ST}
variable (same : res.metadata.uid = uid) (reason : String)

include same

theorem failedWith_for (err out : Error) :
    (failedWith agent.registry agent.placement res reason err out).Uses
    (agent.For acts uid) fun _ => True :=
  saved_for agent same (fun _ _ => trivial) fun _ _ _ => trivial

theorem postponed_for (msg : String) :
    (postponed agent.registry agent.placement res reason msg).Uses
    (agent.For acts uid) fun _ => True :=
  saved_for agent same (fun _ _ => trivial) fun _ _ _ => trivial

end

theorem addFinalizer_uid (metadata : ObjectMeta) (name : String) :
    (metadata.addFinalizer name).uid = metadata.uid := by
  rw [ObjectMeta.addFinalizer]
  split <;> rfl

theorem ComputeReconciler.dutiful (c : ComputeReconciler) : c.agent.Dutiful (Names c.nodeName) where
  ensures cp mine live := by
    refine Tends.acts_for ?_ (ensure_tends cp mine live)
    rintro copy _ (⟨_, _, rest⟩ | ⟨rest⟩)
    · exact ⟨"EnsureCompute", rest, rfl⟩
    · exact ⟨"DeleteCompute", rest, rfl⟩
  tearsDown cp := by
    refine (teardown_permitted cp).mono ?_ fun _ => id
    intro op permitted
    cases op with
    | host cmd =>
      obtain ⟨_, _, rest⟩ | ⟨rest⟩ := permitted
      · exact ⟨"EnsureCompute", rest, rfl⟩
      · exact ⟨"DeleteCompute", rest, rfl⟩
    | _ => exact permitted
  releases _ := giveBack_permitted c.toNetworks _ _ _

theorem MicroVMReconciler.resolve_permitted {m : MicroVMReconciler} {acts : List String → Prop}
    (vm : MicroVM) :
    (m.resolve vm).Uses (Permitted acts) fun outcome =>
    ∀ req, outcome = .ready req → req.uid = vm.metadata.uid := by
  rw [resolve]
  split
  · nofun
  · apply (permitted (attach_looks m.toNetworks _ _)).bind
    intro outcome _
    cases outcome with
    | failed err => nofun
    | waiting reason msg => nofun
    | ready attachment =>
      refine (address_permitted m.toNetworks _ _ _ _ (usedIPs_looks _ _ _ _)).tries
        (fun _ => nofun) ?_
      rintro ip _ ⟨⟩
      rfl

theorem MicroVMReconciler.dutiful (m : MicroVMReconciler) : m.agent.Dutiful (Names m.nodeName) where
  ensures vm _ _ := by
    have same := addFinalizer_uid vm.metadata microVMFinalizer
    apply (for_of_permitted (resolve_permitted _)).bind
    intro outcome named
    cases outcome with
    | failed err => exact failedWith_for m.agent same _ _ _
    | waiting reason msg => exact postponed_for m.agent same _ _
    | ready req =>
      apply (for_of_looks (microVMPlacement.setPhase_looks _ _ _ _)).bind
      rintro _ ⟨base, rfl⟩
      have own : Names m.nodeName vm.metadata.uid (m.ensureCommand req) := by
        rw [ensureCommand, (named req rfl).trans same]
        exact ⟨_, _, rfl⟩
      refine .perform own ?_
      intro reply
      cases reply with
      | error err => exact failedWith_for m.agent same _ _ _
      | ok pid =>
        dsimp only
        apply saved_for m.agent
        · exact same
        · exact fun _ _ => trivial
        · exact fun _ _ _ => trivial
  tearsDown vm := by
    apply (permitted (sgChain_looks m.toNetworks _)).bind
    intro sgChain _
    exact .perform ⟨_, _, rfl⟩ fun reply => by cases reply <;> trivial
  releases _ := giveBack_permitted m.toNetworks _ _ _

theorem DiskReconciler.dutiful (d : DiskReconciler) : d.agent.Dutiful (Names d.nodeName) where
  ensures disk _ _ := by
    have same := addFinalizer_uid disk.metadata diskFinalizer
    change (d.ensure disk).Uses _ _
    rw [ensure]
    split
    · trivial
    · dsimp only
      split
      · exact failedWith_for d.agent same _ _ _
      · apply (for_of_looks (diskPlacement.setPhase_looks _ _ _ _)).bind
        rintro _ ⟨base, rfl⟩
        refine .perform ⟨"EnsureDisk", [_, _], congrArg (fun uid => [_, _, uid, _, _]) same⟩ ?_
        intro reply
        cases reply with
        | error err => exact failedWith_for d.agent same _ _ _
        | ok path =>
          dsimp only
          apply saved_for d.agent
          · exact same
          · exact fun _ _ => trivial
          · exact fun _ _ _ => trivial
  tearsDown disk := .perform ⟨_, _, rfl⟩ fun reply => by cases reply <;> trivial
  releases _ := trivial

/-- The commands of the agent of replicas: it also makes its directory and measures the copy. -/
def AsyncDiskReplicaReconciler.Acts (r : AsyncDiskReplicaReconciler) (uid : String)
    (cmd : List String) : Prop :=
  Names r.nodeName uid cmd ∨ cmd = ["MkdirAll", r.nodeName, r.dir] ∨
    cmd = ["Stat", r.nodeName, r.localPath uid]

theorem AsyncDiskReplicaReconciler.sync_for (r : AsyncDiskReplicaReconciler) {uid : String}
    {replica : AsyncDiskReplica} (same : replica.metadata.uid = uid) (disk : Disk) :
    (r.sync replica disk).Uses (r.agent.For r.Acts uid) fun _ => True := by
  refine (for_of_looks (Registry.get_looks _ _)).tries
    (fun _ => failedWith_for r.agent same _ _ _) ?_
  intro node
  refine .perform (.inr (.inl rfl)) ?_
  intro reply
  cases reply with
  | error err => exact failedWith_for r.agent same _ _ _
  | ok made =>
    have pulls :
        (r.pull replica (joinHostPort node.spec.address r.replicationPort) disk.metadata.uid).Uses
        (r.agent.For r.Acts uid) fun _ => True := by
      subst same
      refine .perform (.inl ⟨"PullDisk", _, rfl⟩) ?_
      intro reply
      cases reply with
      | error err => trivial
      | ok done => exact .perform (.inr (.inr rfl)) fun _ => trivial
    refine pulls.tries (fun _ => failedWith_for r.agent same _ _ _) ?_
    intro size
    refine .perform trivial fun now => ?_
    dsimp only
    apply saved_for r.agent
    · exact same
    · exact fun _ _ => trivial
    · exact fun _ _ _ => trivial

theorem AsyncDiskReplicaReconciler.dutiful (r : AsyncDiskReplicaReconciler) :
    r.agent.Dutiful r.Acts where
  ensures replica _ _ := by
    have same := addFinalizer_uid replica.metadata asyncDiskReplicaFinalizer
    refine (for_of_looks (Registry.get_looks _ _)).tries ?_ ?_
    · intro err
      dsimp only
      split
      · exact postponed_for r.agent same _ _
      · trivial
    · intro disk
      dsimp only
      split
      · exact postponed_for r.agent same _ _
      · have due (replica : AsyncDiskReplica) : (r.dueToSync replica).Uses Op.Looking fun _ =>
            True := by
          rw [dueToSync]
          split
          · trivial
          · split
            · trivial
            · exact .perform rfl fun _ => trivial
        apply (for_of_looks (due _)).bind
        intro now _
        split
        · exact sync_for r same disk
        · trivial
  tearsDown replica := .perform (.inl ⟨_, _, rfl⟩) fun reply => by cases reply <;> trivial
  releases _ := trivial

/-- In a pass no agent runs a command or changes the store but for a record that it has read and
found placed on its node, and since it read that record it has done so for no other. -/
theorem agents_await (c : ComputeReconciler) (m : MicroVMReconciler) (d : DiskReconciler)
    (r : AsyncDiskReplicaReconciler) :
    c.agent.reconcileAll.Always (c.agent.Awaits (Names c.nodeName)) (fun _ _ => True) [] ∧
    m.agent.reconcileAll.Always (m.agent.Awaits (Names m.nodeName)) (fun _ _ => True) [] ∧
    d.agent.reconcileAll.Always (d.agent.Awaits (Names d.nodeName)) (fun _ _ => True) [] ∧
    r.agent.reconcileAll.Always (r.agent.Awaits r.Acts) (fun _ _ => True) [] :=
  ⟨reconcileAll_awaits c.dutiful [], reconcileAll_awaits m.dutiful [],
    reconcileAll_awaits d.dutiful [], reconcileAll_awaits r.dutiful []⟩

end Infrastructure.Manager
