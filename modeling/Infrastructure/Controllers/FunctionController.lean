import Mathlib.Data.String.Basic
import Infrastructure.FunctionService
import Infrastructure.Domain.Network
import Infrastructure.Manager.VPC

/-! The controller that keeps the warm pools of functions: it creates and retires the instances of a
pool with the computes behind them, and takes both down with their function. -/

namespace Infrastructure.Controllers

open Concurrency State Domain Manager
open FunctionService (Functions Instances)
open FunctionService.Service (setInstancePhase newUID failure joined)

def errFunctionBusy : Error := .new "function instance is assigned"

/-- `time.Duration(seconds) * time.Second`, a product of 64-bit numbers. -/
def durationOfSeconds (seconds : Int) : Int := (Int64.ofInt seconds * Int64.ofInt 1000000000).toInt

/-- `Time.Sub`, which stops at the shortest and at the longest duration. -/
def timeSub (time since : Int) : Int := max (-(2 ^ 63)) (min (2 ^ 63 - 1) (time - since))

/-- `sort.Slice`: no element is less than one before it. The sort is not stable. -/
structure Arrangement {α : Type} (less : α → α → Prop) where
  order : List α → List α
  perm : ∀ items, (order items).Perm items
  sorted : ∀ items, (order items).Pairwise fun pre later => ¬less later pre

def usedEarlier (first second : FunctionInstance) : Prop :=
  first.status.lastUsedAt < second.status.lastUsedAt

/-- `parseTime` and `format` are RFC 3339. -/
structure FunctionController where
  functions : Functions
  instances : Instances
  computes : FunctionPool.Computes
  subnets : Registry SubnetSpec SubnetStatus
  vpcs : Registry VPCSpec VPCStatus
  securityGroups : Registry SecurityGroupSpec SecurityGroupStatus
  parseTime : String → Option Int
  format : Int → String
  byLastUse : Arrangement usedEarlier

abbrev KnownComputes := String → Option Compute

/-- What `functionDeps.ready` reports, apart from its error. -/
structure Readiness where
  ok : Bool
  reason : String
  message : String

namespace FunctionController

variable (c : FunctionController)

def securityGroupReady (securityGroupId : String) : Prog (Except Error Readiness) := do
  if securityGroupId = "" then return .ok ⟨true, "Ready", "function dependencies resolved"⟩
  else
    match ← c.securityGroups.get securityGroupId with
    | .error err =>
      if err.is errNotFound then
        return .ok ⟨false, "SecurityGroupMissing",
          "security group " ++ quoted securityGroupId ++ " not found"⟩
      else return .error err
    | .ok group =>
      if group.status.chain = "" then
        return .ok ⟨false, "WaitingForSG", "security-group chain not ready"⟩
      else return .ok ⟨true, "Ready", "function dependencies resolved"⟩

/-- `functionDeps.ready`. -/
def ready (spec : FunctionSpec) : Prog (Except Error Readiness) := do
  match ← c.subnets.get spec.subnetId with
  | .error err =>
    if err.is errNotFound then
      return .ok ⟨false, "SubnetMissing", "subnet " ++ quoted spec.subnetId ++ " not found"⟩
    else return .error err
  | .ok subnet =>
    if subnet.status.gateway = "" then
      return .ok ⟨false, "WaitingForSubnet", "subnet gateway not ready"⟩
    else
      match ← c.vpcs.get subnet.spec.vpcId with
      | .error err =>
        if err.is errNotFound then
          return .ok ⟨false, "VPCMissing", "vpc " ++ quoted subnet.spec.vpcId ++ " not found"⟩
        else return .error err
      | .ok vpc =>
        if vpc.status.bridgeName = "" then
          return .ok ⟨false, "WaitingForVPC", "vpc bridge not ready"⟩
        else c.securityGroupReady spec.securityGroupId

/-- The change that marks an instance, refused while an invocation has it. -/
def markIdle (now : Int) (cur : FunctionInstance) : Prog (Except Error FunctionInstance) :=
  if cur.status.state = .assigned then return .error errFunctionBusy
  else return .ok { cur with metadata := { cur.metadata with deletionTimestamp := some now } }

/-- Marks the compute of an instance that is itself marked or about to be. -/
def markCompute (inst : FunctionInstance) (now : Int) : Prog (Except Error Unit) := do
  match ← c.computes.get inst.spec.computeId with
  | .error err =>
    if err.is errNotFound then return .ok ()
    else return .error (.wrap ("controllers: load compute " ++ inst.spec.computeId) err)
  | .ok cp =>
    if cp.metadata.isDeleting then return .ok ()
    else
      let marked := { cp with metadata := { cp.metadata with deletionTimestamp := some now } }
      match ← c.computes.put marked with
      | .error err =>
        return .error
          (.wrap ("controllers: mark compute " ++ inst.spec.computeId ++ " deleting") err)
      | .ok _ => return .ok ()

/-- The part of `deleteInstance` that follows the mark on the instance. -/
def retire (inst : FunctionInstance) (now : Int) : Prog (Except Error Unit) := do
  match ← c.markCompute inst now with
  | .error err => return .error err
  | .ok () =>
    if inst.metadata.isDeleting then return .ok ()
    else
      match ← c.instances.put
          { inst with metadata := { inst.metadata with deletionTimestamp := some now } } with
      | .error err => return .error err
      | .ok _ => return .ok ()

def deleteInstance (inst : FunctionInstance) : Prog (Except Error Unit) := do
  let now ← Program.perform Op.now
  if inst.metadata.isDeleting then c.retire inst now
  else
    match ← c.instances.tryUpdate inst.metadata.uid (markIdle now) with
    | .error err => if err.is errFunctionBusy then return .ok () else return .error err
    | .ok false => return .error errConflict
    | .ok true =>
      match ← c.instances.get inst.metadata.uid with
      | .error err => return .error err
      | .ok cur => c.retire cur now

def deleteEach : List FunctionInstance → Prog (Except Error Unit)
  | [] => return .ok ()
  | inst :: rest => do
      match ← c.deleteInstance inst with
      | .error err => return .error err
      | .ok () => deleteEach rest

/-- Whether an instance past the floor of the pool has been idle for too long. -/
def expired (policy : WarmPoolPolicy) (now : Int) (inst : FunctionInstance) : Bool :=
  match c.parseTime inst.status.lastUsedAt with
  | none => true
  | some idleSince => decide (durationOfSeconds policy.idleTTLSeconds ≤ timeSub now idleSince)

/-- The scan of what the cap leaves, oldest first; `index` is the position of the next instance. -/
def evictExpired (policy : WarmPoolPolicy) (now floorStart : Int) :
    Nat → List FunctionInstance → Prog (Except Error (List FunctionInstance))
  | _, [] => return .ok []
  | i, inst :: rest => do
      if floorStart ≤ i ∨ c.expired policy now inst = false then
        match ← evictExpired policy now floorStart (i + 1) rest with
        | .error err => return .error err
        | .ok kept => return .ok (inst :: kept)
      else
        match ← c.deleteInstance inst with
        | .error err => return .error err
        | .ok () => evictExpired policy now floorStart (i + 1) rest

def surplus (policy : WarmPoolPolicy) (count : Nat) : Nat :=
  if 0 < policy.maxWarm ∧ policy.maxWarm < count then count - policy.maxWarm.toNat else 0

def evictIdle (live : List FunctionInstance) (policy : WarmPoolPolicy) (now : Int) :
    Prog (Except Error (List FunctionInstance)) := do
  let live := c.byLastUse.order live
  let excess := surplus policy live.length
  match ← c.deleteEach (live.take excess) with
  | .error err => return .error err
  | .ok () =>
    let keep := live.drop excess
    if keep.length ≤ policy.minWarm then return .ok keep
    else c.evictExpired policy now (keep.length - policy.minWarm) 0 keep

def observed (known : KnownComputes) (inst : FunctionInstance) : Phase × String :=
  match known inst.spec.computeId with
  | none => (.error, inst.status.nodeName)
  | some cp =>
    if cp.status.phase = .ready then (.ready, cp.status.nodeName)
    else if cp.status.phase ≠ .unset then (.reconciling, cp.status.nodeName)
    else (.pending, inst.status.nodeName)

/-- Writes what has changed of the instance; the copy that results goes on in the pass. -/
def syncInstance (known : KnownComputes) (inst : FunctionInstance) :
    Prog (Except Error FunctionInstance) := do
  let (phase, node) := observed known inst
  if inst.status.phase = phase ∧ inst.status.nodeName = node then return .ok inst
  else
    let inst ← setInstancePhase { inst with status :=
      { inst.status with nodeName := node } } phase "Synced"
      "tracks backing compute"
    match ← c.instances.put inst with
    | .error err =>
      return .error (.wrap ("controllers: sync function instance " ++ inst.metadata.uid) err)
    | .ok stored => return .ok stored

/-- The instances that are warm and backed by a ready compute. -/
def syncInstances (known : KnownComputes) : List FunctionInstance →
    Prog (Except Error (List FunctionInstance))
  | [] => return .ok []
  | inst :: rest => do
      if inst.metadata.isDeleting then syncInstances known rest
      else
        match ← c.syncInstance known inst with
        | .error err => return .error err
        | .ok synced =>
          match ← syncInstances known rest with
          | .error err => return .error err
          | .ok live =>
            if (observed known inst).1 = .ready ∧ inst.status.state = .warm then
              return .ok (synced :: live)
            else return .ok live

def createInstance (fn : Function) (known : KnownComputes) (now : Int) :
    Prog (KnownComputes × Except Error FunctionInstance) := do
  match ← FunctionPool.createCompute c.computes fn now with
  | .error err =>
    return (known,
      .error (.wrap ("controllers: create compute for function " ++ fn.metadata.uid) err))
  | .ok (cp, port) =>
    let known : KnownComputes := Function.update known cp.metadata.uid (some cp)
    let uid ← newUID "fninst"
    let inst : FunctionInstance :=
      { metadata :=
          { uid := uid
            generation := 1
            ownerUID := fn.metadata.ownerUID
            projectID := fn.metadata.projectID
            organizationID := fn.metadata.organizationID
            createdAt := now
            finalizers := [functionInstanceFinalizer] }
        spec := ⟨fn.metadata.uid, cp.metadata.uid⟩
        status := { state := .warm, lastUsedAt := c.format now, port := port } }
    let inst ← setInstancePhase inst .pending "Created"
      "pool instance created, waiting for its compute"
    match ← c.instances.put inst with
    | .error err =>
      let retired ← FunctionPool.retireCompute c.computes cp.metadata.uid now
      let created : Error :=
        .wrap ("controllers: create function instance for function " ++ fn.metadata.uid) err
      return (known, .error (joined created (failure retired)))
    | .ok inst => return (known, .ok inst)

def createEach (fn : Function) (now : Int) : Nat → KnownComputes →
    Prog (KnownComputes × Except Error Unit)
  | 0, known => return (known, .ok ())
  | count + 1, known => do
      match ← c.createInstance fn known now with
      | (known, .error err) => return (known, .error err)
      | (known, .ok _) => createEach fn now count known

/-- Whether an instance counts towards the minimum, though its compute may not be ready yet. -/
def pending (known : KnownComputes) (inst : FunctionInstance) : Bool :=
  match known inst.spec.computeId with
  | none => false
  | some cp =>
    !inst.metadata.isDeleting && inst.status.state == .warm && !cp.metadata.isDeleting &&
      cp.status.phase != .error

def setFunctionPhase (fn : Function) (phase : Phase) (reason message : String) : Prog Function := do
  let base ← fn.status.toStatusBase.setPhase phase reason message
  return { fn with status := { fn.status with toStatusBase := base } }

def save (fn : Function) : Prog (Except Error Unit) := do
  match ← c.functions.put fn with
  | .error err => return .error err
  | .ok _ => return .ok ()

/-- The part of `ensureFunction` that follows once the dependencies are resolved. -/
def fillPool (fn : Function) (insts : List FunctionInstance) (known : KnownComputes)
    (readiness : Readiness) :
    Prog (KnownComputes × Except Error Unit) := do
  match ← c.syncInstances known insts with
  | .error err => return (known, .error err)
  | .ok live =>
    let now ← Program.perform Op.now
    let policy := fn.spec.warmPool
    let present : Int := (insts.countP (pending known) : Nat)
    match ← c.createEach fn now (policy.minWarm - present).toNat known with
    | (known, .error err) => return (known, .error err)
    | (known, .ok ()) =>
      match ← c.evictIdle live policy now with
      | .error err => return (known, .error err)
      | .ok live =>
        let fn := { fn with status := { fn.status with warmCount := live.length } }
        let fn ← setFunctionPhase fn .ready readiness.reason readiness.message
        let base := fn.status.toStatusBase.markReconciled fn.metadata.generation
        return (known, ← c.save { fn with status := { fn.status with toStatusBase := base } })

/-- The computes known afterwards are those that the functions that follow see. -/
def ensureFunction (fn : Function) (insts : List FunctionInstance) (known : KnownComputes) :
    Prog (KnownComputes × Except Error Unit) := do
  let fn := { fn with spec := fn.spec.withDefaults }
  match fn.spec.validate with
  | .error err =>
    let fn ← setFunctionPhase fn .error "InvalidSpec" err.text
    return (known, ← c.save fn)
  | .ok () =>
    let fn := { fn with metadata := fn.metadata.addFinalizer functionFinalizer }
    match ← c.ready fn.spec with
    | .error err =>
      let fn ← setFunctionPhase fn .error "ResolveError" err.text
      let _ ← c.functions.put fn
      return (known, .error err)
    | .ok readiness =>
      if readiness.ok then c.fillPool fn insts known readiness
      else
        let fn ← setFunctionPhase fn .pending readiness.reason readiness.message
        return (known, ← c.save fn)

def finalizeInstance (inst : FunctionInstance) : Prog (Except Error Unit) := do
  match ← c.computes.get inst.spec.computeId with
  | .error err =>
    if err.is errNotFound then
      let inst := { inst with metadata := inst.metadata.removeFinalizer functionInstanceFinalizer }
      if inst.metadata.finalizers = [] then c.instances.delete inst.metadata.uid
      else
        match ← c.instances.put inst with
        | .error err => return .error err
        | .ok _ => return .ok ()
    else return .error (.wrap ("controllers: load compute " ++ inst.spec.computeId) err)
  | .ok _ => return .ok ()

def finalizeFunction (fn : Function) (insts : List FunctionInstance) :
    Prog (Except Error Unit) := do
  if insts ≠ [] then c.deleteEach insts
  else
    let fn := { fn with metadata := fn.metadata.removeFinalizer functionFinalizer }
    if fn.metadata.finalizers = [] then c.functions.delete fn.metadata.uid
    else c.save fn

def orphanGrace : Int := 2 * 60 * 1000000000

/-- `context` names the record of each error that is collected. -/
def attempt (context : String) (step : Prog (Except Error Unit)) : Prog (List Error) := do
  match ← step with
  | .error err => return [.wrap context err]
  | .ok () => return []

/-- Retires the pool's computes that no instance has referred to for a while. -/
def retireOrphans (referenced : List String) : List Compute → Prog (List Error)
  | [] => return []
  | cp :: rest => do
      let uid := cp.metadata.uid
      if (cp.metadata.labels.lookup FunctionPool.label).getD "" = "" ∨ uid ∈ referenced ∨
          cp.metadata.isDeleting ∨ cp.metadata.createdAt = 0 then
        retireOrphans referenced rest
      else if timeSub (← Program.perform Op.now) cp.metadata.createdAt < orphanGrace then
        retireOrphans referenced rest
      else
        let now ← Program.perform Op.now
        let errors ← attempt ("orphan compute " ++ uid)
          (FunctionPool.retireCompute c.computes uid now)
        return errors ++ (← retireOrphans referenced rest)

def finalizeInstances : List FunctionInstance → Prog (List Error)
  | [] => return []
  | inst :: rest => do
      if inst.metadata.isDeleting then
        let errors ← attempt ("instance " ++ inst.metadata.uid) (c.finalizeInstance inst)
        return errors ++ (← finalizeInstances rest)
      else finalizeInstances rest

def reconcileFunction (fn : Function) (insts : List FunctionInstance) (known : KnownComputes) :
    Prog (KnownComputes × Except Error Unit) := do
  if fn.metadata.isDeleting then return (known, ← c.finalizeFunction fn insts)
  else c.ensureFunction fn insts known

def reconcileFunctions (insts : List FunctionInstance) : List Function → KnownComputes →
    Prog (List Error)
  | [], _ => return []
  | fn :: rest, known => do
      let mine := insts.filter fun inst => inst.spec.functionId == fn.metadata.uid
      let (known, result) ← c.reconcileFunction fn mine known
      let errors ← attempt ("function " ++ fn.metadata.uid) (return result)
      return errors ++ (← reconcileFunctions insts rest known)

def reapInstances (functions : List Function) : List FunctionInstance → Prog (List Error)
  | [] => return []
  | inst :: rest => do
      if inst.metadata.isDeleting ∨
        functions.any (fun fn => fn.metadata.uid == inst.spec.functionId) = true then
        reapInstances functions rest
      else
        let errors ← attempt ("orphan instance " ++ inst.metadata.uid) (c.deleteInstance inst)
        return errors ++ (← reapInstances functions rest)

def knownFrom (computes : List Compute) : KnownComputes :=
  computes.foldl (fun known cp => Function.update known cp.metadata.uid (some cp)) fun _ => none

/-- `FunctionController.Reconcile`. -/
def reconcile : Prog (Except Error Unit) := do
  match ← c.functions.list with
  | .error err => return .error (.wrap "controllers: list functions" err)
  | .ok functions =>
    match ← c.instances.list with
    | .error err => return .error (.wrap "controllers: list function instances" err)
    | .ok insts =>
      match ← c.computes.list with
      | .error err => return .error (.wrap "controllers: list computes" err)
      | .ok computes =>
        let referenced := insts.map fun inst => inst.spec.computeId
        let orphans ← c.retireOrphans referenced computes
        let finalized ← c.finalizeInstances insts
        let reconciled ← c.reconcileFunctions insts functions (knownFrom computes)
        let reaped ← c.reapInstances functions insts
        return Error.joinAll (orphans ++ finalized ++ reconciled ++ reaped)

end FunctionController

end Infrastructure.Controllers
