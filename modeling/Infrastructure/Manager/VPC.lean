import Infrastructure.Domain.Status
import Infrastructure.Handler
import Infrastructure.Manager.HostPaths
import Infrastructure.Registry.Pass

/-! The VPC agent: it keeps a bridge, a VRF and a node port for each VPC and takes
them down before the record goes. -/

namespace Infrastructure.Manager

open Concurrency State Domain Registry

def kindVPC : String := "vpc"

def vpcFinalizer : String := "infra.io/vpc"

structure VPCSpec where
  cidr : String
  deriving DecidableEq, Repr

structure VPCStatus extends StatusBase where
  bridgeName : String := ""
  deriving DecidableEq, Repr

abbrev VPC := Resource VPCSpec VPCStatus

/-- `parseCIDR` is `net.ParseCIDR`. -/
def VPCSpec.validate (parseCIDR : String → Except Error Unit) (spec : VPCSpec) :
    Except Error Unit :=
  if spec.cidr = "" then .error (.new "vpc: cidr is required")
  else
    match parseCIDR spec.cidr with
    | .error err => .error (.wrap ("vpc: invalid cidr " ++ quoted spec.cidr) err)
    | .ok () => .ok ()

def vpcHandler (codec : Codec VPCSpec VPCStatus) (parseCIDR : String → Except Error Unit)
    (authorization : Bool) : Handler VPCSpec VPCStatus where
  registry := ⟨kindVPC, codec⟩
  authorization := authorization
  adminOnly := false
  privileged _ := false
  withDefaults := id
  validate := VPCSpec.validate parseCIDR
  references _ := []
  zero := {}

def setVPCPhase (vpc : VPC) (phase : Phase) (reason msg : String) : Prog VPC := do
  let base ← vpc.status.toStatusBase.setPhase phase reason msg
  return { vpc with status := { vpc.status with toStatusBase := base } }

structure VPCReconciler where
  registry : Registry VPCSpec VPCStatus

namespace VPCReconciler

variable (r : VPCReconciler)

/-- Records a failed step; the result of the write is ignored. -/
def fail (vpc : VPC) (reason : String) (err : Error) : Prog (Except Error Unit) := do
  let vpc ← setVPCPhase vpc .error reason err.text
  let _ ← r.registry.put vpc
  return .error err

def save (vpc : VPC) (next : VPC → Prog (Except Error Unit)) : Prog (Except Error Unit) := do
  match ← r.registry.put vpc with
  | .error err => return .error (.wrap ("manager: save vpc " ++ quoted vpc.metadata.uid) err)
  | .ok stored => next stored

/-- Runs the commands in order; the first that fails is recorded under its reason. -/
def commands (vpc : VPC) (next : Prog (Except Error Unit)) :
    List (String × List String) → Prog (Except Error Unit)
  | [] => next
  | (reason, cmd) :: rest => do
      match ← Program.perform (Op.host cmd) with
      | .error err => r.fail vpc reason err
      | .ok _ => commands vpc next rest

def ensure (vpc : VPC) : Prog (Except Error Unit) := do
  let vpc := { vpc with metadata := vpc.metadata.addFinalizer vpcFinalizer }
  let vpc ← setVPCPhase vpc .reconciling "Reconciling" "ensuring bridge"
  let name := bridgeName vpc.metadata.uid
  let ready : Prog (Except Error Unit) := do
    let base := vpc.status.toStatusBase.markReconciled vpc.metadata.generation
    let vpc := { vpc with status := { toStatusBase := base, bridgeName := name } }
    let vpc ← setVPCPhase vpc .ready "Reconciled" "bridge ready"
    r.save vpc fun _ => return .ok ()
  r.commands vpc ready [
    ("BridgeError", ["EnsureBridge", name, vpc.spec.cidr]),
    ("VRFError", ["EnsureVRF", vpc.metadata.uid, name]),
    ("NodePortError", ["EnsureNodePort", vpc.metadata.uid, name])]

/-- Once no finalizers remain, the record can leave the store. -/
def removeIfFree (vpc : VPC) : Prog (Except Error Unit) := do
  if vpc.metadata.finalizers = [] then
    match ← r.registry.delete vpc.metadata.uid with
    | .error err => return .error (.wrap ("manager: delete vpc " ++ quoted vpc.metadata.uid) err)
    | .ok () => return .ok ()
  else return .ok ()

def finalize (vpc : VPC) : Prog (Except Error Unit) := do
  if vpc.metadata.hasFinalizer vpcFinalizer then
    let removed : Prog (Except Error Unit) := do
      let vpc := { vpc with metadata := vpc.metadata.removeFinalizer vpcFinalizer }
      let vpc ← setVPCPhase vpc .deleting "Deleting" "bridge removed"
      r.save vpc r.removeIfFree
    r.commands vpc removed [
      ("NodePortError", ["DeleteNodePort", vpc.metadata.uid]),
      ("VRFError", ["DeleteVRF", vpc.metadata.uid, bridgeName vpc.metadata.uid]),
      ("BridgeError", ["DeleteBridge", bridgeName vpc.metadata.uid])]
  else r.removeIfFree vpc

def reconcile (uid : String) : Prog (Except Error Unit) := do
  match ← r.registry.get uid with
  | .error err =>
    if err.is errNotFound then return .ok ()
    else return .error (.wrap ("manager: load vpc " ++ quoted uid) err)
  | .ok vpc => if vpc.metadata.isDeleting then r.finalize vpc else r.ensure vpc

def reconcileEach : List VPC → Prog (List Error)
  | [] => return []
  | vpc :: vpcs => do
      let result ← r.reconcile vpc.metadata.uid
      let errors ← reconcileEach vpcs
      match result with
      | .error err => return .wrap ("vpc " ++ vpc.metadata.uid) err :: errors
      | .ok () => return errors

def reconcileAll : Prog (Except Error Unit) := do
  match ← r.registry.list with
  | .error err => return .error (.wrap "manager: list vpcs" err)
  | .ok vpcs =>
    match ← r.reconcileEach vpcs with
    | [] => return .ok ()
    | first :: rest => return .error (rest.foldl .join first)

section

variable {r} {copy vpc : VPC}

theorem setVPCPhase_uses (vpc : VPC) (phase : Phase) (why msg : String) :
    (setVPCPhase vpc phase why msg).Uses (fun op => op.ambient = true) fun later =>
      ∃ status, later = { vpc with status := status } := by
  refine .bind (StatusBase.setPhase_ambient _ phase why msg) ?_
  intro base _
  exact ⟨_, rfl⟩

theorem fail_pass (why : String) (err : Error) (edited : Edited copy vpc) :
    Pass r.registry agents (some copy) (r.fail vpc why err) := by
  refine Pass.after (setVPCPhase_uses vpc _ _ _) ?_
  rintro _ ⟨status, rfl⟩
  have saved := Edited.status status edited
  exact .save saved.resourceVersion saved.uid saved (fun _ => .done _) (fun _ => .done _)

theorem save_pass {next : VPC → Prog (Except Error Unit)} (edited : Edited copy vpc)
    (rest : ∀ held, Pass r.registry agents (some held) (next held)) :
    Pass r.registry agents (some copy) (r.save vpc next) :=
  .save edited.resourceVersion edited.uid edited (fun _ => .done _) (fun _ => rest _)

theorem commands_pass {next : Prog (Except Error Unit)} (edited : Edited copy vpc)
    (rest : Pass r.registry agents (some copy) next) (list : List (String × List String)) :
    Pass r.registry agents (some copy) (r.commands vpc next list) := by
  induction list with
  | nil => exact rest
  | cons head tail ih =>
    refine .ambient rfl ?_
    intro reply
    cases reply with
    | error err => exact fail_pass head.1 err edited
    | ok output => exact ih

theorem removeIfFree_pass : Pass r.registry agents (some vpc) (r.removeIfFree vpc) := by
  unfold removeIfFree
  split
  · next free =>
    refine .remove free ?_
    intro reply
    cases reply <;> exact .done _
  · exact .done _

theorem ensure_pass : Pass r.registry agents (some vpc) (r.ensure vpc) := by
  refine Pass.after (setVPCPhase_uses _ _ _ _) ?_
  rintro _ ⟨status, rfl⟩
  have started : Edited vpc { vpc with
      metadata := vpc.metadata.addFinalizer vpcFinalizer, status := status } :=
    .status status (.addFinalizer vpcFinalizer .refl)
  refine commands_pass started ?_ _
  refine Pass.after (setVPCPhase_uses _ _ _ _) ?_
  rintro _ ⟨final, rfl⟩
  exact save_pass (.status final (.status _ started)) fun _ => .done _

theorem finalize_pass : Pass r.registry agents (some vpc) (r.finalize vpc) := by
  unfold finalize
  split
  · refine commands_pass .refl ?_ _
    refine Pass.after (setVPCPhase_uses _ _ _ _) ?_
    rintro _ ⟨status, rfl⟩
    exact save_pass (.status status (.removeFinalizer vpcFinalizer .refl)) fun _ =>
      removeIfFree_pass
  · exact removeIfFree_pass

theorem reconcile_pass (held : Option VPC) (uid : String) :
    Pass r.registry agents held (r.reconcile uid) := by
  refine .load ?_ ?_
  · intro err
    dsimp only
    split <;> exact .done _
  · intro vpc _
    dsimp only
    split
    · exact finalize_pass
    · exact ensure_pass

theorem reconcileEach_pass (held : Option VPC) (vpcs : List VPC) :
    Pass r.registry agents held (r.reconcileEach vpcs) := by
  induction vpcs generalizing held with
  | nil => exact .done _
  | cons vpc vpcs ih =>
    refine (reconcile_pass held vpc.metadata.uid).bind ?_
    intro out later
    refine (ih later).bind ?_
    intro errs last
    cases out <;> exact .done _

theorem reconcileAll_pass : Pass r.registry agents none r.reconcileAll := by
  refine Pass.reading list_reading ?_
  intro seen _
  cases seen with
  | error err => exact .done _
  | ok vpcs =>
    refine (reconcileEach_pass none vpcs).bind ?_
    intro errs last
    cases errs <;> exact .done _

end

end VPCReconciler

end Infrastructure.Manager
