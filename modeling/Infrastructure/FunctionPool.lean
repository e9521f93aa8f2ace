import Infrastructure.Domain.Function
import Infrastructure.Registry

/-! Computes that belong to functions: each takes a host port by being created under its name. -/

namespace Infrastructure.FunctionPool

open Concurrency State Domain

def label : String := "infra.io/function-id"

abbrev Computes := Registry ComputeSpec ComputeStatus

def hostPort (mapping : String) : Option Int :=
  if mapping.toList.contains ':' then Text.atoi (mapping.toList.takeWhile (· ≠ ':')) else none

def usedPorts (computes : List Compute) : List Int :=
  computes.flatMap fun cp => cp.spec.ports.filterMap hostPort

def slotUID (port : Nat) : String := "function-compute-" ++ toString port

theorem slotUID_toList (port : Nat) :
    (slotUID port).toList = "function-compute-".toList ++ Nat.toDigits 10 port := by
  have parts : (slotUID port).toList = "function-compute-".toList ++ (toString port).toList :=
    String.toList_append
  simpa using parts

/-- The compute that a function gets on a port. -/
def slot (fn : Function) (port : Nat) (now : Int) : Compute where
  metadata :=
    { uid := slotUID port
      name := fn.spec.name
      generation := 1
      ownerUID := fn.metadata.ownerUID
      projectID := fn.metadata.projectID
      organizationID := fn.metadata.organizationID
      createdAt := now
      labels := [(label, fn.metadata.uid)]
      finalizers := [computeFinalizer] }
  spec :=
    { subnetId := fn.spec.subnetId
      securityGroupId := fn.spec.securityGroupId
      nodePoolId := fn.spec.nodePoolId
      cpu := fn.spec.cpu
      memoryMb := fn.spec.memoryMb
      pidsMax := fn.spec.pidsMax
      image := fn.spec.image
      command := fn.spec.command
      env := fn.spec.env
      ports := [toString port ++ ":" ++ toString fn.spec.port ++ "/tcp"] }
  status := {}

variable (computes : Computes)

/-- Tries the ports in order; one that another writer has taken is passed over. -/
def claimPort (fn : Function) (now : Int) (used : List Int) : List Nat →
    Prog (Except Error (Compute × Nat))
  | [] => return .error (.new "no free function port in 30000-32767")
  | port :: ports => do
      if used.contains (port : Int) then claimPort fn now used ports
      else
        match ← computes.put (slot fn port now) with
        | .ok cp => return .ok (cp, port)
        | .error err =>
          if err.is errConflict then claimPort fn now used ports else return .error err

def createCompute (fn : Function) (now : Int) : Prog (Except Error (Compute × Nat)) := do
  let effective := { fn with spec := fn.spec.withDefaults }
  match effective.spec.validate with
  | .error err => return .error err
  | .ok () =>
    match ← computes.list with
    | .error err => return .error err
    | .ok existing =>
      claimPort computes effective now (usedPorts existing)
        (List.range' functionPortRangeLo (functionPortRangeHi - functionPortRangeLo + 1))

def retireAttempts (uid : String) (now : Int) : Nat → Prog (Except Error Unit)
  | 0 => return .error errConflict
  | attempts + 1 => do
      let retired (cp : Compute) : Prog (Except Error Compute) :=
        return .ok { cp with metadata :=
          { cp.metadata with deletionTimestamp := some now }.addFinalizer computeFinalizer }
      match ← computes.tryUpdate uid retired with
      | .error err => if err.is errNotFound then return .ok () else return .error err
      | .ok true => return .ok ()
      | .ok false => retireAttempts uid now attempts

def retireCompute (uid : String) (now : Int) : Prog (Except Error Unit) :=
  retireAttempts computes uid now 16

end Infrastructure.FunctionPool
