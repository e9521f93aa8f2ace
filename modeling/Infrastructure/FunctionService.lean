import Infrastructure.FunctionPool

/-! Invoking a function: an instance is claimed or started, the request is forwarded to it, and it
goes back to the pool. -/

namespace Infrastructure.FunctionService

open Concurrency State Domain Program

def errNotReady : Error := .new "function: not ready"

def errNoWarmInstance : Error :=
  .new "function: no warm instance available and cold start is not allowed"

def errAlreadyClaimed : Error := .new "function: instance already claimed"

/-- `ctx.Err()` once the context of a cold start has ended. -/
def errContext : Error := .new "context deadline exceeded"

abbrev Functions := Registry FunctionSpec FunctionStatus

abbrev Instances := Registry FunctionInstanceSpec FunctionInstanceStatus

/-- `format` is RFC 3339; `polls` is how often a cold start looks at its compute. -/
structure Service where
  functions : Functions
  instances : Instances
  computes : FunctionPool.Computes
  nodes : Registry NodeSpec NodeStatus
  coldStartTimeout : Int
  releaseAttempts : Nat := 3
  format : Int → String
  polls : Nat

namespace Service

variable (service : Service)

def setInstancePhase (inst : FunctionInstance) (phase : Phase) (reason msg : String) :
    Prog FunctionInstance := do
  let base ← inst.status.toStatusBase.setPhase phase reason msg
  return { inst with status := { inst.status with toStatusBase := base } }

/-- The change that claims an instance, refused unless it is idle. -/
def claim (inst : FunctionInstance) : Prog (Except Error FunctionInstance) :=
  if inst.metadata.isDeleting || inst.status.state ≠ .warm then return .error errAlreadyClaimed
  else return .ok { inst with status := { inst.status with state := .assigned } }

def claimEach (functionID : String) : List FunctionInstance →
    Prog (Except Error (Option FunctionInstance))
  | [] => return .ok none
  | inst :: rest => do
      if inst.spec.functionId ≠ functionID || inst.metadata.isDeleting ||
        inst.status.state ≠ .warm then
        claimEach functionID rest
      else
        match ← service.computes.get inst.spec.computeId with
        | .error err =>
          if err.is errNotFound then claimEach functionID rest
          else return .error (.wrap ("function: get compute " ++ inst.spec.computeId) err)
        | .ok cp =>
          if cp.status.phase ≠ .ready then claimEach functionID rest
          else
            match ← service.instances.tryUpdate inst.metadata.uid claim with
            | .error err =>
              if err.is errAlreadyClaimed then claimEach functionID rest
              else return .error (.wrap ("function: claim instance " ++ inst.metadata.uid) err)
            | .ok false => claimEach functionID rest
            | .ok true =>
              return .ok (some { inst with status := { inst.status with state := .assigned } })

def claimWarmInstance (functionID : String) : Prog (Except Error (Option FunctionInstance)) := do
  match ← service.instances.list with
  | .error err => return .error (.wrap "function: list instances" err)
  | .ok insts => service.claimEach functionID insts

/-- A name of the kind, made of four random bytes. -/
def newUID (kind : String) : Prog String := do
  let bytes ← perform (Op.random 4)
  return kind ++ "-" ++ Crypto.hexEncode (List.ofFn bytes)

/-- Polls until the compute of the instance is ready; the instance then knows its node. -/
def waitReady (inst : FunctionInstance) (deadline : Int) : Nat →
    Prog (Except Error FunctionInstance)
  | 0 => return .error errContext
  | polls + 1 => do
      let waited : Prog (Except Error FunctionInstance) := do
        if deadline < (← perform Op.now) then
          return .error
            (.new ("function: cold start timed out waiting for instance " ++ inst.metadata.uid))
        else waitReady inst deadline polls
      match ← service.computes.get inst.spec.computeId with
      | .error err =>
        if err.is errNotFound then waited
        else return .error (.wrap ("function: get compute " ++ inst.spec.computeId) err)
      | .ok cp =>
        if cp.status.phase = .ready then
          return .ok { inst with status := { inst.status with nodeName := cp.status.nodeName } }
        else waited

/-- The change that gives up an instance whose compute did not come up. -/
def abandon (inst : FunctionInstance) : Prog (Except Error FunctionInstance) := do
  let time ← perform Op.now
  return .ok { inst with
    metadata := { inst.metadata with deletionTimestamp := some time }
    status := { inst.status with state := .warm } }

/-- The errors of the cleanup, oldest first. -/
def abandonAttempts (uid : String) : Nat → Prog (List Error)
  | 0 => return [errConflict]
  | attempts + 1 => do
      match ← service.instances.tryUpdate uid abandon with
      | .error err => return [err]
      | .ok true => return []
      | .ok false => abandonAttempts uid attempts

def failure : Except Error Unit → List Error
  | .ok () => []
  | .error err => [err]

/-- `errors.Join` of an error with others. -/
def joined (first : Error) (rest : List Error) : Error := rest.foldl .join first

def coldStart (fn : Function) : Prog (Except Error FunctionInstance) := do
  match ← FunctionPool.createCompute service.computes fn (← perform Op.now) with
  | .error err => return .error (.wrap "function: create compute" err)
  | .ok (cp, port) =>
    let uid ← newUID "fninst"
    let time ← perform Op.now
    let inst : FunctionInstance :=
      { metadata :=
          { uid := uid
            generation := 1
            ownerUID := fn.metadata.ownerUID
            projectID := fn.metadata.projectID
            organizationID := fn.metadata.organizationID
            createdAt := time
            finalizers := [functionInstanceFinalizer] }
        spec := ⟨fn.metadata.uid, cp.metadata.uid⟩
        status := { state := .assigned, port := port } }
    let inst ← setInstancePhase inst .pending "ColdStart" "created for a cold invoke"
    match ← service.instances.put inst with
    | .error err =>
      let retired ← FunctionPool.retireCompute service.computes cp.metadata.uid (← perform Op.now)
      return .error (joined (.wrap "function: create function instance" err) (failure retired))
    | .ok inst =>
      let deadline := (← perform Op.now) + service.coldStartTimeout
      match ← service.waitReady inst deadline service.polls with
      | .ok inst => return .ok inst
      | .error err =>
        let cleanup ← service.abandonAttempts uid 16
        let retired ← FunctionPool.retireCompute service.computes cp.metadata.uid (← perform Op.now)
        return .error (joined err (cleanup ++ failure retired))

/-- Proxies the request to the instance; the reply is the response. -/
def forward (inst : FunctionInstance) (contentType : String) : Prog (Except Error String) := do
  match ← service.nodes.get inst.status.nodeName with
  | .error err => return .error (.wrap ("function: get node " ++ inst.status.nodeName) err)
  | .ok node =>
    let url := "http://" ++ node.spec.address ++ ":" ++ toString inst.status.port ++ "/"
    match ← perform (Op.host ["POST", url, contentType]) with
    | .error err => return .error (.wrap ("function: invoke " ++ url) err)
    | .ok response => return .ok response

def idle (inst : FunctionInstance) : Prog (Except Error FunctionInstance) := do
  let time ← perform Op.now
  return .ok { inst with status :=
    { inst.status with state := .warm, lastUsedAt := service.format time } }

def releaseWithin (instanceID : String) : Nat → Prog (Except Error Unit)
  | 0 => return .error (.new "too many concurrent writers")
  | attempts + 1 => do
      match ← service.instances.tryUpdate instanceID service.idle with
      | .error err => return .error err
      | .ok true => return .ok ()
      | .ok false => releaseWithin instanceID attempts

def release (instanceID : String) : Prog (Except Error Unit) :=
  service.releaseWithin instanceID service.releaseAttempts

/-- The response comes with the instance that stays assigned until its body is closed. -/
def serve (inst : FunctionInstance) (contentType : String) :
    Prog (Except Error (String × String)) := do
  match ← service.forward inst contentType with
  | .error err =>
    let released ← service.release inst.metadata.uid
    return .error (joined err (failure released))
  | .ok response => return .ok (response, inst.metadata.uid)

def invoke (functionID contentType : String) : Prog (Except Error (String × String)) := do
  match ← service.functions.get functionID with
  | .error err => return .error err
  | .ok fn =>
    if fn.status.phase ≠ .ready then return .error errNotReady
    else
      match ← service.claimWarmInstance functionID with
      | .error err => return .error err
      | .ok (some inst) => service.serve inst contentType
      | .ok none =>
        if !fn.spec.warmPool.allowColdStart then return .error errNoWarmInstance
        else
          match ← service.coldStart fn with
          | .error err => return .error err
          | .ok inst => service.serve inst contentType

end Service

end Infrastructure.FunctionService
