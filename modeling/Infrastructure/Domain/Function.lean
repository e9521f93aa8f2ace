import Infrastructure.Domain.Compute

/-! Functions, and the instances that their warm pools are made of. -/

namespace Infrastructure.Domain

open State

def kindFunction : String := "function"

def functionFinalizer : String := "infra.io/function"

def kindFunctionInstance : String := "function_instance"

def functionInstanceFinalizer : String := "infra.io/function-instance"

structure WarmPoolPolicy where
  minWarm : Int := 0
  maxWarm : Int := 0
  idleTTLSeconds : Int := 0
  allowColdStart : Bool := false
  deriving DecidableEq, Repr

def WarmPoolPolicy.validate (policy : WarmPoolPolicy) : Except Error Unit :=
  if 256 < policy.minWarm ∨ 256 < policy.maxWarm then
    .error (.new "function: warm pool sizes must not exceed 256")
  else if policy.minWarm < 0 then .error (.new "function: warmPool.minWarm must not be negative")
  else if policy.maxWarm < 0 then .error (.new "function: warmPool.maxWarm must not be negative")
  else if 0 < policy.maxWarm ∧ policy.maxWarm < policy.minWarm then
    .error (.new "function: warmPool.maxWarm must be >= minWarm")
  else if policy.idleTTLSeconds < 0 then
    .error (.new "function: warmPool.idleTtlSeconds must not be negative")
  else .ok ()

structure FunctionSpec where
  name : String := ""
  subnetId : String := ""
  securityGroupId : String := ""
  nodePoolId : String := ""
  cpu : Rat := 0
  memoryMb : Int := 0
  pidsMax : Int := 0
  image : String := ""
  command : String := ""
  env : List (String × String) := []
  port : Int := 0
  warmPool : WarmPoolPolicy := {}
  deriving DecidableEq, Repr

structure FunctionStatus extends StatusBase where
  warmCount : Int := 0
  deriving DecidableEq, Repr

abbrev Function := Resource FunctionSpec FunctionStatus

namespace FunctionSpec

def runtime (spec : FunctionSpec) : ComputeSpec :=
  { cpu := spec.cpu, memoryMb := spec.memoryMb, pidsMax := spec.pidsMax }

def withDefaults (spec : FunctionSpec) : FunctionSpec :=
  let runtime := spec.runtime.withDefaults
  let maxWarm := if spec.warmPool.maxWarm = 0 then max 32 spec.warmPool.minWarm else
    spec.warmPool.maxWarm
  { spec with
    cpu := runtime.cpu
    memoryMb := runtime.memoryMb
    pidsMax := runtime.pidsMax
    warmPool := { spec.warmPool with maxWarm := maxWarm } }

def validate (spec : FunctionSpec) : Except Error Unit :=
  if spec.subnetId = "" then .error (.new "function: subnetId is required")
  else if spec.image = "" then .error (.new "function: image is required")
  else
    match spec.runtime.validateRuntimeLimits with
    | .error err => .error err
    | .ok () =>
      if spec.port < 1 ∨ 65535 < spec.port then .error (.new "function: port out of range")
      else spec.warmPool.validate

end FunctionSpec

inductive InstanceState where
  | unset
  | warm
  | assigned
  deriving DecidableEq, Repr

structure FunctionInstanceSpec where
  functionId : String
  computeId : String
  deriving DecidableEq, Repr

structure FunctionInstanceStatus extends StatusBase where
  state : InstanceState := .unset
  lastUsedAt : String := ""
  port : Int := 0
  nodeName : String := ""
  deriving DecidableEq, Repr

abbrev FunctionInstance := Resource FunctionInstanceSpec FunctionInstanceStatus

end Infrastructure.Domain
