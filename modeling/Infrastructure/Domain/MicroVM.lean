import Infrastructure.Domain.Placement

/-! The micro-VM resource and the check of its spec. -/

namespace Infrastructure.Domain

open State

def kindMicroVM : String := "microvm"

def microVMFinalizer : String := "infra.io/microvm"

def maxRuntimeCPU : Int := 64

def maxRuntimeMemoryMB : Int := 262144

structure MicroVMSpec where
  name : String := ""
  subnetId : String
  securityGroupId : String := ""
  nodePoolId : String := ""
  hostname : String := ""
  vcpus : Int
  memoryMb : Int
  kernelPath : String
  initrdPath : String := ""
  cmdLine : String := ""
  image : String
  sshAuthorizedKey : String := ""
  userData : String := ""
  deriving DecidableEq, Repr

structure MicroVMStatus extends StatusBase where
  ip : String := ""
  tap : String := ""
  pid : Int := 0
  ready : Bool := false
  nodeName : String := ""
  deriving DecidableEq, Repr

abbrev MicroVM := Resource MicroVMSpec MicroVMStatus

def microVMPlacement : Placement MicroVMStatus where
  nodeName status := status.nodeName
  place node status := { status with nodeName := node }
  base status := status.toStatusBase
  setBase base status := { status with toStatusBase := base }
  nodeName_place _ _ := rfl
  nodeName_setBase _ _ := rfl

def MicroVMSpec.validate (spec : MicroVMSpec) : Except Error Unit :=
  if spec.subnetId = "" then .error (.new "microvm: subnetId is required")
  else if maxRuntimeCPU < spec.vcpus ∨ maxRuntimeMemoryMB < spec.memoryMb then
    .error (.new "microvm: runtime sizing exceeds admission limits")
  else if spec.vcpus ≤ 0 then .error (.new "microvm: vcpus must be positive")
  else if spec.memoryMb ≤ 0 then .error (.new "microvm: memoryMb must be positive")
  else if spec.kernelPath = "" then .error (.new "microvm: kernelPath is required")
  else if spec.image = "" then .error (.new "microvm: image is required")
  else .ok ()

theorem MicroVMSpec.validate_memory {spec : MicroVMSpec} (valid : spec.validate = .ok ()) :
    0 < spec.memoryMb ∧ spec.memoryMb ≤ maxRuntimeMemoryMB := by
  unfold MicroVMSpec.validate at valid
  grind

end Infrastructure.Domain
