import Infrastructure.Domain.MicroVM
import Infrastructure.Text.Decimal

/-! Compute instances and the limits on what they may use. Amounts of CPU are exact. -/

namespace Infrastructure.Domain

open State

def kindCompute : String := "compute"

def computeFinalizer : String := "infra.io/compute"

def functionPortRangeLo : Nat := 30000

def functionPortRangeHi : Nat := 32767

def maxRuntimePids : Int := 4096

structure ComputeDiskRef where
  diskId : String
  mountPath : String
  readOnly : Bool := false
  deriving DecidableEq, Repr

structure ComputeSpec where
  name : String := ""
  subnetId : String := ""
  securityGroupId : String := ""
  nodePoolId : String := ""
  hostname : String := ""
  cpu : Rat := 0
  memoryMb : Int := 0
  pidsMax : Int := 0
  image : String := ""
  command : String := ""
  env : List (String × String) := []
  ports : List String := []
  disks : List ComputeDiskRef := []
  privileged : Bool := false
  deriving DecidableEq, Repr

structure ComputeStatus extends StatusBase where
  ip : String := ""
  netns : String := ""
  vethHost : String := ""
  rootfs : String := ""
  ready : Bool := false
  nodeName : String := ""
  deriving DecidableEq, Repr

abbrev Compute := Resource ComputeSpec ComputeStatus

def computePlacement : Placement ComputeStatus where
  nodeName status := status.nodeName
  place node status := { status with nodeName := node }
  base status := status.toStatusBase
  setBase base status := { status with toStatusBase := base }
  nodeName_place _ _ := rfl
  nodeName_setBase _ _ := rfl

namespace ComputeSpec

def withDefaults (spec : ComputeSpec) : ComputeSpec :=
  { spec with
    cpu := if spec.cpu = 0 then 1 else spec.cpu
    memoryMb := if spec.memoryMb = 0 then 256 else spec.memoryMb
    pidsMax := if spec.pidsMax = 0 then 256 else spec.pidsMax }

def validateRuntimeLimits (spec : ComputeSpec) : Except Error Unit :=
  if spec.cpu < 0 ∨ (maxRuntimeCPU : Rat) < spec.cpu ∨ (0 < spec.cpu ∧ spec.cpu < 1 / 100) then
    .error (.new "runtime: cpu must be zero/default or between 0.01 and 64")
  else if spec.memoryMb < 0 ∨ maxRuntimeMemoryMB < spec.memoryMb then
    .error (.new "runtime: memoryMb must be between 0 and 262144")
  else if spec.pidsMax < 0 ∨ maxRuntimePids < spec.pidsMax then
    .error (.new "runtime: pidsMax must be between 0 and 4096")
  else .ok ()

/-- `^[A-Za-z_][A-Za-z0-9_]*$`. -/
def isEnvName : List Char → Bool
  | [] => false
  | first :: rest =>
    (first.isAlpha || first == '_') && rest.all fun char => char.isAlphanum || char == '_'

/-- `^[A-Za-z0-9][A-Za-z0-9.-]{0,252}$`. -/
def isHostName : List Char → Bool
  | [] => false
  | first :: rest => first.isAlphanum && rest.length ≤ 252 && rest.all fun char =>
      char.isAlphanum || char == '.' || char == '-'

def isReservedPort (text : List Char) : Bool :=
  (Text.atoi text).any fun port => (functionPortRangeLo : Int) ≤ port && port ≤ functionPortRangeHi

def validate (spec : ComputeSpec) : Except Error Unit :=
  if spec.hostname ≠ "" ∧ ¬isHostName spec.hostname.toList then
    .error (.new "compute: invalid hostname")
  else
    match spec.env.find? fun (key, _) => !isEnvName key.toList with
    | some (key, _) => .error (.new ("compute: invalid environment name " ++ quoted key))
    | none =>
      if spec.subnetId = "" then .error (.new "compute: subnetId is required")
      else if spec.image = "" then .error (.new "compute: image is required")
      else
        match spec.validateRuntimeLimits with
        | .error err => .error err
        | .ok () =>
          if spec.ports.any fun mapping => isReservedPort (mapping.toList.takeWhile (· != ':')) then
            .error (.new ("compute: host ports " ++ toString functionPortRangeLo ++ "-" ++
              toString functionPortRangeHi ++
              " are reserved for functions"))
          else
            match spec.disks.findIdx? fun disk => disk.diskId = "" ∨ disk.mountPath = "" with
            | some i =>
              .error (.new ("compute: disk " ++ toString i ++ " requires diskId and mountPath"))
            | none => .ok ()

end ComputeSpec

end Infrastructure.Domain
