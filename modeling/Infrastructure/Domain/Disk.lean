import Infrastructure.Domain.Placement

/-! Persistent disks and the copies of them that other nodes keep. -/

namespace Infrastructure.Domain

def kindDisk : String := "disk"

def diskFinalizer : String := "infra.io/disk"

def maxDiskSizeMB : Int := 2 ^ 20

structure DiskSpec where
  name : String := ""
  sizeMb : Int
  kmsKeyId : String := ""
  deriving DecidableEq, Repr

structure DiskStatus extends StatusBase where
  encrypted : Bool := false
  path : String := ""
  nodeName : String := ""
  deriving DecidableEq, Repr

abbrev Disk := Resource DiskSpec DiskStatus

def diskPlacement : Placement DiskStatus where
  nodeName status := status.nodeName
  place node status := { status with nodeName := node }
  base status := status.toStatusBase
  setBase base status := { status with toStatusBase := base }
  nodeName_place _ _ := rfl
  nodeName_setBase _ _ := rfl

def kindAsyncDiskReplica : String := "async_disk_replica"

def asyncDiskReplicaFinalizer : String := "infra.io/async_disk_replica"

def defaultAsyncReplicaIntervalSeconds : Int := 60

structure AsyncDiskReplicaSpec where
  diskId : String
  targetNodePoolId : String := ""
  intervalSeconds : Int := 0
  deriving DecidableEq, Repr

def AsyncDiskReplicaSpec.intervalOrDefault (spec : AsyncDiskReplicaSpec) : Int :=
  if spec.intervalSeconds = 0 then defaultAsyncReplicaIntervalSeconds else spec.intervalSeconds

structure AsyncDiskReplicaStatus extends StatusBase where
  nodeName : String := ""
  lastSyncedAt : String := ""
  bytesSynced : Int := 0
  deriving DecidableEq, Repr

abbrev AsyncDiskReplica := Resource AsyncDiskReplicaSpec AsyncDiskReplicaStatus

def asyncDiskReplicaPlacement : Placement AsyncDiskReplicaStatus where
  nodeName status := status.nodeName
  place node status := { status with nodeName := node }
  base status := status.toStatusBase
  setBase base status := { status with toStatusBase := base }
  nodeName_place _ _ := rfl
  nodeName_setBase _ _ := rfl

end Infrastructure.Domain
