import Infrastructure.Crypto.Sha256
import Infrastructure.State.Store
import Infrastructure.Text.Path

/-! The host paths and interface names that the agent derives from uids. -/

namespace Infrastructure.Manager

open State Crypto Text

/-- `newImagePuller` keeps the extracted root file systems here. -/
def rootfsDir (stateDir : String) : List Char := joinText [stateDir.toList, "rootfs".toList]

def rootfsPath (stateDir uid : String) : List Char := joinText [rootfsDir stateDir, uid.toList]

/-- `cgroupManager.path`. -/
def cgroupPath (base uid : String) : List Char := joinText [base.toList, "infra".toList, uid.toList]

def procsFile (base uid : String) : List Char :=
  joinText [cgroupPath base uid, "cgroup.procs".toList]

/-- The directory that the agent's `main` gives the disk backend. -/
def diskDir (stateDir : String) : List Char := joinText [stateDir.toList, "disks".toList]

def diskImage (stateDir uid : String) : List Char :=
  joinText [diskDir stateDir, (uid ++ ".img").toList]

/-- `AsyncDiskReplicaReconciler.localPath`, in the directory that `main` gives it. -/
def replicaImage (stateDir uid : String) : List Char :=
  joinText [joinText [stateDir.toList, "disk-replicas".toList], (uid ++ ".img").toList]

/-- A file that the agent keeps next to a compute's root file system. -/
def entryFile (stateDir uid ending : String) : List Char :=
  joinText [stateDir.toList, "compute".toList, (uid ++ ending).toList]

/-- `ExecMicroVMBackend.instanceDir`. -/
def instanceDir (stateDir uid : String) : List Char :=
  joinText [stateDir.toList, "microvm".toList, uid.toList]

def maxIfaceName : Nat := 15

/-- 32-bit FNV-1a. -/
def fnv32a (data : Bytes) : Nat :=
  data.foldl (fun hash byte => ((hash ^^^ byte.toNat) * 16777619) % 2 ^ 32) 2166136261

/-- The characters of a uid that an interface name keeps, in lower case. -/
def ifaceChar (char : Char) : Option Char :=
  if char.isLower || char.isDigit || char == '-' then some char
  else if char.isUpper then some (Char.ofNat (char.toNat + 32))
  else none

def ifaceName (lead uid : String) : String :=
  let name := lead ++ String.ofList (uid.toList.filterMap ifaceChar)
  if name.utf8ByteSize ≤ maxIfaceName then name
  else lead ++ hexEncode (wordBytes (fnv32a (bytesOf uid)))

def bridgeName (uid : String) : String := ifaceName "br-" uid

example : bridgeName "vpc-A1_b2" = "br-vpc-a1b2" := by decide +kernel

end Infrastructure.Manager
