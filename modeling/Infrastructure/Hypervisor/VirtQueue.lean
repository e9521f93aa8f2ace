import Infrastructure.Hypervisor.Bus

/-! Split virtqueues in guest memory. -/

namespace Infrastructure.Hypervisor

open Concurrency Memory State Boot

def descSize : UInt64 := 16
def descFlagNext : UInt16 := 1
def descFlagWrite : UInt16 := 2
def availHeaderSize : UInt64 := 4
def availEntrySize : UInt64 := 2
def usedHeaderSize : UInt64 := 4
def usedEntrySize : UInt64 := 8
def maxChainLength : Nat := 1024

/-- Part of guest memory, which stays live. -/
structure Segment where
  addr : Nat
  length : Nat
  writable : Bool
  deriving DecidableEq, Repr

structure Chain where
  headIndex : UInt16
  segments : List Segment
  deriving DecidableEq, Repr

/-- `queue` stands for the object, whose lock and last index are reached through it. -/
structure VirtQueue where
  queue : Nat
  size : UInt16
  descAddr : UInt64
  availAddr : UInt64
  usedAddr : UInt64
  deriving DecidableEq, Repr

/-- A little-endian number of live guest memory. -/
def loadWord (addr width : Nat) : Go Nat := do
  let bytes ← ask (.load addr width)
  return ofLittleEndian bytes

namespace VirtQueue

variable (vq : VirtQueue) (memSize : Nat)

def readAvailIdx : Go (Except Error UInt16) := do
  match ← slice memSize (vq.availAddr + 2) 2 with
  | .error err => return .error (.wrap "virtio: read avail.idx" err)
  | .ok view => return .ok (UInt16.ofNat (← loadWord view.1 2))

def readUsedIdx : Go (Except Error UInt16) := do
  match ← slice memSize (vq.usedAddr + 2) 2 with
  | .error err => return .error (.wrap "virtio: read used.idx" err)
  | .ok view => return .ok (UInt16.ofNat (← loadWord view.1 2))

/-- The walk from descriptor `idx` on, with so many descriptors left. -/
def readSegments (headIdx : UInt16) : Nat → UInt16 → Go (Except Error (List Segment))
  | 0, _ =>
    return .error
      (.new ("virtio: descriptor chain starting at " ++ toString headIdx ++ " exceeds " ++
      toString maxChainLength ++ " entries (cyclic?)"))
  | left + 1, idx => do
      match ← slice memSize (vq.descAddr + idx.toUInt64 * descSize) descSize.toNat with
      | .error err => return .error (.wrap ("virtio: read descriptor " ++ toString idx) err)
      | .ok view =>
        let addr := UInt64.ofNat (← loadWord view.1 8)
        let length ← loadWord (view.1 + 8) 4
        let flags := UInt16.ofNat (← loadWord (view.1 + 12) 2)
        let next := UInt16.ofNat (← loadWord (view.1 + 14) 2)
        match ← slice memSize addr length with
        | .error err =>
          return .error
            (.wrap ("virtio: descriptor " ++ toString idx ++ " data (addr=0x" ++
              hexText addr.toNat ++
            " len=" ++ toString length ++ ")") err)
        | .ok data =>
          let seg : Segment := ⟨data.1, data.2, flags &&& descFlagWrite ≠ 0⟩
          if flags &&& descFlagNext = 0 then return .ok [seg]
          else
            match ← readSegments headIdx left next with
            | .error err => return .error err
            | .ok rest => return .ok (seg :: rest)

def readChain (headIdx : UInt16) : Go (Except Error Chain) := do
  match ← vq.readSegments memSize headIdx maxChainLength headIdx with
  | .error err => return .error err
  | .ok segments => return .ok ⟨headIdx, segments⟩

def availEntryOffset (idx : UInt16) : UInt64 :=
  vq.availAddr + availHeaderSize + (idx % vq.size).toUInt64 * availEntrySize

def usedEntryOffset (idx : UInt16) : UInt64 :=
  vq.usedAddr + usedHeaderSize + (idx % vq.size).toUInt64 * usedEntrySize

def popLocked : Go (Except Error (Option Chain)) := do
  match ← vq.readAvailIdx memSize with
  | .error err => return .error err
  | .ok availIdx =>
    let last ← ask (.lastAvailIdx vq.queue)
    if availIdx = last then return .ok none
    else if vq.size = 0 then throw .divideByZero
    else
      match ← slice memSize (vq.availEntryOffset last) availEntrySize.toNat with
      | .error err => return .error (.wrap "virtio: read avail ring entry" err)
      | .ok entry =>
        let headIdx := UInt16.ofNat (← loadWord entry.1 2)
        match ← vq.readChain memSize headIdx with
        | .error err => return .error err
        | .ok chain =>
          let _ ← ask (.advance vq.queue headIdx)
          return .ok (some chain)

def pop : Go (Except Error (Option Chain)) := locked vq.queue (vq.popLocked memSize)

/-- The entry is written before the index. -/
def pushLocked (headIndex : UInt16) (writtenLen : UInt32) : Go (Except Error Unit) := do
  match ← vq.readUsedIdx memSize with
  | .error err => return .error err
  | .ok usedIdx =>
    if vq.size = 0 then throw .divideByZero
    else
      match ← slice memSize (vq.usedEntryOffset usedIdx) usedEntrySize.toNat with
      | .error err => return .error (.wrap "virtio: write used ring entry" err)
      | .ok entry =>
        let _ ← ask (.store entry.1 (littleEndian 4 headIndex.toNat))
        let _ ← ask (.store (entry.1 + 4) (littleEndian 4 writtenLen.toNat))
        match ← slice memSize (vq.usedAddr + 2) 2 with
        | .error err => return .error (.wrap "virtio: write used.idx" err)
        | .ok idx =>
          let _ ← ask (.store idx.1 (littleEndian 2 (usedIdx + 1).toNat))
          return .ok ()

def push (headIndex : UInt16) (writtenLen : UInt32) : Go (Except Error Unit) :=
  locked vq.queue (vq.pushLocked memSize headIndex writtenLen)

end VirtQueue

end Infrastructure.Hypervisor
