import Infrastructure.Hypervisor.Boot

/-! The register window of a virtio-mmio device. -/

namespace Infrastructure.Hypervisor

open Memory State Boot

inductive Register where
  | magicValue | version | deviceID | vendorID | deviceFeatures | deviceFeaturesSel | driverFeatures
  | driverFeaturesSel | queueSel | queueNumMax | queueNum | queueReady | interruptStatus
  | interruptACK | status
  | queueDescLow | queueDescHigh | queueDriverLow | queueDriverHigh | queueDeviceLow
  | queueDeviceHigh
  | configGeneration
  deriving DecidableEq, Repr

namespace Register

def offset : Register → UInt64
  | .magicValue => 0x000
  | .version => 0x004
  | .deviceID => 0x008
  | .vendorID => 0x00c
  | .deviceFeatures => 0x010
  | .deviceFeaturesSel => 0x014
  | .driverFeatures => 0x020
  | .driverFeaturesSel => 0x024
  | .queueSel => 0x030
  | .queueNumMax => 0x034
  | .queueNum => 0x038
  | .queueReady => 0x044
  | .interruptStatus => 0x060
  | .interruptACK => 0x064
  | .status => 0x070
  | .queueDescLow => 0x080
  | .queueDescHigh => 0x084
  | .queueDriverLow => 0x090
  | .queueDriverHigh => 0x094
  | .queueDeviceLow => 0x0a0
  | .queueDeviceHigh => 0x0a4
  | .configGeneration => 0x0fc

def all : List Register :=
  [.magicValue, .version, .deviceID, .vendorID, .deviceFeatures, .deviceFeaturesSel,
    .driverFeatures, .driverFeaturesSel, .queueSel, .queueNumMax, .queueNum, .queueReady,
    .interruptStatus, .interruptACK, .status, .queueDescLow, .queueDescHigh, .queueDriverLow,
    .queueDriverHigh, .queueDeviceLow, .queueDeviceHigh, .configGeneration]

def find (offset : UInt64) : Option Register := all.find? fun register => register.offset = offset

theorem find_offset (register : Register) : find register.offset = some register := by
  cases register <;> decide

end Register

def configSpaceOffset : UInt64 := 0x100
def magicValue : UInt32 := 0x74726976
def transportVersion : UInt32 := 2
def usedBufferInterrupt : UInt32 := 1

structure Queue where
  size : UInt32 := 0
  ready : Bool := false
  desc : UInt64 := 0
  avail : UInt64 := 0
  used : UInt64 := 0
  deriving DecidableEq, Repr

/-- The lock of the registers is not modelled: every method holds it from start to end. -/
structure Transport where
  deviceID : UInt32
  deviceFeatures : UInt64
  numQueues : Nat
  queueMaxSize : UInt32
  config : Bytes
  status : UInt8 := 0
  deviceFeaturesSel : UInt32 := 0
  driverFeaturesSel : UInt32 := 0
  driverFeatures : UInt64 := 0
  queueSel : UInt32 := 0
  queues : List Queue := []
  interruptStatus : UInt32 := 0
  deriving DecidableEq, Repr

def withLow (word : UInt64) (half : UInt32) : UInt64 :=
  (word &&& (0xffffffff00000000 : UInt64)) ||| half.toUInt64

def withHigh (word : UInt64) (half : UInt32) : UInt64 :=
  (word &&& (0x00000000ffffffff : UInt64)) ||| (half.toUInt64 <<< (32 : UInt64))

def featuresPage (features : UInt64) (sel : UInt32) : UInt32 :=
  if sel = 0 then features.toUInt32
  else if sel = 1 then (features >>> 32).toUInt32
  else 0

/-- So many bytes of the config space from an offset on, with zeros past its end. -/
def readConfig (src : Bytes) (offset : UInt64) (length : Nat) : Bytes :=
  let bytes := (src.drop offset.toNat).take length
  bytes ++ List.replicate (length - bytes.length) 0

namespace Transport

variable (t : Transport)

def reset : Transport :=
  { t with
    status := 0
    deviceFeaturesSel := 0
    driverFeaturesSel := 0
    driverFeatures := 0
    queueSel := 0
    queues := List.replicate t.numQueues {}
    interruptStatus := 0 }

def new (deviceID : UInt32) (deviceFeatures : UInt64) (numQueues : Nat) (queueMaxSize : UInt32)
    (config : Bytes) :
    Transport :=
  reset { deviceID, deviceFeatures :=
    deviceFeatures ||| 0x100000000, numQueues, queueMaxSize, config }

def selectedQueue : Option Queue := t.queues[t.queueSel.toNat]?

/-- A write through the selected queue's pointer, which is nil out of range. -/
def updateSelected (change : Queue → Queue) : Transport :=
  { t with queues := t.queues.modify t.queueSel.toNat change }

/-- The data that a guest read leaves in the buffer `data`. -/
def read (offset : UInt64) (data : Bytes) : Bytes :=
  if configSpaceOffset ≤ offset then readConfig t.config (offset - configSpaceOffset) data.length
  else if data.length ≠ 4 then data
  else
    let val : UInt32 :=
      match Register.find offset with
      | some .magicValue => magicValue
      | some .version => transportVersion
      | some .deviceID => t.deviceID
      | some .deviceFeatures => featuresPage t.deviceFeatures t.deviceFeaturesSel
      | some .queueNumMax => t.queueMaxSize
      | some .queueReady => if (t.selectedQueue.map Queue.ready).getD false then 1 else 0
      | some .interruptStatus => t.interruptStatus
      | some .status => t.status.toUInt32
      | _ => 0
    littleEndian 4 val.toNat

/-- What a four-byte write to a register does. -/
def set (val : UInt32) : Register → Transport
  | .deviceFeaturesSel => { t with deviceFeaturesSel := val }
  | .driverFeaturesSel => { t with driverFeaturesSel := val }
  | .driverFeatures =>
    -- any selector other than 0 writes the high half
    if t.driverFeaturesSel = 0 then { t with driverFeatures := withLow t.driverFeatures val }
    else { t with driverFeatures := withHigh t.driverFeatures val }
  | .queueSel => { t with queueSel := val }
  | .queueNum =>
    if 0 < val ∧ val ≤ t.queueMaxSize then t.updateSelected fun q => { q with size := val } else t
  | .queueReady => t.updateSelected fun q => { q with ready := val &&& 1 ≠ 0 }
  | .interruptACK => { t with interruptStatus := t.interruptStatus &&& ~~~val }
  | .status => if val = 0 then t.reset else { t with status := val.toUInt8 }
  | .queueDescLow => t.updateSelected fun q => { q with desc := withLow q.desc val }
  | .queueDescHigh => t.updateSelected fun q => { q with desc := withHigh q.desc val }
  | .queueDriverLow => t.updateSelected fun q => { q with avail := withLow q.avail val }
  | .queueDriverHigh => t.updateSelected fun q => { q with avail := withHigh q.avail val }
  | .queueDeviceLow => t.updateSelected fun q => { q with used := withLow q.used val }
  | .queueDeviceHigh => t.updateSelected fun q => { q with used := withHigh q.used val }
  | _ => t

def write (offset : UInt64) (data : Bytes) : Transport :=
  if configSpaceOffset ≤ offset then t
  else if data.length ≠ 4 then t
  else
    match Register.find offset with
    | some register => t.set (UInt32.ofNat (ofLittleEndian data)) register
    | none => t

/-- The zero queue out of range. -/
def queue (idx : Nat) : Queue := t.queues.getD idx {}

def raiseUsedBufferInterrupt : Transport :=
  { t with interruptStatus := t.interruptStatus ||| usedBufferInterrupt }

end Transport

end Infrastructure.Hypervisor
