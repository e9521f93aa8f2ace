import Infrastructure.Hypervisor.Transport
import Infrastructure.Hypervisor.VirtQueue

/-! The block and the network device.

A device keeps the queue object it built last, with the available address it built it from.
What it does to guest memory and its backend is a program. -/

namespace Infrastructure.Hypervisor

open Concurrency Memory State Boot

def newVirtQueue (queue : Nat) (q : Queue) : VirtQueue :=
  ⟨queue, q.size.toUInt16, q.desc, q.avail, q.used⟩

/-- A cached queue object, its `lastAvailIdx` and the address it was built from. -/
structure Slot where
  queue : Option VirtQueue := none
  last : UInt16 := 0
  addr : UInt64 := 0
  deriving DecidableEq, Repr

/-- `ensureQueue`, and each half of `ensureQueues`. -/
def Slot.ensure (slot : Slot) (i : Nat) (q : Queue) : Slot :=
  if q.ready ∧ q.avail ≠ slot.addr then ⟨some (newVirtQueue i q), 0, q.avail⟩ else slot

namespace Blk

def reqHeaderSize : Nat := 16
def typeIn : Nat := 0
def typeOut : Nat := 1
def typeFlush : Nat := 4
def statusOK : UInt8 := 0
def statusIOErr : UInt8 := 1
def statusUnsupp : UInt8 := 2
def sectorSize : Nat := 512

/-- The data read goes to guest memory; a reader returns at most what it was asked for. -/
def executeIn : List Segment → Int → UInt32 → Go (UInt8 × UInt32)
  | [], _, written => return (statusOK, written)
  | seg :: rest, offset, written => do
      let (bytes, failure) ← ask (.readAt offset seg.length)
      let bytes := bytes.take seg.length
      let _ ← ask (.store seg.addr bytes)
      let written := written + UInt32.ofNat bytes.length
      if failure = some .other then return (statusIOErr, written)
      else executeIn rest (offset + bytes.length) written

def executeOut : List Segment → Int → Go (UInt8 × UInt32)
  | [], _ => return (statusOK, 0)
  | seg :: rest, offset => do
      let bytes ← ask (.load seg.addr seg.length)
      let (count, failure) ← ask (.writeAt offset bytes)
      if failure.isSome then return (statusIOErr, 0)
      else executeOut rest (offset + count)

def execute (readonly : Bool) (reqType : Nat) (offset : Int) (data : List Segment) :
    Go (UInt8 × UInt32) := do
  if reqType = typeIn then executeIn data offset 0
  else if reqType = typeOut then
    if readonly then return (statusIOErr, 0) else executeOut data offset
  else if reqType = typeFlush then
    let failure ← ask .sync
    return (if failure.isSome then statusIOErr else statusOK, 0)
  else return (statusUnsupp, 0)

/-- The first segment is the header and the last the status byte, whatever their flags say. -/
def handleRequest (readonly : Bool) (chain : Chain) : Go UInt32 := do
  match chain.segments with
  | header :: next :: rest =>
    let status := (next :: rest).getLast (List.cons_ne_nil next rest)
    let data := (next :: rest).dropLast
    if header.length < reqHeaderSize ∨ status.length < 1 then return 0
    else
      let reqType ← loadWord header.addr 4
      let sector ← loadWord (header.addr + 8) 8
      if (2 ^ 63 - 1) / sectorSize < sector then
        let _ ← ask (.store status.addr [statusIOErr])
        return 1
      else
        let (code, written) ← execute readonly reqType (sector * sectorSize) data
        let _ ← ask (.store status.addr [code])
        return written + 1
  | _ => return 0

end Blk

namespace Net

def hdrSize : Nat := 10

def gather : List Segment → Go Bytes
  | [] => return []
  | seg :: rest => do
      let bytes ← ask (.load seg.addr seg.length)
      return bytes ++ (← gather rest)

def transmit (chain : Chain) : Go (Except Error Unit) := do
  let total := (chain.segments.map Segment.length).sum
  if total < hdrSize then
    return .error
      (.new ("virtio: tx descriptor chain is " ++ toString total ++ " bytes, shorter than the " ++
      toString hdrSize ++ "-byte virtio_net_hdr"))
  else
    let buf ← gather chain.segments
    match ← ask (.send (buf.drop hdrSize)) with
    | none => return .ok ()
    | some _ => return .error (.new "write tap")

/-- The bytes written, and those for which there was no room. -/
def writeAcross : List Segment → Bytes → Nat → Go (Nat × Bytes)
  | [], remaining, written => return (written, remaining)
  | seg :: rest, remaining, written =>
    if ¬seg.writable ∨ remaining = [] then writeAcross rest remaining written
    else do
      let bytes := remaining.take seg.length
      let _ ← ask (.store seg.addr bytes)
      writeAcross rest (remaining.drop seg.length) (written + bytes.length)

end Net

end Infrastructure.Hypervisor
