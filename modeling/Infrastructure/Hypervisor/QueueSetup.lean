import Infrastructure.Hypervisor.Devices

/-! How a device follows the driver's configuration of one of its queues: it builds a queue object
when the queue is ready at an available address other than that of the object it has. -/

namespace Infrastructure.Hypervisor

open Memory State Boot

/-- The queue that a notification has the device process, and the index it goes on from. -/
def Slot.processed (slot : Slot) : Option (VirtQueue × UInt16) :=
  slot.queue.map fun queue => (queue, slot.last)

/-- A queue of a device, with the configuration last found ready, whether it has changed since, and
how many chains were taken since it was set. -/
structure QueueState where
  transport : Transport
  slot : Slot := {}
  used : Queue := {}
  changed : Bool := false
  taken : UInt16 := 0

/-- The driver writes a register, a frame comes in, or the device is notified and takes so many
chains. -/
inductive QueueEvent where
  | write (offset : UInt64) (data : Bytes)
  | frame
  | notify (count : UInt16)

def QueueEvent.looks : QueueEvent → Bool
  | .write _ _ => false
  | _ => true

namespace QueueState

variable (i : Nat) (now : QueueState)

def queue : Queue := now.transport.queue i

/-- `ensureQueue`. -/
def look : QueueState :=
  { now with
    slot := now.slot.ensure i (now.queue i)
    used := if (now.queue i).ready then now.queue i else now.used
    changed := now.changed && !(now.queue i).ready }

def step : QueueEvent → QueueState
  | .write offset data =>
    let transport := now.transport.write offset data
    if transport.queue i = now.queue i then { now with transport }
    else { now with transport, changed := true, taken := 0 }
  | .frame => now.look i
  | .notify count =>
    let now := now.look i
    if now.slot.queue.isSome then
      { now with slot := { now.slot with last := now.slot.last + count }, taken :=
        now.taken + count }
    else now

/-- A notification processes the ready configuration, from where the device got to since it was
set. -/
def Follows : Prop :=
  (now.look i).slot.processed =
    if (now.queue i).ready then some (newVirtQueue i (now.queue i), now.taken) else none

/-- A configuration set anew has another available address; a queue that is not ready never was. -/
def Distinct : Prop :=
  if (now.queue i).ready then now.changed = false ∨ (now.queue i).avail ≠ now.used.avail
  else now.used.ready = false

/-- The states of runs in which the driver keeps to that whenever the device looks at the queue. -/
inductive Reached (start : Transport) : QueueState → Prop
  | start : Reached start { transport := start }
  | step {now : QueueState} (reached : Reached start now) (event : QueueEvent)
      (meets : event.looks = true → now.Distinct i) : Reached start (now.step i event)

/-- The object of the device is that of the configuration it last used. -/
structure InStep : Prop where
  addr : now.slot.addr = now.used.avail
  built : now.slot.queue = if now.used.ready then some (newVirtQueue i now.used) else none
  same : now.changed = false → now.queue i = now.used
  last : now.changed = false → now.slot.last = now.taken
  fresh : now.changed = true → now.taken = 0

variable {i now}

theorem InStep.look (kept : now.InStep i) (nodup : now.Distinct i) :
    (now.look i).InStep i ∧ now.Follows i := by
  unfold Distinct at nodup
  unfold Follows
  cases ready : (now.queue i).ready with
  | false =>
    rw [if_neg (by simp [ready])] at nodup
    have idle : now.look i = now := by simp [QueueState.look, Slot.ensure, ready]
    have empty : now.slot.queue = none := by simp [kept.built, nodup]
    rw [idle]
    exact ⟨kept, by simp [Slot.processed, empty]⟩
  | true =>
    rw [if_pos ready] at nodup
    by_cases eq : (now.queue i).avail = now.slot.addr
    · -- the object at hand is that of this very configuration
      have same : now.changed = false := nodup.resolve_right (not_not.mpr (eq.trans kept.addr))
      have used := kept.same same
      have idle : now.look i = now := by
        have slot : now.slot.ensure i (now.queue i) = now.slot := if_neg (by simp [eq])
        rw [QueueState.look, slot, if_pos ready, used, same, Bool.false_and, ← same]
      rw [idle]
      exact ⟨kept, by simp [Slot.processed, kept.built, ← used, ready, kept.last same]⟩
    · have new : now.changed = true := by
        by_contra quiet
        exact eq (by rw [kept.same (by simpa using quiet), kept.addr])
      have rebuilt : now.slot.ensure i (now.queue i) =
          ⟨some (newVirtQueue i (now.queue i)), 0, (now.queue i).avail⟩ := if_pos ⟨ready, eq⟩
      have fresh := kept.fresh new
      refine ⟨⟨?_, ?_, fun _ => (if_pos ready).symm, ?_, ?_⟩, ?_⟩ <;>
        simp [QueueState.look, rebuilt, ready, fresh, Slot.processed]

theorem InStep.step (kept : now.InStep i) (event : QueueEvent)
    (meets : event.looks = true → now.Distinct i) :
    (now.step i event).InStep i := by
  cases event with
  | write offset data =>
    simp only [QueueState.step]
    split
    · next eq => exact ⟨kept.addr, kept.built, fun quiet => eq.trans (kept.same quiet), kept.last,
        kept.fresh⟩
    · exact ⟨kept.addr, kept.built, nofun, nofun, fun _ => rfl⟩
  | frame => exact (kept.look (meets rfl)).1
  | notify count =>
    obtain ⟨looked, follows⟩ := kept.look (meets rfl)
    simp only [QueueState.step]
    split
    · next built =>
      -- only a ready queue has been built, and it is unchanged now
      have ready : (now.queue i).ready = true := by
        by_contra idle
        rw [Follows, if_neg idle, Slot.processed, Option.map_eq_none_iff] at follows
        simp [follows] at built
      have same : (now.look i).changed = false := by simp [QueueState.look, ready]
      exact ⟨looked.addr, looked.built, looked.same, fun quiet => by rw [looked.last quiet],
        fun new => absurd new (by simp [same])⟩
    · exact looked

/-- A notification processes the ready configuration, from the index counted since it was set. -/
theorem queue_follows_transport (i : Nat) (deviceID : UInt32) (features : UInt64) (numQueues : Nat)
    (queueMaxSize : UInt32) (config : Bytes) (now : QueueState)
    (reached : Reached i (.new deviceID features numQueues queueMaxSize config) now)
    (nodup : now.Distinct i) :
    now.Follows i := by
  have kept : now.InStep i := by
    clear nodup
    induction reached with
    | start =>
      refine ⟨rfl, rfl, fun _ => ?_, fun _ => rfl, nofun⟩
      simp [queue, Transport.queue, Transport.new, Transport.reset]
    | step _ event meets ih => exact ih.step event meets
  exact (kept.look nodup).2

def register (register : Register) (val : Nat) : QueueEvent :=
  .write register.offset (littleEndian 4 val)

/-- The driver of a block device sets up its queue. -/
def setUp : List QueueEvent :=
  [register .queueNum 8, register .queueDriverLow 4096, register .queueReady 1]

/-- Three requests are taken, and then the driver sets the queue up as before. -/
def resetQueue : QueueState :=
  (setUp ++ [.notify 3, register .status 0] ++ setUp).foldl (step 0)
    { transport := .new 2 0 1 256 [] }

/-- The device goes on from the old index. -/
theorem reset_queue_goes_on : ¬resetQueue.Follows 0 := by
  unfold Follows
  decide +kernel

theorem queue_follows_transport_setUp :
    (setUp.foldl (step 0) { transport := .new 2 0 1 256 [] }).Follows 0 := by
  refine queue_follows_transport 0 2 0 1 256 [] _ ?_ (by unfold Distinct; decide +kernel)
  exact ((Reached.start.step (register .queueNum 8) nofun).step
    (register .queueDriverLow 4096) nofun).step
    (register .queueReady 1) nofun

end QueueState

end Infrastructure.Hypervisor
