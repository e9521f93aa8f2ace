import Infrastructure.Concurrency.Recording
import Infrastructure.Concurrency.Sequential
import Infrastructure.Hypervisor.VirtQueue

/-! The device and the driver of one virtqueue over shared memory.

Any number of threads call `Pop` and `Push`. The driver publishes heads, consumes used
entries and writes the rest of guest memory as it likes. -/

namespace Infrastructure.Hypervisor

open Concurrency Memory State Boot List

/-- Guest memory and the queue object, with the heads published and passed and the entries consumed,
oldest first. -/
structure Ring where
  cells : Cells
  last : UInt16
  held : Bool
  published : List UInt16
  returned : List UInt16
  consumed : List (UInt32 × UInt32)

namespace Ring

def Enabled (ring : Ring) : Bus → Prop
  | .lock _ => ring.held = false
  | _ => True

/-- The queue has no backend: operations on one fail. -/
def answer : (op : Bus) → Ring → op.Reply × Ring
  | .lock _, ring => ((), { ring with held := true })
  | .unlock _, ring => ((), { ring with held := false })
  | .lastAvailIdx _, ring => (ring.last, ring)
  | .advance _ head, ring =>
    ((), { ring with last := ring.last + 1, returned := ring.returned ++ [head] })
  | .load addr length, ring => (ring.cells.read addr length, ring)
  | .store addr bytes, ring => ((), { ring with cells := ring.cells.write addr bytes })
  | .readAt _ _, ring => (([], some .other), ring)
  | .writeAt _ _, ring => ((0, some .other), ring)
  | .sync, ring => (some .other, ring)
  | .send _, ring => (some .other, ring)
  | .raiseUsedBuffer, ring => ((), ring)
  | .interrupt, ring => ((), ring)

@[simp] theorem answer_load (addr length : Nat) (ring : Ring) :
    answer (.load addr length) ring = (ring.cells.read addr length, ring) := rfl

@[simp] theorem answer_lastAvailIdx (queue : Nat) (ring : Ring) :
    answer (.lastAvailIdx queue) ring = (ring.last, ring) := rfl

def alone {α : Type} (prog : Go α) (ring : Ring) : Except Halt α × Ring :=
  Program.run answer prog ring

end Ring

namespace VirtQueue

variable (vq : VirtQueue)

def slots : Nat := vq.size.toNat

def availIdxAddr : Nat := vq.availAddr.toNat + 2
def availSlot (count : Nat) : Nat := vq.availAddr.toNat + 4 + 2 * (count % vq.slots)
def usedIdxAddr : Nat := vq.usedAddr.toNat + 2
def usedSlot (count : Nat) : Nat := vq.usedAddr.toNat + 4 + 8 * (count % vq.slots)

def availIdx (cells : Cells) : Nat := ofLittleEndian (cells.read vq.availIdxAddr 2)

def availEntry (cells : Cells) (count : Nat) : UInt16 :=
  UInt16.ofNat (ofLittleEndian (cells.read (vq.availSlot count) 2))

def usedIdx (cells : Cells) : Nat := ofLittleEndian (cells.read vq.usedIdxAddr 2)

def usedEntry (cells : Cells) (count : Nat) : UInt32 × UInt32 :=
  (UInt32.ofNat (ofLittleEndian (cells.read (vq.usedSlot count) 4)),
    UInt32.ofNat (ofLittleEndian (cells.read (vq.usedSlot count + 4) 4)))

def regions : List Region :=
  [⟨vq.descAddr.toNat, 16 * vq.slots⟩, ⟨vq.availAddr.toNat, 4 + 2 * vq.slots⟩,
    ⟨vq.usedAddr.toNat, 4 + 8 * vq.slots⟩]

structure Placed (memSize : Nat) : Prop where
  power : ∃ exponent < 16, vq.slots = 2 ^ exponent
  addressable : memSize < 2 ^ 63
  within : ∀ region ∈ vq.regions, region.Within memSize
  apart : vq.regions.Pairwise Region.Apart

/-- What the driver leaves alone: the available ring's index and outstanding entries, and the used
ring but its flags. -/
def Protected (ring : Ring) (address : Nat) : Prop :=
  (vq.availIdxAddr ≤ address ∧ address < vq.availIdxAddr + 2) ∨
    (∃ count, ring.consumed.length ≤ count ∧ count < ring.published.length ∧
      vq.availSlot count ≤ address ∧ address < vq.availSlot count + 2) ∨
    (vq.usedIdxAddr ≤ address ∧ address < vq.usedAddr.toNat + 4 + 8 * vq.slots)

inductive DriverStep (s : Ring) : Ring → Prop
  | write (cells : Cells)
      (kept : ∀ address, vq.Protected s address → cells address = s.cells address) :
      DriverStep s { s with cells := cells }
  /-- The heads stand in the slots already; one store of the index makes them available. -/
  | publish (count : Nat)
      (room : s.published.length + count ≤ s.consumed.length + vq.slots) :
      DriverStep s { s with
        cells := s.cells.write vq.availIdxAddr (littleEndian 2 (s.published.length + count))
        published := s.published ++
          (List.range count).map fun offset => vq.availEntry s.cells (s.published.length + offset) }
  | consume (pending : vq.usedIdx s.cells ≠ s.consumed.length % 2 ^ 16) :
      DriverStep s { s with
        consumed := s.consumed ++ [vq.usedEntry s.cells s.consumed.length] }

def machine : Machine Bus Bus.Reply Ring where
  exec s op reply s' := s.Enabled op ∧ (reply, s') = Ring.answer op s
  drift := vq.DriverStep

end VirtQueue

inductive RingCall where
  | pop
  | push (head : UInt16) (written : UInt32)
  deriving DecidableEq, Repr

inductive RingResult where
  | popped (result : Except Halt (Except Error (Option Chain)))
  | pushed (result : Except Halt (Except Error Unit))

def VirtQueue.serve (vq : VirtQueue) (memSize : Nat) : RingCall → Program Bus Bus.Reply RingResult
  | .pop => Program.bind (vq.pop memSize) fun result => .ret (.popped result)
  | .push head written =>
    Program.bind (vq.push memSize head written) fun result => .ret (.pushed result)

abbrev RingEvent := Event Bus Bus.Reply RingCall
abbrev RingWorld := World Bus Bus.Reply (Recorded Ring) RingCall
abbrev RingMoment := Moment Bus Bus.Reply Ring RingCall

def holder : List RingEvent → Option Nat
  | [] => none
  | ⟨thread, _, .lock _, _⟩ :: _ => some thread
  | ⟨_, _, .unlock _, _⟩ :: _ => none
  | _ :: past => holder past

def RingEvent.beginsPush (event : RingEvent) : Bool :=
  match event.call, event.op with
  | .push _ _, .lock _ => true
  | _, _ => false

/-- The calls of `Push` that have taken the lock. -/
def begun (past : List RingEvent) : Nat := past.countP RingEvent.beginsPush

theorem begun_cons {event : RingEvent} (begins : event.beginsPush = true) (past : List RingEvent) :
    begun (event :: past) = begun past + 1 :=
  countP_cons_of_pos begins

namespace VirtQueue

variable (vq : VirtQueue)

/-- The entry that a store of `used.idx` publishes. -/
def publishes (event : RingEvent) : Option (UInt32 × UInt32) :=
  match event.call, event.op with
  | .push head written, .store addr _ =>
    if addr = vq.usedIdxAddr then some (head.toUInt32, written) else none
  | _, _ => none

def pushed (past : List RingEvent) : List (UInt32 × UInt32) := (past.filterMap vq.publishes).reverse

/-- The bytes of the rings agree with the unbounded counters of heads and entries. -/
structure Consistent (ring : Ring) (pushed : List (UInt32 × UInt32)) (begun : Nat) : Prop where
  last : ring.last.toNat = ring.returned.length % 2 ^ 16
  returned : ring.returned <+: ring.published
  window : ring.published.length ≤ ring.consumed.length + vq.slots
  availIdx : vq.availIdx ring.cells = ring.published.length % 2 ^ 16
  availEntry : ∀ count, ring.consumed.length ≤ count → ∀ inside : count < ring.published.length,
    vq.availEntry ring.cells count = ring.published[count]
  usedIdx : vq.usedIdx ring.cells = pushed.length % 2 ^ 16
  usedEntry : ∀ count, ring.consumed.length ≤ count → ∀ inside : count < pushed.length,
    vq.usedEntry ring.cells count = pushed[count]
  consumed : ring.consumed <+: pushed
  pushed : pushed.length ≤ begun
  answered : begun ≤ ring.returned.length

structure RingInvariant (w : RingWorld) : Prop where
  held : w.state.now.held = (holder w.past).isSome
  consistent : vq.Consistent w.state.now (vq.pushed w.past) (begun w.past)

section

variable {vq : VirtQueue} {memSize : Nat}

section

variable (placed : vq.Placed memSize)
include placed

theorem Placed.slots_pos : 0 < vq.slots := by
  obtain ⟨exponent, -, power⟩ := placed.power
  rw [power]
  exact Nat.two_pow_pos exponent

theorem Placed.slots_lt : vq.slots < 2 ^ 16 := by
  obtain ⟨exponent, small, power⟩ := placed.power
  rw [power]
  exact Nat.pow_lt_pow_right (by decide) small

theorem Placed.slots_dvd : vq.slots ∣ 2 ^ 16 := by
  obtain ⟨exponent, small, power⟩ := placed.power
  rw [power]
  exact Nat.pow_dvd_pow 2 small.le

theorem Placed.size_ne : vq.size ≠ 0 := by
  intro zero
  have pos := placed.slots_pos
  rw [slots, zero] at pos
  exact absurd pos (by decide)

theorem Placed.avail_within : vq.availAddr.toNat + (4 + 2 * vq.slots) ≤ memSize :=
  placed.within ⟨vq.availAddr.toNat, 4 + 2 * vq.slots⟩ (by simp [regions])

theorem Placed.used_within : vq.usedAddr.toNat + (4 + 8 * vq.slots) ≤ memSize :=
  placed.within ⟨vq.usedAddr.toNat, 4 + 8 * vq.slots⟩ (by simp [regions])

theorem Placed.rings_apart : vq.availAddr.toNat + (4 + 2 * vq.slots) ≤ vq.usedAddr.toNat ∨
      vq.usedAddr.toNat + (4 + 8 * vq.slots) ≤ vq.availAddr.toNat := by
  have apart := placed.apart
  simp only [regions, pairwise_cons, mem_cons, not_mem_nil, or_false, forall_eq_or_imp, forall_eq,
    Region.Apart, Region.stop] at apart
  exact apart.2.1

theorem Placed.slot_index (count : Nat) : count % 2 ^ 16 % vq.slots = count % vq.slots :=
  Nat.mod_mod_of_dvd count placed.slots_dvd

theorem Placed.slot_lt (count : Nat) : count % vq.slots < vq.slots :=
  Nat.mod_lt count placed.slots_pos

theorem Placed.availIdx_toNat : (vq.availAddr + 2).toNat = vq.availIdxAddr := by
  have within := placed.avail_within
  have addressable := placed.addressable
  rw [UInt64.toNat_add, availIdxAddr]
  exact Nat.mod_eq_of_lt (by change vq.availAddr.toNat + 2 < 2 ^ 64; omega)

theorem Placed.usedIdx_toNat : (vq.usedAddr + 2).toNat = vq.usedIdxAddr := by
  have within := placed.used_within
  have addressable := placed.addressable
  rw [UInt64.toNat_add, usedIdxAddr]
  exact Nat.mod_eq_of_lt (by change vq.usedAddr.toNat + 2 < 2 ^ 64; omega)

end

theorem entry_toNat {base width : UInt64} {i size : UInt16}
    (fits : base.toNat + 4 + width.toNat * (i.toNat % size.toNat) < 2 ^ 64) :
    (base + 4 + (i % size).toUInt64 *
      width).toNat = base.toNat + 4 + width.toNat * (i.toNat % size.toNat) := by
  have four : (4 : UInt64).toNat = 4 := rfl
  rw [UInt64.toNat_add, UInt64.toNat_add, UInt64.toNat_mul, UInt16.toNat_toUInt64, UInt16.toNat_mod,
    four, Nat.mul_comm (i.toNat % size.toNat)]
  rw [Nat.mod_eq_of_lt (a := base.toNat + 4) (by omega),
    Nat.mod_eq_of_lt (a := width.toNat * _) (by omega), Nat.mod_eq_of_lt fits]

section

variable (placed : vq.Placed memSize)

include placed

theorem Placed.availEntry_toNat (i : UInt16) :
    (vq.availEntryOffset i).toNat = vq.availSlot i.toNat := by
  have within := placed.avail_within
  have addressable := placed.addressable
  have mem := placed.slot_lt i.toNat
  unfold slots at within mem
  have two : availEntrySize.toNat = 2 := rfl
  exact (entry_toNat (by rw [two]; omega)).trans (by rw [two, availSlot, slots])

theorem Placed.usedEntry_toNat (i : UInt16) :
    (vq.usedEntryOffset i).toNat = vq.usedSlot i.toNat := by
  have within := placed.used_within
  have addressable := placed.addressable
  have mem := placed.slot_lt i.toNat
  unfold slots at within mem
  have eight : usedEntrySize.toNat = 8 := rfl
  exact (entry_toNat (by rw [eight]; omega)).trans (by rw [eight, usedSlot, slots])

theorem Placed.popLocked_eq :
    vq.popLocked memSize =
      (.call (.load vq.availIdxAddr 2) fun bytes => .call (.lastAvailIdx vq.queue) fun last =>
      if UInt16.ofNat (ofLittleEndian bytes) = last then .ret (.ok (.ok none))
      else .call (.load (vq.availSlot last.toNat) 2) fun entry =>
        Program.bind (vq.readChain memSize (UInt16.ofNat (ofLittleEndian entry))) fun
          | .ok (.ok chain) =>
            .call (.advance vq.queue (UInt16.ofNat (ofLittleEndian entry))) fun _ =>
            .ret (.ok (.ok (some chain)))
          | .ok (.error err) => .ret (.ok (.error err))
          | .error halt => .ret (.error halt) : Program Bus Bus.Reply _) := by
  have within := placed.avail_within
  have idx : slice memSize (vq.availAddr + 2) 2 = pure (.ok (vq.availIdxAddr, 2)) := by
    rw [← placed.availIdx_toNat]
    exact slice_within (by rw [placed.availIdx_toNat, availIdxAddr]; omega) placed.addressable
  have entry (i : UInt16) :
      slice memSize (vq.availEntryOffset i) availEntrySize.toNat =
        pure (.ok (vq.availSlot i.toNat, 2)) := by
    have mem := placed.slot_lt i.toNat
    rw [← placed.availEntry_toNat]
    refine slice_within ?_ placed.addressable
    rw [placed.availEntry_toNat, availSlot, show availEntrySize.toNat = 2 from rfl]
    omega
  unfold popLocked readAvailIdx loadWord
  simp only [idx, entry, placed.size_ne, if_false]
  refine congrArg (Program.call _)
    (funext fun bytes => congrArg (Program.call _) (funext fun last => ?_))
  change ite (UInt16.ofNat (ofLittleEndian bytes) = last) _ _ = ite _ _ _
  refine if_congr Iff.rfl rfl (congrArg (Program.call _) (funext fun entry => ?_))
  refine (go_bind (vq.readChain memSize (UInt16.ofNat (ofLittleEndian entry))) _).trans ?_
  refine congrArg (Program.bind _) (funext fun out => ?_)
  rcases out with halt | (err | chain)
  · rfl
  · rfl
  · rfl

theorem Placed.pushLocked_eq (head : UInt16) (wrote : UInt32) :
    vq.pushLocked memSize head wrote = (.call (.load vq.usedIdxAddr 2) fun bytes =>
      .call (.store (vq.usedSlot (UInt16.ofNat (ofLittleEndian bytes)).toNat)
        (littleEndian 4 head.toNat)) fun _ =>
      .call (.store (vq.usedSlot (UInt16.ofNat (ofLittleEndian bytes)).toNat + 4)
        (littleEndian 4 wrote.toNat)) fun _ =>
      .call (.store vq.usedIdxAddr (littleEndian 2 (UInt16.ofNat (ofLittleEndian bytes) + 1).toNat))
        fun _ =>
        .ret (.ok (.ok ())) : Program Bus Bus.Reply _) := by
  have within := placed.used_within
  have idx : slice memSize (vq.usedAddr + 2) 2 = pure (.ok (vq.usedIdxAddr, 2)) := by
    rw [← placed.usedIdx_toNat]
    exact slice_within (by rw [placed.usedIdx_toNat, usedIdxAddr]; omega) placed.addressable
  have entry (i : UInt16) :
      slice memSize (vq.usedEntryOffset i) usedEntrySize.toNat =
        pure (.ok (vq.usedSlot i.toNat, 8)) := by
    have mem := placed.slot_lt i.toNat
    rw [← placed.usedEntry_toNat]
    refine slice_within ?_ placed.addressable
    rw [placed.usedEntry_toNat, usedSlot, show usedEntrySize.toNat = 8 from rfl]
    omega
  unfold pushLocked readUsedIdx loadWord
  simp only [idx, entry, placed.size_ne, if_false]
  rfl

end

end

section

variable {vq : VirtQueue} {memSize : Nat}

theorem availIdx_congr {first snd : Cells} (eq : ∀ addr, vq.availIdxAddr ≤ addr →
    addr < vq.availIdxAddr + 2 → first addr = snd addr) : vq.availIdx first = vq.availIdx snd := by
  rw [availIdx, availIdx, Cells.read_congr eq]

theorem availEntry_congr {first snd : Cells} {count : Nat} (eq : ∀ addr, vq.availSlot count ≤ addr →
    addr < vq.availSlot count + 2 → first addr = snd addr) :
    vq.availEntry first count = vq.availEntry snd count := by
  rw [availEntry, availEntry, Cells.read_congr eq]

theorem usedIdx_congr {first snd : Cells} (eq : ∀ addr, vq.usedIdxAddr ≤ addr →
    addr < vq.usedIdxAddr + 2 → first addr = snd addr) : vq.usedIdx first = vq.usedIdx snd := by
  rw [usedIdx, usedIdx, Cells.read_congr eq]

theorem usedEntry_congr {first snd : Cells} {count : Nat} (eq : ∀ addr, vq.usedSlot count ≤ addr →
    addr < vq.usedSlot count + 8 → first addr = snd addr) :
    vq.usedEntry first count = vq.usedEntry snd count := by
  have low : first.read (vq.usedSlot count) 4 = snd.read (vq.usedSlot count) 4 :=
    Cells.read_congr fun addr above below => eq addr above (by omega)
  have high : first.read (vq.usedSlot count + 4) 4 = snd.read (vq.usedSlot count + 4) 4 :=
    Cells.read_congr fun addr above below => eq addr (by omega) (by omega)
  rw [usedEntry, usedEntry, low, high]

theorem read_littleEndian (cells : Cells) (base width val : Nat) :
    ofLittleEndian ((cells.write base (littleEndian width val)).read base width) =
      val % 256 ^ width := by
  have wrote := cells.read_write base (littleEndian width val)
  rw [length_littleEndian] at wrote
  rw [wrote, ofLittleEndian_littleEndian]

variable {ring : Ring} {pushed : List (UInt32 × UInt32)} {begun : Nat}
variable (kept : vq.Consistent ring pushed begun)
include kept

theorem Consistent.consumed_le : ring.consumed.length ≤ pushed.length :=
  kept.consumed.length_le

theorem Consistent.returned_le : ring.returned.length ≤ ring.published.length :=
  kept.returned.length_le

theorem Consistent.consumed_le_returned : ring.consumed.length ≤ ring.returned.length :=
  calc ring.consumed.length
      ≤ pushed.length := kept.consumed_le
    _ ≤ begun := kept.pushed
    _ ≤ ring.returned.length := kept.answered

/-- The device's index meets `avail.idx` exactly when every published head is returned. -/
theorem Consistent.index_eq_iff (placed : vq.Placed memSize) :
    UInt16.ofNat (vq.availIdx ring.cells) = ring.last ↔ ring.returned = ring.published := by
  rw [← UInt16.toNat_inj, UInt16.toNat_ofNat', kept.availIdx, kept.last, Nat.mod_mod]
  constructor
  · intro eq
    have window := kept.window
    have behind := kept.consumed_le_returned
    have small := placed.slots_lt
    have equal := eq_of_index_eq kept.returned_le (by omega) eq
    exact kept.returned.eq_of_length equal.symm
  · intro eq
    rw [eq]

theorem Consistent.locks (held : Bool) : vq.Consistent { ring with held := held } pushed begun :=
  ⟨kept.last, kept.returned, kept.window, kept.availIdx, kept.availEntry, kept.usedIdx,
    kept.usedEntry, kept.consumed, kept.pushed, kept.answered⟩

theorem Consistent.begins (answers : begun + 1 ≤ ring.returned.length) :
    vq.Consistent ring pushed (begun + 1) :=
  { kept with pushed := kept.pushed.trans (Nat.le_succ begun), answered := answers }

theorem Consistent.advance {head : UInt16}
    (next : ring.published[ring.returned.length]? = some head) :
    vq.Consistent { ring with last := ring.last + 1, returned :=
      ring.returned ++ [head] } pushed begun := by
  obtain ⟨rest, split⟩ := kept.returned
  have first : rest.head? = some head := by
    rw [← split, List.getElem?_append_right le_rfl, Nat.sub_self] at next
    rw [List.head?_eq_getElem?, next]
  obtain ⟨tail, rfl⟩ := List.head?_eq_some_iff.mp first
  refine { kept with last := ?_, returned := ⟨tail, by simpa using split⟩, answered := ?_ }
  · have last := kept.last
    simp only [UInt16.toNat_add, length_append, length_singleton, last]
    change (ring.returned.length % 2 ^ 16 + 1) % 2 ^ 16 = _
    omega
  · have answered := kept.answered
    simp only [length_append, length_singleton]
    omega

theorem Consistent.free (running : pushed.length < begun) :
    pushed.length < ring.consumed.length + vq.slots := by
  have answered := kept.answered
  have out := kept.returned_le
  have window := kept.window
  omega

theorem Consistent.store (placed : vq.Placed memSize) (running : pushed.length < begun) {t : Nat}
    {bytes : Bytes} (low : vq.usedSlot pushed.length ≤ t)
    (high : t + bytes.length ≤ vq.usedSlot pushed.length + 8) :
    vq.Consistent { ring with cells := ring.cells.write t bytes } pushed begun := by
  have mem := placed.slot_lt pushed.length
  have apart := placed.rings_apart
  have same (addr : Nat) (out : addr < vq.usedSlot pushed.length ∨
      vq.usedSlot pushed.length + 8 ≤ addr) : ring.cells.write t bytes addr = ring.cells addr :=
    Cells.write_of_not (by omega)
  refine { kept with availIdx := ?_, availEntry := ?_, usedIdx := ?_, usedEntry := ?_ }
  · rw [← kept.availIdx]
    refine availIdx_congr fun addr above below => same addr ?_
    unfold availIdxAddr at above below
    unfold usedSlot
    omega
  · intro count left has
    have slot := placed.slot_lt count
    rw [← kept.availEntry count left has]
    refine availEntry_congr fun addr above below => same addr ?_
    unfold availSlot at above below
    unfold usedSlot
    omega
  · rw [← kept.usedIdx]
    refine usedIdx_congr fun addr above below => same addr ?_
    unfold usedIdxAddr at above below
    unfold usedSlot
    omega
  · intro count left has
    have near : pushed.length < count + vq.slots :=
      (kept.free running).trans_le (Nat.add_le_add_right left vq.slots)
    have ne := slot_ne has near
    have slots := slots_apart 8 ne
    rw [← kept.usedEntry count left has]
    refine usedEntry_congr fun addr above below => same addr ?_
    unfold usedSlot at above below ⊢
    omega

theorem Consistent.complete (placed : vq.Placed memSize) (running : pushed.length < begun)
    {entry : UInt32 × UInt32} (wrote : vq.usedEntry ring.cells pushed.length = entry) {i : Nat}
    (next : i % 2 ^ 16 = (pushed.length + 1) % 2 ^ 16) :
    vq.Consistent { ring with cells := ring.cells.write vq.usedIdxAddr (littleEndian 2 i) }
      (pushed ++ [entry]) begun := by
  have pos := placed.slots_pos
  have apart := placed.rings_apart
  have same (addr : Nat) (out : addr < vq.usedIdxAddr ∨ vq.usedIdxAddr + 2 ≤ addr) :
      ring.cells.write vq.usedIdxAddr (littleEndian 2 i) addr = ring.cells addr :=
    Cells.write_of_not (by rw [length_littleEndian]; exact out)
  refine { kept with
    availIdx := ?_, availEntry := ?_, usedIdx := ?_, usedEntry := ?_, consumed := ?_, pushed := ?_ }
  · rw [← kept.availIdx]
    refine availIdx_congr fun addr above below => same addr ?_
    unfold availIdxAddr at above below
    unfold usedIdxAddr
    omega
  · intro count left has
    have slot := placed.slot_lt count
    rw [← kept.availEntry count left has]
    refine availEntry_congr fun addr above below => same addr ?_
    unfold availSlot at above below
    unfold usedIdxAddr
    omega
  · rw [length_append, length_singleton, ← next]
    exact read_littleEndian ring.cells vq.usedIdxAddr 2 i
  · intro count left has
    have kept_entry : vq.usedEntry (ring.cells.write vq.usedIdxAddr (littleEndian 2 i)) count =
        vq.usedEntry ring.cells count := by
      refine usedEntry_congr fun addr above below => same addr ?_
      unfold usedSlot at above
      unfold usedIdxAddr
      omega
    rw [kept_entry]
    rw [length_append, length_singleton] at has
    rcases Nat.lt_or_ge count pushed.length with older | newest
    · rw [getElem_append_left older]
      exact kept.usedEntry count left older
    · obtain rfl : count = pushed.length := by omega
      rw [getElem_concat_length rfl]
      exact wrote
  · exact kept.consumed.trans (prefix_append pushed [entry])
  · rw [length_append, length_singleton]
    omega

theorem Consistent.driver (placed : vq.Placed memSize) {s' : Ring}
    (moved : vq.DriverStep ring s') : vq.Consistent s' pushed begun := by
  have pos := placed.slots_pos
  cases moved with
  | write cells eq =>
    refine { kept with availIdx := ?_, availEntry := ?_, usedIdx := ?_, usedEntry := ?_ }
    · rw [← kept.availIdx]
      exact availIdx_congr fun addr above below => eq addr (.inl ⟨above, below⟩)
    · intro count left has
      rw [← kept.availEntry count left has]
      exact availEntry_congr fun addr above below =>
        eq addr (.inr (.inl ⟨count, left, has, above, below⟩))
    · rw [← kept.usedIdx]
      refine usedIdx_congr fun addr above below => eq addr (.inr (.inr ⟨above, ?_⟩))
      unfold usedIdxAddr at below
      omega
    · intro count left has
      have slot := placed.slot_lt count
      rw [← kept.usedEntry count left has]
      refine usedEntry_congr fun addr above below => eq addr (.inr (.inr ?_))
      unfold usedSlot at above below
      unfold usedIdxAddr
      omega
  | publish count room =>
    have apart := placed.rings_apart
    have same (addr : Nat) (out : addr < vq.availIdxAddr ∨ vq.availIdxAddr + 2 ≤ addr) :
        ring.cells.write vq.availIdxAddr (littleEndian 2 (ring.published.length + count)) addr =
          ring.cells addr :=
      Cells.write_of_not (by rw [length_littleEndian]; exact out)
    refine { kept with
      returned := kept.returned.trans (prefix_append _ _), window := ?_, availIdx :=
        ?_, availEntry := ?_, usedIdx := ?_, usedEntry := ?_ }
    · simpa using room
    · rw [length_append, length_map, length_range]
      exact read_littleEndian ring.cells vq.availIdxAddr 2 (ring.published.length + count)
    · intro item left has
      have kept_entry : vq.availEntry (ring.cells.write vq.availIdxAddr
          (littleEndian 2 (ring.published.length + count))) item =
            vq.availEntry ring.cells item := by
        refine availEntry_congr fun addr above below => same addr ?_
        unfold availSlot at above
        unfold availIdxAddr
        omega
      rw [kept_entry]
      rcases Nat.lt_or_ge item ring.published.length with older | newer
      · rw [getElem_append_left older]
        exact kept.availEntry item left older
      · rw [getElem_append_right newer, getElem_map, getElem_range, Nat.add_sub_cancel' newer]
    · rw [← kept.usedIdx]
      refine usedIdx_congr fun addr above below => same addr ?_
      unfold usedIdxAddr at above below
      unfold availIdxAddr
      omega
    · intro item left has
      have slot := placed.slot_lt item
      rw [← kept.usedEntry item left has]
      refine usedEntry_congr fun addr above below => same addr ?_
      unfold usedSlot at above below
      unfold availIdxAddr
      omega
  | consume pending =>
    have behind := kept.consumed_le
    have unequal : ring.consumed.length ≠ pushed.length := by
      intro equal
      exact pending (by rw [kept.usedIdx, equal])
    have has : ring.consumed.length < pushed.length := by omega
    refine { kept with window := ?_, availEntry := ?_, usedEntry := ?_, consumed := ?_ }
    · have window := kept.window
      simp only [length_append, length_singleton]
      omega
    · intro count left
      simp only [length_append, length_singleton] at left
      exact kept.availEntry count (by omega)
    · intro count left
      simp only [length_append, length_singleton] at left
      exact kept.usedEntry count (by omega)
    · rw [kept.usedEntry _ le_rfl has]
      obtain ⟨rest, split⟩ := kept.consumed
      subst split
      rw [getElem_append_right le_rfl]
      cases rest with
      | nil => simp at has
      | cons entry rest => exact ⟨rest, by simp⟩

end

end VirtQueue

end Infrastructure.Hypervisor
