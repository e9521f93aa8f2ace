import Infrastructure.Hypervisor.Boot

/-! What a virtio device can do: load and store guest memory, take the lock of a
virtqueue, and reach its backend. A device program can also panic. -/

namespace Infrastructure.Hypervisor

open Concurrency Memory State Boot Program

/-- How a read of the disk file can fail. -/
inductive IOError where
  | eof
  | other
  deriving DecidableEq, Repr

/-- `queue` tells the virtqueues of a device apart; `advance` is `lastAvailIdx++` for a head. -/
inductive Bus where
  | lock (queue : Nat)
  | unlock (queue : Nat)
  | lastAvailIdx (queue : Nat)
  | advance (queue : Nat) (head : UInt16)
  | load (addr length : Nat)
  | store (addr : Nat) (bytes : Bytes)
  | readAt (offset : Int) (length : Nat)
  | writeAt (offset : Int) (bytes : Bytes)
  | sync
  | send (frame : Bytes)
  | raiseUsedBuffer
  | interrupt
  deriving DecidableEq, Repr

@[reducible] def Bus.Reply : Bus → Type
  | .lastAvailIdx _ => UInt16
  | .load _ _ => Bytes
  | .readAt _ _ => Bytes × Option IOError
  | .writeAt _ _ => Nat × Option IOError
  | .sync => Option IOError
  | .send _ => Option IOError
  | _ => Unit

/-- A run-time panic, or a loop that the model follows only so far. -/
inductive Halt where
  | sliceBounds
  | indexRange
  | divideByZero
  | outOfFuel
  deriving DecidableEq, Repr

abbrev Go (α : Type) := ExceptT Halt (Program Bus Bus.Reply) α

def ask (op : Bus) : Go op.Reply := Program.call op fun reply => .ret (.ok reply)

/-- The body between `mu.Lock()` and the deferred `mu.Unlock()`, which also runs after a panic. -/
def locked {α : Type} (queue : Nat) (body : Go α) : Go α :=
  .call (.lock queue) fun _ =>
    Program.bind body fun result => .call (.unlock queue) fun _ => .ret result

section

variable {α β : Type}

theorem go_bind (prog : Go α) (next : α → Go β) : (prog >>= next) = (Program.bind prog fun
      | .ok val => next val
      | .error halt => .ret (.error halt) : Program Bus Bus.Reply (Except Halt β)) := by
  refine congrArg (Program.bind prog) (funext fun out => ?_)
  cases out with
  | ok val => rfl
  | error halt => rfl

theorem uses_then {allowed : Bus → Prop} {post : Except Halt β → Prop} {prog : Go α}
    {next : α → Go β} (halts : ∀ halt, post (.error halt))
    (first : Uses allowed (fun _ => True) prog)
    (rest : ∀ val, Uses allowed post (next val)) : Uses allowed post (prog >>= next : Go β) := by
  rw [go_bind]
  refine Uses.bind first fun out _ => ?_
  cases out with
  | ok val => exact rest val
  | error halt => exact halts halt

end

/-- `Machine.Slice`: the addresses that a slice covers. The sum wraps. -/
def slice (memSize : Nat) (addr : UInt64) (length : Nat) : Go (Except Error (Nat × Nat)) :=
  let stop := (addr.toNat + length) % 2 ^ 64
  if memSize < stop then
    return .error
      (.new ("hypervisor: guest memory [0x" ++ hexText addr.toNat ++ ", 0x" ++ hexText stop ++
      ") out of bounds (" ++ toString memSize ++ " bytes of memory)"))
  else if stop < addr.toNat then throw .sliceBounds
  else return .ok (addr.toNat, length)

theorem slice_uses (ok : Bus → Prop) (memSize : Nat) (addr : UInt64) (length : Nat) :
    Uses ok (fun _ => True) (slice memSize addr length) := by
  unfold slice
  dsimp only
  split
  · trivial
  · split
    · trivial
    · trivial

theorem slice_within {memSize : Nat} {addr : UInt64} {length : Nat}
    (fits : addr.toNat + length ≤ memSize) (addressable : memSize < 2 ^ 63) :
    slice memSize addr length = pure (.ok (addr.toNat, length)) := by
  have stop : (addr.toNat + length) % 2 ^ 64 = addr.toNat + length := Nat.mod_eq_of_lt (by omega)
  rw [slice, stop, if_neg (by omega), if_neg (by omega)]

/-- `Machine.Slice` for a length of either sign. -/
def sliceSigned (memSize : Nat) (addr : UInt64) (length : Int64) : Go (Except Error (Nat × Nat)) :=
  if length < 0 then
    return .error (.new ("hypervisor: guest memory [0x" ++ hexText addr.toNat ++ ", 0x" ++
      hexText (addr + length.toUInt64).toNat ++ ") out of bounds (" ++ toString memSize ++
        " bytes of memory)"))
  else slice memSize addr length.toInt.toNat

/-- The sum wraps into guest memory. -/
def Wraps (memSize : Nat) (addr : UInt64) (length : Int64) : Prop :=
  0 ≤ length ∧ 2 ^ 64 ≤ addr.toNat + length.toInt.toNat ∧
    addr.toNat + length.toInt.toNat - 2 ^ 64 ≤ memSize

theorem slice_exact_iff (memSize : Nat) (addr : UInt64) (length : Int64) :
    ((∃ err, sliceSigned memSize addr length = pure (.error err)) ∨
      addr.toNat + length.toInt.toNat ≤ memSize ∧
        sliceSigned memSize addr length = pure (.ok (addr.toNat, length.toInt.toNat))) ↔
      ¬Wraps memSize addr length := by
  have low := addr.toNat_lt
  have high := length.toInt_lt
  by_cases negative : length < 0
  · have past : ¬0 ≤ length := by
      rw [Int64.le_iff_toInt_le]
      exact not_le.mpr (Int64.lt_iff_toInt_lt.mp negative)
    rw [sliceSigned, if_pos negative]
    exact iff_of_true (.inl ⟨_, rfl⟩) fun wraps => past wraps.1
  · have pos : 0 ≤ length := by
      rw [Int64.le_iff_toInt_le]
      exact not_lt.mp fun less => negative (Int64.lt_iff_toInt_lt.mpr less)
    rw [sliceSigned, if_neg negative, slice, Wraps]
    by_cases wraps : 2 ^ 64 ≤ addr.toNat + length.toInt.toNat
    · have stop : (addr.toNat + length.toInt.toNat) % 2 ^ 64 =
          addr.toNat + length.toInt.toNat - 2 ^ 64 := by omega
      rw [stop]
      split
      · exact iff_of_true (.inl ⟨_, rfl⟩) (by omega)
      · rw [if_pos (by omega)]
        refine iff_of_false ?_ (not_not.mpr ⟨pos, wraps, by omega⟩)
        rintro (⟨err, same⟩ | ⟨-, same⟩) <;> cases congrArg (fun p : Go _ => p.run) same
    · rw [Nat.mod_eq_of_lt (by omega)]
      split
      · exact iff_of_true (.inl ⟨_, rfl⟩) (by omega)
      · rw [if_neg (by omega)]
        exact iff_of_true (.inr ⟨by omega, rfl⟩) (by omega)

theorem slice_wraps : sliceSigned 4096 0xffffffffffffffff 2 = throw .sliceBounds := by
  rfl

end Infrastructure.Hypervisor
