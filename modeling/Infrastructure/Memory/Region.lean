import Mathlib.Data.List.GetD
import Mathlib.Data.List.Perm.Basic
import Mathlib.Data.List.Range
import Mathlib.Data.Nat.ModEq

/-! Regions of an address space, a byte-addressed memory, fixed-width little-endian numbers, and the
counters behind the indices of a ring: item `count` is in slot `count % size`. -/

namespace Infrastructure.Memory

open Nat

structure Region where
  base : Nat
  length : Nat
  deriving DecidableEq, Repr

namespace Region

def stop (region : Region) : Nat := region.base + region.length

def Apart (first second : Region) : Prop := first.stop ≤ second.base ∨ second.stop ≤ first.base

def Within (region : Region) (size : Nat) : Prop := region.stop ≤ size

instance (first second : Region) : Decidable (first.Apart second) :=
  inferInstanceAs (Decidable (_ ∨ _))

instance (region : Region) (size : Nat) : Decidable (region.Within size) :=
  inferInstanceAs (Decidable (_ ≤ _))

theorem Apart.symm {first snd : Region} (apart : first.Apart snd) : snd.Apart first := Or.symm apart

instance : Std.Symm Apart := ⟨fun _ _ => Apart.symm⟩

end Region

abbrev Cells := Nat → UInt8

def Cells.read (cells : Cells) (base length : Nat) : List UInt8 :=
  (List.range length).map fun offset => cells (base + offset)

def Cells.write (cells : Cells) (base : Nat) (bytes : List UInt8) : Cells := fun address =>
  if base ≤ address ∧ address < base + bytes.length then bytes.getD (address - base) 0
  else cells address

@[simp] theorem Cells.length_read (cells : Cells) (base length : Nat) :
    (cells.read base length).length = length := by
  simp [Cells.read]

theorem Cells.read_congr {first snd : Cells} {base length : Nat}
    (eq : ∀ addr, base ≤ addr → addr < base + length → first addr = snd addr) :
    first.read base length = snd.read base length := by
  apply List.map_congr_left
  intro offset mem
  have small := List.mem_range.mp mem
  exact eq (base + offset) (by omega) (by omega)

theorem Cells.write_of_not {cells : Cells} {base addr : Nat} {bytes : List UInt8}
    (out : addr < base ∨ base + bytes.length ≤ addr) : cells.write base bytes addr = cells addr :=
  if_neg (by omega)

theorem Cells.read_write (cells : Cells) (base : Nat) (bytes : List UInt8) :
    (cells.write base bytes).read base bytes.length = bytes := by
  apply List.ext_getElem
  · rw [Cells.length_read]
  · intro offset short long
    simp only [Cells.read, List.getElem_map, List.getElem_range, Cells.write]
    rw [if_pos (by omega), Nat.add_sub_cancel_left, List.getD_eq_getElem _ _ long]

theorem Cells.read_write_apart (cells : Cells) {base length : Nat} {t : Nat} {bytes : List UInt8}
    (apart : base + length ≤ t ∨ t + bytes.length ≤ base) :
    (cells.write t bytes).read base length = cells.read base length := by
  apply Cells.read_congr
  intro addr low high
  exact Cells.write_of_not (by omega)

/-- The lowest `width` bytes of a number, the lowest first. -/
def littleEndian : Nat → Nat → List UInt8
  | 0, _ => []
  | width + 1, val => UInt8.ofNat val :: littleEndian width (val / 256)

def ofLittleEndian : List UInt8 → Nat
  | [] => 0
  | byte :: bytes => byte.toNat + 256 * ofLittleEndian bytes

@[simp] theorem length_littleEndian (width val : Nat) :
    (littleEndian width val).length = width := by
  induction width generalizing val with
  | zero => rfl
  | succ width ih => rw [littleEndian, List.length_cons, ih]

theorem ofLittleEndian_littleEndian (width val : Nat) :
    ofLittleEndian (littleEndian width val) = val % 256 ^ width := by
  induction width generalizing val with
  | zero => rw [littleEndian, ofLittleEndian, pow_zero, mod_one]
  | succ width ih =>
    rw [littleEndian, ofLittleEndian, ih, UInt8.toNat_ofNat']
    calc val % 256 + 256 * (val / 256 % 256 ^ width)
        = val % (256 * 256 ^ width) := (mod_mul).symm
      _ = val % 256 ^ (width + 1) := by rw [pow_succ, mul_comm]

theorem eq_of_index_eq {low high wrap : Nat} (ordered : low ≤ high) (near : high < low + wrap)
    (eq : high % wrap = low % wrap) : high = low := by
  have divides : wrap ∣ high - low := (modEq_iff_dvd' ordered).mp eq.symm
  have zero : high - low = 0 := eq_zero_of_dvd_of_lt divides (by omega)
  omega

theorem slot_ne {low high size : Nat} (ordered : low < high) (near : high < low + size) :
    high % size ≠ low % size := by
  intro eq
  have equal := eq_of_index_eq ordered.le near eq
  omega

theorem slots_apart (width : Nat) {first snd : Nat} (ne : first ≠ snd) :
    width * first + width ≤ width * snd ∨ width * snd + width ≤ width * first := by
  rcases lt_or_gt_of_ne ne with pre | behind
  · exact .inl (by simpa [mul_succ] using mul_le_mul_left width (succ_le_of_lt pre))
  · exact .inr (by simpa [mul_succ] using mul_le_mul_left width (succ_le_of_lt behind))

end Infrastructure.Memory
