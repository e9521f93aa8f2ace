import Mathlib.Data.Rat.Defs

/-! Self-delimiting binary formats: a value is read back from the start of any bytes that begin
with what was written for it. -/

namespace Infrastructure.Text

open List Option

structure Format (α : Type) where
  write : α → List UInt8
  read : List UInt8 → Option (α × List UInt8)
  read_write : ∀ val rest, read (write val ++ rest) = some (val, rest)

namespace Format

variable {α β : Type}

/-- Numbers in groups of seven bits, lowest first; all bytes but the last have their high bit
set. -/
def writeNat : Nat → Nat → List UInt8
  | 0, _ => []
  | fuel + 1, n =>
    if n < 128 then [.ofNat n] else .ofNat (n % 128 + 128) :: writeNat fuel (n / 128)

def readNat : List UInt8 → Option (Nat × List UInt8)
  | [] => none
  | byte :: bytes =>
    if byte.toNat < 128 then some (byte.toNat, bytes)
    else (readNat bytes).map fun (n, rest) => (byte.toNat - 128 + 128 * n, rest)

theorem readNat_writeNat {fuel n : Nat} (enough : n < fuel) (rest : List UInt8) :
    readNat (writeNat fuel n ++ rest) = some (n, rest) := by
  induction fuel generalizing n with
  | zero => omega
  | succ fuel ih =>
    rw [writeNat]
    split
    · next small =>
      have byte : (UInt8.ofNat n).toNat = n := Nat.mod_eq_of_lt (by omega)
      simp [readNat, byte, small]
    · next large =>
      have byte : (UInt8.ofNat (n % 128 + 128)).toNat = n % 128 + 128 := Nat.mod_eq_of_lt (by omega)
      have more : ¬n % 128 + 128 < 128 := by omega
      have whole : n % 128 + 128 - 128 + 128 * (n / 128) = n := by omega
      simp only [cons_append, readNat, byte, if_neg more, ih (show n / 128 < fuel by omega),
        map_some, whole]

def nat : Format Nat where
  write n := writeNat (n + 1) n
  read := readNat
  read_write n := readNat_writeNat (Nat.lt_succ_self n)

/-- A format for values that a map takes to written ones and another takes back. -/
def via (format : Format α) (into : β → α) (back : α → β)
    (inverse : ∀ val, back (into val) = val) : Format β where
  write val := format.write (into val)
  read bytes := (format.read bytes).map fun (val, rest) => (back val, rest)
  read_write val rest := by
    simp only [format.read_write, map_some, inverse]

def pair (first : Format α) (second : Format β) : Format (α × β) where
  write val := first.write val.1 ++ second.write val.2
  read bytes :=
    (first.read bytes).bind fun (left, bytes) =>
      (second.read bytes).map fun (right, rest) => ((left, right), rest)
  read_write val rest := by
    simp only [append_assoc, first.read_write, bind_some, second.read_write, map_some]

def readMany (format : Format α) : Nat → List UInt8 → Option (List α × List UInt8)
  | 0, bytes => some ([], bytes)
  | count + 1, bytes =>
    (format.read bytes).bind fun (val, bytes) =>
      (readMany format count bytes).map fun (values, rest) => (val :: values, rest)

theorem readMany_write (format : Format α) (vals : List α) (rest : List UInt8) :
    readMany format vals.length (vals.flatMap format.write ++ rest) = some (vals, rest) := by
  induction vals with
  | nil => rfl
  | cons val vals ih =>
    simp only [length_cons, readMany, flatMap_cons, append_assoc, format.read_write, bind_some, ih,
      map_some]

/-- The number of values, and then each of them. -/
def list (format : Format α) : Format (List α) where
  write values := nat.write values.length ++ values.flatMap format.write
  read bytes := (nat.read bytes).bind fun (count, bytes) => readMany format count bytes
  read_write values rest := by
    simp only [append_assoc, nat.read_write, bind_some, readMany_write]

def option (format : Format α) : Format (Option α) where
  write
    | none => [0]
    | some val => 1 :: format.write val
  read
    | [] => none
    | byte :: bytes =>
      if byte = 0 then some (none, bytes)
      else (format.read bytes).map fun (val, rest) => (some val, rest)
  read_write val rest := by
    cases val with
    | none => rfl
    | some val =>
      have present : (1 : UInt8) ≠ 0 := by decide
      simp only [cons_append, present, if_false, format.read_write, map_some]

def bool : Format Bool := nat.via Bool.toNat (· != 0) (by decide)

def int : Format Int := (pair bool nat).via (fun n => (decide (n < 0), n.natAbs))
  (fun (negative, size) => if negative then -size else size) (by
    intro n
    by_cases negative : n < 0
    · simp only [negative, decide_true, if_true]
      omega
    · simp only [negative, decide_false, Bool.false_eq_true, if_false]
      omega)

def int64 : Format Int64 := int.via Int64.toInt .ofInt Int64.ofInt_toInt

def rat : Format Rat := (pair int nat).via (fun n => (n.num, n.den))
  (fun (num, den) => mkRat num den) Rat.mkRat_self

def string : Format String := (list nat).via (fun text => text.toList.map Char.toNat)
  (fun codes => .ofList (codes.map Char.ofNat)) (by
    intro text
    have same : Char.ofNat ∘ Char.toNat = id := funext Char.ofNat_toNat
    rw [List.map_map, same, List.map_id, String.ofList_toList])

end Format

end Infrastructure.Text
