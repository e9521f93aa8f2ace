import Mathlib.Tactic.Ring
import Infrastructure.Net.Address

/-! Addresses as numbers, and blocks of addresses as ranges of them. -/

namespace Infrastructure.Net

open List

/-- The number of an address, its first byte the highest. -/
def value : List UInt8 → Nat
  | [] => 0
  | byte :: bytes => byte.toNat * 256 ^ bytes.length + value bytes

theorem value_lt (bytes : List UInt8) : value bytes < 256 ^ bytes.length := by
  induction bytes with
  | nil => simp [value]
  | cons byte bytes ih =>
    have small : byte.toNat + 1 ≤ 256 := byte.toNat_lt
    calc
      value (byte :: bytes) < byte.toNat * 256 ^ bytes.length + 256 ^ bytes.length := by
        rw [value]
        omega
      _ = (byte.toNat + 1) * 256 ^ bytes.length := by ring
      _ ≤ 256 * 256 ^ bytes.length := Nat.mul_le_mul_right _ small
      _ = 256 ^ (byte :: bytes).length := by
        rw [length_cons]
        ring

section

variable {first second low high place : Nat}

theorem place_div (digit : Nat) (small : low < place) : (digit * place + low) / place = digit := by
  rw [Nat.add_comm, Nat.add_mul_div_right _ _ (Nat.zero_lt_of_lt small), Nat.div_eq_of_lt small,
    Nat.zero_add]

theorem place_eq_iff (small : low < place) (small' : high < place) :
    first * place + low = second * place + high ↔ first = second ∧ low = high := by
  constructor
  · intro eq
    have digits : first = second := by
      rw [← place_div first small, eq, place_div second small']
    rw [digits] at eq
    exact ⟨digits, Nat.add_left_cancel eq⟩
  · rintro ⟨rfl, rfl⟩
    rfl

end

theorem value_inj {first second : List UInt8} (length : first.length = second.length)
    (eq : value first = value second) : first = second := by
  induction first generalizing second with
  | nil => exact (length_eq_zero_iff.mp length.symm).symm
  | cons byte bytes ih =>
    cases second with
    | nil => cases length
    | cons other others =>
      have tails : bytes.length = others.length := Nat.succ.inj length
      have low := value_lt bytes
      have high := value_lt others
      rw [value, value, ← tails] at eq
      rw [← tails] at high
      obtain ⟨heads, rest⟩ := (place_eq_iff low high).mp eq
      rw [UInt8.toNat_inj.mp heads, ih tails rest]

/-- Four bytes as `binary.BigEndian.Uint32` reads them. -/
theorem toNat_bigEndian {bytes : List UInt8} (four : bytes.length = 4) :
    (bigEndian bytes).toNat = value bytes := by
  obtain ⟨a, b, c, d, rfl⟩ := length_eq_four.mp four
  have bounds := And.intro a.toNat_lt (And.intro b.toNat_lt (And.intro c.toNat_lt d.toNat_lt))
  simp [bigEndian, value]
  omega

theorem value_ofNumber (n : UInt32) :
    value [(n >>> 24).toUInt8, (n >>> 16).toUInt8, (n >>> 8).toUInt8, n.toUInt8] =
      n.toNat := by
  have bound := n.toNat_lt
  simp [value, Nat.shiftRight_eq_div_pow]
  omega

theorem toNat_and_upper (byte : UInt8) {low : Nat} (small : low ≤ 8) :
    (byte &&& UInt8.ofNat (256 - 2 ^ low)).toNat = byte.toNat / 2 ^ low * 2 ^ low := by
  have all : ∀ (low : Fin 9) (n : Fin 256), n.val &&& (256 - 2 ^ low.val) % 256 =
      n.val / 2 ^ low.val * 2 ^ low.val := by
    decide +kernel
  have here := all ⟨low, by omega⟩ ⟨byte.toNat, byte.toNat_lt⟩
  simpa using here

theorem cidrMask_succ (ones count : Nat) :
    cidrMask ones (8 * (count + 1)) = maskByte ones 0 :: cidrMask (ones - 8) (8 * count) := by
  have shifted (i : Nat) : maskByte ones (i + 1) = maskByte (ones - 8) i := by
    rw [maskByte, maskByte, show ones - 8 * (i + 1) = ones - 8 - 8 * i by omega]
  rw [cidrMask, cidrMask, Nat.mul_div_cancel_left _ (by decide),
    Nat.mul_div_cancel_left _ (by decide), range_succ_eq_map, map_cons, map_map]
  congr 2
  funext i
  exact shifted i

theorem split_div (digit : Nat) {rest place low : Nat} :
    (digit * (2 ^ low * place) + rest) / 2 ^ low = digit * place + rest / 2 ^ low := by
  rw [show digit * (2 ^ low * place) + rest = rest + 2 ^ low * (digit * place) by ring,
    Nat.add_mul_div_left _ _ (Nat.two_pow_pos low), Nat.add_comm]

theorem masked_eq_iff {first second : List UInt8} (length : first.length = second.length)
    {ones : Nat} (bound : ones ≤ 8 * first.length) :
    List.zipWith (· &&& ·) first (cidrMask ones (8 * first.length)) =
        List.zipWith (· &&& ·) second (cidrMask ones (8 * first.length)) ↔
      value first / 2 ^ (8 * first.length - ones) =
        value second / 2 ^ (8 * first.length - ones) := by
  induction first generalizing second ones with
  | nil =>
    rw [length_eq_zero_iff.mp length.symm]
    simp
  | cons byte bytes ih =>
    cases second with
    | nil => cases length
    | cons other others =>
      have tails : bytes.length = others.length := Nat.succ.inj length
      have low := value_lt bytes
      have high := value_lt others
      rw [← tails] at high
      rw [length_cons] at bound ⊢
      rw [cidrMask_succ, zipWith_cons_cons, zipWith_cons_cons, List.cons.injEq,
        ih tails (by omega), value, value, ← tails, ← UInt8.toNat_inj, maskByte,
        toNat_and_upper _ (by omega), toNat_and_upper _ (by omega), Nat.mul_zero, Nat.sub_zero]
      have power : (256 : Nat) ^ bytes.length = 2 ^ (8 * bytes.length) := by
        rw [Nat.pow_mul]
      rw [power] at low high ⊢
      rcases Nat.lt_or_ge ones 8 with within | whole
      · -- the mask ends within the first byte
        have exponent : 8 * (bytes.length + 1) - ones =
            8 * bytes.length + (8 - min 8 ones) := by omega
        rw [show ones - 8 =
          0 by omega, Nat.sub_zero, Nat.div_eq_of_lt low, Nat.div_eq_of_lt high, exponent,
          Nat.pow_add, ← Nat.div_div_eq_div_mul, ← Nat.div_div_eq_div_mul, place_div _ low,
            place_div _ high]
        simp
      · have exponent : 8 * (bytes.length + 1) - ones = 8 * bytes.length - (ones - 8) := by omega
        have parts : 2 ^ (8 * bytes.length) =
            2 ^ (8 * bytes.length - (ones - 8)) * 2 ^ (ones - 8) := by
          rw [← Nat.pow_add]
          congr 1
          omega
        rw [parts] at low high ⊢
        rw [exponent, split_div, split_div,
          place_eq_iff (Nat.div_lt_of_lt_mul low) (Nat.div_lt_of_lt_mul high),
          show 8 - min 8 ones = 0 by omega]
        simp

/-- A block of IPv4 addresses, as `ParseCIDR` returns one. -/
structure IPNet.V4 (net : IPNet) : Prop where
  four : net.ip.length = 4
  bits : net.bits = 32
  ones : net.ones ≤ 32
  aligned : 2 ^ (32 - net.ones) ∣ value net.ip

namespace IPNet.V4

variable {net : IPNet} {bytes : List UInt8}

theorem to4_four (four : bytes.length = 4) : to4 bytes = some bytes := if_pos four

theorem to4_mapped (four : bytes.length = 4) : to4 (v4InV6 ++ bytes) = some bytes := by
  have lead : v4InV6.length = 12 := rfl
  have length : (v4InV6 ++ bytes).length = 16 := by
    rw [length_append]
    omega
  rw [to4, if_neg (by omega), if_pos ⟨length, take_left' lead⟩, drop_left' lead]

theorem contains_mapped (four : bytes.length = 4) :
    net.contains (v4InV6 ++ bytes) = net.contains bytes := by
  simp only [contains, to4_mapped four, to4_four four, Option.getD_some]

theorem contains_iff (v4 : net.V4) (four : bytes.length = 4) : net.contains bytes = true ↔
      value net.ip ≤ value bytes ∧ value bytes < value net.ip + 2 ^ (32 - net.ones) := by
  have mask : (cidrMask net.ones 32).length = 4 := by simp [cidrMask]
  have parts : net.numberAndMask = some (net.ip, cidrMask net.ones 32) := by
    simp [numberAndMask, v4.bits, to4_four v4.four, mask, v4.four]
  have masked :=
    @masked_eq_iff net.ip bytes (v4.four.trans four.symm) net.ones (by rw [v4.four]; exact v4.ones)
  rw [v4.four] at masked
  rw [contains, to4_four four, Option.getD_some, parts]
  simp only [four, v4.four, beq_self_eq_true, Bool.true_and, beq_iff_eq]
  obtain ⟨i, base⟩ := v4.aligned
  have pos : 0 < 2 ^ (32 - net.ones) := Nat.two_pow_pos _
  rw [masked, base, Nat.mul_div_cancel_left _ pos, eq_comm, Nat.div_eq_iff pos]
  rw [Nat.mul_comm i]
  omega

theorem value_add_le (v4 : net.V4) : value net.ip + 2 ^ (32 - net.ones) ≤ 2 ^ 32 := by
  have bound := value_lt net.ip
  rw [v4.four] at bound
  obtain ⟨i, base⟩ := v4.aligned
  have whole : 2 ^ 32 = 2 ^ (32 - net.ones) * 2 ^ net.ones := by
    rw [← Nat.pow_add, Nat.sub_add_cancel v4.ones]
  have index_lt : i < 2 ^ net.ones := by
    have product : 2 ^ (32 - net.ones) * i < 2 ^ (32 - net.ones) * 2 ^ net.ones := by
      rw [← base, ← whole]
      exact bound
    exact Nat.lt_of_mul_lt_mul_left product
  calc
    value net.ip + 2 ^ (32 - net.ones) = 2 ^ (32 - net.ones) * (i + 1) := by
      rw [base]
      ring
    _ ≤ 2 ^ (32 - net.ones) * 2 ^ net.ones := Nat.mul_le_mul_left _ index_lt
    _ = 2 ^ 32 := whole.symm

end IPNet.V4

/-- The bytes that a text of numbers between dots stands for. -/
def readDotted (text : List Char) : List UInt8 :=
  (text.splitOn '.').map fun word => UInt8.ofNat (Nat.ofDigitChars 10 word 0)

theorem isDigit_of_mem_toString {byte : UInt8} {char : Char}
    (seen : char ∈ (toString byte.toNat).toList) :
    char.isDigit = true := by
  have digit : char ∈ Nat.toDigits 10 byte.toNat := by simpa using seen
  exact Nat.isDigit_of_mem_toDigits (b := 10) (by omega) (by omega) digit

theorem toList_dotted (bytes : List UInt8) :
    (dotted bytes).toList = ['.'].intercalate
    (bytes.map fun byte => (toString byte.toNat).toList) := by
  rw [dotted, String.toList_intercalate, map_map]
  rfl

theorem mem_dotted {bytes : List UInt8} {char : Char} (seen : char ∈ (dotted bytes).toList) :
    char = '.' ∨ char.isDigit = true := by
  rw [toList_dotted] at seen
  induction bytes with
  | nil => simp at seen
  | cons byte bytes ih =>
    cases bytes with
    | nil => exact .inr (isDigit_of_mem_toString (by simpa using seen))
    | cons other others =>
      rw [map_cons, map_cons, intercalate_cons_cons, mem_append, mem_append, mem_singleton] at seen
      rcases seen with (digit | dot) | later
      · exact .inr (isDigit_of_mem_toString digit)
      · exact .inl dot
      · exact ih later

theorem readDotted_dotted {bytes : List UInt8} (ne : bytes ≠ []) :
    readDotted (dotted bytes).toList = bytes := by
  have n (byte : UInt8) : Nat.ofDigitChars 10 (toString byte.toNat).toList 0 = byte.toNat := by simp
  have solid : ∀ word ∈ bytes.map fun byte => (toString byte.toNat).toList, '.' ∉ word := by
    intro word seen dot
    obtain ⟨byte, -, rfl⟩ := mem_map.mp seen
    exact absurd (isDigit_of_mem_toString dot) (by decide)
  rw [readDotted, toList_dotted, splitOn_intercalate '.' solid (by simpa using ne), map_map]
  simp [Function.comp_def]

theorem dotted_inj {first second : List UInt8} (ne : first ≠ []) (nonempty' : second ≠ [])
    (eq : dotted first = dotted second) : first = second := by
  rw [← readDotted_dotted ne, eq, readDotted_dotted nonempty']

/-- The text of the IPv4 address with a number. -/
def Numbered (text : String) (n : Nat) : Prop :=
  ∃ bytes : List UInt8, bytes.length = 4 ∧ text = dotted bytes ∧ value bytes = n

namespace Numbered

variable {text : String} {n : Nat}

theorem of_bytes {bytes : List UInt8} (four : bytes.length = 4) :
    Numbered (dotted bytes) (value bytes) :=
  ⟨bytes, four, rfl, rfl⟩

theorem ne_empty (num : Numbered text n) : text ≠ "" := by
  obtain ⟨bytes, four, rfl, -⟩ := num
  intro empty
  have read := readDotted_dotted (ne_nil_of_length_pos (show 0 < bytes.length by omega))
  rw [empty] at read
  rw [← read] at four
  cases four

theorem eq_iff {other : String} {second : Nat} (first : Numbered text n)
    (num : Numbered other second) :
    text = other ↔ n = second := by
  obtain ⟨bytes, four, rfl, rfl⟩ := first
  obtain ⟨others, four', rfl, rfl⟩ := num
  constructor
  · intro eq
    rw [dotted_inj (ne_nil_of_length_pos (by omega)) (ne_nil_of_length_pos (by omega)) eq]
  · intro eq
    rw [value_inj (four.trans four'.symm) eq]

theorem ofNumber (n : UInt32) :
    Numbered (dotted [(n >>> 24).toUInt8, (n >>> 16).toUInt8, (n >>> 8).toUInt8, n.toUInt8])
      n.toNat :=
  ⟨_, rfl, rfl, value_ofNumber n⟩

end Numbered

/-- A host address of a block is neither the network's, its first, nor the broadcasts', its last. -/
def IPNet.Usable (net : IPNet) (text : String) : Prop :=
  ∃ bytes : List UInt8, bytes.length = 4 ∧ text = dotted bytes ∧ net.contains bytes = true ∧
    bytes ≠ net.ip ∧ value bytes + 1 ≠ value net.ip + 2 ^ (32 - net.ones)

theorem IPNet.V4.usable_iff {net : IPNet} (v4 : net.V4) {text : String} {n : Nat}
    (num : Numbered text n) :
    net.Usable text ↔ value net.ip < n ∧ n + 1 < value net.ip + 2 ^ (32 - net.ones) := by
  constructor
  · rintro ⟨bytes, four, rfl, mem, other, last⟩
    rw [← ((Numbered.of_bytes four).eq_iff num).mp rfl]
    have differ : value bytes ≠ value net.ip :=
      fun eq => other (value_inj (four.trans v4.four.symm) eq)
    have range := (v4.contains_iff four).mp mem
    omega
  · obtain ⟨bytes, four, rfl, rfl⟩ := num
    rintro ⟨above, below⟩
    refine ⟨bytes, four, rfl, (v4.contains_iff four).mpr (by omega), ?_, by omega⟩
    rintro rfl
    omega

end Infrastructure.Net
