import Mathlib.Algebra.Group.Int.Defs
import Mathlib.Algebra.Group.Nat.Defs
import Mathlib.Data.List.Basic

/-! SHA-256 and its lower-case hexadecimal rendering.

Words are natural numbers below `2 ^ 32`; additions are reduced where they are made. -/

namespace Infrastructure.Crypto

def rotateRight (word count : Nat) : Nat :=
  (word >>> count ||| word <<< (32 - count)) % 2 ^ 32

def roundConstants : List Nat := [
  0x428a2f98, 0x71374491, 0xb5c0fbcf, 0xe9b5dba5, 0x3956c25b, 0x59f111f1, 0x923f82a4, 0xab1c5ed5,
  0xd807aa98, 0x12835b01, 0x243185be, 0x550c7dc3, 0x72be5d74, 0x80deb1fe, 0x9bdc06a7, 0xc19bf174,
  0xe49b69c1, 0xefbe4786, 0x0fc19dc6, 0x240ca1cc, 0x2de92c6f, 0x4a7484aa, 0x5cb0a9dc, 0x76f988da,
  0x983e5152, 0xa831c66d, 0xb00327c8, 0xbf597fc7, 0xc6e00bf3, 0xd5a79147, 0x06ca6351, 0x14292967,
  0x27b70a85, 0x2e1b2138, 0x4d2c6dfc, 0x53380d13, 0x650a7354, 0x766a0abb, 0x81c2c92e, 0x92722c85,
  0xa2bfe8a1, 0xa81a664b, 0xc24b8b70, 0xc76c51a3, 0xd192e819, 0xd6990624, 0xf40e3585, 0x106aa070,
  0x19a4c116, 0x1e376c08, 0x2748774c, 0x34b0bcb5, 0x391c0cb3, 0x4ed8aa4a, 0x5b9cca4f, 0x682e6ff3,
  0x748f82ee, 0x78a5636f, 0x84c87814, 0x8cc70208, 0x90befffa, 0xa4506ceb, 0xbef9a3f7, 0xc67178f2]

structure Chain where
  a : Nat
  b : Nat
  c : Nat
  d : Nat
  e : Nat
  f : Nat
  g : Nat
  h : Nat

def Chain.initial : Chain :=
  ⟨0x6a09e667, 0xbb67ae85, 0x3c6ef372, 0xa54ff53a, 0x510e527f, 0x9b05688c, 0x1f83d9ab, 0x5be0cd19⟩

def Chain.round (chain : Chain) (constant word : Nat) : Chain :=
  let mix := rotateRight chain.e 6 ^^^ rotateRight chain.e 11 ^^^ rotateRight chain.e 25
  let choice := (chain.e &&& chain.f) ^^^ ((chain.e ^^^ 0xffffffff) &&& chain.g)
  let first := (chain.h + mix + choice + constant + word) % 2 ^ 32
  let spread := rotateRight chain.a 2 ^^^ rotateRight chain.a 13 ^^^ rotateRight chain.a 22
  let majority := (chain.a &&& chain.b) ^^^ (chain.a &&& chain.c) ^^^ (chain.b &&& chain.c)
  let second := (spread + majority) % 2 ^ 32
  ⟨(first + second) % 2 ^ 32, chain.a, chain.b, chain.c, (chain.d + first) % 2 ^ 32, chain.e,
    chain.f, chain.g⟩

def Chain.rounds : Chain → List Nat → List Nat → Chain
  | chain, constant :: constants, word :: words =>
    (chain.round constant word).rounds constants words
  | chain, _, _ => chain

def Chain.add (first second : Chain) : Chain :=
  ⟨(first.a + second.a) % 2 ^ 32, (first.b + second.b) % 2 ^ 32, (first.c + second.c) % 2 ^ 32,
    (first.d + second.d) % 2 ^ 32, (first.e + second.e) % 2 ^ 32, (first.f + second.f) % 2 ^ 32,
    (first.g + second.g) % 2 ^ 32, (first.h + second.h) % 2 ^ 32⟩

/-- The message schedule, newest word first. -/
def schedule : Nat → List Nat → List Nat
  | 0, words => words
  | count + 1, words =>
    let near := words.getD 1 0
    let far := words.getD 14 0
    let high := rotateRight near 17 ^^^ rotateRight near 19 ^^^ near >>> 10
    let low := rotateRight far 7 ^^^ rotateRight far 18 ^^^ far >>> 3
    schedule count ((high + words.getD 6 0 + low + words.getD 15 0) % 2 ^ 32 :: words)

def bigEndian : List UInt8 → List Nat
  | first :: second :: third :: fourth :: rest =>
    (((first.toNat * 256 + second.toNat) * 256 + third.toNat) * 256 + fourth.toNat) ::
      bigEndian rest
  | _ => []

def wordBytes (word : Nat) : List UInt8 :=
  [.ofNat (word >>> 24), .ofNat (word >>> 16), .ofNat (word >>> 8), .ofNat word]

def pad (msg : List UInt8) : List UInt8 :=
  msg ++ 0x80 :: List.replicate ((119 - msg.length % 64) % 64) 0 ++
    wordBytes (8 * msg.length / 2 ^ 32) ++ wordBytes (8 * msg.length)

def absorb : Nat → Chain → List Nat → Chain
  | 0, chain, _ => chain
  | count + 1, chain, words =>
    absorb count
      (chain.add (chain.rounds roundConstants (schedule 48 (words.take 16).reverse).reverse))
      (words.drop 16)

def sha256 (msg : List UInt8) : List UInt8 :=
  let words := bigEndian (pad msg)
  let chain := absorb (words.length / 16) Chain.initial words
  [chain.a, chain.b, chain.c, chain.d, chain.e, chain.f, chain.g, chain.h].flatMap wordBytes

theorem sha256_length (msg : List UInt8) : (sha256 msg).length = 32 := rfl

def hexDigit (val : Nat) : Char :=
  "0123456789abcdef".toList.getD val '0'

def byteDigits (byte : UInt8) : List Char :=
  [hexDigit (byte.toNat / 16), hexDigit (byte.toNat % 16)]

def hexEncode (data : List UInt8) : String := .ofList (data.flatMap byteDigits)

example : hexEncode (sha256 "abc".toByteArray.data.toList) =
    "ba7816bf8f01cfea414140de5dae2223b00361a396177a9cb410ff61f20015ad" := by
  decide +kernel

theorem hexDigit_inj {first snd : Nat} (below : first < 16) (bounded : snd < 16)
    (eq : hexDigit first = hexDigit snd) : first = snd := by
  have nodup : ∀ left < 16, ∀ right < 16, hexDigit left = hexDigit right → left = right := by
    decide
  exact nodup first below snd bounded eq

theorem byteDigits_inj {first snd : UInt8} (eq : byteDigits first = byteDigits snd) :
    first = snd := by
  simp only [byteDigits, List.cons.injEq, and_true] at eq
  have bounded := first.toNat_lt
  have below := snd.toNat_lt
  have high := hexDigit_inj (by omega) (by omega) eq.1
  have low := hexDigit_inj (by omega) (by omega) eq.2
  exact UInt8.toNat_inj.mp (by omega)

theorem byteDigits_flatMap_inj {first snd : List UInt8}
    (eq : first.flatMap byteDigits = snd.flatMap byteDigits) : first = snd := by
  induction first generalizing snd with
  | nil =>
    cases snd with
    | nil => rfl
    | cons byte rest => simp [byteDigits] at eq
  | cons byte rest ih =>
    cases snd with
    | nil => simp [byteDigits] at eq
    | cons other others =>
      simp only [List.flatMap_cons] at eq
      obtain ⟨head, tail⟩ := List.append_inj eq rfl
      rw [byteDigits_inj head, ih tail]

theorem hexEncode_inj {first snd : List UInt8}
    (eq : hexEncode first = hexEncode snd) : first = snd :=
  byteDigits_flatMap_inj (String.ofList_inj.mp eq)

theorem wordBytes_mod {first snd : Nat} (eq : wordBytes first = wordBytes snd) :
    first % 2 ^ 32 = snd % 2 ^ 32 := by
  have byte {left right : Nat} (equal : UInt8.ofNat left = UInt8.ofNat right) : left % 256 =
      right % 256 := by
    simpa using congrArg UInt8.toNat equal
  simp only [wordBytes, List.cons.injEq, and_true, Nat.shiftRight_eq_div_pow] at eq
  have top := byte eq.1
  have high := byte eq.2.1
  have low := byte eq.2.2.1
  have last := byte eq.2.2.2
  omega

theorem mem_hexEncode {data : List UInt8} {char : Char} (seen : char ∈ (hexEncode data).toList) :
    ∃ val < 16, char = hexDigit val := by
  rw [hexEncode, String.toList_ofList] at seen
  obtain ⟨byte, -, digit⟩ := List.mem_flatMap.mp seen
  have bound := byte.toNat_lt
  rw [byteDigits, List.mem_pair] at digit
  rcases digit with rfl | rfl
  · exact ⟨_, by omega, rfl⟩
  · exact ⟨_, by omega, rfl⟩

theorem hexEncode_ne_empty {data : List UInt8} (has : data ≠ []) : hexEncode data ≠ "" := by
  intro empty
  exact has (hexEncode_inj empty)

end Infrastructure.Crypto
