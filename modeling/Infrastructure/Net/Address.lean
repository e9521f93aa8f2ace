import Mathlib.Algebra.Group.Int.Defs
import Mathlib.Algebra.Group.Nat.Defs
import Mathlib.Data.List.Basic

/-! Internet addresses as byte strings, and networks as a base address with a mask. -/

namespace Infrastructure.Net

/-- Four bytes, or sixteen with the first twelve fixed for an IPv4 address. -/
abbrev IP := List UInt8

def v4InV6 : List UInt8 := List.replicate 10 0 ++ [0xff, 0xff]

def ipv4 (a b c d : UInt8) : IP := v4InV6 ++ [a, b, c, d]

def to4 (ip : IP) : Option IP :=
  if ip.length = 4 then some ip
  else if ip.length = 16 ∧ ip.take 12 = v4InV6 then some (ip.drop 12)
  else none

def bigEndian (bytes : List UInt8) : UInt32 :=
  bytes.foldl (fun value byte => value * 256 + byte.toUInt32) 0

def dotted (bytes : List UInt8) : String :=
  ".".intercalate (bytes.map fun byte => toString byte.toNat)

/-- The byte at `index` of a mask of `ones` leading ones. -/
def maskByte (ones i : Nat) : UInt8 :=
  UInt8.ofNat (256 - 2 ^ (8 - min 8 (ones - 8 * i)))

def cidrMask (ones bits : Nat) : List UInt8 := (List.range (bits / 8)).map (maskByte ones)

/-- A network as `ParseCIDR` makes it: `bits` is 32 or 128. -/
structure IPNet where
  ip : IP
  ones : Nat
  bits : Nat
  deriving DecidableEq, Repr

/-- The base address and mask at the length they are compared at. -/
def IPNet.numberAndMask (net : IPNet) : Option (List UInt8 × List UInt8) :=
  let n := (to4 net.ip).getD net.ip
  let mask := cidrMask net.ones net.bits
  if mask.length = 4 then (if n.length = 4 then some (n, mask) else none)
  else if mask.length = 16 then some (n, if n.length = 4 then mask.drop 12 else mask)
  else none

def IPNet.contains (net : IPNet) (ip : IP) : Bool :=
  let ip := (to4 ip).getD ip
  match net.numberAndMask with
  | none => false
  | some (n, mask) =>
    ip.length == n.length &&
      (List.zipWith (· &&& ·) n mask == List.zipWith (· &&& ·) ip mask)

example : (IPNet.mk [10, 1, 2, 0] 24 32).contains (ipv4 10 1 2 77) = true := by decide

end Infrastructure.Net
