import Infrastructure.Net.Address

/-! The classes of addresses that are not of the public internet, as predicates on bytes and as
networks. -/

namespace Infrastructure.Net

/-- The bytes by which addresses are compared: four for an IPv4 address in either form. -/
def canonical (ip : IP) : IP := (to4 ip).getD ip

/-- An address as a resolver or a parser gives it. -/
abbrev Address := { ip : IP // ip.length = 4 ∨ ip.length = 16 }

theorem canonical_length (ip : Address) :
    (canonical ip.1).length = 4 ∨ (canonical ip.1).length = 16 := by
  obtain ⟨ip, sized⟩ := ip
  unfold canonical to4
  split
  · exact .inl (by assumption)
  · split
    · rename_i mapped
      left
      simp [mapped.1]
    · exact sized

def isPrivate (ip : IP) : Bool :=
  match canonical ip with
  | [a, b, _, _] => a == 10 || a == 172 && b &&& 0xf0 == 16 || a == 192 && b == 168
  | bytes => bytes.length == 16 && bytes.headD 0 &&& 0xfe == 0xfc

def ipv6Loopback : IP := List.replicate 15 0 ++ [1]

def ipv6Unspecified : IP := List.replicate 16 0

def isLoopback (ip : IP) : Bool :=
  match canonical ip with
  | [a, _, _, _] => a == 127
  | bytes => bytes == ipv6Loopback

def isLinkLocalUnicast (ip : IP) : Bool :=
  match canonical ip with
  | [a, b, _, _] => a == 169 && b == 254
  | bytes => bytes.length == 16 && bytes.headD 0 == 0xfe && (bytes.drop 1).headD 0 &&& 0xc0 == 0x80

def isLinkLocalMulticast (ip : IP) : Bool :=
  match canonical ip with
  | [a, b, c, _] => a == 224 && b == 0 && c == 0
  | bytes => bytes.length == 16 && bytes.headD 0 == 0xff && (bytes.drop 1).headD 0 &&& 0x0f == 0x02

def isMulticast (ip : IP) : Bool :=
  match canonical ip with
  | [a, _, _, _] => a &&& 0xf0 == 0xe0
  | bytes => bytes.length == 16 && bytes.headD 0 == 0xff

def isUnspecified (ip : IP) : Bool :=
  canonical ip == [0, 0, 0, 0] || canonical ip == ipv6Unspecified

/-- The shared address space of carriers. -/
def cgnat : IPNet := ⟨ipv4 100 64 0 0, 10, 32⟩

def isInternal (ip : IP) : Bool :=
  isPrivate ip || isLoopback ip || isLinkLocalUnicast ip || isLinkLocalMulticast ip ||
    isMulticast ip ||
    isUnspecified ip || cgnat.contains ip

/-- Private, loopback, link-local, multicast, unspecified and shared addresses. -/
def setAside : List IPNet :=
  [⟨ipv4 10 0 0 0, 8, 32⟩, ⟨ipv4 172 16 0 0, 12, 32⟩, ⟨ipv4 192 168 0 0, 16, 32⟩,
    ⟨ipv4 127 0 0 0, 8, 32⟩, ⟨ipv4 169 254 0 0, 16, 32⟩, ⟨ipv4 224 0 0 0, 4, 32⟩,
    ⟨ipv4 0 0 0 0, 32, 32⟩, cgnat, ⟨0xfc :: List.replicate 15 0, 7, 128⟩, ⟨ipv6Loopback, 128, 128⟩,
      ⟨0xfe :: 0x80 :: List.replicate 14 0, 10, 128⟩, ⟨0xff :: List.replicate 15 0, 8, 128⟩,
    ⟨ipv6Unspecified, 128, 128⟩]

theorem setAside_parts : setAside.map IPNet.numberAndMask = [
    some ([10, 0, 0, 0], [255, 0, 0, 0]), some ([172, 16, 0, 0], [255, 240, 0, 0]),
    some ([192, 168, 0, 0], [255, 255, 0, 0]), some ([127, 0, 0, 0], [255, 0, 0, 0]),
    some ([169, 254, 0, 0], [255, 255, 0, 0]), some ([224, 0, 0, 0], [240, 0, 0, 0]),
    some ([0, 0, 0, 0], [255, 255, 255, 255]), some ([100, 64, 0, 0], [255, 192, 0, 0]),
    some (0xfc :: List.replicate 15 0, 254 :: List.replicate 15 0),
      some (ipv6Loopback, List.replicate 16 255),
    some (0xfe :: 0x80 :: List.replicate 14 0, 255 :: 192 :: List.replicate 14 0),
    some (0xff :: List.replicate 15 0, 255 :: List.replicate 15 0),
      some (ipv6Unspecified, List.replicate 16 255)] := by
  decide

/-- Whether bytes lie in a block given by its parts. -/
def within (bytes : List UInt8) : Option (List UInt8 × List UInt8) → Bool
  | none => false
  | some (n, mask) => bytes.length == n.length &&
      (List.zipWith (· &&& ·) bytes mask == List.zipWith (· &&& ·) n mask)

theorem contains_eq (net : IPNet) (ip : IP) :
    net.contains ip = within (canonical ip) net.numberAndMask := by
  unfold IPNet.contains within canonical
  cases net.numberAndMask with
  | none => rfl
  | some parts => simp only [BEq.comm]

theorem any_contains (ip : IP) (networks : List IPNet) : (networks.any fun net => net.contains ip) =
      (networks.map IPNet.numberAndMask).any (within (canonical ip)) := by
  rw [List.any_map]
  simp only [contains_eq, Function.comp_def]

theorem and_255 (byte : UInt8) : byte &&& 255 = byte := UInt8.and_neg_one

theorem isInternal_eq (ip : Address) :
    isInternal ip.1 = setAside.any fun net => net.contains ip.1 := by
  have shared : cgnat.contains ip.1 =
      within (canonical ip.1) (some ([100, 64, 0, 0], [255, 192, 0, 0])) := by
    have parts : cgnat.numberAndMask = some ([100, 64, 0, 0], [255, 192, 0, 0]) := by decide
    rw [contains_eq, parts]
  rw [any_contains, setAside_parts]
  unfold isInternal isPrivate isLoopback isLinkLocalUnicast isLinkLocalMulticast
    isMulticast isUnspecified
  rw [shared, Bool.eq_iff_iff]
  rcases canonical_length ip with four | sixteen
  · obtain ⟨a, b, c, d, bytes⟩ := List.length_eq_four.mp four
    have masked : (16 : UInt8) &&& 240 = 16 ∧ (224 : UInt8) &&& 240 = 224 ∧
        (64 : UInt8) &&& 192 = 64 := by decide
    simp only [bytes, List.any_cons, List.any_nil, within, ipv6Loopback, ipv6Unspecified]
    simp [and_255, masked]
    grind
  · match bytes : canonical ip.1, sixteen with
    | [b0, b1, b2, b3, b4, b5, b6, b7, b8, b9, b10, b11, b12, b13, b14, b15], _ =>
      have masked : (252 : UInt8) &&& 254 = 252 ∧ (128 : UInt8) &&& 192 = 128 := by decide
      simp only [List.any_cons, List.any_nil, within, ipv6Loopback, ipv6Unspecified]
      by_cases multicast : b0 = 255
      · simp [and_255, masked, List.replicate, multicast]
      · simp [and_255, masked, List.replicate, multicast, or_assoc]

end Infrastructure.Net
