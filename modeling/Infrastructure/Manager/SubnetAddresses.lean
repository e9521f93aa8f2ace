import Infrastructure.Lbproxy.EgressRuns
import Infrastructure.Manager.Egress
import Infrastructure.Net.Blocks

/-! The addresses of a subnet by number: the gateway is the one after the base, the node ports count
down from the last host and allocation counts up between them. -/

namespace Infrastructure.Manager

open State Net List Option

/-- What the `net` package does with IPv4 blocks and addresses. -/
structure EgressTexts.Faithful (texts : EgressTexts) : Prop where
  parsed : ∀ cidr net, texts.parseCIDR cidr = some net → net.bits = 32 → net.V4
  written : ∀ bytes : List UInt8, bytes.length = 4 → texts.addressText bytes = dotted bytes
  reread : ∀ (bytes : List UInt8) (ones : Nat), bytes.length = 4 → ones ≤ 32 →
    (texts.cidrAddress (dotted bytes ++ "/" ++ toString ones)).map texts.addressText =
      some (dotted bytes)

section

variable {net : IPNet}

theorem value_nextAddress {ip : IP} (four : ip.length = 4) (even : 2 ∣ value ip) :
    value (nextAddress ip) = value ip + 1 := by
  obtain ⟨a, b, c, d, rfl⟩ := length_eq_four.mp four
  have bound := d.toNat_lt
  simp [value, nextAddress] at even ⊢
  omega

theorem nextAddress_length {ip : IP} (four : ip.length = 4) : (nextAddress ip).length = 4 := by
  obtain ⟨a, b, c, d, rfl⟩ := length_eq_four.mp four
  rfl

theorem even_base (v4 : net.V4) (several : net.ones ≤ 31) : 2 ∣ value net.ip :=
  Nat.dvd_trans (dvd_pow_self 2 (by omega)) v4.aligned

end

section

variable {parseCIDR : String → Except Error IPNet} {cidr : String} {net : IPNet}

theorem lastHost_parsed (parsed : parseCIDR cidr = .ok net) (v4 : net.V4) :
    lastHost parseCIDR cidr =
      .ok (bigEndian net.ip + UInt32.ofNat (2 ^ (32 - net.ones)) - 2, net) := by
  rw [lastHost, parsed]
  simp only [IPNet.V4.to4_four v4.four, v4.bits]

theorem toNat_lastHost (v4 : net.V4) (several : net.ones ≤ 31) :
    (bigEndian net.ip + UInt32.ofNat (2 ^ (32 - net.ones)) - 2).toNat + 2 = value net.ip + 2 ^
    (32 - net.ones) := by
  have size : 2 ^ 1 ≤ 2 ^ (32 - net.ones) := Nat.pow_le_pow_right (by decide) (by omega)
  have bound := v4.value_add_le
  rw [UInt32.toNat_sub, UInt32.toNat_add, toNat_bigEndian v4.four, UInt32.toNat_ofNat']
  generalize 2 ^ (32 - net.ones) = size at *
  simp
  omega

theorem mem_candidates {base : IP} (four : base.length = 4) {cand : List UInt8} :
    cand ∈ candidates base ↔ cand.length = 4 ∧ value cand / 256 = value base / 256 ∧
      10 ≤ value cand % 256 ∧ value cand % 256 < 250 := by
  obtain ⟨a, b, c, d, rfl⟩ := length_eq_four.mp four
  have n (last : UInt8) : value [a, b, c, last] = value [a, b, c] * 256 + last.toNat := by
    simp [value]
    omega
  have bound := d.toNat_lt
  simp only [candidates, List.mem_map, List.mem_range'_1]
  constructor
  · rintro ⟨i, range, rfl⟩
    have small : (UInt8.ofNat i).toNat = i := by
      rw [UInt8.toNat_ofNat']
      omega
    simp only [List.take_succ_cons, List.take_zero, List.cons_append, List.nil_append, n, small]
    refine ⟨rfl, ?_⟩
    omega
  · rintro ⟨length, upper, low, high⟩
    refine ⟨value cand % 256, by omega, value_inj (by simp [length]) ?_⟩
    have small : (UInt8.ofNat (value cand % 256)).toNat = value cand % 256 := by
      rw [UInt8.toNat_ofNat']
      omega
    simp only [List.take_succ_cons, List.take_zero, List.cons_append, List.nil_append, n,
      small] at upper ⊢
    omega

theorem candidates_ascend {base : IP} (four : base.length = 4) :
    (candidates base).Pairwise fun first snd => value first < value snd := by
  obtain ⟨a, b, c, d, rfl⟩ := length_eq_four.mp four
  refine pairwise_map.mpr (List.Pairwise.imp_of_mem ?_ pairwise_lt_range')
  intro first snd seen listed' less
  rw [List.mem_range'_1] at seen listed'
  simp [value]
  omega

theorem mem_allocatable (parsed : parseCIDR cidr = .ok net) (v4 : net.V4) (wide : net.ones ≤ 29)
    {text : String} {n : Nat} (num : Numbered text n) :
    text ∈ allocatable parseCIDR cidr net net.ip ↔
      n / 256 = value net.ip / 256 ∧ 10 ≤ n % 256 ∧ n % 256 < 250 ∧
        value net.ip ≤ n ∧ n + 7 ≤ value net.ip + 2 ^ (32 - net.ones) := by
  have size : 2 ^ 3 ≤ 2 ^ (32 - net.ones) := Nat.pow_le_pow_right (by decide) (by omega)
  have last := toNat_lastHost v4 (by omega)
  have kept {cand : List UInt8} (four : cand.length = 4) :
      reservedForNodes parseCIDR cidr cand = false ↔
        value cand + 7 ≤ value net.ip + 2 ^ (32 - net.ones) := by
    rw [reservedForNodes, lastHost_parsed parsed v4]
    have ports : maxNodePorts.toNat = 5 := rfl
    rw [decide_eq_false_iff_not, UInt32.lt_iff_toNat_lt, toNat_bigEndian four,
      UInt32.toNat_sub_of_le, ports]
    · omega
    · rw [UInt32.le_iff_toNat_le, ports]
      omega
  simp only [allocatable, List.mem_map, List.mem_filter, mem_candidates v4.four, Bool.and_eq_true,
    Bool.not_eq_true']
  constructor
  · rintro ⟨cand, ⟨⟨four, upper, low, high⟩, mem, free⟩, rfl⟩
    rw [IPNet.V4.contains_mapped four, v4.contains_iff four] at mem
    rw [kept four] at free
    rw [← ((Numbered.of_bytes four).eq_iff num).mp rfl]
    exact ⟨upper, low, high, mem.1, free⟩
  · obtain ⟨bytes, four, rfl, rfl⟩ := num
    rintro ⟨upper, low, high, above, below⟩
    refine ⟨bytes, ⟨⟨four, upper, low, high⟩, ?_, (kept four).mpr below⟩, rfl⟩
    rw [IPNet.V4.contains_mapped four, v4.contains_iff four]
    omega

theorem numbered_of_allocatable {text : String} (v4 : net.V4)
    (seen : text ∈ allocatable parseCIDR cidr net net.ip) : ∃ n, Numbered text n := by
  obtain ⟨cand, mem, rfl⟩ := List.mem_map.mp seen
  exact ⟨_, .of_bytes ((mem_candidates v4.four).mp (List.mem_filter.mp mem).1).1⟩

theorem allocatable_ascend (parseCIDR : String → Except Error IPNet) (cidr : String) (v4 : net.V4) :
    (allocatable parseCIDR cidr net net.ip).Pairwise fun first snd =>
      ∀ low high, Numbered first low → Numbered snd high → low < high := by
  refine pairwise_map.mpr (List.Pairwise.imp_of_mem ?_ ((candidates_ascend v4.four).filter _))
  intro first snd seen listed' less low high num numbered'
  have four := ((mem_candidates v4.four).mp (List.mem_filter.mp seen).1).1
  have four' := ((mem_candidates v4.four).mp (List.mem_filter.mp listed').1).1
  rw [← ((Numbered.of_bytes four).eq_iff num).mp rfl,
    ← ((Numbered.of_bytes four').eq_iff numbered').mp rfl]
  exact less

section

variable (parsed : parseCIDR cidr = .ok net) (v4 : net.V4)

include parsed v4

theorem hosts_parsed : hosts parseCIDR cidr = allocatable parseCIDR cidr net net.ip := by
  rw [hosts, parsed]
  simp only [IPNet.V4.to4_four v4.four, map_some, getD_some]

theorem allocateIP_parsed (used : List String) (ip : String) :
    allocateIP parseCIDR cidr used = .ok ip ↔
      (allocatable parseCIDR cidr net net.ip).find? (fun ip => !used.contains ip) = some ip := by
  rw [allocateIP, parsed]
  simp only [IPNet.V4.to4_four v4.four]
  cases (allocatable parseCIDR cidr net net.ip).find? (fun ip => !used.contains ip) <;> simp

theorem allocateIP_lowest {used : List String} {lowest : String} {n : Nat} (num : Numbered lowest n)
    (seen : lowest ∈ allocatable parseCIDR cidr net net.ip) (free : lowest ∉ used)
    (least : ∀ ip ∈ allocatable parseCIDR cidr net net.ip, ∀ other, Numbered ip other → n ≤ other) :
    allocateIP parseCIDR cidr used = .ok lowest := by
  rw [allocateIP_parsed parsed v4]
  have got : ((allocatable parseCIDR cidr net net.ip).find? fun ip => !used.contains ip).isSome :=
    List.find?_isSome.mpr ⟨lowest, seen, by simpa using free⟩
  obtain ⟨ip, first⟩ := isSome_iff_exists.mp got
  obtain ⟨-, before, after, split, pre⟩ := List.find?_eq_some_iff_append.mp first
  have ascend := allocatable_ascend parseCIDR cidr v4
  rw [split] at seen ascend
  rcases mem_append.mp seen with early | late
  · exact absurd (pre lowest early) (by simpa using free)
  · rcases mem_cons.mp late with rfl | later
    · exact first
    · -- an address found before the lowest would be lower
      have mem : ip ∈ allocatable parseCIDR cidr net net.ip := mem_of_find?_eq_some first
      obtain ⟨other, numbered'⟩ := numbered_of_allocatable v4 mem
      have less :=
        (pairwise_cons.mp (pairwise_append.mp ascend).2.1).1 lowest later other n numbered' num
      exact absurd (least ip mem other numbered') (by omega)

end

end

section

variable {texts : EgressTexts} {cidr : String} {net : IPNet}

section

variable (faithful : texts.Faithful) (ok : texts.parseCIDR cidr = some net) (v4 : net.V4)

include faithful ok v4

theorem firstHostOf_parsed : firstHostOf texts cidr = dotted (nextAddress net.ip) := by
  have four := nextAddress_length v4.four
  have reread := faithful.reread _ net.ones four v4.ones
  rw [firstHostOf, gatewayCIDR, parseNetwork, ok]
  simp only [faithful.written _ four]
  rw [hostOf]
  cases read : texts.cidrAddress (dotted (nextAddress net.ip) ++ "/" ++ toString net.ones) with
  | none =>
    rw [read] at reread
    cases reread
  | some ip =>
    rw [read] at reread
    exact Option.some.inj reread

theorem firstHostOf_numbered (several : net.ones ≤ 31) :
    Numbered (firstHostOf texts cidr) (value net.ip + 1) := by
  rw [firstHostOf_parsed faithful ok v4, ← value_nextAddress v4.four (even_base v4 several)]
  exact .of_bytes (nextAddress_length v4.four)

end

theorem nodeAddress_numbered (ok : texts.parseCIDR cidr = some net) (v4 : net.V4) (rank : Nat)
    (ranked : rank < 5) (room : rank + 2 ≤ 2 ^ (32 - net.ones)) :
    ∃ addr, nodeAddress texts cidr rank = .ok addr ∧
      Numbered addr (value net.ip + 2 ^ (32 - net.ones) - 2 - rank) := by
  have several : net.ones ≤ 31 := by
    by_contra single
    have size : 2 ^ (32 - net.ones) = 1 := by
      rw [show 32 - net.ones = 0 by omega]
      rfl
    omega
  have last := toNat_lastHost v4 several
  have parsed : parseNetwork texts cidr = .ok net := by rw [parseNetwork, ok]
  have n : (bigEndian net.ip + UInt32.ofNat (2 ^ (32 - net.ones)) - 2 - UInt32.ofNat rank).toNat =
      value net.ip + 2 ^ (32 - net.ones) - 2 - rank := by
    have small : (UInt32.ofNat rank).toNat = rank := by
      rw [UInt32.toNat_ofNat']
      omega
    rw [UInt32.toNat_sub_of_le, small]
    · omega
    · rw [UInt32.le_iff_toNat_le, small]
      omega
  rw [nodeAddress, if_neg (by rw [show maxNodePorts.toNat = 5 from rfl]; omega),
    lastHost_parsed parsed v4]
  dsimp only
  have num := Numbered.ofNumber
    (bigEndian net.ip + UInt32.ofNat (2 ^ (32 - net.ones)) - 2 - UInt32.ofNat rank)
  rw [n] at num
  have bytes :=
    value_ofNumber (bigEndian net.ip + UInt32.ofNat (2 ^ (32 - net.ones)) - 2 - UInt32.ofNat rank)
  rw [if_pos]
  · exact ⟨_, rfl, num⟩
  · rw [IPNet.V4.contains_mapped rfl, v4.contains_iff rfl, bytes, n]
    omega

theorem ranked_of_nodeAddress {rank : Nat} {addr : String}
    (given : nodeAddress texts cidr rank = .ok addr) : rank < 5 := by
  by_contra beyond
  rw [nodeAddress, if_pos (by rw [show maxNodePorts.toNat = 5 from rfl]; omega)] at given
  cases given

theorem numbered_of_nodeAddress (ok : texts.parseCIDR cidr = some net) (v4 : net.V4)
    (wide : net.ones ≤ 29) {rank : Nat} {addr : String}
    (given : nodeAddress texts cidr rank = .ok addr) :
    Numbered addr (value net.ip + 2 ^ (32 - net.ones) - 2 - rank) := by
  have ranked := ranked_of_nodeAddress given
  have size : 2 ^ 3 ≤ 2 ^ (32 - net.ones) := Nat.pow_le_pow_right (by decide) (by omega)
  obtain ⟨other, given', num⟩ := nodeAddress_numbered ok v4 rank ranked (by omega)
  cases given.symm.trans given'
  exact num

/-- The gateway, the node ports and an address allocated beside `used` are hosts of the block, and
differ. -/
structure Apart (texts : EgressTexts) (cidr : String) (net : IPNet)
    (used : List String) : Prop where
  gateway : net.Usable (firstHostOf texts cidr)
  node : ∀ rank address, nodeAddress texts cidr rank = .ok address →
    net.Usable address ∧ address ≠ firstHostOf texts cidr
  ranks : ∀ first second address, nodeAddress texts cidr first = .ok address →
    nodeAddress texts cidr second = .ok address → first = second
  allocated : ∀ address, allocateIP (parseNetwork texts) cidr used = .ok address →
    net.Usable address ∧ address ≠ firstHostOf texts cidr ∧
      ∀ rank, nodeAddress texts cidr rank ≠ .ok address

section

variable (faithful : texts.Faithful) (ok : texts.parseCIDR cidr = some net) (v4 : net.V4)

include faithful ok v4

theorem wide_of_apart {used : List String} (apart : Apart texts cidr net used) : net.ones ≤ 29 := by
  by_contra narrow
  have gateway := apart.gateway
  rw [firstHostOf_parsed faithful ok v4,
    v4.usable_iff (.of_bytes (nextAddress_length v4.four))] at gateway
  rcases Nat.lt_or_ge net.ones 31 with thirty | tiny
  · have size : 2 ^ (32 - net.ones) = 4 := by
      rw [show 32 - net.ones = 2 by omega]
      rfl
    obtain ⟨addr, given, num⟩ := nodeAddress_numbered ok v4 1 (by omega) (by omega)
    refine (apart.node 1 addr given).2 ((num.eq_iff ?_).mpr rfl)
    rw [size]
    exact firstHostOf_numbered faithful ok v4 (by omega)
  · have size : 2 ^ (32 - net.ones) ≤ 2 ^ 1 := Nat.pow_le_pow_right (by decide) (by omega)
    omega

theorem apart_of_wide {used : List String} (wide : net.ones ≤ 29)
    (taken : firstHostOf texts cidr ∈ used)
    (kept : value net.ip % 256 < 10 ∨ dotted net.ip ∈ used) : Apart texts cidr net used := by
  have size : 2 ^ 3 ≤ 2 ^ (32 - net.ones) := Nat.pow_le_pow_right (by decide) (by omega)
  have parsed : parseNetwork texts cidr = .ok net := by rw [parseNetwork, ok]
  have gateway := firstHostOf_numbered faithful ok v4 (by omega)
  constructor
  case gateway =>
    rw [v4.usable_iff gateway]
    omega
  case node =>
    intro rank addr given
    have ranked := ranked_of_nodeAddress given
    have num := numbered_of_nodeAddress ok v4 wide given
    rw [v4.usable_iff num, Ne, num.eq_iff gateway]
    omega
  case ranks =>
    intro first snd addr given given'
    have low := ranked_of_nodeAddress given
    have high := ranked_of_nodeAddress given'
    have eq := ((numbered_of_nodeAddress ok v4 wide given).eq_iff
      (numbered_of_nodeAddress ok v4 wide given')).mp rfl
    omega
  case allocated =>
    intro addr allocated
    obtain ⟨seen, free⟩ := allocateIP_spec _ allocated
    rw [hosts_parsed parsed v4] at seen
    obtain ⟨n, num⟩ := numbered_of_allocatable v4 seen
    have range := (mem_allocatable parsed v4 wide num).mp seen
    have above : n ≠ value net.ip := by
      intro base
      rcases kept with low | reserved
      · omega
      · rw [(num.eq_iff (.of_bytes v4.four)).mpr base] at free
        exact free reserved
    refine ⟨(v4.usable_iff num).mpr (by omega), ?_, ?_⟩
    · rintro rfl
      exact free taken
    · intro rank given
      have ranked := ranked_of_nodeAddress given
      have eq := (num.eq_iff (numbered_of_nodeAddress ok v4 wide given)).mp rfl
      omega

end

/-- Addresses are apart in a block of eight or more whose base is not itself allocated. -/
theorem subnet_addresses_apart_iff (texts : EgressTexts) (faithful : texts.Faithful) (cidr : String)
    (net : IPNet) (ok : texts.parseCIDR cidr = some net) (four : net.bits = 32) (used : List String)
    (taken : firstHostOf texts cidr ∈ used) : Apart texts cidr net used ↔
      net.ones ≤ 29 ∧ (value net.ip % 256 < 10 ∨ dotted net.ip ∈ used) := by
  have v4 := faithful.parsed cidr net ok four
  have parsed : parseNetwork texts cidr = .ok net := by rw [parseNetwork, ok]
  have base : Numbered (dotted net.ip) (value net.ip) := .of_bytes v4.four
  constructor
  · intro apart
    have wide : net.ones ≤ 29 := wide_of_apart faithful ok v4 apart
    refine ⟨wide, ?_⟩
    by_contra failing
    obtain ⟨high, free⟩ := not_or.mp failing
    have size : 2 ^ 3 ≤ 2 ^ (32 - net.ones) := Nat.pow_le_pow_right (by decide) (by omega)
    have listed : dotted net.ip ∈ allocatable (parseNetwork texts) cidr net net.ip := by
      have aligned : 2 ^ 3 ∣ value net.ip := Nat.dvd_trans (Nat.pow_dvd_pow 2 (by omega)) v4.aligned
      rw [mem_allocatable parsed v4 wide base]
      omega
    have allocated : allocateIP (parseNetwork texts) cidr used = .ok (dotted net.ip) := by
      refine allocateIP_lowest parsed v4 base listed free ?_
      intro ip mem other numbered
      exact ((mem_allocatable parsed v4 wide numbered).mp mem).2.2.2.1
    have usable := (v4.usable_iff base).mp (apart.allocated _ allocated).1
    omega
  · rintro ⟨wide, kept⟩
    exact apart_of_wide faithful ok v4 wide taken kept

end

def lowBlock : IPNet := ⟨[10, 0, 0, 0], 25, 32⟩
def highBlock : IPNet := ⟨[10, 0, 0, 128], 25, 32⟩

def blockTexts : EgressTexts where
  toLibrary := { Lbproxy.plainLibrary with
    parseCIDR := fun text =>
      if text = "10.0.0.0/25" then some lowBlock else if text = "10.0.0.128/25" then
        some highBlock else none }
  cidrAddress text := some (readDotted (text.toList.takeWhile (· ≠ '/')))
  addressText := dotted
  networkText _ := "?"
  iptables _ := none
  agree _ _ read := by cases read
  solid _ := by decide

theorem blockTexts_faithful : blockTexts.Faithful where
  parsed cidr net parsed four := by
    simp only [blockTexts] at parsed
    split_ifs at parsed
    · cases parsed
      exact ⟨rfl, rfl, by decide, by decide⟩
    · cases parsed
      exact ⟨rfl, rfl, by decide, by decide⟩
  written bytes four := rfl
  reread bytes ones four bound := by
    have digits : ∀ char ∈ (dotted bytes).toList, (decide (char ≠ '/')) = true := by
      intro char seen
      rw [decide_eq_true_iff]
      rintro rfl
      rcases mem_dotted seen with dot | digit
      · cases dot
      · exact absurd digit (by decide)
    have host : (dotted bytes ++ "/" ++ toString ones).toList.takeWhile (· ≠ '/') =
        (dotted bytes).toList := by
      rw [String.toList_append, String.toList_append, append_assoc, takeWhile_append_of_pos digits]
      simp
    simp only [blockTexts, host, map_some]
    rw [readDotted_dotted (ne_nil_of_length_pos (by omega))]

/-- The gateway is the only address in use, and the base of the block is allocated. -/
theorem base_allocated : blockTexts.parseCIDR "10.0.0.128/25" = some highBlock ∧
      firstHostOf blockTexts "10.0.0.128/25" ∈ ["10.0.0.129"] ∧
      allocateIP (parseNetwork blockTexts) "10.0.0.128/25" ["10.0.0.129"] =
        .ok (dotted highBlock.ip) ∧
      ¬Apart blockTexts "10.0.0.128/25" highBlock ["10.0.0.129"] := by
  have allocated : allocateIP (parseNetwork blockTexts) "10.0.0.128/25" ["10.0.0.129"] =
      .ok (dotted highBlock.ip) := by
    decide +kernel
  refine ⟨by decide +kernel, by decide +kernel, allocated, ?_⟩
  intro apart
  obtain ⟨bytes, four, same, -, other, -⟩ := (apart.allocated _ allocated).1
  exact other (dotted_inj (by decide) (ne_nil_of_length_pos (by omega)) same).symm

theorem subnet_addresses_apart_low :
    Apart blockTexts "10.0.0.0/25" lowBlock ["10.0.0.1", "10.0.0.10"] :=
  (subnet_addresses_apart_iff blockTexts blockTexts_faithful "10.0.0.0/25" lowBlock
    (by decide +kernel) rfl
    ["10.0.0.1", "10.0.0.10"] (by decide +kernel)).mpr ⟨by decide, .inl (by decide)⟩

end Infrastructure.Manager
