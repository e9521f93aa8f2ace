import Infrastructure.Manager.Peering
import Infrastructure.Manager.SecurityGroups

/-! The names and numbers on a host that are derived from uids: interfaces, routing tables and
marks, chains and device-mapper names. Each keeps only some characters, and gives way to a 32-bit
hash where the name is too long. -/

namespace Infrastructure.Manager

open State Crypto List

def vxlanName (uid : String) : String := ifaceName "vx-" uid

def nodePortName (uid : String) : String := ifaceName "np-" uid
def nodePortPeerName (uid : String) : String := ifaceName "nb-" uid

def lbAnycastPeerName (uid : String) : String := ifaceName "la-" uid

def vrfName (uid : String) : String := ifaceName "vrf-" uid

/-- The mark of connections opened towards the VPC, whose replies go back through the main table. -/
def vrfMainMark (uid : String) : Nat := vrfTable uid ||| 0x40000000

/-- The chain of a policy, as that of a security group. -/
def policyChain (lead uid : String) : String :=
  let name := lead ++ chainText uid
  if name.utf8ByteSize ≤ maxChainName then name
  else lead ++ chainText (hexEncode (wordBytes (fnv32a (bytesOf uid))))

def chainName (uid : String) : String := policyChain "INFRA-ACL-" uid
def wafChainName (uid : String) : String := policyChain "INFRA-WAF-" uid

theorem sgChainName_eq (uid : String) : sgChainName uid = policyChain "INFRA-SG-" uid := rfl

/-- The characters of a uid that a device-mapper name keeps. -/
def mapperText (uid : String) : List Char :=
  uid.toList.filter fun char => char.isLower || char.isUpper || char.isDigit || char == '-'

/-- The kept characters take a byte each, so that the first 120 bytes are 120 characters. -/
def mapperName (uid : String) : String :=
  let name := "infra-".toList ++ mapperText uid
  String.ofList (if 120 < name.length then name.take 120 else name)

def uidHash (uid : String) : Nat := fnv32a (bytesOf uid)

theorem fnv32a_lt (data : Bytes) : fnv32a data < 2 ^ 32 := by
  have kept (start : Nat) (small : start < 2 ^ 32) :
      data.foldl (fun hash byte => ((hash ^^^ byte.toNat) * 16777619) % 2 ^ 32) start < 2 ^ 32 := by
    induction data generalizing start with
    | nil => exact small
    | cons byte data ih => exact ih _ (Nat.mod_lt _ (Nat.two_pow_pos 32))
  exact kept 2166136261 (by omega)

/-- A name of at most `limit` bytes: what is kept of the uid, or its hash. -/
def bounded (limit : Nat) (kept : String → String) (written : Nat → String)
    (lead uid : String) : String :=
  if (lead ++ kept uid).utf8ByteSize ≤ limit then lead ++ kept uid
  else lead ++ written (uidHash uid)

/-- The names that two uids have room for differ. -/
def NamesApart (room : Nat) (kept : String → String) (written : Nat → String)
    (first second : String) : Prop :=
  if (kept first).utf8ByteSize ≤ room then
    if (kept second).utf8ByteSize ≤ room then kept first ≠ kept second
    else kept first ≠ written (uidHash second)
  else
    if (kept second).utf8ByteSize ≤ room then written (uidHash first) ≠ kept second
    else uidHash first ≠ uidHash second

theorem bounded_ne_iff {limit : Nat} {kept : String → String} {wrote : Nat → String}
    {lead first snd : String} (short : lead.utf8ByteSize ≤ limit)
    (legible : ∀ low < 2 ^ 32, ∀ high < 2 ^ 32, wrote low = wrote high → low = high) :
    bounded limit kept wrote lead first ≠ bounded limit kept wrote lead snd ↔
      NamesApart (limit - lead.utf8ByteSize) kept wrote first snd := by
  have fits (text : String) : (lead ++ text).utf8ByteSize ≤ limit ↔
      text.utf8ByteSize ≤ limit - lead.utf8ByteSize := by
    rw [String.utf8ByteSize_append]
    omega
  have hashes : wrote (uidHash first) ≠ wrote (uidHash snd) ↔ uidHash first ≠ uidHash snd :=
    not_congr ⟨legible _ (fnv32a_lt _) _ (fnv32a_lt _), congrArg wrote⟩
  simp only [bounded, NamesApart, fits]
  split <;> split <;> simp only [ne_eq, String.append_right_inj, hashes]

def ifaceText (uid : String) : String := String.ofList (uid.toList.filterMap ifaceChar)

def hashText (hash : Nat) : String := hexEncode (wordBytes hash)

theorem ifaceName_eq (lead uid : String) :
    ifaceName lead uid = bounded maxIfaceName ifaceText hashText lead uid := rfl

theorem hashText_inj {low high : Nat} (small : low < 2 ^ 32) (small' : high < 2 ^ 32)
    (eq : hashText low = hashText high) : low = high := by
  have words := wordBytes_mod (hexEncode_inj eq)
  rwa [Nat.mod_eq_of_lt small, Nat.mod_eq_of_lt small'] at words

theorem ifaceName_ne_iff {lead first snd : String} (short : lead.utf8ByteSize ≤ maxIfaceName) :
    ifaceName lead first ≠ ifaceName lead snd ↔
      NamesApart (maxIfaceName - lead.utf8ByteSize) ifaceText hashText first snd := by
  rw [ifaceName_eq, ifaceName_eq]
  exact bounded_ne_iff short fun _ small _ small' => hashText_inj small small'

/-- A name that is nothing but the hash. -/
theorem hashed_ne_iff {lead first snd : String} :
    lead ++ hashText (uidHash first) ≠ lead ++ hashText (uidHash snd) ↔
      uidHash first ≠ uidHash snd := by
  rw [not_iff_not, String.append_right_inj]
  exact ⟨hashText_inj (fnv32a_lt _) (fnv32a_lt _), congrArg hashText⟩

def chainHash (hash : Nat) : String := chainText (hashText hash)

theorem policyChain_eq (lead uid : String) :
    policyChain lead uid = bounded maxChainName chainText chainHash lead uid := rfl

theorem chainHash_inj {low high : Nat} (small : low < 2 ^ 32) (small' : high < 2 ^ 32)
    (eq : chainHash low = chainHash high) : low = high := by
  have lowered (hash : Nat) : (chainHash hash).toList.map Char.toLower =
      (hashText hash).toList := by
    have kept : ∀ val < 16,
        ((hexDigit val).isLower || (hexDigit val).isDigit || (hexDigit val).isUpper) = true ∧
        (hexDigit val).toUpper.toLower = hexDigit val := by
      decide
    rw [chainHash, chainText, String.toList_ofList, filter_eq_self.mpr, map_map]
    · nth_rewrite 2 [← map_id (hashText hash).toList]
      apply map_congr_left
      intro char seen
      obtain ⟨val, digit, rfl⟩ := mem_hexEncode seen
      exact (kept val digit).2
    · intro char seen
      obtain ⟨val, digit, rfl⟩ := mem_hexEncode seen
      exact (kept val digit).1
  refine hashText_inj small small' (String.toList_inj.mp ?_)
  rw [← lowered, eq, lowered]

theorem policyChain_ne_iff {lead first snd : String} (short : lead.utf8ByteSize ≤ maxChainName) :
    policyChain lead first ≠ policyChain lead snd ↔
      NamesApart (maxChainName - lead.utf8ByteSize) chainText chainHash first snd := by
  rw [policyChain_eq, policyChain_eq]
  exact bounded_ne_iff short fun _ small _ small' => chainHash_inj small small'

theorem mapperName_ne_iff (first snd : String) :
    mapperName first ≠ mapperName snd ↔
      (mapperText first).take 114 ≠ (mapperText snd).take 114 := by
  have shortened (uid : String) : mapperName uid =
      String.ofList ("infra-".toList ++ (mapperText uid).take 114) := by
    have lead : "infra-".toList.length = 6 := rfl
    rw [mapperName]
    split
    · rw [take_append, take_of_length_le (by omega), lead]
    · next whole =>
      rw [length_append] at whole
      rw [take_of_length_le (by omega)]
  rw [shortened, shortened, not_iff_not, String.ofList_inj, append_cancel_left_eq]

/-- The low bits of the hash, of which zero stands for one. -/
def VniApart (first second : String) : Prop :=
  uidHash first % 2 ^ 24 ≠ uidHash second % 2 ^ 24 ∧
    ¬(uidHash first % 2 ^ 24 ≤ 1 ∧ uidHash second % 2 ^ 24 ≤ 1)

theorem vniFor_ne_iff (first snd : String) : vniFor first ≠ vniFor snd ↔ VniApart first snd := by
  rw [vniFor, vniFor, VniApart, uidHash, uidHash]
  split <;> split <;> omega

theorem vniFor_lt (uid : String) : vniFor uid < 2 ^ 24 := by
  rw [vniFor]
  split <;> omega

theorem vrfTable_eq (uid : String) : vrfTable uid = 2 ^ 24 + vniFor uid :=
  (Nat.two_pow_add_eq_or_of_lt (vniFor_lt uid) 1).symm

theorem vrfMainMark_eq (uid : String) : vrfMainMark uid = 2 ^ 30 + 2 ^ 24 + vniFor uid := by
  have table := vrfTable_eq uid
  have small := vniFor_lt uid
  rw [vrfMainMark, Nat.or_comm, ← Nat.two_pow_add_eq_or_of_lt (i := 30) (by omega) 1]
  omega

inductive TenantKind where
  | vpc
  | peering
  | compute
  | microVM
  | accessPolicy
  | wafPolicy
  | securityGroup
  | disk
  deriving DecidableEq, Repr

inductive HostObject where
  | interface (name : String)
  | vni (n : Nat)
  | table (n : Nat)
  | mark (n : Nat)
  | chain (name : String)
  | mapper (name : String)
  deriving DecidableEq, Repr

/-- What stands on a host for a record of the kind, each object in its place. -/
def hostObjects : TenantKind → String → List HostObject
  | .vpc, uid =>
    [.interface (bridgeName uid), .interface (vxlanName uid), .interface (nodePortName uid),
      .interface (nodePortPeerName uid), .interface (lbAnycastPeerName uid),
        .interface (lbPublicPeerName uid), .interface (vrfName uid), .vni (vniFor uid),
      .table (vrfTable uid), .mark (vrfMark uid), .mark (vrfMainMark uid)]
  | .peering, uid => [.interface (peeringNames uid).1, .interface (peeringNames uid).2]
  | .compute, uid => [.interface (ComputeReconciler.computeName "vh-" uid),
      .interface (ComputeReconciler.computeName "vp-" uid)]
  | .microVM, uid => [.interface (ifaceName "tap-" uid)]
  | .accessPolicy, uid => [.chain (chainName uid)]
  | .wafPolicy, uid => [.chain (wafChainName uid)]
  | .securityGroup, uid => [.chain (sgChainName uid)]
  | .disk, uid => [.mapper (mapperName uid)]

/-- Each object of the one differs from that of the other. -/
def ObjectsApart (kind : TenantKind) (first second : String) : Prop :=
  List.Forall₂ (· ≠ ·) (hostObjects kind first) (hostObjects kind second)

/-- What the uids of a kind must differ in. -/
def UidsApart : TenantKind → String → String → Prop
  | .vpc, first, second => NamesApart 12 ifaceText hashText first second ∧
      NamesApart 11 ifaceText hashText first second ∧ VniApart first second
  | .peering, first, second | .compute, first, second => uidHash first ≠ uidHash second
  | .microVM, first, second => NamesApart 11 ifaceText hashText first second
  | .accessPolicy, first, second | .wafPolicy, first, second =>
    NamesApart 18 chainText chainHash first second
  | .securityGroup, first, second => NamesApart 19 chainText chainHash first second
  | .disk, first, second => (mapperText first).take 114 ≠ (mapperText second).take 114

theorem objectsApart_one {kind : TenantKind} {first snd : String} {object : String → HostObject}
    (one : ∀ uid, hostObjects kind uid = [object uid]) :
    ObjectsApart kind first snd ↔ object first ≠ object snd := by
  simp [ObjectsApart, one]

theorem vpc_objects_apart (first second : String) :
    ObjectsApart .vpc first second ↔ UidsApart .vpc first second := by
  have numbers := vniFor_ne_iff first second
  have three (lead : String) (size : lead.utf8ByteSize = 3) :
      ifaceName lead first ≠ ifaceName lead second ↔
        NamesApart 12 ifaceText hashText first second := by
    rw [ifaceName_ne_iff (by rw [size]; decide), size]
    rfl
  have vrf : ifaceName "vrf-" first ≠ ifaceName "vrf-" second ↔ _ := ifaceName_ne_iff (by decide)
  have tables : vrfTable first ≠ vrfTable second ↔ VniApart first second := by
    rw [vrfTable_eq, vrfTable_eq, ← numbers]
    omega
  have mains : vrfMainMark first ≠ vrfMainMark second ↔ VniApart first second := by
    rw [vrfMainMark_eq, vrfMainMark_eq, ← numbers]
    omega
  simp only [ObjectsApart, hostObjects, forall₂_cons, forall₂_nil_left_iff, and_true, ne_eq,
    HostObject.interface.injEq, HostObject.vni.injEq, HostObject.table.injEq, HostObject.mark.injEq]
  simp only [bridgeName, vxlanName, nodePortName, nodePortPeerName, lbAnycastPeerName,
    lbPublicPeerName, vrfName, vrfMark, numbers, tables, mains, three "br-" rfl, three "vx-" rfl,
    three "np-" rfl, three "nb-" rfl, three "la-" rfl, three "lp-" rfl, vrf, and_self,
    and_self_left]
  rfl

/-- Two records of a kind share no host object exactly where their uids differ in what names
keep. -/
theorem host_objects_apart_iff (kind : TenantKind) (first second : String) :
    ObjectsApart kind first second ↔ UidsApart kind first second := by
  have chains (lead : String) (short : lead.utf8ByteSize ≤ maxChainName) :=
    @policyChain_ne_iff lead first second short
  cases kind with
  | vpc => exact vpc_objects_apart first second
  | peering | compute =>
    have hashed (lead : String) := @hashed_ne_iff lead first second
    simp only [ObjectsApart, hostObjects, forall₂_cons, forall₂_nil_left_iff, and_true, ne_eq,
      HostObject.interface.injEq]
    exact (and_congr (hashed _) (hashed _)).trans and_self_iff
  | microVM =>
    rw [objectsApart_one fun _ => rfl, ne_eq, HostObject.interface.injEq]
    exact ifaceName_ne_iff (by decide)
  | accessPolicy =>
    rw [objectsApart_one fun _ => rfl, ne_eq, HostObject.chain.injEq]
    exact chains "INFRA-ACL-" (by decide)
  | wafPolicy =>
    rw [objectsApart_one fun _ => rfl, ne_eq, HostObject.chain.injEq]
    exact chains "INFRA-WAF-" (by decide)
  | securityGroup =>
    rw [objectsApart_one fun _ => rfl, ne_eq, HostObject.chain.injEq]
    exact chains "INFRA-SG-" (by decide)
  | disk =>
    rw [objectsApart_one fun _ => rfl, ne_eq, HostObject.mapper.injEq]
    exact mapperName_ne_iff first second

/-- Uids that differ in a dropped character share an object of every kind whose names are not
mere hashes. -/
theorem dropped_character_shares_objects : "a_1" ≠ "a1" ∧
    ∀ kind, kind ≠ .compute → kind ≠ .peering → ¬ObjectsApart kind "a_1" "a1" := by
  refine ⟨by decide, ?_⟩
  intro kind other another apart
  cases kind with
  | compute => exact other rfl
  | peering => exact another rfl
  | vpc => exact (forall₂_cons.mp apart).1 (by decide +kernel)
  | _ => exact (objectsApart_one fun _ => rfl).mp apart (by decide +kernel)

end Infrastructure.Manager
