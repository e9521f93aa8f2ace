import Infrastructure.Manager.Instances
import Infrastructure.Manager.SubnetAddresses

/-! When an instance without an address gets one, on a store that serves every operation. -/

namespace Infrastructure.Manager

open Concurrency State Domain Net

/-- A program that runs alone on a store that serves every operation. -/
def served {α : Type} (prog : Prog α) (state : Shared) : α × Shared :=
  prog.run (fun op state => answer state op) state

theorem served_bind {α β : Type} (prog : Prog α) (next : α → Prog β) (state : Shared) :
    served (prog >>= next) state = served (next (served prog state).1) (served prog state).2 :=
  Program.run_then _ prog next state

section

variable {subnet ip owner : String} {state : Shared}

theorem claim_served : served (claim subnet ip owner) state = match state.value
    (addressKey subnet ip) with
    | none => (.ok (true, bytesOf owner), state.write (addressKey subnet ip) (bytesOf owner))
    | some cur => (.ok (decide (cur = bytesOf owner), cur), state) := by
  cases held : state.value (addressKey subnet ip) with
  | none =>
    simp [claim, served, Program.run, answer, held]
  | some cur =>
    simp [claim, served, Program.run, answer, held]

def HeldFrom (state : Shared) (subnet owner ip : String) : Prop :=
  ∃ other, state.value (addressKey subnet ip) = some other ∧ other ≠ bytesOf owner

variable (parseCIDR : String → Except Error IPNet)

theorem allocateIP_fails {cidr : String} {used : List String} {err : Error}
    (bad : allocateIP parseCIDR cidr used = .error err) :
    ∀ ip ∈ hosts parseCIDR cidr, ip ∈ used := by
  intro ip seen
  unfold allocateIP at bad
  unfold hosts at seen
  cases parsed : parseCIDR cidr with
  | error unread =>
    rw [parsed] at seen
    cases seen
  | ok net =>
    rw [parsed] at bad seen
    cases base : to4 net.ip with
    | none => simp [base] at seen
    | some bytes =>
      simp only [base, Option.map_some, Option.getD_some] at bad seen
      cases got : (allocatable parseCIDR cidr net bytes).find? fun ip => !used.contains ip with
      | some free =>
        rw [got] at bad
        cases bad
      | none => simpa using List.find?_eq_none.mp got ip seen

theorem allocate_fails_iff (cidr : String) (used : List String) :
    (∃ err, (served (allocate parseCIDR cidr subnet owner used) state).1 = .error err) ↔
      ∀ ip ∈ hosts parseCIDR cidr, ip ∈ used ∨ HeldFrom state subnet owner ip := by
  fun_induction allocate parseCIDR cidr subnet owner used with
  | case1 used err failed =>
    refine iff_of_true ⟨err, rfl⟩ ?_
    intro ip seen
    exact .inl (allocateIP_fails parseCIDR failed ip seen)
  | case2 used ip allocated ih =>
    obtain ⟨seen, free⟩ := allocateIP_spec parseCIDR allocated
    rw [served_bind, claim_served]
    cases held : state.value (addressKey subnet ip) with
    | none =>
      refine iff_of_false (by simp [served, Program.run]) ?_
      intro taken
      rcases taken ip seen with used | ⟨other, held', -⟩
      · exact free used
      · simp [held] at held'
    | some cur =>
      by_cases own : cur = bytesOf owner
      · refine iff_of_false (by simp [served, Program.run, own]) ?_
        intro taken
        rcases taken ip seen with used | ⟨other, held', differ⟩
        · exact free used
        · exact differ (Option.some.inj (held'.symm.trans held) ▸ own)
      · -- the next round counts the address as used
        simp only [own, decide_false]
        rw [ih]
        refine forall₂_congr ?_
        intro other _
        rw [List.mem_cons, or_assoc]
        refine ⟨?_, .inr⟩
        rintro (rfl | rest)
        · exact .inr ⟨cur, held, own⟩
        · exact rest

end

/-- The addresses of a block beyond its first nine hosts and below those of the node ports. -/
def Eligible (net : IPNet) (text : String) : Prop :=
  ∃ n, Numbered text n ∧ value net.ip + 9 < n ∧
    n + 1 + maxNodePorts.toNat < value net.ip + 2 ^ (32 - net.ones)

/-- The addresses that the scan comes to: the last byte from 10 to 249. -/
def Scanned (net : IPNet) (text : String) : Prop :=
  ∃ n, Numbered text n ∧ n / 256 = value net.ip / 256 ∧ 10 ≤ n % 256 ∧ n % 256 < 250 ∧
    value net.ip ≤ n ∧ n + 1 + maxNodePorts.toNat < value net.ip + 2 ^ (32 - net.ones)

theorem Eligible.wide {net : IPNet} {text : String} (eligible : Eligible net text) :
    net.ones ≤ 27 := by
  obtain ⟨n, -, above, below⟩ := eligible
  have ports : maxNodePorts.toNat = 5 := rfl
  by_contra narrow
  have size : 2 ^ (32 - net.ones) ≤ 2 ^ 4 := Nat.pow_le_pow_right (by decide) (by omega)
  omega

section

variable {parseCIDR : String → Except Error IPNet} {cidr : String} {net : IPNet}
  (parsed : parseCIDR cidr = .ok net) (v4 : net.V4)

include parseCIDR cidr net parsed v4

theorem scanned_iff (wide : net.ones ≤ 27) {text : String} : Scanned net text ↔
    text ∈ hosts parseCIDR cidr := by
  have ports : maxNodePorts.toNat = 5 := rfl
  rw [hosts_parsed parsed v4]
  constructor
  · rintro ⟨n, num, upper, low, high, above, below⟩
    rw [mem_allocatable parsed v4 (by omega) num]
    omega
  · intro seen
    obtain ⟨n, num⟩ := numbered_of_allocatable v4 seen
    have range := (mem_allocatable parsed v4 (by omega) num).mp seen
    exact ⟨n, num, range.1, range.2.1, range.2.2.1, range.2.2.2.1, by omega⟩

theorem written_hosts : ∀ ip ∈ hosts parseCIDR cidr, ip ≠ "" := by
  intro ip seen
  rw [hosts_parsed parsed v4] at seen
  obtain ⟨n, num⟩ := numbered_of_allocatable v4 seen
  exact num.ne_empty

end

/-- An instance without an address, of any kind, and the instances of its kind. -/
structure Attempt (S ST : Type) where
  networks : Networks
  registry : Registry S ST
  plural : String
  subnetOf : S → String
  ipOf : ST → String
  state : Shared
  instances : List (Resource S ST)
  listed : served registry.list state = (.ok instances, state)
  subnetId : String
  uid : String
  attachment : Attachment

namespace Attempt

variable {S ST : Type} (attempt : Attempt S ST)

def Fails : Prop :=
  ∃ err, (served (attempt.networks.address attempt.subnetId attempt.uid "" attempt.attachment
    (usedIPs attempt.registry attempt.plural attempt.ipOf attempt.uid)) attempt.state).1 =
      .error err

def Taken (ip : String) : Prop :=
  ip = attempt.attachment.gateway ∨
    (∃ other ∈ attempt.instances, other.metadata.uid ≠ attempt.uid ∧
      attempt.subnetOf other.spec = attempt.subnetId ∧
      attempt.ipOf other.status = ip) ∨
    (attempt.state.value (addressKey attempt.subnetId ip)).isSome

/-- Neither the gateway's, nor listed by another instance, nor reserved for another. -/
structure Vacant (ip : String) : Prop where
  gateway : ip ≠ attempt.attachment.gateway
  unlisted : ∀ other ∈ attempt.instances, other.metadata.uid ≠ attempt.uid →
    attempt.ipOf other.status ≠ ip
  unreserved : attempt.networks.reserves = true →
    ¬HeldFrom attempt.state attempt.subnetId attempt.uid ip

def used : List String :=
  attempt.attachment.gateway ::
    ((attempt.instances.filter fun other => other.metadata.uid != attempt.uid).map
    (fun other => attempt.ipOf other.status) |>.filter (· != ""))

theorem mem_used {ip : String} (wrote : ip ≠ "") : ip ∈ attempt.used ↔
    ip = attempt.attachment.gateway ∨
      ∃ other ∈ attempt.instances, other.metadata.uid ≠ attempt.uid ∧
        attempt.ipOf other.status = ip := by
  simp only [used, List.mem_cons, List.mem_filter, List.mem_map, bne_iff_ne, wrote, and_assoc,
    ne_eq, not_false_eq_true, and_true]

theorem usedIPs_served :
    served (usedIPs attempt.registry attempt.plural attempt.ipOf attempt.uid) attempt.state =
      (.ok attempt.used.tail, attempt.state) := by
  rw [usedIPs, served_bind, attempt.listed]
  rfl

theorem fails_iff (wrote : ∀ ip ∈ hosts attempt.networks.parseCIDR attempt.attachment.cidr,
      ip ≠ "") : attempt.Fails ↔
      ∀ ip ∈ hosts attempt.networks.parseCIDR attempt.attachment.cidr, ¬attempt.Vacant ip := by
  have vacant {ip : String} (some : ip ≠ "") : ¬attempt.Vacant ip ↔ ip ∈ attempt.used ∨
        (attempt.networks.reserves = true ∧
          HeldFrom attempt.state attempt.subnetId attempt.uid ip) := by
    rw [attempt.mem_used some]
    constructor
    · intro taken
      by_contra free
      simp only [not_or, not_exists, not_and] at free
      exact taken ⟨free.1.1, free.1.2, free.2⟩
    · rintro ((gateway | ⟨other, seen, differ, eq⟩) | ⟨reserves, held⟩) alone
      · exact alone.gateway gateway
      · exact alone.unlisted other seen differ eq
      · exact alone.unreserved reserves held
  rw [Fails, Networks.address, if_pos rfl, served_bind, attempt.usedIPs_served]
  cases reserves : attempt.networks.reserves with
  | true =>
    simp only [if_true]
    rw [allocate_fails_iff]
    refine forall₂_congr ?_
    intro ip seen
    rw [vacant (wrote ip seen), reserves]
    simp [used]
  | false =>
    simp only [Bool.false_eq_true, if_false]
    rw [show attempt.attachment.gateway :: attempt.used.tail = attempt.used from rfl]
    constructor
    · rintro ⟨err, bad⟩ ip seen
      rw [vacant (wrote ip seen)]
      exact .inl (allocateIP_fails _ bad ip seen)
    · intro taken
      cases allocated : allocateIP attempt.networks.parseCIDR attempt.attachment.cidr
        attempt.used with
      | error err => exact ⟨err, rfl⟩
      | ok ip =>
        obtain ⟨seen, free⟩ := allocateIP_spec _ allocated
        rcases (vacant (wrote ip seen)).mp (taken ip seen) with used | ⟨reserving, -⟩
        · exact absurd used free
        · rw [reserves] at reserving
          cases reserving

/-- Allocation fails only when no eligible address is free. -/
def Complete (net : IPNet) : Prop :=
  attempt.Fails → ∀ ip, Eligible net ip → attempt.Taken ip

end Attempt

theorem allocation_complete_iff {S ST : Type} (attempt : Attempt S ST)
    (faithful : ∀ cidr net, attempt.networks.parseCIDR cidr = .ok net → net.bits = 32 → net.V4)
    (net : IPNet) (accepted : attempt.networks.parseCIDR attempt.attachment.cidr = .ok net)
    (four : net.bits = 32) : attempt.Complete net ↔
      ((∃ ip, Eligible net ip ∧ ¬attempt.Taken ip) → ∃ ip, Scanned net ip ∧ attempt.Vacant ip) := by
  have v4 := faithful _ net accepted four
  rw [Attempt.Complete, attempt.fails_iff (written_hosts accepted v4)]
  constructor
  · rintro complete ⟨ip, eligible, free⟩
    by_contra none
    refine free (complete ?_ ip eligible)
    intro other listed vacant
    exact none ⟨other, (scanned_iff accepted v4 eligible.wide).mpr listed, vacant⟩
  · intro vacant none ip eligible
    by_contra free
    obtain ⟨other, scanned, alone⟩ := vacant ⟨ip, eligible, free⟩
    exact none other ((scanned_iff accepted v4 eligible.wide).mp scanned) alone

section

def wideBlock : IPNet := ⟨[10, 0, 0, 0], 16, 32⟩

def plainNetworks : Networks where
  subnetCodec := .ofTable [] List.nodup_nil
  vpcCodec := .ofTable [] List.nodup_nil
  sgCodec := .ofTable [] List.nodup_nil
  parseCIDR cidr := if cidr = "10.0.0.0/16" then .ok wideBlock else
    .error (.new "invalid CIDR address")
  reserves := true

theorem plainNetworks_faithful (cidr : String) (net : IPNet)
    (parsed : plainNetworks.parseCIDR cidr = .ok net) (_ : net.bits = 32) : net.V4 := by
  simp only [plainNetworks] at parsed
  split_ifs at parsed
  cases parsed
  exact ⟨rfl, rfl, by decide, by decide⟩

/-- The first `count` addresses from .10 on are reserved for another instance. -/
def reservedState (count : Nat) (bound : count ≤ 240) : Shared where
  store := {
    entries := (List.range' 10 count).map fun i =>
      ⟨addressKey "sub-1" (dotted [10, 0, 0, UInt8.ofNat i]), bytesOf "vm-0"⟩
    nodupKeys := by
      rw [List.NodupKeys, List.keys, List.map_map]
      refine List.Nodup.map_on ?_ List.nodup_range'
      intro first listed second listed' same
      have alike := dotted_inj (by simp) (by simp) (addressKey_inj same)
      rw [List.mem_range'_1] at listed listed'
      simp only [List.cons.injEq, true_and, and_true, ← UInt8.toNat_inj,
        UInt8.toNat_ofNat'] at alike
      omega }
  clock := 0

variable {count : Nat} (bound : count ≤ 240)

theorem reserved_value {i : Nat} (seen : i ∈ List.range' 10 count) :
    (reservedState count bound).value
    (addressKey "sub-1" (dotted [10, 0, 0, UInt8.ofNat i])) = some (bytesOf "vm-0") :=
  AList.mem_lookup_iff.mpr (List.mem_map.mpr ⟨i, seen, rfl⟩)

theorem unreserved_value (ip : List UInt8) (wrote : ip ≠ [])
    (other : ∀ i ∈ List.range' 10 count, ip ≠ [10, 0, 0, UInt8.ofNat i]) :
    (reservedState count bound).value (addressKey "sub-1" (dotted ip)) = none := by
  refine AList.lookup_eq_none.mpr ?_
  intro mem
  rw [AList.mem_keys, AList.keys, List.keys, reservedState, List.map_map] at mem
  obtain ⟨i, seen, eq⟩ := List.mem_map.mp mem
  exact other i seen (dotted_inj (by simp) wrote (addressKey_inj eq)).symm

def plainComputes : Registry ComputeSpec ComputeStatus := ⟨kindCompute, .ofTable [] List.nodup_nil⟩

theorem list_reserved : served plainComputes.list
    (reservedState count bound) = (.ok [], reservedState count bound) := by
  have none : ((reservedState count bound).store.keys.filter (directChild kindCompute)) = [] := by
    rw [List.filter_eq_nil_iff]
    intro key mem
    rw [AList.keys, List.keys, reservedState, List.map_map] at mem
    obtain ⟨i, -, rfl⟩ := List.mem_map.mp mem
    simp [directChild, addressKey, kindCompute]
  have vals : served (State.list plainComputes.kind) (reservedState count bound) =
      served (readEach ((reservedState count bound).store.keys.filter (directChild kindCompute)))
        (reservedState count bound) := rfl
  rw [Registry.list, served_bind, vals, none]
  rfl

/-- A compute without an address joins a subnet of the wide block. -/
def newCompute (count : Nat) (bound : count ≤ 240) : Attempt ComputeSpec ComputeStatus where
  networks := plainNetworks
  registry := plainComputes
  plural := "computes"
  subnetOf spec := spec.subnetId
  ipOf status := status.ip
  state := reservedState count bound
  instances := []
  listed := list_reserved bound
  subnetId := "sub-1"
  uid := "cmp-1"
  attachment := ⟨"vpc-1", "br-vpc-1", "10.0.0.0/16", "10.0.0.1", ""⟩

theorem wideBlock_v4 : wideBlock.V4 := ⟨rfl, rfl, by decide, by decide⟩

/-- With 240 addresses reserved a block of 65536 counts as full. -/
theorem wide_block_exhausted : (newCompute 240 (Nat.le_refl 240)).Fails ∧ Eligible wideBlock
    (dotted [10, 0, 1, 10]) ∧
      ¬(newCompute 240 (Nat.le_refl 240)).Taken (dotted [10, 0, 1, 10]) := by
  refine ⟨?_, ⟨value [10, 0, 1, 10], .of_bytes rfl, by decide, by decide⟩, ?_⟩
  · rw [Attempt.fails_iff _ (written_hosts rfl wideBlock_v4)]
    intro ip listed vacant
    obtain ⟨cand, mem, rfl⟩ := List.mem_map.mp listed
    obtain ⟨i, range, rfl⟩ := List.mem_map.mp (List.mem_filter.mp mem).1
    exact vacant.unreserved rfl ⟨bytesOf "vm-0", reserved_value (Nat.le_refl 240) range, by decide⟩
  · rintro (gateway | ⟨other, listed, -⟩ | reserved)
    · exact absurd gateway (by decide)
    · cases listed
    · obtain ⟨owner, held⟩ := Option.isSome_iff_exists.mp reserved
      cases (unreserved_value (Nat.le_refl 240) [10, 0, 1, 10] (by simp) (by simp)).symm.trans held

theorem allocation_complete_while_vacant : (newCompute 1 (by decide)).Complete wideBlock := by
  refine (allocation_complete_iff (newCompute 1 (by decide)) plainNetworks_faithful
    wideBlock rfl rfl).mpr ?_
  rintro -
  refine ⟨dotted [10, 0, 0, 11], ⟨value [10, 0, 0, 11], .of_bytes rfl, by decide⟩, ?_, ?_, ?_⟩
  · decide
  · intro other listed
    cases listed
  · rintro - ⟨owner, held, -⟩
    cases (unreserved_value (show 1 ≤ 240 by decide) [10, 0, 0,
      11] (by simp) (by decide)).symm.trans held

end

end Infrastructure.Manager
