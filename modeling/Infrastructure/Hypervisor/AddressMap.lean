import Infrastructure.Domain.MicroVM
import Infrastructure.Hypervisor.Boot

/-! The guest-physical address map: guest memory below, the register windows of the
virtio devices and the pages of the interrupt controllers above. -/

namespace Infrastructure.Hypervisor

open Memory State Boot Domain List

/-- The fields of a create request that are checked or decide on devices. -/
structure CreateParams where
  vcpus : Int
  memoryMB : Int
  kernelPath : String
  tapName : String
  diskPath : String

def maxCreateVCPUs : Int := 254

def validateCreateParams (params : CreateParams) : Except Error Unit :=
  if params.vcpus < 1 then .error (.new ("vcpus must be positive, got " ++ toString params.vcpus))
  else if maxCreateVCPUs < params.vcpus then
    .error (.new ("vcpus must be at most " ++ toString maxCreateVCPUs ++ ", got " ++
      toString params.vcpus))
  else if params.memoryMB ≤ 0 then
    .error (.new ("memory_mb must be positive, got " ++ toString params.memoryMB))
  else if params.kernelPath = "" then .error (.new "kernel_path is required")
  else .ok ()

def memorySize (memoryMB : Int) : Nat := (memoryMB * 1024 * 1024 % 2 ^ 64).toNat

structure MMIODevice where
  base : Nat
  size : Nat
  gsi : Nat
  deriving DecidableEq, Repr

def maxDevices : Nat := 8

def deviceAt (i : Nat) : MMIODevice :=
  ⟨mmioBaseAddr + i * mmioDeviceSize, mmioDeviceSize, 16 + i⟩

def registerMMIODevice (devices : List MMIODevice) : Except Error (List MMIODevice) :=
  if maxDevices ≤ devices.length then
    .error (.new ("hypervisor: too many mmio devices (max " ++ toString maxDevices ++
      ", limited by the default IOAPIC's free GSIs)"))
  else .ok (devices ++ [deviceAt devices.length])

def setup (name : String) (devices : List MMIODevice) : Except Error (List MMIODevice) :=
  if name ≠ "" then registerMMIODevice devices else .ok devices

def registerDevices (params : CreateParams) : Except Error (List MMIODevice) := do
  let devices ← setup params.tapName []
  setup params.diskPath devices

def MMIODevice.window (device : MMIODevice) : Region := ⟨device.base, device.size⟩

/-- The IOAPIC and LAPIC pages, the identity-map page and the three pages of the TSS. -/
def fixedPages : List Region :=
  [⟨mpIOAPICDefaultBase, pageSize⟩, ⟨mpLAPICDefaultBase, pageSize⟩, ⟨identityMapAddr, pageSize⟩,
    ⟨tssAddr, 3 * pageSize⟩]

/-- The RAM registered with KVM, and the ranges that the E820 map calls usable. -/
def ramRanges (memSize : Nat) : List Region :=
  ⟨0, memSize⟩ :: match buildE820 memSize with
    | .ok entries => entries.map fun entry => ⟨entry.addr, entry.size⟩
    | .error _ => []

theorem ramRanges_within {memSize : Nat} {range : Region} (mem : range ∈ ramRanges memSize) :
    range.Within memSize := by
  unfold ramRanges at mem
  rcases mem_cons.mp mem with rfl | mem
  · exact Nat.le_of_eq (Nat.zero_add memSize)
  · simp only [buildE820] at mem
    split at mem
    · next entries built =>
      split at built
      · cases built
      · cases built
        simp only [map_cons, map_nil, mem_cons, not_mem_nil, or_false] at mem
        rcases mem with rfl | rfl
        · simp only [Region.Within, Region.stop, kernelLoadAddr, mpTableAddr] at *
          omega
        · simp only [Region.Within, Region.stop]
          omega
    · cases mem

theorem ramRanges_apart_iff (memSize : Nat) {device : Region} (window : 0 < device.length) :
    (∀ range ∈ ramRanges memSize, range.Apart device) ↔ memSize ≤ device.base := by
  constructor
  · intro apart
    rcases apart ⟨0, memSize⟩ mem_cons_self with below | above
    · simpa [Region.stop] using below
    · simp only [Region.stop] at above
      omega
  · intro below range mem
    exact .inl (Nat.le_trans (ramRanges_within mem) below)

theorem registerMMIODevice_next {count : Nat} {devices : List MMIODevice}
    (known : registerMMIODevice ((List.range count).map deviceAt) = .ok devices) :
    devices = (List.range (count + 1)).map deviceAt := by
  unfold registerMMIODevice at known
  split at known
  · cases known
  · rw [← Except.ok.inj known, length_map, length_range, range_succ, map_append, map_singleton]

theorem setup_range {name : String} {count : Nat} {devices : List MMIODevice}
    (known : setup name ((List.range count).map deviceAt) = .ok devices) :
    ∃ count, devices = (List.range count).map deviceAt := by
  unfold setup at known
  split at known
  · exact ⟨count + 1, registerMMIODevice_next known⟩
  · exact ⟨count, (Except.ok.inj known).symm⟩

theorem registerDevices_range {params : CreateParams} {devices : List MMIODevice}
    (known : registerDevices params = .ok devices) :
    ∃ count, devices = (List.range count).map deviceAt := by
  unfold registerDevices at known
  cases net : setup params.tapName [] with
  | error err =>
    rw [net] at known
    cases known
  | ok first =>
    rw [net] at known
    obtain ⟨count, rfl⟩ : ∃ count, first = (List.range count).map deviceAt := by
      rw [← map_nil, ← range_zero] at net
      exact setup_range net
    exact setup_range known

theorem windows_apart_iff (memSize count : Nat) :
    (∀ device ∈ (List.range count).map deviceAt, ∀ range ∈ ramRanges memSize,
      range.Apart device.window) ↔
      count = 0 ∨ memSize ≤ mmioBaseAddr := by
  have window (i : Nat) : 0 < (deviceAt i).window.length := show 0 < mmioDeviceSize by decide
  constructor
  · intro apart
    cases count with
    | zero => exact .inl rfl
    | succ count =>
      have first := apart (deviceAt 0) (mem_map_of_mem (mem_range.mpr (Nat.succ_pos count)))
      exact .inr ((ramRanges_apart_iff memSize (window 0)).mp first)
  · intro below device mem
    obtain ⟨i, small, rfl⟩ := mem_map.mp mem
    have small := mem_range.mp small
    refine (ramRanges_apart_iff memSize (window i)).mpr ?_
    simp only [deviceAt, MMIODevice.window]
    omega

theorem fixedPages_apart_iff (memSize : Nat) :
    (∀ page ∈ fixedPages, ∀ range ∈ ramRanges memSize,
      range.Apart page) ↔ memSize ≤ mpIOAPICDefaultBase := by
  have pages : ∀ page ∈ fixedPages, 0 < page.length ∧ mpIOAPICDefaultBase ≤ page.base := by decide
  constructor
  · intro apart
    exact (ramRanges_apart_iff memSize (by decide)).mp (apart _ (.head _))
  · intro below page mem
    have put := pages page mem
    exact (ramRanges_apart_iff memSize put.1).mpr (Nat.le_trans below put.2)

/-- RAM is clear of the devices exactly when it ends at or below 3328 MiB, or 4076 MiB without a
virtio device. -/
theorem address_map_apart_iff {spec : MicroVMSpec} (valid : spec.validate = .ok ())
    {params : CreateParams} (passed : params.memoryMB = spec.memoryMb) {devices : List MMIODevice}
    (registered : registerDevices params = .ok devices) :
    (∀ device ∈ devices.map MMIODevice.window ++ fixedPages,
      ∀ range ∈ ramRanges (memorySize params.memoryMB), range.Apart device) ↔
      (devices = [] ∨ params.memoryMB ≤ 3328) ∧ params.memoryMB ≤ 4076 := by
  obtain ⟨positive, bounded⟩ := spec.validate_memory valid
  obtain ⟨count, rfl⟩ := registerDevices_range registered
  have size : memorySize params.memoryMB = params.memoryMB * 1024 * 1024 := by
    simp only [memorySize, maxRuntimeMemoryMB] at *
    omega
  have unused : (List.range count).map deviceAt = [] ↔ count = 0 := by simp
  rw [forall_mem_append, forall_mem_map, windows_apart_iff, fixedPages_apart_iff, unused]
  simp only [mmioBaseAddr, mpIOAPICDefaultBase]
  omega

def sampleSpec (memoryMb : Int) : MicroVMSpec where
  subnetId := "subnet-1"
  vcpus := 1
  memoryMb := memoryMb
  kernelPath := "/boot/vmlinuz"
  image := "/images/disk.raw"

def sampleParams (memoryMB : Int) : CreateParams :=
  ⟨1, memoryMB, "/boot/vmlinuz", "vmtap0", "/state/disk.raw"⟩

theorem registerDevices_sampleParams (memoryMB : Int) :
    registerDevices (sampleParams memoryMB) = .ok [deviceAt 0, deviceAt 1] := rfl

theorem address_map_apart_small_vm : (sampleSpec 256).validate = .ok () ∧
    ∀ device ∈ [deviceAt 0, deviceAt 1].map MMIODevice.window ++ fixedPages,
      ∀ range ∈ ramRanges (memorySize 256), range.Apart device :=
  have valid : (sampleSpec 256).validate = .ok () := by decide
  ⟨valid, (address_map_apart_iff valid rfl (registerDevices_sampleParams 256)).mpr (by decide)⟩

/-- A micro-VM of 4 GiB is accepted everywhere, and its RAM covers the first register window. -/
theorem large_vm_covers_windows :
    (sampleSpec 4096).validate = .ok () ∧ validateCreateParams (sampleParams 4096) = .ok () ∧
    (∃ pages, buildPageTables (memorySize 4096) = .ok pages) ∧
    registerDevices (sampleParams 4096) = .ok [deviceAt 0, deviceAt 1] ∧
    ⟨0, memorySize 4096⟩ ∈ ramRanges (memorySize 4096) ∧
    ¬Region.Apart ⟨0, memorySize 4096⟩ (deviceAt 0).window := by
  have tablesFit : ¬cmdlineAddr < pdAddr + gibibytes (memorySize 4096) * pageSize := by
    decide +kernel
  refine ⟨by
    decide, by decide, ?_, registerDevices_sampleParams 4096, mem_cons_self, by decide +kernel⟩
  simp only [buildPageTables, if_neg tablesFit]
  exact ⟨_, rfl⟩

end Infrastructure.Hypervisor
