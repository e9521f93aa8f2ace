import Mathlib.Data.UInt
import Infrastructure.Memory.Region
import Infrastructure.State.Store

/-! The byte structures that a Linux kernel expects at entry under the x86-64 boot
protocol, and where they are placed in guest memory. -/

namespace Infrastructure.Hypervisor.Boot

open Memory State List Nat

def bootParamsAddr : Nat := 0x7000
def cmdlineAddr : Nat := 0x20000
def cmdlineMaxSize : Nat := 0x10000
def pml4Addr : Nat := 0x9000
def pdptAddr : Nat := 0xa000
def pdAddr : Nat := 0xb000
def gdtAddr : Nat := 0x6000
def stackPointer : Nat := 0x8ff0
def tssAddr : Nat := 0xfffbd000
def identityMapAddr : Nat := 0xfffbc000
def mpTableAddr : Nat := 0x9fc00
def kernelLoadAddr : Nat := 0x100000
def mmioBaseAddr : Nat := 0xd0000000
def mmioDeviceSize : Nat := 0x200

/-- `%x`. -/
def hexText (n : Nat) : String := String.ofList (Nat.toDigits 16 n)

/-- `%04x` and the like. -/
def paddedHex (width n : Nat) : String :=
  let digits := Nat.toDigits 16 n
  String.ofList (List.replicate (width - digits.length) '0' ++ digits)

def wordAt (width : Nat) (data : Bytes) (offset : Nat) : Nat :=
  ofLittleEndian ((data.drop offset).take width)

/-- `copy(buffer[offset:], bytes)`. -/
def overlay (buffer : Bytes) (offset : Nat) (bytes : Bytes) : Bytes :=
  buffer.take offset ++ bytes.take (buffer.length - offset) ++ buffer.drop (offset + bytes.length)

@[simp] theorem length_overlay (buffer : Bytes) (offset : Nat) (bytes : Bytes) :
    (overlay buffer offset bytes).length = buffer.length := by
  simp only [overlay, length_append, length_take, length_drop]
  omega

theorem length_flatMap_const {α : Type} {block : α → Bytes} {size : Nat}
    (each : ∀ item, (block item).length = size) (items : List α) :
    (items.flatMap block).length = items.length * size := by
  induction items with
  | nil => exact (zero_mul size).symm
  | cons item items ih =>
    rw [flatMap_cons, length_append, ih, each, length_cons, succ_mul, add_comm]

def offBootFlag : Nat := 0x1fe
def offSetupSects : Nat := 0x1f1
def offHeaderMagic : Nat := 0x202
def offVersion : Nat := 0x206
def offTypeOfLoader : Nat := 0x210
def offLoadflags : Nat := 0x211
def offRamdiskImage : Nat := 0x218
def offRamdiskSize : Nat := 0x21c
def offCmdLinePtr : Nat := 0x228
def offInitrdAddrMax : Nat := 0x22c
def offCmdlineSize : Nat := 0x238
def headerStart : Nat := 0x1f1
def headerEnd : Nat := 0x290
def headerMagic : Nat := 0x53726448
def loadflagKeepSegments : UInt8 := (1 : UInt8) <<< 6

structure Image where
  header : Bytes
  version : Nat
  cmdlineSize : Nat
  initrdAddrMax : Nat
  code : Bytes

def setupSize (data : Bytes) : Nat :=
  let sects := (data.getD offSetupSects 0).toNat
  ((if sects = 0 then 4 else sects) + 1) * 512

def imageOf (data : Bytes) : Image :=
  let version := wordAt 2 data offVersion
  { header := (data.take headerEnd).drop headerStart
    version := version
    initrdAddrMax := if 0x0203 ≤ version then wordAt 4 data offInitrdAddrMax else 0
    cmdlineSize := if 0x0206 ≤ version then wordAt 4 data offCmdlineSize else 0
    code := data.drop (setupSize data) }

def parse (data : Bytes) : Except Error Image :=
  if data.length < headerEnd then
    .error (.new ("boot: bzImage too short (" ++ toString data.length ++ " bytes)"))
  else if wordAt 2 data offBootFlag ≠ 0xaa55 then
    .error (.new ("boot: bad boot sector signature 0x" ++ paddedHex 4 (wordAt 2 data offBootFlag) ++
      ", want 0xaa55"))
  else if wordAt 4 data offHeaderMagic ≠ headerMagic then
    .error (.new ("boot: bad setup_header magic 0x" ++ paddedHex 8 (wordAt 4 data offHeaderMagic) ++
      ", want \"HdrS\""))
  else if data.length ≤ setupSize data then
    .error (.new ("boot: bzImage has no kernel code after a " ++
      toString (setupSize data) ++ "-byte setup"))
  else .ok (imageOf data)

theorem parse_code {data : Bytes} {img : Image} (got : parse data = .ok img) :
    0 < img.code.length := by
  unfold parse at got
  split at got
  · cases got
  split at got
  · cases got
  split at got
  · cases got
  split at got
  · cases got
  · cases got
    rw [imageOf, length_drop]
    omega

def legacyCmdlineMax : Nat := 255

def cmdlineLimit (kernelMax : Nat) : Nat :=
  min cmdlineMaxSize (if kernelMax = 0 then legacyCmdlineMax else kernelMax)

/-- The length is compared as a `uint32`. -/
def buildCmdline (s : Bytes) (kernelMax : Nat) : Except Error Bytes :=
  if cmdlineLimit kernelMax ≤ s.length % 2 ^ 32 then
    .error (.new ("boot: command line is " ++ toString s.length ++ " bytes, max " ++
      toString (cmdlineLimit kernelMax - 1)))
  else .ok (s ++ [0])

theorem buildCmdline_ok {s b : Bytes} {kernelMax : Nat} (built : buildCmdline s kernelMax = .ok b) :
    b.length = s.length + 1 ∧ s.length % 2 ^ 32 < cmdlineMaxSize := by
  unfold buildCmdline at built
  split at built
  · cases built
  · next short =>
    cases built
    have limit : cmdlineLimit kernelMax ≤ cmdlineMaxSize := min_le_left _ _
    constructor
    · exact length_append
    · omega

def legacyInitrdAddrMax : Nat := 0x37ffffff

/-- The address that the initrd must end below. -/
def initrdCeiling (memSize maxAddr : Nat) : Nat :=
  min memSize ((if maxAddr = 0 then legacyInitrdAddrMax else maxAddr) + 1)

/-- The highest page where an initrd of that length fits. -/
def initrdAddr (memSize initrdLen maxAddr : Nat) : Nat :=
  (initrdCeiling memSize maxAddr - initrdLen) / 0x1000 * 0x1000

def initrdRefusal (memSize initrdLen maxAddr : Nat) : Error :=
  let maxAddr := if maxAddr = 0 then legacyInitrdAddrMax else maxAddr
  .new ("boot: " ++ toString initrdLen ++ "-byte initrd does not fit below 0x" ++
    hexText ((maxAddr + 1) % 2 ^ 32) ++ " with " ++ toString memSize ++ " bytes of memory")

def placeInitrd (memSize initrdLen maxAddr : Nat) : Except Error Nat :=
  if initrdLen = 0 then .ok 0
  else if initrdCeiling memSize maxAddr < initrdLen then
    .error (initrdRefusal memSize initrdLen maxAddr)
  else if initrdAddr memSize initrdLen maxAddr < kernelLoadAddr then
    .error (initrdRefusal memSize initrdLen maxAddr)
  else .ok (initrdAddr memSize initrdLen maxAddr)

theorem placeInitrd_ok {memSize initrdLen maxAddr addr : Nat} (has : initrdLen ≠ 0)
    (put : placeInitrd memSize initrdLen maxAddr = .ok addr) :
    addr = initrdAddr memSize initrdLen maxAddr ∧ kernelLoadAddr ≤ addr ∧
      addr + initrdLen ≤ memSize := by
  unfold placeInitrd at put
  rw [if_neg has] at put
  split at put
  · cases put
  split at put
  · cases put
  · next fits high =>
    cases put
    have ceiling : initrdCeiling memSize maxAddr ≤ memSize := min_le_left _ _
    have aligned : initrdAddr memSize initrdLen maxAddr ≤
        initrdCeiling memSize maxAddr - initrdLen :=
      div_mul_le_self _ _
    exact ⟨rfl, by omega, by omega⟩

def pageSize : Nat := 0x1000
def entries : Nat := 512
def twoMiB : Nat := 2 * 2 ^ 20
def oneGiB : Nat := 2 ^ 30

def tableFlags : Nat := 3

def leafFlags : Nat := 0x83

/-- A page of eight-byte entries, of which the first `count` are set. -/
def tablePage (count : Nat) (entry : Nat → Nat) : Bytes :=
  (List.range entries).flatMap fun i => littleEndian 8 (if i < count then entry i else 0)

theorem length_tablePage (count : Nat) (entry : Nat → Nat) :
    (tablePage count entry).length = pageSize := by
  rw [tablePage, length_flatMap_const (fun _ => length_littleEndian 8 _), length_range]
  rfl

def gibibytes (memSize : Nat) : Nat :=
  let rounded := (memSize + oneGiB - 1) % 2 ^ 64 / oneGiB
  if rounded = 0 then 1 else rounded

/-- The pages of the identity map with their addresses. -/
def buildPageTables (memSize : Nat) : Except Error (List (Nat × Bytes)) :=
  let numGB := gibibytes memSize
  if cmdlineAddr < pdAddr + numGB * pageSize then
    .error (.new ("boot: " ++ toString numGB ++
      " GiB of memory needs more page-directory pages than fit below CmdlineAddr (0x" ++
        hexText cmdlineAddr ++ ")"))
  else
    .ok ((pml4Addr, tablePage 1 fun _ => pdptAddr ||| tableFlags) ::
      (pdptAddr, tablePage numGB fun i => (pdAddr + i * pageSize) ||| tableFlags) ::
      (List.range numGB).map fun i =>
        (pdAddr + i * pageSize,
          tablePage entries fun leaf => (i * oneGiB + leaf * twoMiB) ||| leafFlags))

def pageRegions (numGB : Nat) : List Region :=
  ⟨pml4Addr, pageSize⟩ :: ⟨pdptAddr, pageSize⟩ ::
    (List.range numGB).map fun i => ⟨pdAddr + i * pageSize, pageSize⟩

theorem buildPageTables_ok {memSize : Nat} {pages : List (Nat × Bytes)}
    (built : buildPageTables memSize = .ok pages) :
    pdAddr + gibibytes memSize * pageSize ≤ cmdlineAddr ∧
      pages.map (fun page => Region.mk page.1 page.2.length) = pageRegions (gibibytes memSize) := by
  simp only [buildPageTables] at built
  split at built
  · cases built
  · next fits =>
    cases built
    constructor
    · omega
    · simp [pageRegions, length_tablePage, Function.comp_def]

theorem pageRegions_between {numGB : Nat} (fits : pdAddr + numGB * pageSize ≤ cmdlineAddr)
    {region : Region}
    (mem : region ∈ pageRegions numGB) : pml4Addr ≤ region.base ∧ region.stop ≤ cmdlineAddr := by
  simp only [pageRegions, mem_cons, mem_map, mem_range] at mem
  rcases mem with rfl | rfl | ⟨i, small, rfl⟩
  · decide
  · decide
  · simp only [pml4Addr, pdAddr, pageSize, cmdlineAddr, Region.stop] at *
    omega

theorem pageRegions_apart (numGB : Nat) : (pageRegions numGB).Pairwise Region.Apart := by
  simp only [pageRegions, pairwise_cons, mem_cons, mem_map, mem_range, pairwise_map]
  refine ⟨?_, ?_, ?_⟩
  · rintro region (rfl | ⟨i, -, rfl⟩)
    · decide
    · exact .inl (by simp only [pml4Addr, pdAddr, pageSize, Region.stop]; omega)
  · rintro region ⟨i, -, rfl⟩
    exact .inl (by simp only [pdptAddr, pdAddr, pageSize, Region.stop]; omega)
  · refine pairwise_lt_range.imp ?_
    intro first snd pre
    exact .inl (by simp only [pageSize, Region.stop]; omega)

def e820TypeRAM : Nat := 1

structure E820Entry where
  addr : Nat
  size : Nat
  type : Nat
  deriving DecidableEq, Repr

def E820Entry.marshal (entry : E820Entry) : Bytes :=
  littleEndian 8 entry.addr ++ littleEndian 8 entry.size ++ littleEndian 4 entry.type

def buildE820 (memSize : Nat) : Except Error (List E820Entry) :=
  if memSize ≤ kernelLoadAddr then
    .error (.new ("boot: " ++ toString memSize ++
      " bytes of memory is not enough to load a kernel at 0x" ++
      hexText kernelLoadAddr))
  else .ok [⟨0, mpTableAddr, e820TypeRAM⟩, ⟨kernelLoadAddr, memSize - kernelLoadAddr, e820TypeRAM⟩]

def segPresent : UInt8 := (1 : UInt8) <<< 7
def segTypeS : UInt8 := (1 : UInt8) <<< 4
def segTypeCode : UInt8 := 0xa
def segTypeData : UInt8 := 0x2
def segFlagG : UInt8 := (1 : UInt8) <<< 3
def segFlagL : UInt8 := (1 : UInt8) <<< 1
def segFlagDB : UInt8 := (1 : UInt8) <<< 2
def flatLimitHigh : UInt8 := 0xf

def encodeDescriptor (segType flags : UInt8) : Bytes :=
  [0xff, 0xff, 0, 0, 0, segPresent ||| segTypeS ||| segType, flags <<< 4 ||| flatLimitHigh, 0]

def buildGDT : Bytes :=
  List.replicate 8 0 ++ encodeDescriptor segTypeCode (segFlagG ||| segFlagL) ++
    encodeDescriptor segTypeData (segFlagG ||| segFlagDB)

def zpE820Entries : Nat := 0x1e8
def zpE820MaxEntries : Nat := 128
def zpE820Table : Nat := 0x2d0
def zpSize : Nat := 0x1000

/-- The header with the fields that a boot loader fills in. -/
def patchForDirectBoot (header : Bytes) (cmdline ramdisk ramdiskSize : Nat) : Bytes :=
  let header := header.set (offTypeOfLoader - headerStart) 0xff
  let header := header.modify (offLoadflags - headerStart) (· ||| loadflagKeepSegments)
  let header := overlay header (offCmdLinePtr - headerStart) (littleEndian 4 cmdline)
  let header := overlay header (offRamdiskImage - headerStart) (littleEndian 4 ramdisk)
  overlay header (offRamdiskSize - headerStart) (littleEndian 4 ramdiskSize)

def Image.buildBootParams (img : Image) (cmdline ramdisk ramdiskSize : Nat)
    (e820 : List E820Entry) :
    Except Error Bytes :=
  if e820.length = 0 then .error (.new "boot: BuildBootParams: empty E820 map")
  else if zpE820MaxEntries < e820.length then
    .error (.new ("boot: BuildBootParams: " ++ toString e820.length ++ " E820 entries, max " ++
      toString zpE820MaxEntries))
  else if img.header.length ≠ headerEnd - headerStart then
    .error (.new ("boot: BuildBootParams: header is " ++ toString img.header.length ++
      " bytes, want " ++
      toString (headerEnd - headerStart) ++ " (did Parse build it?)"))
  else
    let header := patchForDirectBoot img.header cmdline ramdisk ramdiskSize
    let zp := overlay (List.replicate zpSize 0) headerStart header
    let zp := zp.set zpE820Entries (UInt8.ofNat e820.length)
    .ok (overlay zp zpE820Table (e820.flatMap E820Entry.marshal))

theorem buildBootParams_ok {img : Image} {cmdline ramdisk ramdiskSize : Nat} {e820 : List E820Entry}
    {zp : Bytes} (built : img.buildBootParams cmdline ramdisk ramdiskSize e820 = .ok zp) :
    zp.length = zpSize := by
  unfold Image.buildBootParams at built
  split at built
  · cases built
  split at built
  · cases built
  split at built
  · cases built
  · rw [← Except.ok.inj built, length_overlay, length_set, length_overlay, length_replicate]

def mpAPICVersion : Nat := 0x14
def mpLAPICDefaultBase : Nat := 0xfee00000
def mpIOAPICDefaultBase : Nat := 0xfec00000
def maxMPCPUs : Nat := 254
def mpAPICAll : Nat := 0xff

def checksum8 (bytes : Bytes) : UInt8 := -bytes.sum

def fields (values : List (Nat × Nat)) : Bytes :=
  values.flatMap fun field => littleEndian field.1 field.2

theorem length_fields (vals : List (Nat × Nat)) :
    (fields vals).length = (vals.map Prod.fst).sum := by
  induction vals with
  | nil => rfl
  | cons field vals ih =>
    rw [fields, flatMap_cons, length_append, length_littleEndian, ← fields, ih, map_cons, sum_cons]

/-- type, APIC id, APIC version, flags, features, feature flags, reserved -/
def mpcCPU (id : Nat) : Bytes :=
  fields [(1, 0), (1, id), (1, mpAPICVersion), (1, if id = 0 then 3 else 1), (4, 0x600), (4, 0x201),
    (8, 0)]

def mpcBus : Bytes := fields [(1, 1), (1, 0)] ++ bytesOf "ISA   "

/-- type, APIC id, APIC version, usable, address -/
def mpcIOAPIC (id : Nat) : Bytes :=
  fields [(1, 2), (1, id), (1, mpAPICVersion), (1, 1), (4, mpIOAPICDefaultBase)]

/-- type, IRQ type, flag, source bus, source IRQ, destination APIC and its line -/
def mpcLintsrc (irqType line : Nat) : Bytes :=
  fields [(1, 4), (1, irqType), (2, 0), (1, 0), (1, 0), (1, mpAPICAll), (1, line)]

def mpcTableHeader (length numCPUs : Nat) : Bytes :=
  bytesOf "PCMP" ++ fields [(2, length), (1, 4), (1, 0)] ++ bytesOf "GOA     " ++
    bytesOf "go-hypervisr" ++
    fields [(4, 0), (2, 0), (2, numCPUs + 1 + 1 + 2), (4, mpLAPICDefaultBase), (4, 0)]

def mpcEntries (numCPUs : Nat) : Bytes :=
  (List.range numCPUs).flatMap mpcCPU ++ mpcBus ++ mpcIOAPIC numCPUs ++
    mpcLintsrc 3 0 ++ mpcLintsrc 1 1

def mpfIntel : Bytes :=
  bytesOf "_MP_" ++ fields [(4, mpTableAddr + 16), (1, 1), (1, 4), (1, 0), (5, 0)]

def buildMPTable (numCPUs : Int) : Except Error Bytes :=
  if numCPUs < 1 ∨ maxMPCPUs < numCPUs then
    .error (.new ("boot: " ++ toString numCPUs ++ " cpus, must be between 1 and " ++
      toString maxMPCPUs))
  else
    let count := numCPUs.toNat
    let table := mpcTableHeader (44 + (mpcEntries count).length) count ++ mpcEntries count
    let table := table.set 7 (checksum8 table)
    .ok (mpfIntel.set 10 (checksum8 mpfIntel) ++ table)

theorem length_mpcEntries (numCPUs : Nat) : (mpcEntries numCPUs).length = 20 * numCPUs + 32 := by
  have cpus : ((List.range numCPUs).flatMap mpcCPU).length = numCPUs * 20 := by
    have each (id : Nat) : (mpcCPU id).length = 20 := length_fields _
    rw [length_flatMap_const each, length_range]
  have bus : mpcBus.length = 8 := by decide
  simp only [mpcEntries, length_append, cpus, bus, mpcIOAPIC, mpcLintsrc, length_fields, map_cons,
    map_nil, sum_cons, sum_nil]
  omega

theorem buildMPTable_ok {numCPUs : Int} {table : Bytes} (built : buildMPTable numCPUs = .ok table) :
    0 < table.length ∧ table.length ≤ 0x1434 := by
  simp only [buildMPTable] at built
  split at built
  · cases built
  · next few =>
    cases built
    have pointer : mpfIntel.length = 16 := by decide +kernel
    have header (length count : Nat) : (mpcTableHeader length count).length = 44 := by
      have first : (bytesOf "PCMP").length = 4 := by decide
      have oem : (bytesOf "GOA     ").length = 8 := by decide
      have product : (bytesOf "go-hypervisr").length = 12 := by decide
      simp [mpcTableHeader, length_fields, first, oem, product]
    simp only [length_append, length_set, pointer, header, length_mpcEntries]
    simp only [maxMPCPUs] at few
    omega

end Infrastructure.Hypervisor.Boot
