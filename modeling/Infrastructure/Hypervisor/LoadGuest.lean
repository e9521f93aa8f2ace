import Infrastructure.Hypervisor.Boot

/-! Loading the guest: what is written where in guest memory before the first instruction. -/

namespace Infrastructure.Hypervisor

open Memory State Boot List

/-- The memory mapped for the guest. Go gives a slice fewer than `2 ^ 63` bytes. -/
structure GuestMemory where
  size : Nat
  addressable : size < 2 ^ 63
  cells : Cells

/-- The memory, and the regions of it that were written, in order. -/
structure Loaded where
  memory : GuestMemory
  regions : List Region

def Loaded.put (loaded : Loaded) (addr : Nat) (bytes : Bytes) : Loaded :=
  ⟨{ loaded.memory with cells := loaded.memory.cells.write addr bytes },
    loaded.regions ++ [⟨addr, bytes.length⟩]⟩

abbrev Loading := StateT Loaded (Except Error)

/-- `Machine.write`. -/
def write (addr : Nat) (bytes : Bytes) : Loading Unit := do
  let loaded ← get
  if loaded.memory.size < addr + bytes.length then
    throw (.new ("hypervisor: write of " ++ toString bytes.length ++
      " bytes at 0x" ++ hexText addr ++
      " overruns " ++ toString loaded.memory.size ++ " bytes of guest memory"))
  else set (loaded.put addr bytes)

def writePages : List (Nat × Bytes) → Loading Unit
  | [] => pure ()
  | page :: pages => do
      write page.1 page.2
      writePages pages

def writeInitrd (addr : Nat) (initrd : Bytes) : Loading Unit :=
  if 0 < initrd.length then write addr initrd else pure ()

def hypervisorError : Except Error α → Loading α
  | .ok val => pure val
  | .error err => throw (.wrap "hypervisor" err)

/-- `order` is the order in which `range` visits the page tables. -/
def loadGuest (order : List (Nat × Bytes) → List (Nat × Bytes)) (img : Image)
    (initrd cmdline : Bytes) (numCPUs : Int) : Loading Unit := do
  let memSize := (← get).memory.size
  let pages ← hypervisorError (buildPageTables memSize)
  writePages (order pages)
  write gdtAddr buildGDT
  let mpTable ← hypervisorError (buildMPTable numCPUs)
  write mpTableAddr mpTable
  let cmdlineBytes ← hypervisorError (buildCmdline cmdline img.cmdlineSize)
  write cmdlineAddr cmdlineBytes
  let initrdAddr ← hypervisorError (placeInitrd memSize initrd.length img.initrdAddrMax)
  writeInitrd initrdAddr initrd
  let e820 ← hypervisorError (buildE820 memSize)
  let zp ← hypervisorError
    (img.buildBootParams cmdlineAddr (initrdAddr % 2 ^ 32) (initrd.length % 2 ^ 32) e820)
  write bootParamsAddr zp
  write kernelLoadAddr img.code

section

variable {α β : Type} {s s' : Loaded}

theorem bind_ok {first : Loading α} {rest : α → Loading β} {val : β} :
    (first >>= rest) s = .ok (val, s') ↔
      ∃ mid during, first s = .ok (mid, during) ∧ rest mid during = .ok (val, s') := by
  show Except.bind (first s) (fun out => rest out.1 out.2) = _ ↔ _
  cases first s with
  | error err => simp [Except.bind]
  | ok out => simp [Except.bind, Prod.ext_iff]

theorem get_ok {val : Loaded} : (get : Loading Loaded) s = .ok (val, s') ↔ val = s ∧ s' = s := by
  show Except.ok (s, s) = Except.ok (val, s') ↔ _
  grind

theorem hypervisorError_ok {out : Except Error α} {val : α} :
    hypervisorError out s = .ok (val, s') ↔ out = .ok val ∧ s' = s := by
  cases out with
  | error err =>
    show Except.error _ = Except.ok _ ↔ _
    grind
  | ok got =>
    show Except.ok (got, s) = Except.ok (val, s') ↔ _
    grind

theorem write_ok {addr : Nat} {bytes : Bytes} {done : PUnit} : write addr bytes s = .ok (done, s') ↔
      addr + bytes.length ≤ s.memory.size ∧ s' = s.put addr bytes := by
  rw [write, bind_ok]
  simp only [get_ok]
  constructor
  · rintro ⟨got, during, ⟨rfl, rfl⟩, wrote⟩
    split at wrote
    · cases wrote
    · cases wrote
      exact ⟨by omega, rfl⟩
  · rintro ⟨fits, rfl⟩
    refine ⟨s, s, ⟨rfl, rfl⟩, ?_⟩
    rw [if_neg (by omega)]
    rfl

@[simp] theorem put_size (got : Loaded) (addr : Nat) (bytes : Bytes) :
    (got.put addr bytes).memory.size = got.memory.size := rfl

@[simp] theorem put_regions (got : Loaded) (addr : Nat) (bytes : Bytes) :
    (got.put addr bytes).regions = got.regions ++ [⟨addr, bytes.length⟩] := rfl

def Loaded.putAll (loaded : Loaded) (pages : List (Nat × Bytes)) : Loaded :=
  pages.foldl (fun loaded page => loaded.put page.1 page.2) loaded

@[simp] theorem putAll_size (got : Loaded) (pages : List (Nat × Bytes)) :
    (got.putAll pages).memory.size = got.memory.size := by
  induction pages generalizing got with
  | nil => rfl
  | cons page pages ih => exact ih (got.put page.1 page.2)

@[simp] theorem putAll_regions (got : Loaded) (pages : List (Nat × Bytes)) :
    (got.putAll pages).regions =
      got.regions ++ pages.map (fun page => Region.mk page.1 page.2.length) := by
  induction pages generalizing got with
  | nil => exact (append_nil _).symm
  | cons page pages ih =>
    calc ((got.put page.1 page.2).putAll pages).regions
        = (got.put page.1 page.2).regions ++
          pages.map (fun page => Region.mk page.1 page.2.length) := ih _
      _ = _ := by rw [put_regions, append_assoc, map_cons, singleton_append]

theorem writePages_ok {pages : List (Nat × Bytes)} {done : PUnit} :
    writePages pages s = .ok (done, s') ↔
      (∀ page ∈ pages, page.1 + page.2.length ≤ s.memory.size) ∧ s' = s.putAll pages := by
  induction pages generalizing s with
  | nil =>
    show Except.ok ((), s) = Except.ok (done, s') ↔ _
    simp only [Loaded.putAll, foldl_nil, not_mem_nil]
    grind
  | cons page pages ih =>
    simp only [writePages, bind_ok, write_ok, ih]
    constructor
    · rintro ⟨_, _, ⟨fits, rfl⟩, later, rfl⟩
      exact ⟨forall_mem_cons.mpr ⟨fits, later⟩, rfl⟩
    · rintro ⟨fits, rfl⟩
      obtain ⟨first, later⟩ := forall_mem_cons.mp fits
      exact ⟨(), _, ⟨first, rfl⟩, later, rfl⟩

/-- The initrd is written only when there is one. -/
def Loaded.putInitrd (loaded : Loaded) (addr : Nat) (initrd : Bytes) : Loaded :=
  if 0 < initrd.length then loaded.put addr initrd else loaded

theorem writeInitrd_ok {addr : Nat} {initrd : Bytes} {done : PUnit} :
    writeInitrd addr initrd s = .ok (done, s') ↔
      (0 < initrd.length → addr + initrd.length ≤ s.memory.size) ∧
        s' = s.putInitrd addr initrd := by
  unfold writeInitrd Loaded.putInitrd
  split
  · next has =>
    rw [write_ok]
    grind
  · show Except.ok ((), s) = Except.ok (done, s') ↔ _
    grind

end

structure Parts (order : List (Nat × Bytes) → List (Nat × Bytes)) (img : Image)
    (initrd cmdline : Bytes) (numCPUs : Int) (memSize : Nat) where
  pages : List (Nat × Bytes)
  mpTable : Bytes
  cmdlineBytes : Bytes
  initrdAddr : Nat
  e820 : List E820Entry
  zp : Bytes
  pagesBuilt : buildPageTables memSize = .ok pages
  mpTableBuilt : buildMPTable numCPUs = .ok mpTable
  cmdlineBuilt : buildCmdline cmdline img.cmdlineSize = .ok cmdlineBytes
  initrdPlaced : placeInitrd memSize initrd.length img.initrdAddrMax = .ok initrdAddr
  e820Built : buildE820 memSize = .ok e820
  zpBuilt : img.buildBootParams cmdlineAddr (initrdAddr % 2 ^ 32)
    (initrd.length % 2 ^ 32) e820 = .ok zp
  pagesFit : ∀ page ∈ order pages, page.1 + page.2.length ≤ memSize
  gdtFits : gdtAddr + buildGDT.length ≤ memSize
  mpTableFits : mpTableAddr + mpTable.length ≤ memSize
  cmdlineFits : cmdlineAddr + cmdlineBytes.length ≤ memSize
  zpFits : bootParamsAddr + zp.length ≤ memSize
  codeFits : kernelLoadAddr + img.code.length ≤ memSize

variable {order : List (Nat × Bytes) → List (Nat × Bytes)} {img : Image}
    {initrd cmdline : Bytes} {numCPUs : Int}

def Parts.written (s : Loaded) (parts : Parts order img initrd cmdline numCPUs s.memory.size) :
    Loaded :=
  let tables :=
    (((s.putAll (order parts.pages)).put gdtAddr buildGDT).put mpTableAddr parts.mpTable)
  let texts := (tables.put cmdlineAddr parts.cmdlineBytes).putInitrd parts.initrdAddr initrd
  (texts.put bootParamsAddr parts.zp).put kernelLoadAddr img.code

variable {memSize : Nat}

theorem Parts.initrdFits (parts : Parts order img initrd cmdline numCPUs memSize) :
    parts.initrdAddr + initrd.length ≤ memSize := by
  by_cases present : initrd.length = 0
  · have put := parts.initrdPlaced
    rw [placeInitrd, if_pos present] at put
    rw [← Except.ok.inj put, present]
    exact Nat.zero_le memSize
  · exact (placeInitrd_ok present parts.initrdPlaced).2.2

@[simp] theorem putInitrd_size (got : Loaded) (addr : Nat) (initrd : Bytes) :
    (got.putInitrd addr initrd).memory.size = got.memory.size := by
  unfold Loaded.putInitrd
  split <;> rfl

/-- The guest is loaded exactly when all its parts can be built and fit. -/
theorem loadGuest_ok {s s' : Loaded} {done : PUnit} :
    loadGuest order img initrd cmdline numCPUs s = .ok (done, s') ↔
      ∃ parts : Parts order img initrd cmdline numCPUs s.memory.size, s' = parts.written s := by
  simp only [loadGuest, bind_ok, get_ok, hypervisorError_ok, writePages_ok, write_ok,
    writeInitrd_ok, and_assoc, exists_and_left, exists_eq_left, exists_const, putAll_size, put_size,
    putInitrd_size]
  constructor
  · intro ⟨pages, pagesBuilt, pagesFit, gdtFits, mpTable, mpTableBuilt, mpTableFits, cmdlineBytes,
      cmdlineBuilt, cmdlineFits, initrdAddr, initrdPlaced, _, e820, e820Built, zp, zpBuilt, zpFits,
        codeFits, wrote⟩
    exact ⟨⟨pages, mpTable, cmdlineBytes, initrdAddr, e820, zp, pagesBuilt, mpTableBuilt,
      cmdlineBuilt, initrdPlaced, e820Built, zpBuilt, pagesFit, gdtFits, mpTableFits, cmdlineFits,
      zpFits, codeFits⟩, wrote⟩
  · intro ⟨parts, wrote⟩
    exact ⟨parts.pages, parts.pagesBuilt, parts.pagesFit, parts.gdtFits, parts.mpTable,
      parts.mpTableBuilt, parts.mpTableFits, parts.cmdlineBytes, parts.cmdlineBuilt,
      parts.cmdlineFits, parts.initrdAddr, parts.initrdPlaced, fun _ => parts.initrdFits,
      parts.e820, parts.e820Built, parts.zp, parts.zpBuilt, parts.zpFits, parts.codeFits, wrote⟩

/-- The space under the stack pointer at kernel entry, down to the zero page. -/
def initialStack : Region := ⟨bootParamsAddr + zpSize, stackPointer - (bootParamsAddr + zpSize)⟩

def Parts.tables {memSize : Nat} (parts : Parts order img initrd cmdline numCPUs memSize) :
    List Region :=
  (order parts.pages).map fun page => ⟨page.1, page.2.length⟩

def Parts.others {memSize : Nat} (parts : Parts order img initrd cmdline numCPUs memSize) :
    List Region :=
  [⟨gdtAddr, buildGDT.length⟩, ⟨mpTableAddr, parts.mpTable.length⟩,
    ⟨cmdlineAddr, parts.cmdlineBytes.length⟩] ++
    (if 0 < initrd.length then [⟨parts.initrdAddr, initrd.length⟩] else []) ++
    [⟨bootParamsAddr, parts.zp.length⟩, ⟨kernelLoadAddr, img.code.length⟩]

theorem Parts.written_regions (s : Loaded)
    (parts : Parts order img initrd cmdline numCPUs s.memory.size) :
    (parts.written s).regions = s.regions ++ parts.tables ++ parts.others := by
  simp only [Parts.written, Parts.tables, Parts.others, Loaded.putInitrd]
  split <;> simp

theorem Parts.loads (memory : GuestMemory)
    (parts : Parts order img initrd cmdline numCPUs memory.size) :
    ∃ loaded, loadGuest order img initrd cmdline numCPUs ⟨memory, []⟩ = .ok ((), loaded) ∧
      loaded.regions = parts.tables ++ parts.others := by
  refine ⟨parts.written ⟨memory, []⟩, ?_, ?_⟩
  · rw [loadGuest_ok]
    exact ⟨parts, rfl⟩
  · rw [Parts.written_regions, nil_append]

variable {region : Region}

section

variable (parts : Parts order img initrd cmdline numCPUs memSize)

include parts

theorem Parts.within (mem : region ∈ parts.others) : region.Within memSize := by
  have initrdFits := parts.initrdFits
  simp only [Parts.others, mem_append, mem_cons, not_mem_nil, or_false] at mem
  rcases mem with ((rfl | rfl | rfl) | loaded) | rfl | rfl
  · exact parts.gdtFits
  · exact parts.mpTableFits
  · exact parts.cmdlineFits
  · split at loaded
    · rw [mem_singleton] at loaded
      subst loaded
      exact initrdFits
    · cases loaded
  · exact parts.zpFits
  · exact parts.codeFits

/-- Besides the page tables and the stack, only the command line can meet the MP table, and the
initrd the kernel. -/
theorem Parts.others_apart_iff (payload : 0 < img.code.length) :
    parts.others.Pairwise Region.Apart ↔ cmdline.length < 2 ^ 32 ∧
      (initrd.length = 0 ∨ kernelLoadAddr + img.code.length ≤ parts.initrdAddr) := by
  obtain ⟨cmdlineLength, cmdlineShort⟩ := buildCmdline_ok parts.cmdlineBuilt
  obtain ⟨mpPositive, mpShort⟩ := buildMPTable_ok parts.mpTableBuilt
  have zpLength := buildBootParams_ok parts.zpBuilt
  have gdtLength : buildGDT.length = 24 := by decide
  have high (has : initrd.length ≠ 0) := (placeInitrd_ok has parts.initrdPlaced).2.1
  by_cases has : 0 < initrd.length
  all_goals
    simp only [Parts.others, has, ↓reduceIte, cons_append, nil_append, pairwise_cons, mem_cons,
      not_mem_nil, or_false, forall_eq_or_imp, forall_eq, false_imp_iff, implies_true,
        List.Pairwise.nil, and_true, Region.Apart, Region.stop, gdtLength, zpLength]
    simp only [gdtAddr, mpTableAddr, cmdlineAddr, bootParamsAddr, kernelLoadAddr, zpSize,
      cmdlineMaxSize] at *
    omega

theorem Parts.others_clear (mem : region ∈ parts.others) :
    region.stop ≤ initialStack.base ∨ cmdlineAddr ≤ region.base := by
  have zpLength := buildBootParams_ok parts.zpBuilt
  simp only [Parts.others, mem_append, mem_cons, not_mem_nil, or_false] at mem
  rcases mem with ((rfl | rfl | rfl) | loaded) | rfl | rfl
  · exact .inl (by decide)
  · exact .inr (show cmdlineAddr ≤ mpTableAddr by decide)
  · exact .inr (Nat.le_refl _)
  · split at loaded
    · next has =>
      rw [mem_singleton] at loaded
      subst loaded
      have high := (placeInitrd_ok (Nat.pos_iff_ne_zero.mp has) parts.initrdPlaced).2.1
      exact .inr (Nat.le_trans (by decide) high)
    · cases loaded
  · exact .inl (by rw [Region.stop, zpLength]; exact Nat.le_refl _)
  · exact .inr (show cmdlineAddr ≤ kernelLoadAddr by decide)

end

section

variable (visits : ∀ pages, (order pages).Perm pages)
include visits
variable (parts : Parts order img initrd cmdline numCPUs memSize)
include parts

theorem Parts.tables_perm : parts.tables.Perm (pageRegions (gibibytes memSize)) := by
  rw [← (buildPageTables_ok parts.pagesBuilt).2]
  exact (visits parts.pages).map _

theorem Parts.tables_between (mem : region ∈ parts.tables) :
    pml4Addr ≤ region.base ∧ region.stop ≤ cmdlineAddr :=
  pageRegions_between (buildPageTables_ok parts.pagesBuilt).1
    ((parts.tables_perm visits).mem_iff.mp mem)

theorem Parts.stack_clear (mem : region ∈ parts.tables ++ parts.others) :
    initialStack.Apart region := by
  rcases mem_append.mp mem with page | other
  · exact .inl (Nat.le_trans (by decide) (parts.tables_between visits page).1)
  · rcases parts.others_clear other with below | above
    · exact .inr below
    · exact .inl (Nat.le_trans (by decide) above)

theorem Parts.tables_clear {page : Region} (mem : page ∈ parts.tables)
    {other : Region} (also : other ∈ parts.others) : page.Apart other := by
  have bounds := parts.tables_between visits mem
  rcases parts.others_clear also with below | above
  · exact .inr (Nat.le_trans below (Nat.le_trans (by decide) bounds.1))
  · exact .inl (Nat.le_trans bounds.2 above)

theorem Parts.all_within (mem : region ∈ initialStack :: (parts.tables ++ parts.others)) :
    region.Within memSize := by
  have kernelFits : kernelLoadAddr ≤ memSize := Nat.le_trans (Nat.le_add_right _ _) parts.codeFits
  rcases mem_cons.mp mem with rfl | mem
  · exact Nat.le_trans (by decide) kernelFits
  · rcases mem_append.mp mem with page | other
    · exact Nat.le_trans (parts.tables_between visits page).2 (Nat.le_trans (by decide) kernelFits)
    · exact parts.within other

theorem Parts.apart_iff (payload : 0 < img.code.length) :
    (initialStack :: (parts.tables ++ parts.others)).Pairwise Region.Apart ↔ cmdline.length < 2 ^
    32 ∧ (initrd.length = 0 ∨
        kernelLoadAddr + img.code.length ≤ Boot.initrdAddr memSize initrd.length
          img.initrdAddrMax) := by
  have tablesApart : parts.tables.Pairwise Region.Apart :=
    ((parts.tables_perm visits).pairwise_iff Region.Apart.symm).mpr
      (pageRegions_apart (gibibytes memSize))
  have put (has : initrd.length ≠ 0) : parts.initrdAddr =
      Boot.initrdAddr memSize initrd.length img.initrdAddrMax :=
    (placeInitrd_ok has parts.initrdPlaced).1
  rw [pairwise_cons, and_iff_right fun _ => parts.stack_clear visits, pairwise_append,
    and_iff_right tablesApart, and_iff_left fun _ page _ => parts.tables_clear visits page,
    parts.others_apart_iff payload]
  grind

end

/-- What is written into guest memory, and the stack, lies inside it, disjoint exactly when the
command line is shorter than `2 ^ 32` bytes and the kernel ends at or below the initrd. -/
theorem boot_regions_apart_iff (visits : ∀ pages, (order pages).Perm pages) {data : Bytes}
    (parsed : parse data = .ok img) (memory : GuestMemory) {loaded : Loaded}
    (succeeded : loadGuest order img initrd cmdline numCPUs ⟨memory, []⟩ = .ok ((), loaded)) :
    ((∀ region ∈ initialStack :: loaded.regions, region.Within memory.size) ∧
        (initialStack :: loaded.regions).Pairwise Region.Apart) ↔
          cmdline.length < 2 ^ 32 ∧ (initrd.length = 0 ∨
        kernelLoadAddr + img.code.length ≤ initrdAddr memory.size initrd.length
          img.initrdAddrMax) := by
  obtain ⟨parts, rfl⟩ := loadGuest_ok.mp succeeded
  rw [Parts.written_regions, nil_append, and_iff_right fun _ => parts.all_within visits]
  exact parts.apart_iff visits (parse_code parsed)

/-- A kernel file with one sector of setup code and one byte of kernel code. -/
def sampleKernel : Bytes :=
  List.replicate offSetupSects 0 ++ [1] ++ List.replicate 12 0 ++ [0x55, 0xaa, 0, 0] ++
    littleEndian 4 headerMagic ++
    List.replicate 507 0

def sampleMemory : GuestMemory := ⟨0x200000, by omega, fun _ => 0⟩

theorem parse_sampleKernel : parse sampleKernel = .ok (imageOf sampleKernel) := by
  have long : ¬sampleKernel.length < headerEnd := by decide +kernel
  have flag : wordAt 2 sampleKernel offBootFlag = 0xaa55 := by decide +kernel
  have magic : wordAt 4 sampleKernel offHeaderMagic = headerMagic := by decide +kernel
  have code : ¬sampleKernel.length ≤ setupSize sampleKernel := by decide +kernel
  rw [parse, if_neg long, if_neg (not_not.mpr flag), if_neg (not_not.mpr magic), if_neg code]

/-- Two mebibytes are enough for the sample kernel and whatever initrd finds a place. -/
theorem sampleKernel_loads {addr : Nat}
    (put : placeInitrd sampleMemory.size initrd.length 0 = .ok addr) :
    Nonempty (Parts id (imageOf sampleKernel) initrd (bytesOf "console=ttyS0") 1
      sampleMemory.size) := by
  have noLimit : (imageOf sampleKernel).initrdAddrMax = 0 := by decide +kernel
  have headerLength : (imageOf sampleKernel).header.length = headerEnd - headerStart := by
    decide +kernel
  have codeLength : (imageOf sampleKernel).code.length = 1 := by decide +kernel
  have textLength : (bytesOf "console=ttyS0").length = 13 := by decide
  have textFits : ¬cmdlineLimit (imageOf sampleKernel).cmdlineSize ≤
      (bytesOf "console=ttyS0").length % 2 ^ 32 := by
    decide +kernel
  have tablesFit : ¬cmdlineAddr < pdAddr + gibibytes sampleMemory.size * pageSize := by decide
  obtain ⟨pages, pagesBuilt⟩ : ∃ pages, buildPageTables sampleMemory.size = .ok pages := by
    simp only [buildPageTables, if_neg tablesFit]
    exact ⟨_, rfl⟩
  obtain ⟨mpTable, mpTableBuilt⟩ : ∃ table, buildMPTable 1 = .ok table := ⟨_, if_neg (by decide)⟩
  obtain ⟨cmdlineBytes, cmdlineBuilt⟩ : ∃ text, buildCmdline (bytesOf "console=ttyS0")
      (imageOf sampleKernel).cmdlineSize = .ok text := ⟨_, if_neg textFits⟩
  obtain ⟨e820, e820Built, entries⟩ : ∃ e820, buildE820 sampleMemory.size = .ok e820 ∧
    e820.length = 2 :=
    ⟨_, if_neg (by decide), rfl⟩
  obtain ⟨zp, zpBuilt⟩ : ∃ zp, (imageOf sampleKernel).buildBootParams cmdlineAddr (addr % 2 ^ 32)
      (initrd.length % 2 ^ 32) e820 = .ok zp := by
    rw [Image.buildBootParams, if_neg (by omega), if_neg (by rw [entries]; decide),
      if_neg (not_not.mpr headerLength)]
    exact ⟨_, rfl⟩
  have tabs := buildPageTables_ok pagesBuilt
  have mpTableLength := buildMPTable_ok mpTableBuilt
  have cmdlineLength := (buildCmdline_ok cmdlineBuilt).1
  have zpLength := buildBootParams_ok zpBuilt
  exact ⟨{
    pages, mpTable, cmdlineBytes, e820, zp, pagesBuilt, mpTableBuilt, cmdlineBuilt, e820Built,
      zpBuilt
    initrdAddr := addr
    initrdPlaced := by rw [noLimit]; exact put
    pagesFit := by
      intro page mem
      have seen : Region.mk page.1 page.2.length ∈ pageRegions (gibibytes sampleMemory.size) := by
        rw [← tabs.2]
        exact mem_map_of_mem mem
      exact Nat.le_trans (pageRegions_between tabs.1 seen).2 (by decide)
    gdtFits := by decide
    mpTableFits := by
      simp only [mpTableAddr, sampleMemory]
      omega
    cmdlineFits := by
      simp only [cmdlineAddr, sampleMemory]
      omega
    zpFits := by
      rw [zpLength]
      decide
    codeFits := by
      rw [codeLength]
      decide }⟩

def sampleInitrd : Bytes := [0x1f, 0x8b]

/-- A small initrd lies at the end of memory, far from the kernel. -/
theorem boot_regions_apart_small_initrd :
    ∃ loaded, loadGuest id (imageOf sampleKernel) sampleInitrd (bytesOf "console=ttyS0") 1
      ⟨sampleMemory, []⟩ =
        .ok ((), loaded) ∧
      (initialStack :: loaded.regions).Pairwise Region.Apart := by
  have placed : placeInitrd sampleMemory.size sampleInitrd.length 0 = .ok 0x1ff000 := by
    decide +kernel
  obtain ⟨parts⟩ := sampleKernel_loads placed
  obtain ⟨loaded, loads, -⟩ := parts.loads sampleMemory
  have clear : (bytesOf "console=ttyS0").length < 2 ^ 32 ∧ (sampleInitrd.length = 0 ∨
      kernelLoadAddr + (imageOf sampleKernel).code.length ≤
        initrdAddr sampleMemory.size sampleInitrd.length (imageOf sampleKernel).initrdAddrMax) := by
    decide +kernel
  exact ⟨loaded, loads,
    ((boot_regions_apart_iff (fun _ => .refl _) parse_sampleKernel sampleMemory loads).mpr clear).2⟩

/-- An initrd that leaves just one mebibyte below it is placed where the kernel is. -/
theorem large_initrd_overlaps_kernel : parse sampleKernel = .ok (imageOf sampleKernel) ∧
    ∃ loaded, loadGuest id (imageOf sampleKernel) (List.replicate 0xff001 0)
      (bytesOf "console=ttyS0") 1
        ⟨sampleMemory, []⟩ = .ok ((), loaded) ∧
      ¬(initialStack :: loaded.regions).Pairwise Region.Apart := by
  have length : (List.replicate 0xff001 (0 : UInt8)).length = 0xff001 := length_replicate
  have placed : placeInitrd sampleMemory.size (List.replicate 0xff001 (0 : UInt8)).length 0 =
      .ok 0x100000 := by
    rw [length]
    decide +kernel
  obtain ⟨parts⟩ := sampleKernel_loads placed
  obtain ⟨loaded, loads, regions⟩ := parts.loads sampleMemory
  refine ⟨parse_sampleKernel, loaded, loads, ?_⟩
  rw [regions, parts.apart_iff (fun _ => .refl _) (parse_code parse_sampleKernel), length]
  decide +kernel

end Infrastructure.Hypervisor
