import Infrastructure.Concurrency.Sequential
import Infrastructure.Hypervisor.Devices

/-! What serving one request does to guest memory and to the backend. -/

namespace Infrastructure.Hypervisor

open Concurrency Memory State Boot List

/-- Guest memory, and what a device has asked of its backend, the latest first. -/
structure Guest where
  cells : Cells
  past : List Bus := []

/-- A backend answers by what it was asked before. -/
abbrev Backend := List Bus → (op : Bus) → op.Reply

namespace Guest

def answer (backend : Backend) : (op : Bus) → Guest → op.Reply × Guest
  | .load addr length, g => (g.cells.read addr length, g)
  | .store addr bytes, g => ((), { g with cells := g.cells.write addr bytes })
  | op, g => (backend g.past op, { g with past := op :: g.past })

def serve {α : Type} (backend : Backend) (prog : Go α) (g : Guest) : Except Halt α × Guest :=
  Program.run (answer backend) prog g

/-- The program comes to its end, without a panic. -/
def Serves {α : Type} (backend : Backend) (good : α → Guest → Prop) (prog : Go α)
    (g : Guest) : Prop :=
  ∃ val, (g.serve backend prog).1 = .ok val ∧ good val (g.serve backend prog).2

section

variable {α β : Type} {backend : Backend} {good : α → Guest → Prop} {g : Guest}

theorem serves_ask {op : Bus} {k : op.Reply → Go α} : g.Serves backend good (ask op >>= k) ↔
    (answer backend op g).2.Serves backend good (k (answer backend op g).1) := Iff.rfl

theorem serves_loadWord {addr width : Nat} {k : Nat → Go α} :
    g.Serves backend good (loadWord addr width >>= k) ↔
    g.Serves backend good (k (ofLittleEndian (g.cells.read addr width))) := Iff.rfl

theorem Serves.bind {mid : β → Guest → Prop} {prog : Go β} {k : β → Go α}
    (first : g.Serves backend mid prog)
    (rest : ∀ val g', mid val g' → g'.Serves backend good (k val)) :
    g.Serves backend good (prog >>= k) := by
  obtain ⟨val, ok, holds⟩ := first
  unfold Serves serve at *
  rw [go_bind, Program.run_bind, ok]
  exact rest val _ holds

/-- What two accounts of a run say holds of the one run that there is. -/
theorem Serves.and {other : α → Guest → Prop} {prog : Go α} (one : g.Serves backend good prog)
    (two : g.Serves backend other prog) :
    g.Serves backend (fun val g' => good val g' ∧ other val g') prog := by
  obtain ⟨val, ok, holds⟩ := one
  obtain ⟨_, ok', holds'⟩ := two
  cases ok.symm.trans ok'
  exact ⟨val, ok, holds, holds'⟩

end

end Guest

open Guest

abbrev Segment.Holds (s : Segment) (address : Nat) : Prop :=
  s.addr ≤ address ∧ address < s.addr + s.length

/-- Outside the device-writable segments. -/
abbrev Outside (segments : List Segment) (address : Nat) : Prop := ∀ s ∈ segments, s.writable →
    ¬s.Holds address

def room (segments : List Segment) : Nat := (segments.map Segment.length).sum

theorem write_outside {cells : Cells} {address : Nat} {s : Segment} {bytes : Bytes}
    (short : bytes.length ≤ s.length) (out : ¬s.Holds address) :
    cells.write s.addr bytes address = cells address := by
  exact Cells.write_of_not (by omega)

namespace Blk

structure Request where
  reqType : Nat
  sector : Nat
  data : List Segment
  status : Segment

/-- The request that a chain makes, unless it is malformed. -/
def request (cells : Cells) (chain : Chain) : Option Request :=
  match chain.segments with
  | header :: next :: rest =>
    let status := (next :: rest).getLast (List.cons_ne_nil next rest)
    if header.length < reqHeaderSize ∨ status.length < 1 then none
    else some ⟨ofLittleEndian (cells.read header.addr 4),
      ofLittleEndian (cells.read (header.addr + 8) 8), (next :: rest).dropLast, status⟩
  | _ => none

section

variable {backend : Backend} {readonly : Bool} {g : Guest}

theorem execute_serves {good : UInt8 × UInt32 → Guest → Prop} {reqType : Nat} {offset : Int}
    {data : List Segment}
    (reads : reqType = typeIn → g.Serves backend good (executeIn data offset 0))
    (writes : reqType = typeOut → g.Serves backend good (executeOut data offset))
    (none : ∀ code, good (code, 0) g)
    (sync : ∀ code, good (code, 0) { g with past := .sync :: g.past }) :
    g.Serves backend good (execute readonly reqType offset data) := by
  unfold execute
  split
  · next eq => exact reads eq
  split
  · next eq =>
    split
    · exact ⟨_, rfl, none _⟩
    · exact writes eq
  split
  · exact ⟨_, rfl, sync _⟩
  · exact ⟨_, rfl, none _⟩

theorem handleRequest_serves {good : UInt32 → Guest → Prop} {chain : Chain}
    (malformed : request g.cells chain = none → good 0 g)
    (far : ∀ r ∈ request g.cells chain, (2 ^ 63 - 1) / sectorSize < r.sector →
      good 1 { g with cells := g.cells.write r.status.addr [statusIOErr] })
    (ran : ∀ r ∈ request g.cells chain, ¬(2 ^ 63 - 1) / sectorSize < r.sector →
      g.Serves backend (fun out g' =>
        good (out.2 + 1) { g' with cells := g'.cells.write r.status.addr [out.1] })
      (execute readonly r.reqType (r.sector * sectorSize) r.data)) :
    g.Serves backend good (handleRequest readonly chain) := by
  unfold handleRequest
  unfold request at malformed far ran
  split
  · next header next rest eq =>
    simp only [eq] at malformed far ran
    dsimp only
    split
    · next short => exact ⟨_, rfl, malformed (if_pos short)⟩
    · next fits =>
      rw [if_neg fits] at far ran
      rw [serves_loadWord, serves_loadWord]
      split
      · next past => exact ⟨_, rfl, far _ rfl past⟩
      · next near => exact (ran _ rfl near).bind fun _ _ holds => ⟨_, rfl, holds⟩
  · next short => exact ⟨_, rfl, malformed (by split <;> simp_all)⟩

end

/-- The status of a request that is answered without the backend. -/
def settled (readonly : Bool) (r : Request) : Option UInt8 :=
  if (2 ^ 63 - 1) / sectorSize < r.sector then some statusIOErr
  else if r.reqType = typeIn then
    if r.data = [] then some statusOK else none
  else if r.reqType = typeOut then
    if readonly then some statusIOErr else if r.data = [] then some statusOK else none
  else if r.reqType = typeFlush then none
  else some statusUnsupp

/-- A backend with nothing to read that takes every write. -/
def accepting : Backend
  | _, .readAt _ _ => ([], some .eof)
  | _, .writeAt _ bytes => (bytes.length, none)
  | _, .lastAvailIdx _ => 0
  | _, .load _ _ => []
  | _, .sync | _, .send _ => none
  | _, .lock _ | _, .unlock _ | _, .advance _ _ | _, .store _ _ | _, .raiseUsedBuffer | _,
      .interrupt => ()

/-- A header for a type and a sector at address 0, in memory that is 7 elsewhere. -/
def headed (reqType sector : UInt8) : Guest where
  cells address := if address = 0 then reqType else if address = 8 then sector else
    if address < 16 then 0 else 7

/-- A backend that reads one byte over and over, and takes every write; or that fails. -/
def steady (byte : UInt8) (failure : Option IOError) : Backend
  | _, .readAt _ length => (replicate length byte, failure)
  | _, .writeAt _ bytes => (bytes.length, failure)
  | _, .sync => failure
  | past, op => accepting past op

section

variable {backend : Backend} {readonly : Bool} {g : Guest}

theorem execute_settled (backend : Backend) (g : Guest) {r : Request} {code : UInt8}
    (known : settled readonly r = some code)
    (near : ¬(2 ^ 63 - 1) / sectorSize < r.sector) :
    g.Serves backend (fun out g' => out.1 = code ∧ g' = g)
      (execute readonly r.reqType (r.sector * sectorSize) r.data) := by
  rw [settled, if_neg near] at known
  unfold execute
  split_ifs at known ⊢ with reads empty writes locked empty
  · rw [empty]
    exact ⟨_, rfl, Option.some.inj known, rfl⟩
  · exact ⟨_, rfl, Option.some.inj known, rfl⟩
  · rw [empty]
    exact ⟨_, rfl, Option.some.inj known, rfl⟩
  · exact ⟨_, rfl, Option.some.inj known, rfl⟩

theorem executeIn_steady (byte : UInt8) (address : Nat) (data : List Segment) (offset : Int)
    (used : UInt32) (g : Guest) : g.Serves (steady byte none) (fun _ g' =>
      (∃ s ∈ data, s.Holds address) ∨ g.cells address = byte → g'.cells address = byte)
      (executeIn data offset used) := by
  induction data generalizing offset used g with
  | nil =>
    refine ⟨_, rfl, ?_⟩
    rintro (⟨s, mem, -⟩ | same)
    · cases mem
    · exact same
  | cons s rest ih =>
    unfold executeIn
    rw [serves_ask, serves_ask]
    simp only [Guest.answer, steady, take_of_length_le, length_replicate, le_refl, reduceCtorEq,
      if_false]
    obtain ⟨out, ok, filled⟩ := ih (offset + s.length) (used + UInt32.ofNat s.length)
      ⟨g.cells.write s.addr (replicate s.length byte), .readAt offset s.length :: g.past⟩
    refine ⟨out, ok, fun held => filled ?_⟩
    by_cases later : ∃ t ∈ rest, t.Holds address
    · exact .inl later
    · right
      by_cases own : s.Holds address
      · have low : address - s.addr < s.length := by omega
        simp [Cells.write, own.1, own.2, low]
      · refine (write_outside (by simp) own).trans ?_
        rcases held with ⟨t, mem, holds⟩ | same
        · rcases mem_cons.mp mem with rfl | mem
          · exact absurd holds own
          · exact absurd ⟨t, mem, holds⟩ later
        · exact same

theorem executeIn_ok
    (reads : ∀ past offset length, (backend past (.readAt offset length)).2 ≠ some .other)
    (data : List Segment) (offset : Int) (used : UInt32) (g : Guest) :
    g.Serves backend (fun out _ => out.1 = statusOK) (executeIn data offset used) := by
  induction data generalizing offset used g with
  | nil => exact ⟨_, rfl, rfl⟩
  | cons s rest ih =>
    unfold executeIn
    rw [serves_ask, serves_ask]
    dsimp only
    split
    · next failed => exact absurd failed (reads _ _ _)
    · exact ih _ _ _

theorem executeOut_ok
    (writes : ∀ past offset bytes, (backend past (.writeAt offset bytes)).2 = none)
    (data : List Segment) (offset : Int) (g : Guest) :
    g.Serves backend (fun out _ => out.1 = statusOK) (executeOut data offset) := by
  induction data generalizing offset g with
  | nil => exact ⟨_, rfl, rfl⟩
  | cons s rest ih =>
    unfold executeOut
    rw [serves_ask, serves_ask]
    dsimp only
    rw [if_neg (by simp [Guest.answer, writes])]
    exact ih _ _

/-- The backend decides on the status of every other request. -/
theorem execute_unsettled {r : Request} (undecided : settled readonly r = none) :
    g.Serves (steady 0 none) (fun out _ => out.1 = statusOK)
      (execute readonly r.reqType (r.sector * sectorSize) r.data) ∧
    g.Serves (steady 0 (some .other)) (fun out _ => out.1 = statusIOErr)
      (execute readonly r.reqType (r.sector * sectorSize) r.data) := by
  unfold settled at undecided
  unfold execute
  split_ifs at undecided ⊢
  · next filled =>
    obtain ⟨s, rest, eq⟩ := exists_cons_of_ne_nil filled
    refine ⟨executeIn_ok (fun _ _ _ => by simp [steady]) _ _ _ _, ?_⟩
    rw [eq]
    exact ⟨_, rfl, rfl⟩
  · next filled =>
    obtain ⟨s, rest, eq⟩ := exists_cons_of_ne_nil filled
    refine ⟨executeOut_ok (fun _ _ _ => rfl) _ _ _, ?_⟩
    rw [eq]
    exact ⟨_, rfl, rfl⟩
  · exact ⟨⟨_, rfl, rfl⟩, ⟨_, rfl, rfl⟩⟩

theorem handleRequest_ran {good : UInt32 → Guest → Prop} {chain : Chain} {r : Request}
    (got : request g.cells chain = some r) (near : ¬(2 ^ 63 - 1) / sectorSize < r.sector)
    (ran : g.Serves backend
      (fun out g' => good (out.2 + 1) { g' with cells := g'.cells.write r.status.addr [out.1] })
      (execute readonly r.reqType (r.sector * sectorSize) r.data)) :
    g.Serves backend good (handleRequest readonly chain) := by
  refine handleRequest_serves (fun missing => ?_) (fun other eq far => ?_) fun other eq _ => ?_
  · cases got.symm.trans missing
  · cases got.symm.trans eq
    exact absurd far near
  · cases got.symm.trans eq
    exact ran

/-- The status byte is the one that the execution ends with. -/
theorem handleRequest_code {chain : Chain} {r : Request} {code : UInt8}
    (got : request g.cells chain = some r) (near : ¬(2 ^ 63 - 1) / sectorSize < r.sector)
    (codes : g.Serves backend (fun out _ => out.1 = code)
      (execute readonly r.reqType (r.sector * sectorSize) r.data)) :
    g.Serves backend (fun _ g' => g'.cells r.status.addr = code)
      (handleRequest readonly chain) := by
  refine handleRequest_ran got near ?_
  obtain ⟨out, ok, rfl⟩ := codes
  exact ⟨out, ok, by simp [Cells.write]⟩

theorem handleRequest_settled {chain : Chain} {r : Request} {code : UInt8}
    (got : request g.cells chain = some r)
    (known : settled readonly r = some code) : g.Serves backend (fun _ g' =>
      g'.cells = g.cells.write r.status.addr [code] ∧
        g'.past = g.past) (handleRequest readonly chain) := by
  by_cases far : (2 ^ 63 - 1) / sectorSize < r.sector
  · rw [settled, if_pos far] at known
    cases known
    refine handleRequest_serves (fun missing => ?_) (fun other eq _ => ?_) fun other eq near => ?_
    · cases got.symm.trans missing
    · cases got.symm.trans eq
      exact ⟨rfl, rfl⟩
    · cases got.symm.trans eq
      exact absurd far near
  · refine handleRequest_ran got far ?_
    obtain ⟨out, ok, rfl, same⟩ := execute_settled backend g known far
    refine ⟨out, ok, ?_⟩
    rw [serve] at same
    rw [serve, same]
    exact ⟨rfl, rfl⟩

end

section

variable {backend : Backend} {address : Nat}

theorem executeIn_frame {data : List Segment} (out : ∀ s ∈ data, ¬s.Holds address) (offset : Int)
    (used : UInt32)
    (g : Guest) : g.Serves backend (fun _ g' => g'.cells address = g.cells address)
    (executeIn data offset used) := by
  induction data generalizing offset used g with
  | nil => exact ⟨_, rfl, rfl⟩
  | cons s rest ih =>
    obtain ⟨first, out⟩ := forall_mem_cons.mp out
    unfold executeIn
    rw [serves_ask, serves_ask]
    have eq : ∀ bytes : Bytes, g.cells.write s.addr (bytes.take s.length) address =
        g.cells address :=
      fun bytes => write_outside (length_take_le _ _) first
    dsimp only
    split
    · exact ⟨_, rfl, eq _⟩
    · obtain ⟨val, ok, later⟩ := ih out _ _ _
      exact ⟨val, ok, later.trans (eq _)⟩

theorem executeOut_cells (data : List Segment) (offset : Int) (g : Guest) :
    g.Serves backend (fun _ g' => g'.cells = g.cells) (executeOut data offset) := by
  induction data generalizing offset g with
  | nil => exact ⟨_, rfl, rfl⟩
  | cons s rest ih =>
    unfold executeOut
    rw [serves_ask, serves_ask]
    dsimp only
    split
    · exact ⟨_, rfl, rfl⟩
    · exact ih _ _

theorem request_mem {cells : Cells} {chain : Chain} {r : Request} (got : r ∈ request cells chain) :
    (r.data ++ [r.status]).Sublist chain.segments ∧ 1 ≤ r.status.length := by
  unfold request at got
  split at got
  · next header next rest eq =>
    dsimp only at got
    split at got
    · cases got
    · next fits =>
      cases got
      rw [eq, dropLast_append_getLast]
      exact ⟨sublist_cons_self _ _, Nat.le_of_not_lt fun less => fits (.inr less)⟩
  · cases got

theorem write_status_of_ne {cells : Cells} {first : Nat} (differs : address ≠ first)
    (code : UInt8) :
    cells.write first [code] address = cells address :=
  Cells.write_of_not (by simp only [length_singleton]; omega)

end

section

variable {readonly : Bool} {g : Guest} {chain : Chain} {r : Request}
  (got : request g.cells chain = some r)

include got

theorem settled_of_kept (kept : ∀ backend, g.Serves backend
      (fun _ g' => g'.cells r.status.addr = g.cells r.status.addr) (handleRequest readonly chain)) :
    settled readonly r = some (g.cells r.status.addr) := by
  cases known : settled readonly r with
  | some code =>
    obtain ⟨_, -, same, cells, -⟩ := (kept accepting).and (handleRequest_settled got known)
    rw [cells] at same
    rw [← same]
    simp [Cells.write]
  | none =>
    -- the backend can make the status either of two bytes
    have near : ¬(2 ^ 63 - 1) / sectorSize < r.sector := by
      intro far
      rw [settled, if_pos far] at known
      cases known
    obtain ⟨good, bad⟩ := execute_unsettled (g := g) known
    obtain ⟨_, -, same, ok⟩ := (kept _).and (handleRequest_code got near good)
    obtain ⟨_, -, same', err⟩ := (kept _).and (handleRequest_code got near bad)
    exact absurd (ok.symm.trans (same.trans (same'.symm.trans err))) (by decide)

theorem read_fills (near : r.sector ≤ (2 ^ 63 - 1) / sectorSize) (reads : r.reqType = typeIn)
    {s : Segment} (mem : s ∈ r.data) {address : Nat} (held : s.Holds address)
    (differs : address ≠ r.status.addr) (byte : UInt8) :
    g.Serves (steady byte none) (fun _ g' => g'.cells address = byte)
      (handleRequest readonly chain) := by
  refine handleRequest_ran got (by omega) ?_
  rw [execute, if_pos reads]
  obtain ⟨out, ok, filled⟩ :=
    executeIn_steady byte address r.data (r.sector * sectorSize) 0 g
  exact ⟨out, ok, (write_status_of_ne differs _).trans (filled (.inl ⟨s, mem, held⟩))⟩

end

/-- Guest memory outside the device-writable segments stays as it is on every backend exactly if
no data is read into it and the status byte, if it lies there, is already what will be stored. -/
theorem unmarked_kept_iff (readonly : Bool) (chain : Chain) (g : Guest) :
    (∀ backend address, Outside chain.segments address →
      g.Serves backend (fun _ g' => g'.cells address = g.cells address)
        (handleRequest readonly chain)) ↔
    ∀ r ∈ request g.cells chain,
      (Outside chain.segments r.status.addr →
        settled readonly r = some (g.cells r.status.addr)) ∧
      (r.reqType = typeIn → r.sector ≤ (2 ^ 63 - 1) / sectorSize →
        ∀ s ∈ r.data, ∀ address, s.Holds address → ¬Outside chain.segments address) := by
  constructor
  · intro kept r got
    have status (outside : Outside chain.segments r.status.addr) :
        settled readonly r = some (g.cells r.status.addr) :=
      settled_of_kept got fun backend => kept backend _ outside
    refine ⟨status, fun reads near s mem address held outside => ?_⟩
    by_cases own : address = r.status.addr
    · have known := status (own ▸ outside)
      rw [settled, if_neg (by omega), if_pos reads, if_neg (ne_nil_of_mem mem)] at known
      cases known
    · -- a byte that the guest did not have there
      obtain ⟨_, -, same, filled⟩ :=
        (kept _ _ outside).and (read_fills got near reads mem held own (g.cells address + 1))
      have moved : g.cells address + 1 ≠ g.cells address := by simp
      exact moved (filled.symm.trans same)
  · intro marked backend address outside
    refine handleRequest_serves (fun _ => rfl) (fun r got far => ?_) fun r got near => ?_
    · by_cases own : address = r.status.addr
      · have known := (marked r got).1 (own ▸ outside)
        rw [settled, if_pos far] at known
        rw [own, ← Option.some.inj known]
        simp [Cells.write]
      · exact write_status_of_ne own _
    · by_cases own : address = r.status.addr
      · subst own
        obtain ⟨out, ok, code, -⟩ := execute_settled backend g ((marked r got).1 outside) near
        exact ⟨out, ok, by simp [Cells.write, code]⟩
      · simp only [write_status_of_ne own]
        refine execute_serves (fun reads => ?_) (fun _ => ?_) (fun _ => rfl) fun _ => rfl
        · refine executeIn_frame (fun s mem held => ?_) _ _ g
          exact (marked r got).2 reads (by omega) s mem address held outside
        · obtain ⟨val, ok, same⟩ : g.Serves backend _ _ :=
            executeOut_cells r.data (r.sector * sectorSize) g
          exact ⟨val, ok, congrFun same address⟩

/-- The status is written to a descriptor that is not device-writable. -/
theorem status_written_unmarked :
    (headed 9 0).Serves accepting (fun _ g' => g'.cells 16 = statusUnsupp)
      (handleRequest false ⟨0, [⟨0, 16, false⟩, ⟨16, 1, false⟩]⟩) ∧
    Outside [⟨0, 16, false⟩, ⟨16, 1, false⟩] 16 ∧ (headed 9 0).cells 16 ≠ statusUnsupp :=
  ⟨⟨_, rfl, rfl⟩, by decide, by decide⟩

/-- What the device advertises for a disk of so many bytes. -/
def capacity (size : Nat) : Nat := size / sectorSize * sectorSize

/-- An access to the backend is to bytes below the capacity. -/
@[reducible] def Below (capacity : Nat) : Bus → Prop
  | .readAt offset length => 0 ≤ offset ∧ offset + length ≤ capacity
  | .writeAt offset bytes => 0 ≤ offset ∧ offset + bytes.length ≤ capacity
  | _ => True

section

variable {backend : Backend} {top : Nat}

theorem executeIn_below (data : List Segment) {offset : Int} (used : UInt32) {g : Guest}
    (low : 0 ≤ offset) (high : offset + room data ≤ top) (below : ∀ op ∈ g.past, Below top op) :
    g.Serves backend (fun _ g' => ∀ op ∈ g'.past, Below top op) (executeIn data offset used) := by
  induction data generalizing offset used g with
  | nil => exact ⟨_, rfl, below⟩
  | cons s rest ih =>
    unfold executeIn
    rw [serves_ask, serves_ask]
    have size : room (s :: rest) = s.length + room rest := rfl
    have now : ∀ op ∈ Bus.readAt offset s.length :: g.past, Below top op :=
      forall_mem_cons.mpr ⟨⟨low, by omega⟩, below⟩
    dsimp only
    split
    · exact ⟨_, rfl, now⟩
    · have short : ∀ bytes : Bytes, (bytes.take s.length).length ≤ s.length :=
        fun bytes => length_take_le _ _
      refine ih _ (by omega) ?_ now
      have := short (backend g.past (.readAt offset s.length)).1
      simp only [Guest.answer]
      omega

theorem executeOut_below
    (honest : ∀ past offset bytes, (backend past (.writeAt offset bytes)).1 ≤ bytes.length)
    (data : List Segment) {offset : Int} {g : Guest} (low : 0 ≤ offset)
    (high : offset + room data ≤ top) (below : ∀ op ∈ g.past, Below top op) :
    g.Serves backend (fun _ g' => ∀ op ∈ g'.past, Below top op) (executeOut data offset) := by
  induction data generalizing offset g with
  | nil => exact ⟨_, rfl, below⟩
  | cons s rest ih =>
    unfold executeOut
    rw [serves_ask, serves_ask]
    have size : room (s :: rest) = s.length + room rest := rfl
    have exact := Cells.length_read g.cells s.addr s.length
    have now : ∀ op ∈ Bus.writeAt offset (g.cells.read s.addr s.length) :: g.past, Below top op :=
      forall_mem_cons.mpr ⟨⟨low, by omega⟩, below⟩
    dsimp only
    split
    · exact ⟨_, rfl, now⟩
    · refine ih (by omega) ?_ now
      have := honest g.past offset (g.cells.read s.addr s.length)
      simp only [Guest.answer]
      omega

end

/-- A write reports at most what it was given. -/
abbrev Honest (backend : Backend) : Prop :=
  ∀ past offset bytes, (backend past (.writeAt offset bytes)).1 ≤ bytes.length

/-- A disk of so many bytes: a read stops at its end, a write is taken whole. -/
def ofSize (size : Nat) : Backend
  | _, .readAt offset length =>
    let count := min length (size - offset.toNat)
    (replicate count 0, if count < length then some .eof else none)
  | past, op => accepting past op

/-- The request transfers data. -/
abbrev Request.Transfers (r : Request) : Prop := r.reqType = typeIn ∨ r.reqType = typeOut

section

variable {size : Nat} {readonly : Bool} {g : Guest} {r : Request}

/-- The disk completes what is executed with success, wherever it reaches. -/
theorem ofSize_completes (executed : r.reqType = typeIn ∨ r.reqType = typeOut ∧ readonly = false) :
    g.Serves (ofSize size) (fun out _ => out.1 = statusOK)
      (execute readonly r.reqType (r.sector * sectorSize) r.data) := by
  rcases executed with reads | ⟨writes, unlocked⟩
  · rw [execute, if_pos reads]
    refine executeIn_ok (fun _ _ _ => ?_) _ _ _ _
    dsimp only [ofSize]
    split <;> simp
  · rw [execute, if_neg (by rw [writes]; decide), if_pos writes, if_neg (by simp [unlocked])]
    exact executeOut_ok (fun _ _ _ => rfl) _ _ _

/-- A request whose transfer is inside the capacity or refused stays below it, and ends with an
error if it reaches past it. -/
theorem execute_below {backend : Backend} (honest : Honest backend) {top : Nat}
    (below : ∀ op ∈ g.past, Below top op) (near : ¬(2 ^ 63 - 1) / sectorSize < r.sector)
    (fits : r.reqType = typeIn ∨ r.reqType = typeOut ∧ readonly = false →
      r.sector * sectorSize + room r.data ≤ top) :
    g.Serves backend (fun out g' => (∀ op ∈ g'.past, Below top op) ∧
      (r.Transfers → top < r.sector * sectorSize + room r.data → out.1 = statusIOErr))
      (execute readonly r.reqType (r.sector * sectorSize) r.data) := by
  by_cases locked : r.reqType = typeOut ∧ readonly = true
  · have known : settled readonly r = some statusIOErr := by
      simp [settled, locked, typeIn, typeOut]
    obtain ⟨out, ok, code, still⟩ := execute_settled backend g known near
    exact ⟨out, ok, by rw [still]; exact below, fun _ _ => code⟩
  · -- what is executed stays below the capacity, so nothing is asked of its status
    have inside (transfers : r.Transfers) : r.sector * sectorSize + room r.data ≤ top := by
      refine fits (transfers.imp id fun writes => ⟨writes, ?_⟩)
      simpa [writes] using locked
    have free (code : UInt8) (transfers : r.Transfers)
        (past : top < r.sector * sectorSize + room r.data) : code = statusIOErr :=
      absurd (inside transfers) (by omega)
    have same := Int.natCast_mul r.sector sectorSize
    have low : (0 : Int) ≤ r.sector * sectorSize := by omega
    refine execute_serves (fun reads => ?_) (fun writes => ?_) (fun code => ⟨below, free code⟩)
      fun code => ⟨forall_mem_cons.mpr ⟨trivial, below⟩, free code⟩
    · have := inside (.inl reads)
      obtain ⟨out, ok, asked⟩ : g.Serves backend _ _ :=
        executeIn_below r.data 0 low (by omega) below
      exact ⟨out, ok, asked, free _⟩
    · have := inside (.inr writes)
      obtain ⟨out, ok, asked⟩ : g.Serves backend _ _ :=
        executeOut_below honest r.data low (by omega) below
      exact ⟨out, ok, asked, free _⟩

end

/-- On every backend, serving a request stays below the capacity and one that reaches past it
completes with an error, exactly if none that is executed reaches past it. -/
theorem below_capacity_iff (size : Nat) (readonly : Bool) (chain : Chain) (g : Guest)
    (below : ∀ op ∈ g.past, Below (capacity size) op) :
    (∀ backend, Honest backend → g.Serves backend
      (fun _ g' => (∀ op ∈ g'.past, Below (capacity size) op) ∧
        ∀ r ∈ request g.cells chain, r.Transfers →
          capacity size < r.sector * sectorSize + room r.data →
          g'.cells r.status.addr = statusIOErr)
      (handleRequest readonly chain)) ↔
    ∀ r ∈ request g.cells chain, r.reqType = typeIn ∨ r.reqType = typeOut ∧ readonly = false →
      r.sector ≤ (2 ^ 63 - 1) / sectorSize →
      r.sector * sectorSize + room r.data ≤ capacity size := by
  constructor
  · intro served r got executed near
    by_contra past
    have honest : Honest (ofSize size) := fun _ _ _ => le_rfl
    obtain ⟨_, -, ⟨-, errs⟩, good⟩ :=
      (served _ honest).and (handleRequest_code got (by omega) (ofSize_completes executed))
    have bad := errs r got (executed.imp id And.left) (by omega)
    exact absurd (good.symm.trans bad) (by decide)
  · intro fits backend honest
    refine handleRequest_serves (fun missing => ⟨below, by simp [missing]⟩)
      (fun r got _ => ⟨below, ?_⟩) fun r got near => ?_
    · rintro other eq - -
      cases got.symm.trans eq
      simp [Cells.write]
    · obtain ⟨out, ok, asked, code⟩ :=
        execute_below honest below near fun executed => fits r got executed (by omega)
      refine ⟨out, ok, asked, fun other eq transfers past => ?_⟩
      cases got.symm.trans eq
      simp [Cells.write, code transfers past]

theorem below_capacity_iff_write :
    (headed 1 0).Serves accepting (fun _ g' => ∀ op ∈ g'.past, Below 512 op)
      (handleRequest false ⟨0, [⟨0, 16, false⟩, ⟨16, 4, false⟩, ⟨20, 1, true⟩]⟩) := by
  obtain ⟨out, ok, below, -⟩ := (below_capacity_iff 512 false
    ⟨0, [⟨0, 16, false⟩, ⟨16, 4, false⟩,
      ⟨20, 1, true⟩]⟩ (headed 1 0) nofun).mpr (by decide) accepting
    fun _ _ _ => le_rfl
  exact ⟨out, ok, below⟩

/-- On a disk of one sector, a write to the next and a read of it both complete with success. -/
theorem past_end_served :
    (headed 1 1).Serves accepting
    (fun _ g' => g'.cells 20 = statusOK ∧ g'.past = [.writeAt 512 [7, 7, 7, 7]])
      (handleRequest false ⟨0, [⟨0, 16, false⟩, ⟨16, 4, false⟩, ⟨20, 1, true⟩]⟩) ∧
    (headed 0 1).Serves accepting (fun _ g' => g'.cells 20 = statusOK ∧ g'.past = [.readAt 512 4])
      (handleRequest false ⟨0, [⟨0, 16, false⟩, ⟨16, 4, true⟩, ⟨20, 1, true⟩]⟩) ∧
    ¬Below (capacity 512) (.writeAt 512 [7, 7, 7, 7]) ∧ ¬Below (capacity 512) (.readAt 512 4) :=
  ⟨⟨_, rfl, rfl, rfl⟩, ⟨_, rfl, rfl, rfl⟩, by decide, by decide⟩

end Blk

end Infrastructure.Hypervisor
