import Infrastructure.Hypervisor.Requests

/-! Disk requests and network frames, cut into segments by the driver. -/

namespace Infrastructure.Hypervisor

open Memory State Guest List

section

variable {cells : Cells} {address : Nat} {segments : List Segment}

def Disjoint (segments : List Segment) : Prop :=
  segments.Pairwise fun s t => ∀ address, s.Holds address → ¬t.Holds address

/-- The bytes of the segments, one after the other. -/
def contents (cells : Cells) (segments : List Segment) : Bytes :=
  segments.flatMap fun s => cells.read s.addr s.length

/-- The bytes laid across the segments in order, as far as there is room. -/
def scatter : Cells → List Segment → Bytes → Cells
  | cells, [], _ => cells
  | cells, s :: rest, bytes =>
    scatter (cells.write s.addr (bytes.take s.length)) rest (bytes.drop s.length)

theorem length_contents (cells : Cells) (segments : List Segment) :
    (contents cells segments).length = room segments := by
  simp [contents, room, length_flatMap]

theorem contents_congr {cells' : Cells}
    (same : ∀ s ∈ segments, ∀ address, s.Holds address → cells' address = cells address) :
    contents cells' segments = contents cells segments :=
  flatMap_congr fun s mem => Cells.read_congr fun address low high => same s mem address ⟨low, high⟩

theorem scatter_outside (out : ∀ s ∈ segments, ¬s.Holds address) (bytes : Bytes) :
    scatter cells segments bytes address = cells address := by
  induction segments generalizing cells bytes with
  | nil => rfl
  | cons s rest ih =>
    obtain ⟨first, out⟩ := forall_mem_cons.mp out
    exact (ih out _).trans (write_outside (length_take_le _ _) first)

theorem read_write_take (cells : Cells) (base length : Nat) (bytes : Bytes) :
    (cells.write base (bytes.take length)).read base length =
      bytes.take length ++ (cells.read base length).drop bytes.length := by
  apply ext_getElem
  · simp
    omega
  · intro i short long
    have small : i < length := by simpa using short
    simp only [Cells.read, Cells.write, getElem_map, getElem_range, getElem_append, length_take]
    grind

theorem contents_scatter (disjoint : Disjoint segments) (bytes : Bytes) :
    contents (scatter cells segments bytes) segments =
      bytes.take (room segments) ++ (contents cells segments).drop bytes.length := by
  induction segments generalizing cells bytes with
  | nil => simp [contents, room]
  | cons s rest ih =>
    obtain ⟨first, disjoint⟩ := pairwise_cons.mp disjoint
    have head : (scatter cells (s :: rest) bytes).read s.addr s.length =
        bytes.take s.length ++ (cells.read s.addr s.length).drop bytes.length := by
      rw [← read_write_take]
      exact Cells.read_congr fun address low high =>
        scatter_outside (fun t mem held => first t mem address ⟨low, high⟩ held) _
    have kept : contents (cells.write s.addr (bytes.take s.length)) rest = contents cells rest :=
      contents_congr fun t mem address held =>
        write_outside (length_take_le _ _) fun inside => first t mem address inside held
    change (scatter cells (s :: rest) bytes).read s.addr s.length ++
      contents (scatter _ rest _) rest = _
    rw [head, ih disjoint, kept]
    change _ = bytes.take (s.length + room rest) ++
      (cells.read s.addr s.length ++ contents cells rest).drop bytes.length
    rw [drop_append, Cells.length_read, length_drop, take_add]
    rcases Nat.le_total bytes.length s.length with short | long
    · simp [short, drop_eq_nil_of_le]
    · simp [drop_eq_nil_of_le, long]

end

/-- A byte array with these bytes at an offset inside it. -/
def overwrite (bytes : Bytes) (offset : Nat) (new : Bytes) : Bytes :=
  bytes.take offset ++ new ++ bytes.drop (offset + new.length)

section

variable {bytes new : Bytes} {offset : Nat} (inside : offset + new.length ≤ bytes.length)

include inside

theorem overwrite_append (more : Bytes) :
    overwrite (overwrite bytes offset new) (offset + new.length) more =
      overwrite bytes offset (new ++ more) := by
  have low : offset ≤ bytes.length := by omega
  simp [overwrite, take_append, drop_append, low, Nat.add_assoc, drop_eq_nil_of_le]

theorem length_overwrite : (overwrite bytes offset new).length = bytes.length := by
  simp [overwrite]
  omega

theorem take_drop_overwrite : ((overwrite bytes offset new).drop offset).take new.length = new := by
  have low : offset ≤ bytes.length := by omega
  simp [overwrite, low]

end

namespace Blk

/-- The disk file as a byte array: what it holds after what was asked of it. -/
def content (disk : Bytes) : List Bus → Bytes
  | [] => disk
  | .writeAt offset bytes :: past => overwrite (content disk past) offset.toNat bytes
  | _ :: past => content disk past

/-- A read past the end comes short. -/
def file (disk : Bytes) : Backend
  | past, .readAt offset length =>
    let bytes := ((content disk past).drop offset.toNat).take length
    (bytes, if bytes.length < length then some .eof else none)
  | past, op => accepting past op

section

variable {disk : Bytes} {g : Guest} {chain : Chain} {r : Request}

theorem executeOut_file (data : List Segment) (offset : Nat) (g : Guest)
    (inside : offset + room data ≤ (content disk g.past).length) :
    g.Serves (file disk) (fun out g' => out.1 = statusOK ∧
      content disk g'.past = overwrite (content disk g.past) offset (contents g.cells data))
        (executeOut data offset) := by
  induction data generalizing offset g with
  | nil =>
    have eq : overwrite (content disk g.past) offset (contents g.cells []) = content
        disk g.past := by
      simp [overwrite, contents]
    exact ⟨_, rfl, rfl, eq.symm⟩
  | cons s rest ih =>
    have size : room (s :: rest) = s.length + room rest := rfl
    have full := Cells.length_read g.cells s.addr s.length
    have step := ih (offset + s.length)
      { g with past := .writeAt offset (g.cells.read s.addr s.length) :: g.past }
      (by simp [content, overwrite]; omega)
    unfold executeOut
    rw [serves_ask, serves_ask]
    simp only [Guest.answer, file, accepting, full] at step ⊢
    obtain ⟨out, ok, good, after⟩ := step
    refine ⟨out, ok, good, after.trans ?_⟩
    have joined := overwrite_append
      (by omega : offset + (g.cells.read s.addr s.length).length ≤ (content disk g.past).length)
        (contents g.cells rest)
    rwa [full] at joined

theorem executeIn_file (data : List Segment) (offset : Nat) (used : UInt32) (g : Guest)
    (inside : offset + room data ≤ (content disk g.past).length) :
    g.Serves (file disk) (fun out g' => out = (statusOK, used + UInt32.ofNat (room data)) ∧
      g'.cells = scatter g.cells data ((content disk g.past).drop offset) ∧
        content disk g'.past = content disk g.past)
      (executeIn data offset used) := by
  induction data generalizing offset used g with
  | nil => exact ⟨_, rfl, by simp [room], rfl, rfl⟩
  | cons s rest ih =>
    have size : room (s :: rest) = s.length + room rest := rfl
    unfold executeIn
    rw [serves_ask, serves_ask]
    have full : (((content disk g.past).drop offset).take s.length).length = s.length := by
      simp; omega
    simp only [Guest.answer, file, Int.toNat_natCast, full, lt_irrefl, if_false, take_take,
      min_self]
    obtain ⟨out, ok, good, cells, eq⟩ := ih (offset + s.length) (used + UInt32.ofNat s.length)
      ⟨g.cells.write s.addr (((content disk g.past).drop offset).take s.length),
        .readAt offset s.length :: g.past⟩
      (by simp only [content]; omega)
    refine ⟨out, ok, good.trans ?_, cells.trans ?_, eq⟩
    · rw [size, UInt32.ofNat_add, UInt32.add_assoc]
    · rw [scatter, drop_drop]
      rfl

theorem read_serves (readonly : Bool) (reads : request g.cells chain = some r)
    (isIn : r.reqType = typeIn) (disjoint : Disjoint chain.segments)
    (near : r.sector ≤ (2 ^ 63 - 1) / sectorSize)
    (inside : r.sector * sectorSize + room r.data ≤ (content disk g.past).length) :
    g.Serves (file disk) (fun used g' => g'.cells r.status.addr = statusOK ∧
      contents g'.cells r.data =
        ((content disk g.past).drop (r.sector * sectorSize)).take (room r.data) ∧
      content disk g'.past = content disk g.past ∧ used = UInt32.ofNat (room r.data + 1))
      (handleRequest readonly chain) := by
  refine handleRequest_ran reads (not_lt.mpr near) ?_
  rw [execute, if_pos isIn]
  obtain ⟨out, ok, rfl, cells, eq⟩ := executeIn_file r.data (r.sector * sectorSize) 0 g inside
  refine ⟨_, ok, by simp [Cells.write], ?_, eq, by simp [UInt32.ofNat_add]⟩
  obtain ⟨apart, -, clear⟩ := pairwise_append.mp (disjoint.sublist (request_mem reads).1)
  have long : (contents g.cells r.data).length ≤
      ((content disk g.past).drop (r.sector * sectorSize)).length := by
    rw [length_contents, length_drop]
    omega
  calc contents _ r.data
      = contents (scatter g.cells r.data _) r.data := contents_congr fun s mem address held => by
        rw [← cells]
        exact write_outside (request_mem reads).2
          (clear s mem _ (mem_singleton_self _) address held)
    _ = _ := by rw [contents_scatter apart, drop_eq_nil_of_le long, append_nil]

end

/-- The guest may set up its memory anew between the two requests. -/
theorem read_after_write (disk : Bytes) (readonly : Bool) (g : Guest) (cells : Cells)
    (src dst : Chain) (w r : Request) (writes : request g.cells src = some w)
    (reads : request cells dst = some r) (isOut : w.reqType = typeOut) (isIn : r.reqType = typeIn)
    (sector : r.sector = w.sector) (size : room r.data = room w.data)
    (disjoint : Disjoint dst.segments) (near : w.sector ≤ (2 ^ 63 - 1) / sectorSize)
    (inside : w.sector * sectorSize + room w.data ≤ (content disk g.past).length) :
    g.Serves (file disk) (fun _ g' => g'.cells w.status.addr = statusOK ∧
      content disk g'.past =
        overwrite (content disk g.past) (w.sector * sectorSize) (contents g.cells w.data) ∧
      Serves (file disk) (fun used last => last.cells r.status.addr = statusOK ∧
          contents last.cells r.data = contents g.cells w.data ∧
            content disk last.past = content disk g'.past ∧
          used = UInt32.ofNat (room r.data + 1))
        (handleRequest readonly dst) ⟨cells, g'.past⟩) (handleRequest false src) := by
  refine handleRequest_ran writes (not_lt.mpr near) ?_
  rw [execute, if_neg (by rw [isOut]; decide), if_pos isOut, if_neg (by decide)]
  obtain ⟨out, ok, good, after⟩ := executeOut_file w.data (w.sector * sectorSize) g inside
  refine ⟨out, ok, by simp [Cells.write, good], after, ?_⟩
  rw [← length_contents g.cells w.data] at inside size
  obtain ⟨used, ok, status, eq, kept, count⟩ : Serves _ _ _ ⟨cells, _⟩ :=
    read_serves readonly reads isIn disjoint
    (sector ▸ near) (by rw [after, length_overwrite inside, sector, size]; exact inside)
  refine ⟨used, ok, status, eq.trans ?_, kept, count⟩
  rw [after, sector, size]
  exact take_drop_overwrite inside

theorem read_after_write_four : (headed 1 0).Serves (file [1, 2, 3, 4, 5]) (fun _ g' =>
      content [1, 2, 3, 4, 5] g'.past = [7, 7, 7, 7, 5] ∧
      Serves (file [1, 2, 3, 4, 5])
        (fun used last => contents last.cells [⟨16, 1, true⟩, ⟨20, 3, true⟩] = [7, 7, 7, 7] ∧
          used = 5) (handleRequest false ⟨0, [⟨0, 16, false⟩, ⟨16, 1, true⟩, ⟨20, 3, true⟩,
            ⟨30, 1, true⟩]⟩)
        ⟨(headed 0 0).cells, g'.past⟩)
      (handleRequest false ⟨0, [⟨0, 16, false⟩, ⟨16, 4, false⟩, ⟨20, 1, true⟩]⟩) := by
  obtain ⟨out, ok, -, disk, used, ok', -, eq, -, count⟩ :=
    read_after_write [1, 2, 3, 4, 5] false (headed 1 0)
    (headed 0 0).cells ⟨0, [⟨0, 16, false⟩, ⟨16, 4, false⟩, ⟨20, 1, true⟩]⟩
    ⟨0, [⟨0, 16, false⟩, ⟨16, 1, true⟩, ⟨20, 3, true⟩, ⟨30, 1, true⟩]⟩
    ⟨typeOut, 0, [⟨16, 4, false⟩], ⟨20, 1, true⟩⟩ ⟨typeIn, 0, [⟨16, 1, true⟩, ⟨20, 3, true⟩],
      ⟨30, 1, true⟩⟩
    rfl rfl rfl rfl rfl rfl (by simp [Disjoint, Segment.Holds]; grind) (by decide) (by decide)
  exact ⟨out, ok, disk, used, ok', eq, count⟩

end Blk

namespace Net

variable (backend : Backend)

theorem gather_serves (segments : List Segment) (g : Guest) :
    g.Serves backend (fun buf g' => buf = contents g.cells segments ∧ g' = g)
      (gather segments) := by
  induction segments with
  | nil => exact ⟨_, rfl, rfl, rfl⟩
  | cons s rest ih =>
    unfold gather
    rw [serves_ask]
    refine ih.bind ?_
    rintro buf _ ⟨rfl, rfl⟩
    exact ⟨_, rfl, rfl, rfl⟩

abbrev writables (segments : List Segment) : List Segment := segments.filter (·.writable)

theorem writeAcross_serves (segments : List Segment) (bytes : Bytes) (written : Nat) (g : Guest) :
    g.Serves backend (fun out g' => g'.cells = scatter g.cells (writables segments) bytes ∧
      out.2 = bytes.drop (room (writables segments))) (writeAcross segments bytes written) := by
  induction segments generalizing bytes written g with
  | nil => exact ⟨_, rfl, rfl, rfl⟩
  | cons s rest ih =>
    unfold writeAcross
    by_cases writable : s.writable
    · have here : writables (s :: rest) = s :: writables rest := filter_cons_of_pos writable
      rw [here]
      split
      · next skip =>
        obtain rfl := skip.resolve_left (not_not.mpr writable)
        have same : g.cells.write s.addr [] = g.cells :=
          funext fun _ => Cells.write_of_not (by simp; omega)
        obtain ⟨out, ok, cells, left⟩ := ih [] written g
        exact ⟨out, ok, by rw [cells, scatter, take_nil, same, drop_nil],
          by rw [left, drop_nil, drop_nil]⟩
      · rw [serves_ask]
        obtain ⟨out, ok, cells, left⟩ :=
          ih (bytes.drop s.length) (written + (bytes.take s.length).length)
          { g with cells := g.cells.write s.addr (bytes.take s.length) }
        exact ⟨out, ok, cells, by rw [left, drop_drop]; rfl⟩
    · have here : writables (s :: rest) = writables rest := filter_cons_of_neg writable
      rw [here, if_pos (.inl writable)]
      exact ih bytes written g

/-- What is sent and what a received frame leaves do not depend on how the driver cut the chain. -/
theorem frames_segmented (chain : Chain) (disjoint : Disjoint chain.segments) (g : Guest) :
    (hdrSize ≤ room chain.segments → g.Serves backend (fun _ g' =>
      g' = { g with past := .send ((contents g.cells chain.segments).drop hdrSize) :: g.past })
        (transmit chain)) ∧
    ∀ frame : Bytes, g.Serves backend (fun out g' =>
      contents g'.cells (writables chain.segments) =
        (replicate hdrSize 0 ++ frame).take (room (writables chain.segments)) ++
          (contents g.cells (writables chain.segments)).drop (hdrSize + frame.length) ∧
      (∀ address, Outside chain.segments address → g'.cells address = g.cells address) ∧
      (out.2 ≠ [] ↔ room (writables chain.segments) < hdrSize + frame.length))
      (writeAcross chain.segments (replicate hdrSize 0 ++ frame) 0) := by
  constructor
  · intro long
    have fits : ¬(chain.segments.map Segment.length).sum < hdrSize := not_lt.mpr long
    unfold transmit
    dsimp only
    rw [if_neg fits]
    refine (gather_serves backend chain.segments g).bind ?_
    rintro buf _ ⟨rfl, rfl⟩
    rw [serves_ask]
    split <;> exact ⟨_, rfl, rfl⟩
  · intro frame
    obtain ⟨out, ok, cells, left⟩ :=
      writeAcross_serves backend chain.segments (replicate hdrSize 0 ++ frame) 0 g
    refine ⟨out, ok, ?_, fun address outside => ?_, ?_⟩
    · rw [cells, contents_scatter (disjoint.sublist filter_sublist)]
      simp
    · rw [cells]
      exact scatter_outside (fun s mem => outside s (mem_of_mem_filter mem) (of_mem_filter mem)) _
    · rw [left, ne_eq, drop_eq_nil_iff]
      simp

theorem frames_segmented_sent :
    (Blk.headed 0 0).Serves Blk.accepting (fun _ g' => g' = { Blk.headed 0 0 with
      past := [.send
        ((contents (Blk.headed 0 0).cells [⟨0, 6, false⟩, ⟨6, 6, false⟩]).drop hdrSize)] })
      (transmit ⟨0, [⟨0, 6, false⟩, ⟨6, 6, false⟩]⟩) :=
  (frames_segmented Blk.accepting ⟨0,
    [⟨0, 6, false⟩, ⟨6, 6, false⟩]⟩ (by simp [Disjoint]; omega) _).1 (by decide)

end Net

end Infrastructure.Hypervisor
