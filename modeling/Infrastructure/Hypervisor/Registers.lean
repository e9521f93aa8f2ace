import Infrastructure.Hypervisor.Devices

/-! What a sequence of register writes leaves in a transport: the two halves of the driver features,
the sizes of the ready queues and the interrupt. -/

namespace Infrastructure.Hypervisor

open Memory State Boot

theorem mask_bits : ∀ (i : Nat) (small : i < 32), BitVec.getLsbD (0xffffffff00000000 : BitVec 64)
    (i + 32) = true ∧
    (0xffffffff : BitVec 32)[i] = true ∧ BitVec.getLsbD (0xffffffff : BitVec 64)
    (i + 32) = false := by
  decide

/-- Each half of a word is written without the other. -/
theorem halves (word : UInt64) (half : UInt32) :
    ((withLow word half).toUInt32 = half ∧
      (withLow word half >>> 32).toUInt32 = (word >>> 32).toUInt32) ∧
      (withHigh word half).toUInt32 = word.toUInt32 ∧
        (withHigh word half >>> 32).toUInt32 = half := by
  refine ⟨⟨?_, ?_⟩, ?_, ?_⟩ <;> apply UInt32.toBitVec_inj.mp <;> ext i small <;> have bits :=
    mask_bits i small
  · simp [withLow]
  · simp [withLow]
    grind
  · simp [withHigh]
    grind
  · simp [withHigh]
    grind

theorem Register.offset_lt (register : Register) : ¬configSpaceOffset ≤ register.offset := by
  cases register <;> decide

namespace Transport

abbrev Writes := List (UInt64 × Bytes)

def writes : Transport → Writes → Transport := List.foldl fun t w => t.write w.1 w.2

/-- Every write meets a condition on the transport that it finds. -/
def Along (ok : Transport → UInt64 → Bytes → Prop) : Transport → Writes → Prop
  | _, [] => True
  | t, (offset, data) :: rest => ok t offset data ∧ Along ok (t.write offset data) rest

theorem Along.keeps {ok : Transport → UInt64 → Bytes → Prop} {inv : Transport → Prop}
    (step : ∀ t offset data, inv t → ok t offset data → inv (t.write offset data)) :
    ∀ (done : Writes) (t : Transport), inv t → Along ok t done → inv (t.writes done)
  | [], _, held, _ => held
  | (offset, data) :: rest, t, held, ⟨first, later⟩ =>
    keeps step rest _ (step t offset data held first) later

def word (data : Bytes) : UInt32 := UInt32.ofNat (ofLittleEndian data)

theorem write_register (t : Transport) (register : Register) (data : Bytes) :
    t.write register.offset data = if data.length = 4 then t.set (word data) register else t := by
  rw [write, if_neg register.offset_lt, Register.find_offset]
  split <;> simp_all [word]

/-- The last value that writes to the two driver-feature registers give to a page, from a selector
and a value on. -/
def lastUnder (page : UInt32) : UInt32 → UInt32 → Writes → UInt32
  | _, val, [] => val
  | sel, val, (offset, data) :: rest =>
    if data.length ≠ 4 then lastUnder page sel val rest
    else if offset = Register.driverFeaturesSel.offset then lastUnder page (word data) val rest
    else lastUnder page sel (if sel = page then word data else val) rest

/-- A write of features is under selector 0 or 1. -/
abbrev Paged (t : Transport) (offset : UInt64) (data : Bytes) : Prop :=
  offset = Register.driverFeatures.offset → data.length = 4 →
    t.driverFeaturesSel = 0 ∨ t.driverFeaturesSel = 1

theorem driver_features_last (page : UInt32) (either : page = 0 ∨ page = 1) (done : Writes) :
    ∀ t : Transport,
      (∀ w ∈ done, w.1 = Register.driverFeaturesSel.offset ∨ w.1 = Register.driverFeatures.offset) →
      Along Paged t done → featuresPage (t.writes done).driverFeatures page =
        lastUnder page t.driverFeaturesSel (featuresPage t.driverFeatures page) done := by
  induction done with
  | nil => intros; rfl
  | cons w rest ih =>
    obtain ⟨offset, data⟩ := w
    rintro t only ⟨paged, along⟩
    obtain ⟨first, only⟩ := List.forall_mem_cons.mp only
    rw [writes, List.foldl_cons, ← writes, ih _ only along]
    have apart : Register.driverFeatures.offset ≠ Register.driverFeaturesSel.offset := by decide
    by_cases four : data.length = 4
    · rcases first with rfl | rfl
      · simp [lastUnder, write_register, four, set]
      · have parts := halves t.driverFeatures (word data)
        rw [write_register, if_pos four]
        rcases paged rfl four with sel | sel <;> rcases either with rfl | rfl <;>
          simp [lastUnder, apart, four, sel, set, featuresPage, parts]
    · rcases first with rfl | rfl <;> simp [lastUnder, write_register, four]

/-- The driver accepts a low and a high feature bit. -/
theorem driver_features_last_network :
    featuresPage ((new 1 0 2 256 []).writes [(0x024, [1, 0, 0, 0]),
      (0x020, [1, 0, 0, 0])]).driverFeatures 1 = 1 :=
  driver_features_last 1 (.inr rfl) _ _ (by decide) ⟨by decide, by decide, trivial⟩

/-- Under the reserved selector 2 the high half is written. -/
theorem reserved_selector_written :
    featuresPage ((new 1 0 2 256 []).writes [(0x024, [2, 0, 0, 0]),
      (0x020, [5, 0, 0, 0])]).driverFeatures 1 = 5 ∧
      lastUnder 1 0 0 [(0x024, [2, 0, 0, 0]), (0x020, [5, 0, 0, 0])] = 0 := by
  decide

/-- A write that makes a queue ready finds it with a size. -/
abbrev ReadiesSized (t : Transport) (offset : UInt64) (data : Bytes) : Prop :=
  offset = Register.queueReady.offset → data.length = 4 → word data &&& 1 ≠ 0 →
    t.selectedQueue.map Queue.size ≠ some 0

def Fits (max : UInt32) (q : Queue) : Prop := q.size ≤ max ∧ (q.ready → q.size ≠ 0)

def Sized (max : UInt32) (t : Transport) : Prop := t.queueMaxSize = max ∧ ∀ q ∈ t.queues, Fits max q

section

variable {max : UInt32} {t : Transport}

theorem Sized.updateSelected {change : Queue → Queue} (sized : Sized max t)
    (kept : ∀ q, t.selectedQueue = some q → Fits max q → Fits max (change q)) :
    Sized max (t.updateSelected change) := by
  refine ⟨sized.1, fun q mem => ?_⟩
  obtain ⟨i, got⟩ := List.mem_iff_getElem?.mp mem
  rw [Transport.updateSelected, List.getElem?_modify] at got
  obtain ⟨old, was, rfl⟩ := Option.map_eq_some_iff.mp got
  have held := sized.2 old (List.mem_of_getElem? was)
  split
  · next eq => exact kept old (by rw [selectedQueue, eq, was]) held
  · exact held

theorem sized_reset (eq : t.queueMaxSize = max) : Sized max t.reset := by
  refine ⟨eq, fun q mem => ?_⟩
  rw [List.eq_of_mem_replicate mem]
  exact ⟨UInt32.zero_le, nofun⟩

theorem Sized.set {val : UInt32} {register : Register} (sized : Sized max t)
    (readies : register = .queueReady → val &&& 1 ≠ 0 → t.selectedQueue.map Queue.size ≠ some 0) :
    Sized max (t.set val register) := by
  cases register <;> simp only [Transport.set]
  case queueNum =>
    split
    · next fits =>
      exact sized.updateSelected fun _ _ _ =>
        ⟨sized.1 ▸ fits.2, fun _ => UInt32.pos_iff_ne_zero.mp fits.1⟩
    · exact sized
  case queueReady =>
    refine sized.updateSelected fun q got held => ⟨held.1, fun set empty => ?_⟩
    exact readies rfl (by simpa using set) (by rw [got]; exact congrArg some empty)
  case status =>
    split
    · exact sized_reset sized.1
    · exact sized
  case driverFeatures => split <;> exact sized
  all_goals first | exact sized | exact sized.updateSelected fun _ _ held => held

end

theorem Sized.write {max : UInt32} (t : Transport) (offset : UInt64) (data : Bytes)
    (sized : Sized max t)
    (readies : t.ReadiesSized offset data) : Sized max (t.write offset data) := by
  unfold Transport.write
  split
  · exact sized
  split
  · exact sized
  split
  · next four register got =>
    have put : register.offset = offset := by simpa using List.find?_some got
    refine sized.set fun ready bit => readies ?_ (by omega) bit
    rw [← put, ready]
  · exact sized

/-- The devices create their transports with a maximum of 256. -/
theorem ready_queues_sized (deviceID : UInt32) (features : UInt64) (numQueues : Nat) (max : UInt32)
    (config : Bytes) (small : max.toNat < 2 ^ 16) (done : Writes)
    (along : Along ReadiesSized (new deviceID features numQueues max config) done) (idx : Nat) :
    let q := ((new deviceID features numQueues max config).writes done).queue idx
    q.ready → (1 ≤ q.size ∧ q.size ≤ max) ∧ (newVirtQueue idx q).size.toNat = q.size.toNat := by
  intro q ready
  have sized : Sized max _ := Along.keeps Sized.write done _ (sized_reset rfl) along
  have found : q ∈ ((new deviceID features numQueues max config).writes done).queues := by
    by_contra missing
    have : q = {} := by grind [Transport.queue]
    rw [this] at ready
    cases ready
  obtain ⟨bounded, nonzero⟩ := sized.2 q found
  have := UInt32.le_iff_toNat_le.mp bounded
  refine ⟨⟨UInt32.pos_iff_ne_zero.mpr (nonzero ready), bounded⟩, ?_⟩
  simp [newVirtQueue]
  omega

theorem ready_queues_sized_eight :
    let q := ((new 1 0 2 256 []).writes [(0x038, [8, 0, 0, 0]), (0x044, [1, 0, 0, 0])]).queue 0
    (1 ≤ q.size ∧ q.size ≤ 256) ∧ (newVirtQueue 0 q).size.toNat = q.size.toNat :=
  ready_queues_sized 1 0 2 256 [] (by decide) [(0x038, [8, 0, 0, 0]), (0x044, [1, 0, 0, 0])]
    ⟨by decide, by decide, trivial⟩ 0 (by decide)

/-- Ready before it was sized. -/
theorem empty_queue_ready : let q := ((new 1 0 2 256 []).writes [(0x044, [1, 0, 0, 0])]).queue 0
    q.ready ∧ q.size = 0 ∧ (newVirtQueue 0 q).size = 0 := by
  decide

/-- The device completes a buffer, or the guest writes to the register window. -/
inductive Event where
  | completed
  | written (offset : UInt64) (data : Bytes)

def step (t : Transport) : Event → Transport
  | .completed => t.raiseUsedBufferInterrupt
  | .written offset data => t.write offset data

/-- The write acknowledges the interrupt or resets the device. -/
def Clears (offset : UInt64) (data : Bytes) : Prop :=
  data.length = 4 ∧ (offset = Register.interruptACK.offset ∧ (word data).toNat % 2 = 1 ∨
    offset = Register.status.offset ∧ word data = 0)

/-- A buffer has been completed since the guest last cleared the interrupt. -/
def Owed : Prop → List Event → Prop
  | owes, [] => owes
  | _, .completed :: rest => Owed True rest
  | owes, .written offset data :: rest => Owed (owes ∧ ¬Clears offset data) rest

theorem interrupt_write (t : Transport) (offset : UInt64) (data : Bytes) :
    (t.write offset data).interruptStatus.toNat % 2 = 1 ↔
    t.interruptStatus.toNat % 2 = 1 ∧ ¬Clears offset data := by
  have apart : Register.interruptACK.offset ≠ Register.status.offset := by decide
  by_cases ack : offset = Register.interruptACK.offset
  · have bound := (word data).toNat_lt
    rw [ack, write_register]
    split <;> simp [Clears, set, *]
    omega
  by_cases status : offset = Register.status.offset
  · rw [status, write_register]
    split
    · by_cases zero : word data = 0 <;> simp [Clears, set, reset, apart.symm, *]
    · simp [Clears, *]
  rw [and_iff_left (by simp [Clears, ack, status])]
  unfold write
  split
  · rfl
  split
  · rfl
  split
  · next register found =>
    have eq : register.offset = offset := by simpa using List.find?_some found
    subst eq
    cases register <;> first | rfl | contradiction | (simp only [set]; split <;> rfl)
  · rfl

/-- No completion is lost: the guest reads the interrupt as pending exactly if it has not cleared it
since. -/
theorem interrupt_owed (events : List Event) (t : Transport) :
    ofLittleEndian ((events.foldl step t).read Register.interruptStatus.offset [0, 0, 0, 0]) % 2 =
      1 ↔
      Owed (t.interruptStatus.toNat % 2 = 1) events := by
  induction events generalizing t with
  | nil =>
    have bound := t.interruptStatus.toNat_lt
    change ofLittleEndian (littleEndian 4 t.interruptStatus.toNat) % 2 = 1 ↔ _
    rw [ofLittleEndian_littleEndian, Owed]
    omega
  | cons event rest ih =>
    rw [List.foldl_cons, ih]
    cases event with
    | completed => simp [step, raiseUsedBufferInterrupt, usedBufferInterrupt, Owed]
    | written offset data => rw [step, interrupt_write, Owed]

end Transport

end Infrastructure.Hypervisor
