import Infrastructure.Lifecycle.Writers
import Infrastructure.Manager.DNSAnswers
import Infrastructure.Manager.Egress

/-! The DNS pass of an agent: what it serves, and what it reports of zones and records. -/

namespace Infrastructure.Manager.DNS

open Concurrency State Domain Lifecycle

structure DNSZoneSpec where
  domain : String := ""
  /-- `public`, or else private. -/
  visibility : String := ""
  vpcIDs : List String := []
  deriving DecidableEq, Repr

structure DNSRecordSpec where
  zoneID : String
  name : String := ""
  type : String := ""
  ttl : Int := 0
  records : List String := []
  deriving DecidableEq, Repr

abbrev ZoneResource := Resource DNSZoneSpec StatusBase
abbrev RecordResource := Resource DNSRecordSpec StatusBase

/-- `ParseRecord`, of a name, the domain of its zone, a type, a time to live and one value. -/
abbrev RecordParser := (name domain type : String) → (ttl : Int) → (val : String) → Except Error RR

/-- A record with a value that does not parse is left out whole, and the first such value is
reported. -/
def addRecord (parseRecord : RecordParser) (record : RecordResource)
    (got : (String → Option DNSZone) × (String → Option Error)) :
    (String → Option DNSZone) × (String → Option Error) :=
  let spec := record.spec
  match got.1 spec.zoneID with
  | none => got
  | some zone =>
    if record.metadata.isDeleting then got
    else
      match spec.records.mapM (parseRecord spec.name zone.domain spec.type spec.ttl) with
      | .error err => (got.1, Function.update got.2 record.metadata.uid (some err))
      | .ok rrs =>
        let zone := { zone with records := zone.records ++ rrs }
        (Function.update got.1 spec.zoneID (some zone), got.2)

/-- Every live zone with its live records, by UID, and the records that do not parse. -/
def buildZones (parseRecord : RecordParser) (zones : List ZoneResource)
    (records : List RecordResource) :
    (String → Option DNSZone) × (String → Option Error) :=
  let built := zones.foldl (fun built zone =>
    if zone.metadata.isDeleting then built
    else Function.update built zone.metadata.uid (some { domain := zone.spec.domain })) fun _ =>
      none
  records.foldl (fun got record => addRecord parseRecord record got) (built, fun _ => none)

def publicZones (zones : List ZoneResource) (built : String → Option DNSZone) : List DNSZone :=
  (zones.filter fun zone => !zone.metadata.isDeleting && zone.spec.visibility == "public").filterMap
    fun zone => built zone.metadata.uid

def privateZonesOf (vpcID : String) (zones : List ZoneResource) (built : String → Option DNSZone) :
    List DNSZone :=
  (zones.filter fun zone => !zone.metadata.isDeleting && zone.spec.visibility != "public" &&
    zone.spec.vpcIDs.contains vpcID).filterMap fun zone => built zone.metadata.uid

def zonePhaseFor (zone : ZoneResource) (served : List String) (publicServed : Bool) :
    Phase × String × String :=
  if zone.spec.visibility = "public" then
    if publicServed || !served.isEmpty then (.ready, "Served", "public zone served")
    else (.pending, "WaitingForResolver", "no resolver serves it yet")
  else if zone.spec.vpcIDs.isEmpty then (.pending, "NoVPC", "private zone attached to no VPC")
  else if zone.spec.vpcIDs.all served.contains then (.ready, "Served", "zone served")
  else (.pending, "WaitingForVPC", "vpc resolver not ready")

def recordPhaseFor (record : RecordResource) (bad : String → Option Error)
    (zoneReady : String → Bool) :
    Phase × String × String :=
  match bad record.metadata.uid with
  | some err => (.error, "BadRecord", err.text)
  | none =>
    if zoneReady record.spec.zoneID then (.ready, "Served", "record served")
    else (.pending, "WaitingForZone", "zone not served yet")

/-- What a program that only asks for the time returns at one. -/
def returned {α : Type} (now : Int) : Prog α → Option α
  | .ret val => some val
  | .call .now next => returned now (next now)
  | .call _ _ => none

/-- The resource as it is then stored: it is written only when its phase is another one. -/
def report {S : Type} (now : Int) (found : Phase × String × String) (res : Resource S StatusBase) :
    Resource S StatusBase :=
  if res.metadata.isDeleting || res.status.phase = found.1 then res
  else
    let status := (returned now (res.status.setPhase found.1 found.2.1 found.2.2)).getD res.status
    { res with
      status := if found.1 = .ready then status.markReconciled res.metadata.generation else status }

def zoneReady (zones : List ZoneResource) (served : List String) (publicServed : Bool) :
    String → Bool :=
  zones.foldl (fun ready zone =>
    if zone.metadata.isDeleting then ready
    else Function.update ready zone.metadata.uid
      ((zonePhaseFor zone served publicServed).1 == .ready)) fun _ => false

/-- The stored zones and records after a pass that served these VPCs, and could not parse the `bad`
records. -/
def updateStatuses (now : Int) (zones : List ZoneResource) (records : List RecordResource)
    (served : List String) (publicServed : Bool)
    (bad : String → Option Error) : List ZoneResource × List RecordResource :=
  (zones.map fun zone => report now (zonePhaseFor zone served publicServed) zone,
    records.map fun record =>
      report now (recordPhaseFor record bad (zoneReady zones served publicServed)) record)

/-- What the calls of one pass to the DNS backend return. -/
structure DNSBackend where
  serveVPC : (vpcID bridge addr : String) → DNSView → Except Error Unit
  /-- The VPCs with a resolver once the calls to `serveVPC` are made. -/
  servedVPCs : List String
  stopVPC : String → Except Error Unit
  servePublic : (addr : String) → DNSView → Except Error Unit

structure DNSReconciler where
  texts : EgressTexts
  parseRecord : RecordParser
  publicAddr : String := ""

/-- The zones and records as they are stored after a pass, and what else it leaves. -/
structure DNSPass where
  zones : List ZoneResource
  records : List RecordResource
  publicServed : Bool
  result : Except Error Unit

/-- A live VPC that has a bridge gets a resolver on its first address. -/
def DNSReconciler.serve (r : DNSReconciler) (backend : DNSBackend) (zonesOf : String → List DNSZone)
    (vpc : VPC) : Option (Except Error Unit) :=
  if vpc.metadata.isDeleting || vpc.status.bridgeName == "" then none
  else some (backend.serveVPC vpc.metadata.uid vpc.status.bridgeName
    (firstHostOf r.texts vpc.spec.cidr) { zones := zonesOf vpc.metadata.uid, forward := true })

/-- A pass none of whose calls to the store fails. -/
def DNSReconciler.reconcileAll (r : DNSReconciler) (backend : DNSBackend) (now : Int)
    (vpcs : List VPC) (zones : List ZoneResource) (records : List RecordResource) : DNSPass :=
  let (built, bad) := buildZones r.parseRecord zones records
  let visible := publicZones zones built
  let answers := vpcs.filterMap fun vpc =>
    (r.serve backend (fun vpcID => privateZonesOf vpcID zones built ++ visible) vpc).map
      (vpc.metadata.uid, ·)
  let served := (answers.filter fun answer => answer.2 matches .ok _).map Prod.fst
  let failed := answers.filterMap fun (vpcID, answer) =>
    match answer with
    | .ok _ => none
    | .error err => some (Error.wrap ("vpc " ++ vpcID ++ " dns") err)
  let unstopped :=
    (backend.servedVPCs.filter fun vpcID => !served.contains vpcID).filterMap fun vpcID =>
    match backend.stopVPC vpcID with
    | .ok _ => none
    | .error err => some err
  let (publicServed, refused) :=
    if r.publicAddr = "" then (false, [])
    else
      match backend.servePublic r.publicAddr { zones := visible } with
      | .ok _ => (true, [])
      | .error err => (false, [Error.wrap "public dns" err])
  let stored := updateStatuses now zones records served publicServed bad
  { zones := stored.1, records := stored.2, publicServed := publicServed
    result := Error.joinAll (failed ++ unstopped ++ refused) }

/-- A live resource that is reported ready was observed as it is. -/
def Current {S : Type} (res : Resource S StatusBase) : Prop :=
  ¬ res.metadata.isDeleting → res.status.phase = .ready →
    res.status.observedGeneration = res.metadata.generation

theorem returned_setPhase (now : Int) (status : StatusBase) (phase : Phase) (why msg : String) :
    ∃ after, returned now (status.setPhase phase why msg) = some after ∧ after.phase = phase := by
  cases phase <;> exact ⟨_, rfl, rfl⟩

theorem report_current {S : Type} (now : Int) (got : Phase × String × String)
    (res : Resource S StatusBase) :
    Current (report now got res) ↔ (got.1 = .ready → Current res) := by
  obtain ⟨phase, why, msg⟩ := got
  obtain ⟨after, post, reported⟩ := returned_setPhase now res.status phase why msg
  rw [report, post]
  split
  · next eq =>
    rw [Bool.or_eq_true, decide_eq_true_iff] at eq
    unfold Current
    grind
  · next new =>
    rw [Bool.or_eq_true, decide_eq_true_iff, not_or] at new
    simp only [Current, Option.getD_some]
    split <;> simp_all [StatusBase.markReconciled]

theorem updateStatuses_current (now : Int) (zones : List ZoneResource)
    (records : List RecordResource) (served : List String) (publicServed : Bool)
    (bad : String → Option Error) :
    let after := updateStatuses now zones records served publicServed bad
    let zoneFound zone := zonePhaseFor zone served publicServed
    let recordFound record := recordPhaseFor record bad (zoneReady zones served publicServed)
    (∀ zone ∈ after.1, Current zone) ∧ (∀ record ∈ after.2, Current record) ↔
      (∀ zone ∈ zones, (zoneFound zone).1 = .ready → Current zone) ∧
        ∀ record ∈ records, (recordFound record).1 = .ready → Current record := by
  simp only [updateStatuses, List.forall_mem_map, report_current]

theorem current_of_fresh {S : Type} {res : Resource S StatusBase} (fresh : res.status = {}) :
    Current res := by
  intro _ ready
  rw [fresh] at ready
  cases ready

/-- The observed generation stays behind exactly when a live resource that is reported ready is
edited. -/
theorem replaced_current {S : Type} {old saved : Resource S StatusBase} (edit : Replaced old saved)
    (current : Current old) : Current saved ↔
    (old.metadata.isDeleting ∨ old.status.phase ≠ .ready) := by
  have moved : ∀ gen : Int64, gen ≠ gen + 1 := by
    intro gen eq
    have : gen + 1 - gen = 0 := by rw [← eq, Int64.sub_self]
    rw [Int64.add_comm, Int64.add_sub_cancel] at this
    exact absurd this (by decide)
  have same : saved.metadata.isDeleting = old.metadata.isDeleting := by
    rw [ObjectMeta.isDeleting, edit.deletionTimestamp, ObjectMeta.isDeleting]
  unfold Current at *
  rw [same, edit.status, edit.generation]
  constructor
  · intro after
    by_contra! live
    rw [Ne, Bool.not_eq_true] at live
    have kept := after (by simp [live.1]) live.2
    exact moved _ ((current (by simp [live.1]) live.2).symm.trans kept)
  · rintro (gone | other) live ready
    · exact absurd gone live
    · exact absurd ready other

/-- What one API request does to the stored resources of one kind: a PUT creates one or replaces one
that is not live and reported ready, a DELETE marks one or removes it. -/
inductive Requested {S : Type} : List (Resource S StatusBase) → List (Resource S StatusBase) → Prop
  | create (front back : List (Resource S StatusBase)) (res : Resource S StatusBase)
      (fresh : res.status = {}) :
      Requested (front ++ back) (front ++ res :: back)
  | replace (front back : List (Resource S StatusBase)) (old saved : Resource S StatusBase)
      (edit : Replaced old saved) (calm : old.metadata.isDeleting ∨ old.status.phase ≠ .ready) :
      Requested (front ++ old :: back) (front ++ saved :: back)
  | mark (front back : List (Resource S StatusBase)) (res : Resource S StatusBase) (time : Int) :
      Requested (front ++ res :: back)
        (front ++ { res with metadata := { res.metadata with deletionTimestamp := some time } } ::
          back)
  | remove (front back : List (Resource S StatusBase)) (res : Resource S StatusBase) :
      Requested (front ++ res :: back) (front ++ back)

/-- The zones and records stored after a history of API requests and passes, in which no live
resource that is reported ready is edited. -/
inductive Reached (r : DNSReconciler) : List ZoneResource → List RecordResource → Prop
  | empty : Reached r [] []
  | zones {zones after : List ZoneResource} {records : List RecordResource}
      (before : Reached r zones records) (request : Requested zones after) :
      Reached r after records
  | records {zones : List ZoneResource} {records after : List RecordResource}
      (before : Reached r zones records) (request : Requested records after) :
      Reached r zones after
  | pass {zones : List ZoneResource} {records : List RecordResource}
      (before : Reached r zones records) (backend : DNSBackend) (now : Int) (vpcs : List VPC) :
      Reached r (r.reconcileAll backend now vpcs zones records).zones
        (r.reconcileAll backend now vpcs zones records).records

theorem Requested.current {S : Type} {stored after : List (Resource S StatusBase)}
    (request : Requested stored after)
    (current : ∀ res ∈ stored, Current res) : ∀ res ∈ after, Current res := by
  cases request <;> simp only [List.forall_mem_append, List.forall_mem_cons] at current ⊢
  case create front back res fresh => exact ⟨current.1, current_of_fresh fresh, current.2⟩
  case replace front back old saved edit calm =>
    exact ⟨current.1, (replaced_current edit current.2.1).mpr calm, current.2.2⟩
  case mark front back res time => exact ⟨current.1, fun live => absurd rfl live, current.2.2⟩
  case remove front back res => exact ⟨current.1, current.2.2⟩

theorem Reached.current {r : DNSReconciler} {zones : List ZoneResource}
    {records : List RecordResource} (reached : Reached r zones records) :
    (∀ zone ∈ zones, Current zone) ∧ ∀ record ∈ records, Current record := by
  induction reached with
  | empty => simp
  | zones _ request ih => exact ⟨request.current ih.1, ih.2⟩
  | records _ request ih => exact ⟨ih.1, request.current ih.2⟩
  | pass _ _ _ _ ih =>
    exact (updateStatuses_current ..).mpr ⟨fun zone stored _ => ih.1 zone stored,
      fun record stored _ => ih.2 record stored⟩

/-- After a pass what is reported ready was observed as it is, exactly when that held before of what
the pass finds ready again. It holds through every history in which no live resource that is
reported ready is edited, and such an edit ends it. -/
theorem updateStatuses_current_iff (r : DNSReconciler) (now : Int) (zones : List ZoneResource)
    (records : List RecordResource) (served : List String) (publicServed : Bool)
    (bad : String → Option Error) :
    let after := updateStatuses now zones records served publicServed bad
    let zoneFound zone := zonePhaseFor zone served publicServed
    let recordFound record := recordPhaseFor record bad (zoneReady zones served publicServed)
    ((∀ zone ∈ after.1, Current zone) ∧ (∀ record ∈ after.2, Current record) ↔
      (∀ zone ∈ zones, (zoneFound zone).1 = .ready → Current zone) ∧
        ∀ record ∈ records, (recordFound record).1 = .ready → Current record) ∧
    (Reached r zones records →
      (∀ zone ∈ zones, Current zone) ∧ ∀ record ∈ records, Current record) ∧
    ∀ (S : Type) (old saved : Resource S StatusBase), Replaced old saved → Current old →
      (Current saved ↔ (old.metadata.isDeleting ∨ old.status.phase ≠ .ready)) :=
  ⟨updateStatuses_current now zones records served publicServed bad, Reached.current,
    fun _ _ _ => replaced_current⟩

/-- A zone that is edited after it was reported ready stays reported so and is not observed. -/
theorem edited_zone_not_observed : let zone : ZoneResource :=
      { metadata := { uid := "zone-a", generation := 2 }, spec := { visibility := "public" }
        status := { phase := .ready, observedGeneration := 1 } }
    (updateStatuses 0 [zone] [] [] true fun _ => none).1 = [zone] := by
  decide

end Infrastructure.Manager.DNS
