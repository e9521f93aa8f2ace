import Infrastructure.Controllers.Schedulers

/-! Replicas stay away from the node of their disk, as long as no disk has to be placed while it has
a replica on a ready node. -/

namespace Infrastructure.Controllers.Schedulers

open Concurrency State Domain Registry

variable (c : Schedulers)

def ReplicasApart (shared : Shared) : Prop :=
  ∀ uid replica disk, c.replicas.stored shared uid = some replica →
    c.disks.stored shared replica.spec.diskId = some disk →
    replica.status.nodeName ≠ "" → disk.status.nodeName ≠ replica.status.nodeName

def Settled (shared : Shared) : Prop :=
  ∀ uid replica disk, c.replicas.stored shared uid = some replica →
    c.disks.stored shared replica.spec.diskId = some disk → disk.metadata.isDeleting = false →
    c.ReadyNode shared replica.status.nodeName →
    disk.status.nodeName ≠ "" ∧ c.ReadyNode shared disk.status.nodeName ∧
      c.nodes.Listable disk.status.nodeName

structure DisksFiled (shared : Shared) : Prop where
  disks : c.disks.Filed shared
  replicas : c.replicas.Filed shared
  nodes : c.nodes.Filed shared

/-- The passes that place disks and replicas, and the ways the record of a node may change. -/
inductive DiskCall where
  | disks
  | replicas
  | heartbeat (node : Node)
  | retire (uid : String)

def DiskCall.body : DiskCall → Prog (Except Error Unit)
  | .disks => c.reconcileDisks
  | .replicas => c.reconcileReplicas
  | .heartbeat node => do
      match ← c.nodes.put node with
      | .error err => return .error err
      | .ok _ => return .ok ()
  | .retire uid => c.nodes.delete uid

theorem disks_replicas : c.disks.Disjoint c.replicas :=
  disjoint_of_kinds (k := kindDisk) (l := kindAsyncDiskReplica) rfl rfl (by decide)

theorem disks_nodes : c.disks.Disjoint c.nodes :=
  disjoint_of_kinds (k := kindDisk) (l := kindNode) rfl rfl (by decide)

theorem replicas_nodes : c.replicas.Disjoint c.nodes :=
  disjoint_of_kinds (k := kindAsyncDiskReplica) (l := kindNode) rfl rfl (by decide)

structure Sound (now : Logged) : Prop where
  filed : c.DisksFiled now.shared
  apart : c.ReplicasApart now.shared

variable {c} {s s' : Shared}

theorem ReplicasApart.congr (apart : c.ReplicasApart s)
    (disks : ∀ uid, c.disks.stored s' uid = c.disks.stored s uid)
    (replicas : ∀ uid, c.replicas.stored s' uid = c.replicas.stored s uid) :
    c.ReplicasApart s' := by
  intro uid rep disk got primary
  rw [replicas] at got
  rw [disks] at primary
  exact apart uid rep disk got primary

section

/-- During a pass of the disk scheduler the replicas stay as they were. -/
structure DiskPass (c : Schedulers) (origin : Shared) (now : Logged) : Prop
    extends c.Sound now where
  replicas : ∀ uid, c.replicas.stored now.shared uid = c.replicas.stored origin uid

variable {origin : Shared} {now : Logged}

theorem DiskPass.admissible (pass : c.DiskPass origin now) {uid node : String}
    (clear : ∀ other rep, c.replicas.stored origin other = some rep → rep.spec.diskId = uid →
      rep.status.nodeName ≠ "" → node ≠ rep.status.nodeName) :
    Admissible c.disks diskPlacement (c.DiskPass origin) uid node now := by
  intro cur shared got _ saves
  have named : (diskPlacement.move node cur).metadata.uid = uid := pass.filed.disks uid cur got
  have replicas := saves.stored_other c.disks_replicas.symm
  have nodes := saves.stored_other c.disks_nodes.symm
  have filed : c.DisksFiled shared :=
    ⟨pass.filed.disks.saves saves, pass.filed.replicas.congr replicas, pass.filed.nodes.congr nodes⟩
  have apart : c.ReplicasApart shared := by
    intro other rep disk held primary put
    rw [replicas] at held
    rcases saves.stored_cases primary with ⟨eq, v, rfl⟩ | ⟨-, pre⟩
    · rw [pass.replicas] at held
      exact clear other rep held (eq.trans named) put
    · exact pass.apart other rep disk held pre put
  exact ⟨⟨filed, apart⟩, fun other => (replicas other).trans (pass.replicas other)⟩

theorem diskPass_moves {start : Logged} (sound : c.Sound start) (done : c.Settled start.shared) :
    c.Moves c.disks diskPlacement (c.DiskPass start.shared) start where
  clears _ _ _ _ disk _ _ now pass := pass.admissible fun _ _ _ _ put => put.symm
  places nodes disks nodeListing diskListing disk mem live unplaced node ready now pass := by
    obtain ⟨uid, got⟩ := diskListing.sound disk mem
    have named := sound.filed.disks uid disk got
    apply pass.admissible
    intro other rep held primary _ eq
    rw [eq] at ready
    have alive := readyNode_of_ready nodeListing sound.filed.nodes ready
    rw [← named, ← primary] at got
    -- the disk waits for a node, so it cannot be on a ready one
    obtain ⟨put, up, listable⟩ := done other rep disk held got live alive
    rcases unplaced with nowhere | down
    · exact put nowhere
    · have also := ready_of_readyNode nodeListing sound.filed.nodes up listable
      exact Bool.false_ne_true (down.symm.trans also)

end

section

/-- During a pass of the replica scheduler every replica keeps its spec. -/
structure ReplicaPass (c : Schedulers) (origin : Shared) (now : Logged) : Prop
    extends c.Sound now where
  specs : ∀ uid replica, c.replicas.stored now.shared uid = some replica →
    ∃ first, c.replicas.stored origin uid = some first ∧ replica.spec = first.spec

variable {origin : Shared} {now : Logged}

theorem ReplicaPass.admissible (pass : c.ReplicaPass origin now) {uid node : String}
    (clear : ∀ rep disk, c.replicas.stored now.shared uid = some rep →
      c.disks.stored now.shared rep.spec.diskId = some disk → node ≠ "" →
        disk.status.nodeName ≠ node) :
    Admissible c.replicas asyncDiskReplicaPlacement (c.ReplicaPass origin) uid node now := by
  intro cur shared got _ saves
  have named : (asyncDiskReplicaPlacement.move node cur).metadata.uid = uid :=
    pass.filed.replicas uid cur got
  have disks := saves.stored_other c.disks_replicas
  have nodes := saves.stored_other c.replicas_nodes.symm
  have filed : c.DisksFiled shared :=
    ⟨pass.filed.disks.congr disks, pass.filed.replicas.saves saves, pass.filed.nodes.congr nodes⟩
  have apart : c.ReplicasApart shared := by
    intro other rep disk held primary put
    rw [disks] at primary
    rcases saves.stored_cases held with ⟨-, v, rfl⟩ | ⟨-, pre⟩
    · exact clear cur disk got primary put
    · exact pass.apart other rep disk pre primary put
  refine ⟨⟨filed, apart⟩, ?_⟩
  intro other rep held
  rcases saves.stored_cases held with ⟨eq, v, rfl⟩ | ⟨-, pre⟩
  · rw [eq, named]
    exact pass.specs uid cur got
  · exact pass.specs other rep pre

theorem replicaPass_places {start : Logged} (sound : c.Sound start)
    {replicas : List AsyncDiskReplica} (listing : c.replicas.Listing start.shared replicas)
    {rep : AsyncDiskReplica} (mem : rep ∈ replicas) {disk : Disk} {node : String}
    (pass : c.ReplicaPass start.shared now)
    (read : c.disks.stored now.shared rep.spec.diskId = some disk)
    (ne : node ≠ disk.status.nodeName) :
    Admissible c.replicas asyncDiskReplicaPlacement (c.ReplicaPass start.shared)
      rep.metadata.uid node now := by
  obtain ⟨uid, got⟩ := listing.sound rep mem
  have named := sound.filed.replicas uid rep got
  apply pass.admissible
  intro cur primary stored held _ eq
  obtain ⟨first, orig, kept⟩ := pass.specs _ cur stored
  rw [named, got] at orig
  cases orig
  rw [kept, read] at held
  cases held
  exact ne eq.symm

end

theorem body_keeps (call : DiskCall) {now : Logged} (done : call = .disks → c.Settled now.shared)
    (sound : c.Sound now) :
    (call.body c).Keeps logged c.Sound (fun _ _ => True) now := by
  cases call with
  | disks =>
    have initially : c.DiskPass now.shared now := ⟨sound, fun _ => rfl⟩
    exact ((reconcileDisks_keeps initially (diskPass_moves sound (done rfl))).weaken fun _ pass =>
      pass.toSound).mono
      fun _ _ _ => trivial
  | replicas =>
    have initially : c.ReplicaPass now.shared now := ⟨sound, fun _ rep held => ⟨rep, held, rfl⟩⟩
    have kept := reconcileReplicas_keeps initially
      (fun _ _ pass => pass.admissible fun _ _ _ _ nowhere => absurd rfl nowhere)
      fun _ listing _ mem _ _ _ pass => replicaPass_places sound listing mem pass
    exact (kept.weaken fun _ pass => pass.toSound).mono fun _ _ _ => trivial
  | heartbeat node =>
    have kept (s' : Shared) (saves : c.nodes.Saves now.shared node s') : c.Sound (now.over s') := by
      have disks := saves.stored_other c.disks_nodes
      have replicas := saves.stored_other c.replicas_nodes
      exact ⟨⟨sound.filed.disks.congr disks, sound.filed.replicas.congr replicas,
        sound.filed.nodes.saves saves⟩, sound.apart.congr disks replicas⟩
    apply keeps_put sound kept
    · intro err
      trivial
    · intro reply s' saves _
      cases reply <;> trivial
  | retire uid =>
    have disks (other : String) : c.disks.stored (now.shared.erase (c.nodes.key uid)) other =
        c.disks.stored now.shared other :=
      stored_erase_of_ne (c.disks_nodes other uid)
    have replicas (other : String) : c.replicas.stored (now.shared.erase (c.nodes.key uid)) other =
        c.replicas.stored now.shared other :=
      stored_erase_of_ne (c.replicas_nodes other uid)
    have kept : c.Sound (now.over (now.shared.erase (c.nodes.key uid))) :=
      ⟨⟨sound.filed.disks.congr disks, sound.filed.replicas.congr replicas,
        sound.filed.nodes.erase _⟩, sound.apart.congr disks replicas⟩
    exact (delete_keeps sound kept).mono fun _ _ _ => trivial

theorem Sound.drift {s s' : Logged} (sound : c.Sound s) (moved : logged.drift s s') :
    c.Sound s' := by
  have filed : c.DisksFiled s'.shared :=
    ⟨sound.filed.disks.congr (stored_drift moved.1),
      sound.filed.replicas.congr (stored_drift moved.1),
      sound.filed.nodes.congr (stored_drift moved.1)⟩
  exact ⟨filed, sound.apart.congr (stored_drift moved.1) (stored_drift moved.1)⟩

/-- While the disk scheduler runs only when every live disk with a replica on a ready node is on one
itself, no replica is on the node of its disk. -/
theorem replicas_apart_of_settled (c : Schedulers) {start state : Logged}
    (filed : c.DisksFiled start.shared) (apart : c.ReplicasApart start.shared)
    (reached : Passes logged (DiskCall.body c)
      (fun call now => call = .disks → c.Settled now.shared) start state) :
    c.ReplicasApart state.shared := by
  have sound : c.Sound state := by
    apply reached.invariant ⟨filed, apart⟩
    · intro call now settled kept
      exact body_keeps call settled kept
    · intro s s' moved kept
      exact kept.drift moved
  exact sound.apart

def sampleNode (uid lastSeen : String) : Node where
  apiVersion := apiVersion
  kind := kindNode
  metadata := { uid := uid }
  spec := { hostname := uid, address := "192.0.2.1", capacity := ⟨4, 4096, 0⟩ }
  status := { lastSeen := lastSeen }

def sampleDisk (node : String) : Disk where
  apiVersion := apiVersion
  kind := kindDisk
  metadata := { uid := "disk-1" }
  spec := { sizeMb := 64 }
  status := { nodeName := node }

def sampleReplica (node : String) : AsyncDiskReplica where
  apiVersion := apiVersion
  kind := kindAsyncDiskReplica
  metadata := { uid := "replica-1" }
  spec := { diskId := "disk-1" }
  status := { nodeName := node }

def sampleText (kind uid field val : String) : Bytes :=
  bytesOf ("\x7b\"kind\":\"" ++ kind ++ "\",\"uid\":\"" ++ uid ++ "\",\"" ++ field ++ "\":\"" ++
    val ++ "\"\x7d")

def noon : String := "2026-01-01T12:00:00Z"

def later : String := "2026-01-01T12:05:00Z"

def sampleNodeText (uid lastSeen : String) : Bytes := sampleText kindNode uid "lastSeen" lastSeen

def sampleDiskText (node : String) : Bytes := sampleText kindDisk "disk-1" "nodeName" node

def sampleReplicaText (node : String) : Bytes :=
  sampleText kindAsyncDiskReplica "replica-1" "nodeName" node

def placements : List String := ["", "node-a", "node-b"]

def sampleDisks : List (Disk × Bytes) :=
  placements.map fun node => (sampleDisk node, sampleDiskText node)

def sampleReplicas : List (AsyncDiskReplica × Bytes) :=
  placements.map fun node => (sampleReplica node, sampleReplicaText node)

def sampleNodes : List (Node × Bytes) :=
  [("node-a", noon), ("node-b", noon), ("node-b", later)].map fun entry =>
    (sampleNode entry.1 entry.2, sampleNodeText entry.1 entry.2)

theorem sampleDisks_distinct : (sampleDisks.map Prod.snd).Nodup := by
  decide +kernel

theorem sampleReplicas_distinct : (sampleReplicas.map Prod.snd).Nodup := by
  decide +kernel

theorem sampleNodes_distinct : (sampleNodes.map Prod.snd).Nodup := by
  decide +kernel

/-- Noon is the origin of time; a node is ready for a minute after its heartbeat. -/
def sampleSchedulers : Schedulers where
  computeCodec := .ofTable [] List.nodup_nil
  microVMCodec := .ofTable [] List.nodup_nil
  diskCodec := .ofTable sampleDisks sampleDisks_distinct
  replicaCodec := .ofTable sampleReplicas sampleReplicas_distinct
  nodeCodec := .ofTable sampleNodes sampleNodes_distinct
  poolCodec := .ofTable [] List.nodup_nil
  parseTime text := if text = noon then some 0 else if text = later then
    some (300 * 10 ^ 9) else none
  readyWindow := 60 * 10 ^ 9

def sampleStart : Logged where
  shared :=
    { store := (((∅ : Store).insert "async_disk_replica/replica-1" (sampleReplicaText "")).insert
      "disk/disk-1"
        (sampleDiskText "")).insert "node/node-b"
          (sampleNodeText "node-b" noon) |>.insert "node/node-a"
        (sampleNodeText "node-a" noon)
      clock := 0 }

def sampleCall (call : DiskCall) (s : Logged) : Logged :=
  ((call.body sampleSchedulers).run (fun op now => loggedAnswer now op) s).2

def sampleWait (s : Logged) : Logged :=
  s.over { s.shared with clock := s.shared.clock + 300 * 10 ^ 9 }

def sampleBeat : Node :=
  (sampleNode "node-b" later).withVersion (revision (sampleNodeText "node-b" noon))

def sampleLate : Logged :=
  sampleCall (.heartbeat sampleBeat)
    (sampleWait (sampleCall .replicas (sampleCall .disks sampleStart)))

def sampleEnd : Logged := sampleCall .replicas (sampleCall .disks sampleLate)

theorem sampleCall_passes {admits : DiskCall → Logged → Prop} {s : Logged}
    (hit : Passes logged (DiskCall.body sampleSchedulers) admits sampleStart s) (call : DiskCall)
    (ok : admits call s) :
    Passes logged (DiskCall.body sampleSchedulers) admits sampleStart (sampleCall call s) :=
  Passes.answered loggedAnswer_exec hit call ok

theorem sampleWait_drift (s : Logged) : logged.drift s (sampleWait s) :=
  ⟨⟨rfl, Int.le_add_of_nonneg_right (by decide)⟩, rfl⟩

theorem sampleStart_filed : sampleSchedulers.DisksFiled sampleStart.shared where
  disks := filed_of_everyRecord (by decide +kernel)
  replicas := filed_of_everyRecord (by decide +kernel)
  nodes := filed_of_everyRecord (by decide +kernel)

theorem sampleStart_unplaced {uid : String} {rep : AsyncDiskReplica}
    (got : sampleSchedulers.replicas.stored sampleStart.shared uid = some rep) :
    rep.status.nodeName = "" := by
  have ok : sampleSchedulers.replicas.everyRecord (fun _ read => read.status.nodeName == "")
      sampleStart.shared = true := by
    decide +kernel
  obtain ⟨read, v, rfl, empty⟩ := check_of_everyRecord ok got
  exact beq_iff_eq.mp empty

theorem sampleStart_apart : sampleSchedulers.ReplicasApart sampleStart.shared := by
  intro uid rep disk got _ put
  exact absurd (sampleStart_unplaced got) put

theorem sampleStart_settled : sampleSchedulers.Settled sampleStart.shared := by
  intro uid rep disk got _ _ alive
  obtain ⟨node, held, -⟩ := alive
  have nameless : sampleSchedulers.nodes.stored sampleStart.shared "" = none := by decide +kernel
  rw [sampleStart_unplaced got, nameless] at held
  cases held

theorem replicas_apart_of_settled_first_placement : sampleSchedulers.Settled sampleStart.shared ∧
    sampleSchedulers.ReplicasApart
      (sampleCall .replicas (sampleCall .disks sampleStart)).shared := by
  refine ⟨sampleStart_settled,
    replicas_apart_of_settled sampleSchedulers sampleStart_filed sampleStart_apart ?_⟩
  exact sampleCall_passes (sampleCall_passes .start .disks fun _ => sampleStart_settled)
    .replicas nofun

/-- When `node-a` falls silent, its disk moves to `node-b`, where the replica is and stays. -/
theorem disk_moves_to_replica : sampleSchedulers.ReplicasApart sampleStart.shared ∧
    ∃ state, Passes logged (DiskCall.body sampleSchedulers) (fun _ _ => True) sampleStart state ∧
      ¬sampleSchedulers.ReplicasApart (sampleCall .replicas (sampleCall .disks state)).shared := by
  refine ⟨sampleStart_apart, sampleLate, ?_, ?_⟩
  · have placed : Passes logged (DiskCall.body sampleSchedulers) (fun _ _ => True) sampleStart
        (sampleCall .replicas (sampleCall .disks sampleStart)) :=
      sampleCall_passes (sampleCall_passes .start .disks trivial) .replicas trivial
    exact sampleCall_passes (placed.drift (sampleWait_drift _)) (.heartbeat sampleBeat) trivial
  · intro apart
    have primary : (sampleSchedulers.disks.stored sampleEnd.shared "disk-1").map
        (·.status.nodeName) =
        some "node-b" := by
      decide +kernel
    have copy : (sampleSchedulers.replicas.stored sampleEnd.shared "replica-1").map
        (fun replica => (replica.spec.diskId, replica.status.nodeName)) =
          some ("disk-1", "node-b") := by
      decide +kernel
    obtain ⟨disk, stored, onNode⟩ := Option.map_eq_some_iff.mp primary
    obtain ⟨replica, found, facts⟩ := Option.map_eq_some_iff.mp copy
    obtain ⟨same, placed⟩ := Prod.mk.inj facts
    rw [← same] at stored
    exact apart "replica-1" replica disk found stored (by rw [placed]; decide)
      (onNode.trans placed.symm)

end Infrastructure.Controllers.Schedulers
