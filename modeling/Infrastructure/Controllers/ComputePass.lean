import Mathlib.Data.List.Perm.Subperm
import Infrastructure.Cluster.Formats
import Infrastructure.Controllers.Turns

/-! The scheduling pass over the computes: where it places them, what it leaves unplaced, and that a
second pass has nothing to do. -/

namespace Infrastructure

open Concurrency State Domain List Option Program Registry

namespace Controllers.Schedulers

variable (c : Schedulers)

def asRead (cp : Compute) : Compute := { cp with spec := cp.spec.withDefaults }

def computeDemand (cp : Compute) : Demand := ⟨cp.spec.cpu, cp.spec.memoryMb⟩

/-- The selector of a node pool; there is none for a pool that does not exist. -/
def selectorOf (shared : Shared) (poolId : String) : Option (List (String × String)) :=
  if poolId = "" then some []
  else (c.pools.stored shared poolId).map fun pool => pool.spec.nodeSelector

/-- The name of a ready node of the compute's pool that can meet its demand next to those given. -/
def Suits (shared : Shared) (cp : Compute) (demands : List Demand) (name : String) : Prop :=
  ∃ node selector, c.nodes.stored shared name = some node ∧
    nodeReady c.parseTime c.readyWindow node shared.clock = true ∧
    c.selectorOf shared cp.spec.nodePoolId = some selector ∧
    matchLabels node.spec.labels selector = true ∧
    WithinLimits node.spec.capacity (computeDemand cp :: demands)

abbrev ComputeTurn := Turn ComputeSpec ComputeStatus

/-- The demands on a node: of the live computes there when the pass began, and of the placements so
far. -/
def committed (items : List Compute) (pre : List ComputeTurn) (name : String) : List Demand :=
  (items.filter (occupies computePlacement name)).map computeDemand ++
    (pre.filter (Turn.onto name)).map fun turn => computeDemand turn.item

abbrev computePlace (shared : Shared) (uid : String) : String :=
  placeOf c.computes computePlacement shared uid

/-- A pass over the computes, in which any write may fail. -/
structure ComputePass (s s' : Shared) (items : List Compute) (turns : List ComputeTurn) : Prop where
  read : ∀ item, item ∈ items ↔ ∃ uid cp, c.computes.stored s uid = some cp ∧ item = asRead cp
  once : (items.map fun item => item.metadata.uid).Nodup
  order : turns.map (·.item.metadata.uid) = items.map fun item => item.metadata.uid
  /-- A copy differs from what was read only where the pass has cleared its node. -/
  copies : ∀ turn ∈ turns, ∃ item ∈ items, turn.item.metadata = item.metadata ∧
    turn.item.spec = item.spec ∧
    (turn.item = item ∨
      (computePlacement.on turn.item = "" ∧ ¬c.ReadyNode s (computePlacement.on item)))
  chosen : ∀ turn ∈ turns, turn.chosen ≠ "" → waiting computePlacement turn.item = true
  placed : ∀ pre turn later, turns = pre ++ turn :: later →
    ∀ name, c.computePlace s' turn.item.metadata.uid = name → name ≠ "" →
      c.computePlace s turn.item.metadata.uid ≠ name →
      c.Suits s turn.item (committed items pre name) name
  unplaced : ∀ pre turn later, turns = pre ++ turn :: later →
    waiting computePlacement turn.item = true →
    turn.chosen = "" → ∀ name, ¬c.Suits s turn.item (committed items pre name) name

/-- What holds besides when no write has failed. -/
structure ComputesSettled (s s' : Shared) (turns : List ComputeTurn) : Prop where
  evicted : ∀ uid cp, c.computes.stored s uid = some cp → computePlacement.on cp ≠ "" →
    (c.computePlace s' uid ≠ computePlacement.on cp ↔
      cp.metadata.isDeleting = false ∧ ¬c.ReadyNode s (computePlacement.on cp))
  pending : ∀ turn ∈ turns, (turn.item.metadata.isDeleting = false ∧
    c.computePlace s' turn.item.metadata.uid = "") ↔
      (waiting computePlacement turn.item = true ∧ turn.chosen = "")
  taken : ∀ turn ∈ turns, turn.chosen ≠ "" → c.computePlace s' turn.item.metadata.uid = turn.chosen

section

variable {c} {shared : Shared} {nodes : List Node} {pools : List NodePool}

def pick (c : Schedulers) (now : Int) (nodes : List Node) (pools : List NodePool)
    (alloc : Allocation) (cp : Compute) : String :=
  match poolSelector pools cp.spec.nodePoolId with
  | none => ""
  | some selector => pickNode nodes alloc (c.ready now nodes) selector (computeDemand cp)

theorem poolSelector_eq (indexed : c.pools.Indexed shared) (listing : c.pools.Listing shared pools)
    (poolId : String) : poolSelector pools poolId = c.selectorOf shared poolId := by
  rw [poolSelector, selectorOf]
  split
  · rfl
  · cases got : pools.find? fun pool => pool.metadata.uid == poolId with
    | none =>
      cases has : c.pools.stored shared poolId with
      | none => rfl
      | some pool =>
        have own := indexed.filed poolId pool has
        have member : pool ∈ pools := (indexed.mem_listing listing pool).mpr (own.symm ▸ has)
        have missed := List.find?_eq_none.mp got pool member
        simp [own] at missed
    | some pool =>
      have member := mem_of_find?_eq_some got
      have named : pool.metadata.uid = poolId := by simpa using List.find?_some got
      have has := (indexed.mem_listing listing pool).mp member
      rw [named] at has
      rw [has]

theorem ready_iff (indexed : c.nodes.Indexed shared) (listing : c.nodes.Listing shared nodes)
    (name : String) : c.ready shared.clock nodes name = true ↔ c.ReadyNode shared name := by
  constructor
  · exact readyNode_of_ready listing indexed.filed
  · intro alive
    obtain ⟨node, got, -⟩ := id alive
    exact ready_of_readyNode listing indexed.filed alive (indexed.listable name node got)

variable {alloc : Allocation} {cp : Compute}

theorem Suits.readyNode {demands : List Demand} {name : String}
    (suits : c.Suits shared cp demands name) : c.ReadyNode shared name := by
  obtain ⟨node, -, got, seen, -⟩ := suits
  exact ⟨node, got, seen⟩

section

variable (demands : String → List Demand) (nodesIndexed : c.nodes.Indexed shared)
  (poolsIndexed : c.pools.Indexed shared) (nodesListed : c.nodes.Listing shared nodes)
  (poolsListed : c.pools.Listing shared pools)
  (counted : ∀ node ∈ nodes, c.ReadyNode shared node.metadata.uid →
    alloc node.metadata.uid = some (NodeAlloc.addAll {} (demands node.metadata.uid)))

include demands nodesIndexed poolsIndexed nodesListed poolsListed counted

theorem pick_suits (picked : c.pick shared.clock nodes pools alloc cp ≠ "") :
    c.Suits shared cp (demands (c.pick shared.clock nodes pools alloc cp))
      (c.pick shared.clock nodes pools alloc cp) := by
  rw [pick] at picked ⊢
  cases chosen : poolSelector pools cp.spec.nodePoolId with
  | none => simp [chosen] at picked
  | some selector =>
    simp only [chosen] at picked ⊢
    rcases pickBest_spec _ _ nodes "" (-1) with nothing | ⟨node, member, fits, named⟩
    · exact absurd nothing picked
    · rw [pickNode, ← named]
      simp only [Bool.and_eq_true] at fits
      obtain ⟨⟨alive, labels⟩, room⟩ := fits
      have readyNode := (ready_iff nodesIndexed nodesListed _).mp alive
      obtain ⟨got, has, seen⟩ := id readyNode
      have eq := (nodesIndexed.mem_listing nodesListed node).mp member
      rw [eq] at has
      cases has
      rw [counted node member readyNode, getD_some, hasRoom_iff] at room
      exact ⟨node, selector, eq, seen, poolSelector_eq poolsIndexed poolsListed _ ▸
        chosen, labels, room⟩

theorem pick_none (nothing : c.pick shared.clock nodes pools alloc cp = "") (name : String) :
    ¬c.Suits shared cp (demands name) name := by
  rintro ⟨node, selector, got, seen, chosen, labels, room⟩
  have own := nodesIndexed.filed name node got
  have member : node ∈ nodes := (nodesIndexed.mem_listing nodesListed node).mpr (own.symm ▸ got)
  have readyNode : c.ReadyNode shared node.metadata.uid := ⟨node, own.symm ▸ got, seen⟩
  rw [pick, poolSelector_eq poolsIndexed poolsListed, chosen] at nothing
  have named (other : Node) (mem : other ∈ nodes) : other.metadata.uid ≠ "" :=
    nodesIndexed.named _ other ((nodesIndexed.mem_listing nodesListed other).mp mem)
  have unfit := (pickBest_none named nothing).2 node member
  have full : hasRoom node.spec.capacity ((alloc node.metadata.uid).getD {}) (computeDemand cp) =
      false := by
    simpa [(ready_iff nodesIndexed nodesListed _).mpr readyNode, labels] using unfit
  rw [counted node member readyNode, getD_some, ← Bool.not_eq_true, hasRoom_iff, own] at full
  exact full room

end

end

section

variable {c} {s s' : Shared} {nodes : List Node} {pools : List NodePool} {items : List Compute}
variable {pairs : List (Compute × Compute)} {turns : List ComputeTurn}
    {middle later : String → String}

/-- The registries of a pass hold records under names that every store lists. -/
structure Inventory (c : Schedulers) (shared : Shared) : Prop where
  nodesIndexed : c.nodes.Indexed shared
  poolsIndexed : c.pools.Indexed shared
  computesIndexed : c.computes.Indexed shared

/-- What a pass has listed when it begins. -/
structure Surveyed (c : Schedulers) (s : Shared) (nodes : List Node) (pools : List NodePool)
    (items : List Compute) : Prop extends c.Inventory s where
  nodesListed : c.nodes.Listing s nodes
  poolsListed : c.pools.Listing s pools
  read : ∀ item, item ∈ items ↔ ∃ uid cp, c.computes.stored s uid = some cp ∧ item = asRead cp
  once : (items.map fun item => item.metadata.uid).Nodup

abbrev ScheduledComputes (c : Schedulers) (s : Shared) (nodes : List Node) (pools : List NodePool)
    (items : List Compute) (s' : Shared) (pairs : List (Compute × Compute))
    (turns : List ComputeTurn) (middle later : String → String) : Prop :=
  Scheduled c.computes computePlacement (c.ready s.clock nodes) s (emptyAllocation nodes)
    (c.pick s.clock nodes pools) computeDemand items s' pairs turns middle later

theorem alloc_committed (surveyed : c.Surveyed s nodes pools items)
    (scheduled : c.ScheduledComputes s nodes pools items s' pairs turns middle later)
    (pre : List ComputeTurn) {node : Node} (member : node ∈ nodes)
    (readyNode : c.ReadyNode s node.metadata.uid) :
    pre.foldl (Turn.advance computeDemand)
      ((pairs.map Prod.snd).foldl (account computePlacement computeDemand)
      (emptyAllocation nodes)) node.metadata.uid =
        some (NodeAlloc.addAll {} (committed items pre node.metadata.uid)) := by
  obtain ⟨between, clears⟩ := scheduled.clears
  have named : node.metadata.uid ≠ "" :=
    surveyed.nodesIndexed.named _ node
      ((surveyed.nodesIndexed.mem_listing surveyed.nodesListed node).mp member)
  have alive := (ready_iff surveyed.nodesIndexed surveyed.nodesListed _).mpr readyNode
  have counted : (pairs.map Prod.snd).foldl (account computePlacement computeDemand)
      (emptyAllocation nodes)
      node.metadata.uid = _ := account_fold (pairs.map Prod.snd) (emptyAllocation_listed member)
  rw [filter_occupies alive named clears.each, clears.listed] at counted
  rw [advance_fold named pre counted, committed, NodeAlloc.addAll, NodeAlloc.addAll,
    NodeAlloc.addAll, foldl_append]

variable {turn : ComputeTurn}

section

variable (scheduled : c.ScheduledComputes s nodes pools items s' pairs turns middle later)
    (member : turn ∈ turns)

include scheduled member

theorem turn_pair : ∃ item ∈ items, Cleared computePlacement (c.ready s.clock nodes) item
        (c.computePlace s item.metadata.uid) turn.item (middle item.metadata.uid) := by
  obtain ⟨between, clears⟩ := scheduled.clears
  have copied : turn.item ∈ pairs.map Prod.snd :=
    scheduled.settled.listed ▸ List.mem_map_of_mem member
  obtain ⟨pair, mem, eq⟩ := List.mem_map.mp copied
  exact ⟨pair.1, clears.listed ▸ List.mem_map_of_mem mem, eq ▸ clears.each pair mem⟩

theorem turn_choice (chosen : turn.chosen ≠ "") :
    waiting computePlacement turn.item = true ∧ c.ready s.clock nodes turn.chosen = true := by
  obtain ⟨pre, rest, rfl⟩ := append_of_mem member
  have choice := scheduled.follows.choice
  split at choice
  · next waits =>
    refine ⟨waits, ?_⟩
    rw [choice, pick] at chosen
    rw [choice, pick]
    cases got : poolSelector pools turn.item.spec.nodePoolId with
    | none => simp [got] at chosen
    | some selector =>
      simp only [got] at chosen
      exact pickNode_ready chosen
  · exact absurd choice chosen

end

section

variable (surveyed : c.Surveyed s nodes pools items)
  (scheduled : c.ScheduledComputes s nodes pools items s' pairs turns middle later)

include surveyed scheduled

theorem computePass_of_scheduled : c.ComputePass s s' items turns := by
  obtain ⟨between, clears⟩ := id scheduled.clears
  have kept (turn : ComputeTurn) (member : turn ∈ turns) :
      c.computePlace s' turn.item.metadata.uid = later turn.item.metadata.uid := by
    obtain ⟨item, mem, cleared⟩ := turn_pair scheduled member
    obtain ⟨uid, cp, got, rfl⟩ := (surveyed.read item).mp mem
    have named : turn.item.metadata.uid = uid := by
      rw [cleared.metadata]
      exact surveyed.computesIndexed.filed uid cp got
    rw [named]
    exact scheduled.settled.tracked.placeOf_eq got
  refine ⟨surveyed.read, surveyed.once, ?_, ?_,
    fun turn member => And.left ∘ turn_choice scheduled member, ?_, ?_⟩
  · rw [← clears.uids, ← scheduled.settled.listed, List.map_map]
    rfl
  · intro turn member
    obtain ⟨item, mem, cleared⟩ := turn_pair scheduled member
    refine ⟨item, mem, cleared.metadata, cleared.spec, ?_⟩
    rcases cleared.copies with eq | ⟨out, eq⟩
    · exact .inl eq
    · right
      rw [eq]
      refine ⟨rfl, ?_⟩
      simp only [stranded, Bool.and_eq_true, Bool.not_eq_true'] at out
      rw [← ready_iff surveyed.nodesIndexed surveyed.nodesListed, out.2]
      simp
  · rintro pre turn rest rfl name there named moved
    have member : turn ∈ pre ++ turn :: rest := by simp
    obtain ⟨item, mem, cleared⟩ := turn_pair scheduled member
    rw [kept turn member] at there
    have uid : turn.item.metadata.uid = item.metadata.uid := by rw [cleared.metadata]
    rcases scheduled.settled.each turn member with ⟨chosen, put⟩ | ⟨eq, -⟩
    · have choice := scheduled.follows.choice
      split at choice
      · have suits := pick_suits (committed items pre) surveyed.nodesIndexed surveyed.poolsIndexed
          surveyed.nodesListed surveyed.poolsListed
            (fun node seen alive => alloc_committed surveyed scheduled pre seen alive)
            (choice ▸ chosen)
        rw [← choice, ← put, there] at suits
        exact suits
      · exact absurd choice chosen
    · rw [eq, uid] at there
      rcases cleared.place with old | empty
      · rw [there] at old
        exact absurd (uid ▸ old.symm) moved
      · exact absurd (there.symm.trans empty) named
  · rintro pre turn rest rfl waits nothing name
    have choice := scheduled.follows.choice
    rw [if_pos waits, nothing] at choice
    exact pick_none (committed items pre) surveyed.nodesIndexed surveyed.poolsIndexed
      surveyed.nodesListed
      surveyed.poolsListed
        (fun node seen alive => alloc_committed surveyed scheduled pre seen alive) choice.symm name

section

variable (cleared : pairs.map Prod.snd =
      items.map (clearedCopy computePlacement (c.ready s.clock nodes)))
  (acknowledged : ∀ turn ∈ turns, turn.chosen ≠ "" → turn.acknowledged = true)

include cleared acknowledged

/-- When every write was acknowledged, the store places each compute where its turn left it. -/
theorem turn_settled (member : turn ∈ turns) : ∃ item ∈ items,
      turn.item = clearedCopy computePlacement (c.ready s.clock nodes) item ∧
        c.computePlace s' turn.item.metadata.uid =
        if turn.chosen = "" then computePlacement.on turn.item else turn.chosen := by
  obtain ⟨between, clears⟩ := id scheduled.clears
  have copied : turn.item ∈ pairs.map Prod.snd :=
    scheduled.settled.listed ▸ List.mem_map_of_mem member
  obtain ⟨pair, mem, eq⟩ := List.mem_map.mp copied
  rw [← clears.listed, List.map_map] at cleared
  have copy : pair.2 = clearedCopy computePlacement (c.ready s.clock nodes) pair.1 :=
    List.map_inj_left.mp cleared pair mem
  have seen : pair.1 ∈ items := clears.listed ▸ List.mem_map_of_mem mem
  obtain ⟨uid, cp, got, orig⟩ := (surveyed.read pair.1).mp seen
  have own : pair.1.metadata.uid = uid := by
    rw [orig]
    exact surveyed.computesIndexed.filed uid cp got
  have placedBefore : c.computePlace s pair.1.metadata.uid = computePlacement.on pair.1 := by
    rw [own, computePlace, placeOf, got, orig]
    rfl
  have each := clears.each pair mem
  have uids : turn.item.metadata.uid = pair.1.metadata.uid := by rw [← eq, each.metadata]
  have left : middle turn.item.metadata.uid = computePlacement.on turn.item := by
    rw [uids, ← eq]
    exact each.place_of_copy copy placedBefore
  refine ⟨pair.1, seen, eq ▸ copy, ?_⟩
  have kept : c.computePlace s' turn.item.metadata.uid = later turn.item.metadata.uid := by
    rw [uids, own]
    exact scheduled.settled.tracked.placeOf_eq got
  rw [kept]
  rcases scheduled.settled.each turn member with ⟨chosen, put⟩ | ⟨stays, unacknowledged⟩
  · rw [put, if_neg chosen]
  · have idle : turn.chosen = "" := by
      by_contra chosen
      have contrary := acknowledged turn member chosen
      rw [unacknowledged chosen] at contrary
      cases contrary
    rw [stays, if_pos idle, left]

theorem settled_of_scheduled : c.ComputesSettled s s' turns := by
  have pass := computePass_of_scheduled surveyed scheduled
  constructor
  · intro uid cp got assigned
    have own := surveyed.computesIndexed.filed uid cp got
    have seen : asRead cp ∈ items := (surveyed.read _).mpr ⟨uid, cp, got, rfl⟩
    have among : uid ∈ turns.map fun turn => turn.item.metadata.uid := by
      rw [pass.order]
      exact List.mem_map.mpr ⟨asRead cp, seen, own⟩
    obtain ⟨turn, member, named⟩ := List.mem_map.mp among
    obtain ⟨item, mem, copied, place⟩ := turn_settled surveyed scheduled cleared acknowledged member
    have eq : item = asRead cp := by
      obtain ⟨other, src, has, rfl⟩ := (surveyed.read item).mp mem
      have uids : other = uid := by
        rw [← surveyed.computesIndexed.filed other src has, ← named, copied, clearedCopy]
        split <;> rfl
      rw [uids, got] at has
      cases has
      rfl
    subst eq
    rw [← named, place]
    have alive := ready_iff surveyed.nodesIndexed surveyed.nodesListed (computePlacement.on cp)
    cases out : stranded computePlacement (c.ready s.clock nodes) (asRead cp) with
    | true =>
      simp only [stranded, Bool.and_eq_true, Bool.not_eq_true', bne_iff_ne] at out
      have gone : c.ready s.clock nodes (computePlacement.on cp) = false := out.2
      have right : cp.metadata.isDeleting = false ∧ ¬c.ReadyNode s (computePlacement.on cp) :=
        ⟨out.1.1, by rw [← alive, gone]; simp⟩
      refine iff_of_true ?_ right
      split
      · rw [copied, clearedCopy, if_pos (by simp [stranded, out])]
        exact assigned.symm
      · next chosen =>
        intro back
        have ready := (turn_choice scheduled member chosen).2
        rw [back, gone] at ready
        cases ready
    | false =>
      have kept : turn.item = asRead cp := by rw [copied, clearedCopy, out, if_neg (by simp)]
      have idle : turn.chosen = "" := by
        by_contra chosen
        have waits := (turn_choice scheduled member chosen).1
        rw [kept] at waits
        simp only [waiting, Bool.and_eq_true, beq_iff_eq] at waits
        exact assigned waits.2
      rw [if_pos idle, kept]
      refine iff_of_false (fun ne => ne rfl) ?_
      rintro ⟨live, dead⟩
      rw [← alive, Bool.not_eq_true] at dead
      have contrary : stranded computePlacement (c.ready s.clock nodes) (asRead cp) = true := by
        simp only [stranded, Bool.and_eq_true, Bool.not_eq_true', bne_iff_ne]
        exact ⟨⟨live, assigned⟩, dead⟩
      rw [contrary] at out
      cases out
  · intro turn member
    obtain ⟨item, mem, copied, place⟩ := turn_settled surveyed scheduled cleared acknowledged member
    rw [place]
    by_cases idle : turn.chosen = ""
    · rw [if_pos idle]
      simp [waiting, idle]
    · rw [if_neg idle]
      simp [idle]
  · intro turn member chosen
    obtain ⟨item, mem, copied, place⟩ := turn_settled surveyed scheduled cleared acknowledged member
    rw [place, if_neg chosen]

end

end

end

section

variable {c} {s s' : Shared} {places : String → String}

/-- What a pass reads is as it was, but for where computes are and what nodes and pools report. -/
structure SameSite (c : Schedulers) (s : Shared) (places : String → String)
    (s' : Shared) : Prop where
  clock : s'.clock = s.clock
  nodes : ∀ uid,
    Option.Rel (fun old new : Node => new.metadata.uid = old.metadata.uid ∧ new.spec = old.spec ∧
    new.status.lastSeen = old.status.lastSeen) (c.nodes.stored s uid) (c.nodes.stored s' uid)
  pools : ∀ uid,
    Option.Rel (fun old new : NodePool => new.metadata.uid = old.metadata.uid ∧ new.spec = old.spec)
    (c.pools.stored s uid) (c.pools.stored s' uid)
  computes : Places c.computes computePlacement s places s'

theorem indexed_related {S ST : Type} {r : Registry S ST}
    {relation : String → Resource S ST → Resource S ST → Prop} (indexed : r.Indexed s)
    (uids : ∀ uid old new, relation uid old new → new.metadata.uid = old.metadata.uid)
    (rel : ∀ uid, Option.Rel (relation uid) (r.stored s uid) (r.stored s' uid)) :
    r.Indexed s' := by
  refine ⟨?_, ?_, ?_⟩
  · intro uid new got
    obtain ⟨old, known, eq⟩ := rel_right (rel uid) got
    rw [uids uid old new eq, indexed.filed uid old known]
  · intro uid new got
    obtain ⟨old, known, -⟩ := rel_right (rel uid) got
    exact indexed.listable uid old known
  · intro uid new got
    obtain ⟨old, known, -⟩ := rel_right (rel uid) got
    exact indexed.named uid old known

theorem SameSite.inventory (site : c.SameSite s places s') (inventory : c.Inventory s) :
    c.Inventory s' := by
  have kept := site.computes
  have rel : ∀ uid,
      Option.Rel (fun old new => SameRecord old new ∧ computePlacement.on new = places uid)
      (c.computes.stored s uid) (c.computes.stored s' uid) := kept
  exact ⟨indexed_related inventory.nodesIndexed (fun _ _ _ eq => eq.1) site.nodes,
    indexed_related inventory.poolsIndexed (fun _ _ _ eq => eq.1) site.pools,
    indexed_related inventory.computesIndexed (fun _ _ _ eq => eq.1.uid) rel⟩

theorem nodeReady_congr {first snd : Node} (eq : first.status.lastSeen = snd.status.lastSeen)
    (now : Int) :
    nodeReady c.parseTime c.readyWindow first now =
      nodeReady c.parseTime c.readyWindow snd now := by
  rw [nodeReady, nodeReady, eq]

section

variable (site : c.SameSite s places s')

include site

theorem SameSite.readyNode (name : String) : c.ReadyNode s' name ↔ c.ReadyNode s name := by
  constructor
  · rintro ⟨node, got, seen⟩
    obtain ⟨old, known, -, -, lastSeen⟩ := rel_right (site.nodes name) got
    rw [site.clock, nodeReady_congr lastSeen] at seen
    exact ⟨old, known, seen⟩
  · rintro ⟨node, got, seen⟩
    obtain ⟨cur, has, -, -, lastSeen⟩ := rel_left (site.nodes name) got
    refine ⟨cur, has, ?_⟩
    rw [site.clock, nodeReady_congr lastSeen]
    exact seen

theorem SameSite.selectorOf (poolId : String) : c.selectorOf s' poolId = c.selectorOf s poolId := by
  rw [Schedulers.selectorOf, Schedulers.selectorOf]
  split
  · rfl
  · have rel := site.pools poolId
    cases old : c.pools.stored s poolId with
    | none =>
      rw [old] at rel
      generalize c.pools.stored s' poolId = new at rel
      cases rel
      rfl
    | some pool =>
      rw [old] at rel
      obtain ⟨new, got, -, spec⟩ := rel_left rel rfl
      rw [got, map_some, map_some, spec]

theorem SameSite.suits {first snd : Compute} {less more : List Demand}
    {name : String} (suits : c.Suits s' snd more name) (spec : snd.spec = first.spec)
    (incl : less.Subperm more)
    (pos : ∀ demand ∈ computeDemand first :: more, 0 ≤ demand.cpu ∧ 0 ≤ demand.mem) :
    c.Suits s first less name := by
  obtain ⟨node, selector, got, seen, chosen, labels, room⟩ := suits
  obtain ⟨old, known, -, eq, lastSeen⟩ := rel_right (site.nodes name) got
  have demand : computeDemand snd = computeDemand first := by
    rw [computeDemand, computeDemand, spec]
  rw [site.clock, nodeReady_congr lastSeen] at seen
  rw [site.selectorOf, spec] at chosen
  rw [eq] at labels room
  refine ⟨old, selector, known, seen, chosen, labels, ?_⟩
  obtain ⟨middle, permuted, sublist⟩ := incl
  rw [demand] at room
  have fewer := room.sublist (sublist.cons_cons (computeDemand first)) pos
  exact (WithinLimits.perm (permuted.cons _)).mp fewer

end

variable {items : List Compute} {turns : List ComputeTurn} {cp : Compute}

theorem ComputePass.turn_of (pass : c.ComputePass s s' items turns)
    (filed : c.computes.Filed s) {uid : String} (got : c.computes.stored s uid = some cp) :
    ∃ turn ∈ turns, turn.item.metadata.uid = uid := by
  have seen : asRead cp ∈ items := (pass.read _).mpr ⟨uid, cp, got, rfl⟩
  have among : uid ∈ turns.map fun turn => turn.item.metadata.uid := by
    rw [pass.order]
    exact List.mem_map.mpr ⟨asRead cp, seen, filed uid cp got⟩
  exact List.mem_map.mp among

def demandOf (c : Schedulers) (shared : Shared) (uid : String) : Demand :=
  ((c.computes.stored shared uid).map fun cp => computeDemand (asRead cp)).getD {}

theorem demandOf_stored {uid : String} (got : c.computes.stored s uid = some cp) :
    computeDemand (asRead cp) = c.demandOf s uid := by
  rw [demandOf, got]
  rfl

section

variable (pass : c.ComputePass s s' items turns) (filed : c.computes.Filed s)

include pass filed

theorem ComputePass.demand_item {item : Compute} (member : item ∈ items) :
    computeDemand item = c.demandOf s item.metadata.uid := by
  obtain ⟨uid, cp, got, rfl⟩ := (pass.read item).mp member
  have own : (asRead cp).metadata.uid = uid := filed uid cp got
  rw [own]
  exact demandOf_stored got

theorem ComputePass.demand_turn {turn : ComputeTurn} (member : turn ∈ turns) :
    computeDemand turn.item = c.demandOf s turn.item.metadata.uid := by
  obtain ⟨item, seen, metadata, spec, -⟩ := pass.copies turn member
  rw [metadata, ← pass.demand_item filed seen, computeDemand, computeDemand, spec]

end

theorem computeDemand_nonneg (valid : cp.spec.validateRuntimeLimits = .ok ()) :
    0 ≤ (computeDemand (asRead cp)).cpu ∧ 0 ≤ (computeDemand (asRead cp)).mem := by
  rw [ComputeSpec.validateRuntimeLimits] at valid
  split at valid
  · cases valid
  · next cpu =>
    split at valid
    · cases valid
    · next mem =>
      simp only [not_or, not_lt] at cpu mem
      simp only [computeDemand, asRead, ComputeSpec.withDefaults]
      constructor
      · split
        · exact zero_le_one
        · exact cpu.1
      · split
        · omega
        · exact mem.1

theorem schedule_pick (c : Schedulers) (now : Int) (nodes : List Node) (pools : List NodePool)
    {choose : Allocation → Compute → Prog String} {ready : String → Bool}
    (eq : ∀ alloc item, choose alloc item = return c.pick now nodes pools alloc item) :
    schedule c.computes computePlacement ready nodes choose computeDemand items =
      schedule c.computes computePlacement ready nodes
        (fun alloc item => return c.pick now nodes pools alloc item) computeDemand items := by
  rw [funext fun alloc => funext (eq alloc)]

/-- What a pass reads before it places anything. -/
structure Sights where
  nodes : List Node
  computes : List Compute
  pools : List NodePool
  now : Int

def survey (c : Schedulers) : Prog (Except Error Sights) := do
  match ← c.nodes.list with
  | .error err => return .error (.wrap "controllers: list nodes" err)
  | .ok nodes =>
    match ← c.computes.list with
    | .error err => return .error (.wrap "controllers: list computes" err)
    | .ok computes =>
      match ← c.pools.list with
      | .error err => return .error (.wrap "controllers: list node pools" err)
      | .ok pools =>
        let now ← perform Op.now
        return .ok ⟨nodes, computes, pools, now⟩

def place (c : Schedulers) (sights : Sights) : Prog (Except Error Unit) := do
  let ready := c.ready sights.now sights.nodes
  let (alloc, errors) ← schedule c.computes computePlacement ready sights.nodes
    (fun alloc item => return c.pick sights.now sights.nodes sights.pools alloc item) computeDemand
    (sights.computes.map asRead)
  let nodeErrors ← c.writeNodeStatus alloc ready sights.nodes
  let poolErrors ← c.writePoolStatus sights.nodes ready sights.pools
  return Error.joinAll (errors ++ joined nodeErrors ++ joined poolErrors)

theorem reconcileComputes_eq (c : Schedulers) : c.reconcileComputes = (do
    match ← c.survey with
    | .error err => return .error err
    | .ok sights => c.place sights) := by
  rw [reconcileComputes, reconcileIn, survey, Program.bind_assoc]
  congr 1
  funext reply
  cases reply with
  | error err => rfl
  | ok nodes =>
    dsimp only
    rw [Program.bind_assoc]
    congr 1
    funext reply
    cases reply with
    | error err => rfl
    | ok computes =>
      dsimp only
      rw [Program.bind_assoc]
      congr 1
      funext reply
      cases reply with
      | error err => rfl
      | ok pools =>
        dsimp only
        rw [Program.bind_assoc]
        congr 1
        funext now
        show (schedule _ _ _ _ _ computeDemand (computes.map asRead) >>= _) = c.place _
        rw [place, schedule_pick c now nodes pools]
        intro alloc item
        rw [pick]
        cases poolSelector pools item.spec.nodePoolId <;> rfl

/-- What a pass has read is what was stored, each record once. -/
structure Seen (c : Schedulers) (s : Shared) (sights : Sights) : Prop where
  now : sights.now = s.clock
  nodes : c.nodes.Listing s sights.nodes
  computes : c.computes.Listing s sights.computes
  pools : c.pools.Listing s sights.pools
  nodesOnce : (sights.nodes.map fun node => node.metadata.uid).Nodup
  computesOnce : (sights.computes.map fun cp => cp.metadata.uid).Nodup
  poolsOnce : (sights.pools.map fun pool => pool.metadata.uid).Nodup

theorem Seen.surveyed {sights : Sights} (seen : c.Seen s sights) (inventory : c.Inventory s) :
    c.Surveyed s sights.nodes sights.pools (sights.computes.map asRead) := by
  have indexed := inventory.computesIndexed
  refine ⟨inventory, seen.nodes, seen.pools, ?_, ?_⟩
  · intro item
    constructor
    · intro member
      obtain ⟨cp, mem, rfl⟩ := List.mem_map.mp member
      exact ⟨_, cp, (indexed.mem_listing seen.computes cp).mp mem, rfl⟩
    · rintro ⟨uid, cp, got, rfl⟩
      have own := indexed.filed uid cp got
      exact List.mem_map_of_mem ((indexed.mem_listing seen.computes cp).mpr (own.symm ▸ got))
  · rw [List.map_map]
    exact seen.computesOnce

theorem survey_looks : c.survey.Uses Op.Looking fun _ => True := by
  refine c.nodes.list_looks.tries (fun _ => trivial) ?_
  intro nodes
  refine c.computes.list_looks.tries (fun _ => trivial) ?_
  intro computes
  exact c.pools.list_looks.tries (fun _ => trivial) fun _ => .perform rfl fun _ => trivial

theorem survey_seen {now : Logged} (inventory : c.Inventory now.shared) :
    c.survey.Ends orderly (fun reply s' => s' = now ∧ ∀ sights, reply = .ok sights →
      c.Seen now.shared sights) now := by
  have once (dir : String) (got : List String) (admitted : Op.orderly (.keys dir) (.ok got)) :
      got.Nodup := admitted
  apply (list_once once trivial inventory.nodesIndexed.filed).bind
  rintro reply _ ⟨rfl, nodesFound⟩
  cases reply with
  | error err => exact ⟨rfl, nofun⟩
  | ok nodes =>
    apply (list_once once trivial inventory.computesIndexed.filed).bind
    rintro reply _ ⟨rfl, computesFound⟩
    cases reply with
    | error err => exact ⟨rfl, nofun⟩
    | ok computes =>
      apply (list_once once trivial inventory.poolsIndexed.filed).bind
      rintro reply _ ⟨rfl, poolsFound⟩
      cases reply with
      | error err => exact ⟨rfl, nofun⟩
      | ok pools =>
        dsimp only
        rw [perform_bind]
        apply answering_look rfl trivial
        intro time ran _
        refine ⟨rfl, ?_⟩
        rintro sights ⟨⟩
        exact ⟨ran.2, (nodesFound nodes rfl).1, (computesFound computes rfl).1,
          (poolsFound pools rfl).1, (nodesFound nodes rfl).2, (computesFound computes rfl).2,
          (poolsFound pools rfl).2⟩

theorem survey_served {now : Logged} (nodes : c.nodes.Readable now.shared)
    (computes : c.computes.Readable now.shared) (pools : c.pools.Readable now.shared) :
    c.survey.Ends steady (fun reply _ => ∃ sights, reply = .ok sights) now := by
  apply (list_served trivial nodes).bind
  rintro reply _ ⟨rfl, seen, rfl⟩
  apply (list_served trivial computes).bind
  rintro reply _ ⟨rfl, got, rfl⟩
  apply (list_served trivial pools).bind
  rintro reply _ ⟨rfl, groups, rfl⟩
  dsimp only
  rw [perform_bind]
  exact answering_look rfl trivial fun time _ _ => ⟨_, rfl⟩

/-- Demands that go by the uid count among others when the uids do. -/
theorem demands_subperm {demand : String → Demand} {parts whole : List Compute}
    (first : ∀ item ∈ parts, computeDemand item = demand item.metadata.uid)
    (snd : ∀ item ∈ whole, computeDemand item = demand item.metadata.uid)
    (once : (parts.map (·.metadata.uid)).Nodup)
    (mem : ∀ item ∈ parts, ∃ other ∈ whole, other.metadata.uid = item.metadata.uid) :
    (parts.map computeDemand).Subperm (whole.map computeDemand) := by
  have subset : parts.map (·.metadata.uid) ⊆ whole.map fun item => item.metadata.uid := by
    simpa [subset_def] using mem
  obtain ⟨middle, permuted, sublist⟩ := subperm_of_subset once subset
  rw [map_congr_left first, map_congr_left snd]
  refine ⟨middle.map demand, ?_, ?_⟩
  · simpa [Function.comp_def] using permuted.map demand
  · simpa [Function.comp_def] using sublist.map demand

section

variable (inventory : c.Inventory s) (site : c.SameSite s places s')
  (pass : c.ComputePass s s' items turns) (settled : c.ComputesSettled s s' turns)

include inventory site pass settled

/-- After a pass without failures no live compute is on a node that is not ready. -/
theorem assigned_ready {uid : String} (got : c.computes.stored s' uid = some cp)
    (live : cp.metadata.isDeleting = false) (assigned : computePlacement.on cp ≠ "") :
    c.ReadyNode s (computePlacement.on cp) := by
  have kept := site.computes
  obtain ⟨orig, known, eq, put⟩ := kept.of_stored got
  have place : c.computePlace s' uid = computePlacement.on cp :=
    (kept.placeOf_eq known).trans put.symm
  have old : c.computePlace s uid = computePlacement.on orig := by
    rw [computePlace, placeOf, known]
    rfl
  by_cases moved : computePlacement.on orig = computePlacement.on cp
  · have stays := mt (settled.evicted uid orig known (moved ▸ assigned)).mpr
      (by rw [place, moved]; exact fun ne => ne rfl)
    rw [eq.deleting] at live
    rw [← moved]
    by_contra dead
    exact stays ⟨live, dead⟩
  · obtain ⟨turn, member, named⟩ := pass.turn_of inventory.computesIndexed.filed known
    obtain ⟨pre, rest, split⟩ := append_of_mem member
    obtain ⟨node, -, has, seen, -⟩ := pass.placed pre turn rest split _ (named ▸ place) assigned
      (by rw [named, old]; exact moved)
    exact ⟨node, has, seen⟩

/-- What counted on a node at a turn counts there after the pass. -/
theorem committed_subperm {got : List Compute}
    (seen : ∀ cp, cp ∈ got ↔ c.computes.stored s' cp.metadata.uid = some cp)
    {pre rest : List ComputeTurn} {turn : ComputeTurn} (split : turns = pre ++ turn :: rest)
    {name : String} (named : name ≠ "")
    (alive : c.ReadyNode s name) : (committed items pre name).Subperm
      (((got.map asRead).filter (occupies computePlacement name)).map computeDemand) := by
  have filed := inventory.computesIndexed.filed
  have kept := site.computes
  -- a live compute that the store places on the node is among those counted afterwards
  have occupant {uid : String} {orig : Compute} (known : c.computes.stored s uid = some orig)
      (live : orig.metadata.isDeleting = false) (place : c.computePlace s' uid = name) :
      ∃ other ∈ (got.map asRead).filter (occupies computePlacement name),
        other.metadata.uid = uid := by
    obtain ⟨cur, has, eq, put⟩ := kept.of_origin known
    have own : cur.metadata.uid = uid := eq.uid.trans (filed uid orig known)
    have there : computePlacement.on cur = name :=
      put.trans ((kept.placeOf_eq known).symm.trans place)
    refine ⟨asRead cur, mem_filter.mpr ⟨?_, ?_⟩, own⟩
    · exact List.mem_map_of_mem ((seen cur).mpr (own.symm ▸ has))
    · simp only [occupies, Bool.and_eq_true, Bool.not_eq_true', beq_iff_eq]
      exact ⟨eq.deleting.trans live, there⟩
  -- the turns so far that took the node belong to computes that were not on it
  have chosen {other : ComputeTurn} (member : other ∈ pre.filter (Turn.onto name)) :
      other ∈ turns ∧ other.chosen = name ∧ waiting computePlacement other.item = true := by
    obtain ⟨mem, onto⟩ := mem_filter.mp member
    have among : other ∈ turns := split ▸ mem_append_left _ mem
    simp only [Turn.onto, Bool.and_eq_true, beq_iff_eq] at onto
    exact ⟨among, onto.1, pass.chosen other among (onto.1 ▸ named)⟩
  have parts : committed items pre name = (items.filter (occupies computePlacement name) ++
      (pre.filter (Turn.onto name)).map Turn.item).map computeDemand := by
    simp [committed]
  rw [parts]
  apply demands_subperm
  · intro item member
    rcases mem_append.mp member with left | right
    · exact pass.demand_item filed (mem_of_mem_filter left)
    · obtain ⟨other, among, rfl⟩ := List.mem_map.mp right
      exact pass.demand_turn filed (chosen among).1
  · intro item member
    obtain ⟨cp, mem, rfl⟩ := List.mem_map.mp (mem_of_mem_filter member)
    obtain ⟨orig, known, eq, -⟩ := kept.of_stored ((seen cp).mp mem)
    have demand : computeDemand (asRead cp) = computeDemand (asRead orig) := by
      simp only [computeDemand, asRead, eq.spec]
    exact demand.trans (demandOf_stored known)
  · have nodup : (turns.map fun other => other.item.metadata.uid).Nodup := pass.order ▸ pass.once
    have shorter : pre.Sublist turns := split ▸ List.sublist_append_left _ _
    rw [List.map_append, List.map_map]
    refine List.Nodup.append (pass.once.sublist (List.filter_sublist.map _))
      (nodup.sublist ((List.filter_sublist.trans shorter).map _)) ?_
    intro uid left right
    obtain ⟨item, mem, rfl⟩ := List.mem_map.mp left
    obtain ⟨other, among, eq⟩ := List.mem_map.mp right
    obtain ⟨member, -, waits⟩ := chosen among
    obtain ⟨listedItem, occupied⟩ := mem_filter.mp mem
    simp only [occupies, Bool.and_eq_true, beq_iff_eq] at occupied
    obtain ⟨src, sourceListed, metadata, -, copy⟩ := pass.copies other member
    have uids : src.metadata.uid = item.metadata.uid := metadata ▸ eq
    have equal : src = item := inj_on_of_nodup_map pass.once sourceListed listedItem uids
    simp only [waiting, Bool.and_eq_true, beq_iff_eq] at waits
    rcases copy with same | ⟨-, dead⟩
    · rw [same, equal, occupied.2] at waits
      exact named waits.2
    · rw [equal, occupied.2] at dead
      exact dead alive
  · intro item member
    rcases mem_append.mp member with left | right
    · obtain ⟨listedItem, occupied⟩ := mem_filter.mp left
      simp only [occupies, Bool.and_eq_true, Bool.not_eq_true', beq_iff_eq] at occupied
      obtain ⟨uid, cp, known, rfl⟩ := (pass.read item).mp listedItem
      have own : (asRead cp).metadata.uid = uid := filed uid cp known
      have there : computePlacement.on cp = name := occupied.2
      have stays :=
        mt (settled.evicted uid cp known (there ▸ named)).mp (fun gone => gone.2 (there ▸ alive))
      rw [own]
      exact occupant known occupied.1 ((not_not.mp stays).trans there)
    · obtain ⟨other, among, rfl⟩ := List.mem_map.mp right
      obtain ⟨mem, onto, waits⟩ := chosen among
      obtain ⟨item, listedItem, metadata, -⟩ := pass.copies other mem
      obtain ⟨uid, cp, known, rfl⟩ := (pass.read item).mp listedItem
      have own : other.item.metadata.uid = uid := metadata ▸ filed uid cp known
      simp only [waiting, metadata, Bool.and_eq_true, Bool.not_eq_true', beq_iff_eq] at waits
      have taken := settled.taken other mem (onto ▸ named)
      rw [own] at taken ⊢
      exact occupant known waits.1 (taken.trans onto)

variable (valid : ∀ uid cp, c.computes.stored s uid = some cp →
      cp.spec.validateRuntimeLimits = .ok ())

include valid

/-- A compute that a pass could not place cannot be placed by the next one either. -/
theorem unfit_again {nodes : List Node} {pools : List NodePool} {got : List Compute}
    (nodesListed : c.nodes.Listing s' nodes) (poolsListed : c.pools.Listing s' pools)
    (seen : ∀ cp, cp ∈ got ↔ c.computes.stored s' cp.metadata.uid = some cp)
    (member : cp ∈ got) (waits : waiting computePlacement (asRead cp) = true) :
    c.pick s'.clock nodes pools ((got.map asRead).foldl (account computePlacement computeDemand)
      (emptyAllocation nodes)) (asRead cp) = "" := by
  have inventoryAfter := site.inventory inventory
  have kept := site.computes
  have has := (seen cp).mp member
  obtain ⟨orig, known, eq, -⟩ := kept.of_stored has
  obtain ⟨turn, taken, named⟩ := pass.turn_of inventory.computesIndexed.filed known
  obtain ⟨pre, rest, split⟩ := append_of_mem taken
  obtain ⟨item, listedItem, metadata, spec, -⟩ := pass.copies turn taken
  obtain ⟨uid, src, stored, rfl⟩ := (pass.read item).mp listedItem
  have own : uid = cp.metadata.uid := by
    rw [← inventory.computesIndexed.filed uid src stored, ← named, metadata]
    rfl
  rw [own, known] at stored
  cases stored
  simp only [waiting, Bool.and_eq_true, Bool.not_eq_true', beq_iff_eq] at waits
  have place : c.computePlace s' turn.item.metadata.uid = "" := by
    rw [named, computePlace, placeOf, has]
    exact waits.2
  have live : turn.item.metadata.isDeleting = false := by
    rw [metadata]
    exact eq.deleting.symm.trans waits.1
  obtain ⟨waited, nothing⟩ := (settled.pending turn taken).mp ⟨live, place⟩
  by_contra picked
  have counted (node : Node) (mem : node ∈ nodes) (alive : c.ReadyNode s' node.metadata.uid) :
      (got.map asRead).foldl (account computePlacement computeDemand) (emptyAllocation nodes)
        node.metadata.uid =
        some (NodeAlloc.addAll {} (((got.map asRead).filter
          (occupies computePlacement node.metadata.uid)).map computeDemand)) :=
    account_fold (got.map asRead) (emptyAllocation_listed mem)
  have suits :=
    pick_suits (fun name =>
      ((got.map asRead).filter (occupies computePlacement name)).map computeDemand)
    inventoryAfter.nodesIndexed inventoryAfter.poolsIndexed nodesListed poolsListed counted picked
  have alive := (site.readyNode _).mp suits.readyNode
  have incl := committed_subperm inventory site pass settled seen split picked alive
  refine pass.unplaced pre turn rest split waited nothing _ (site.suits suits ?_ incl ?_)
  · rw [spec]
    simp only [asRead, eq.spec]
  · intro demand mem
    rcases mem_cons.mp mem with rfl | counts
    · have own : computeDemand turn.item = computeDemand (asRead orig) := by
        rw [computeDemand, computeDemand, spec]
      rw [own]
      exact computeDemand_nonneg (valid _ _ known)
    · obtain ⟨item, filtered, rfl⟩ := List.mem_map.mp counts
      obtain ⟨other, among, rfl⟩ := List.mem_map.mp (mem_of_mem_filter filtered)
      obtain ⟨src, stored, rcd, -⟩ := kept.of_stored ((seen other).mp among)
      have own : computeDemand (asRead other) = computeDemand (asRead src) := by
        simp only [computeDemand, asRead, rcd.spec]
      rw [own]
      exact computeDemand_nonneg (valid _ _ stored)

/-- The second pass has no placement to write. -/
theorem place_idle {sights : Sights} (seen : c.Seen s' sights) : ∃ alloc, c.place sights = (do
      let nodeErrors ← c.writeNodeStatus alloc (c.ready sights.now sights.nodes) sights.nodes
      let poolErrors ← c.writePoolStatus sights.nodes (c.ready sights.now sights.nodes) sights.pools
      return Error.joinAll ([] ++ joined nodeErrors ++ joined poolErrors)) := by
  have inventoryAfter := site.inventory inventory
  have listed := inventoryAfter.computesIndexed.mem_listing seen.computes
  have unmoved : ∀ item ∈ sights.computes.map asRead, stranded computePlacement
      (c.ready sights.now sights.nodes) item = false := by
    intro item member
    obtain ⟨cp, mem, rfl⟩ := List.mem_map.mp member
    rw [← Bool.not_eq_true]
    intro out
    simp only [stranded, Bool.and_eq_true, Bool.not_eq_true', bne_iff_ne] at out
    have alive := (site.readyNode _).mpr
      (assigned_ready inventory site pass settled ((listed cp).mp mem) out.1.1 out.1.2)
    have contrary := (ready_iff inventoryAfter.nodesIndexed seen.nodes _).mpr alive
    rw [← seen.now] at contrary
    exact Bool.noConfusion (contrary.symm.trans out.2)
  have unfit : ∀ item ∈ sights.computes.map asRead, waiting computePlacement item = true →
      c.pick sights.now sights.nodes sights.pools ((sights.computes.map asRead).foldl
        (account computePlacement computeDemand) (emptyAllocation sights.nodes)) item = "" := by
    intro item member waits
    obtain ⟨cp, mem, rfl⟩ := List.mem_map.mp member
    rw [seen.now]
    exact unfit_again inventory site pass settled valid seen.nodes seen.pools listed mem waits
  refine ⟨(sights.computes.map asRead).foldl (account computePlacement computeDemand)
    (emptyAllocation sights.nodes), ?_⟩
  rw [place, schedule, evictStranded_none unmoved]
  show ((placeEach _ _ _ _ _ _ >>= _) >>= _) = _
  rw [placeEach_none unfit]
  rfl

end

theorem second_pass {now : Logged} (inventory : c.Inventory s)
    (site : c.SameSite s places now.shared) (pass : c.ComputePass s now.shared items turns)
    (settled : c.ComputesSettled s now.shared turns)
    (valid : ∀ uid cp, c.computes.stored s uid = some cp → cp.spec.validateRuntimeLimits = .ok ()) :
    c.reconcileComputes.Only orderly (fun op => ∀ uid, ¬op.Writes (c.computes.key uid)) now := by
  have looks : ∀ op : Op, op.looks = true → ∀ uid, ¬op.Writes (c.computes.key uid) :=
    fun op looking uid => Op.not_writes_of_looks looking _
  rw [reconcileComputes_eq]
  have surveyed := survey_seen (site.inventory inventory)
  refine Only.bind (survey_looks.mono looks fun _ => id).only surveyed ?_
  rintro reply _ ⟨rfl, seen⟩
  cases reply with
  | error err => trivial
  | ok sights =>
    obtain ⟨alloc, eq⟩ := place_idle inventory site pass settled valid (seen sights rfl)
    dsimp only
    rw [eq]
    apply Program.Uses.only
    refine (writeNodeStatus_uses looks ?_ _ _ _).bind ?_
    · intro node
      refine (put_swaps (looks _ rfl) ?_).mono (fun _ => id) fun _ _ => trivial
      intro _ _ _ uid eq
      exact c.computes_nodes uid node.metadata.uid eq.symm
    · intro _ _
      refine (writePoolStatus_uses looks ?_ _ _ _).bind fun _ _ => trivial
      intro pool
      refine (put_swaps (looks _ rfl) ?_).mono (fun _ => id) fun _ _ => trivial
      intro _ _ _ uid eq
      exact c.computes_pools uid pool.metadata.uid eq.symm

theorem SameSite.node_saved (site : c.SameSite s places s') {node : Node} {shared : Shared}
    {base : StatusBase} {allocated : NodeAllocated}
    (got : c.nodes.stored s node.metadata.uid = some node) (saves : c.nodes.Saves s'
      { node with status := { node.status with toStatusBase := base, allocated := allocated } }
        shared) :
    c.SameSite s places shared := by
  refine ⟨saves.clock.trans site.clock, ?_, ?_, ?_⟩
  · intro uid
    by_cases eq : uid = node.metadata.uid
    · obtain ⟨v, wrote⟩ := saves.stored_self
      have wrote : c.nodes.stored shared node.metadata.uid = _ := wrote
      rw [eq, got, wrote]
      exact .some ⟨rfl, rfl, rfl⟩
    · rw [saves.stored_of_ne eq]
      exact site.nodes uid
  · intro uid
    rw [saves.stored_other c.nodes_pools.symm uid]
    exact site.pools uid
  · intro uid
    rw [saves.stored_other c.computes_nodes uid]
    exact site.computes uid

theorem SameSite.pool_saved (site : c.SameSite s places s') {pool : NodePool} {shared : Shared}
    {status : NodePoolStatus} (got : c.pools.stored s pool.metadata.uid = some pool)
    (saves : c.pools.Saves s' { pool with status := status } shared) :
    c.SameSite s places shared := by
  refine ⟨saves.clock.trans site.clock, ?_, ?_, ?_⟩
  · intro uid
    rw [saves.stored_other c.nodes_pools uid]
    exact site.nodes uid
  · intro uid
    by_cases eq : uid = pool.metadata.uid
    · obtain ⟨v, wrote⟩ := saves.stored_self
      have wrote : c.pools.stored shared pool.metadata.uid = _ := wrote
      rw [eq, got, wrote]
      exact .some ⟨rfl, rfl⟩
    · rw [saves.stored_of_ne eq]
      exact site.pools uid
  · intro uid
    rw [saves.stored_other c.computes_pools uid]
    exact site.computes uid

end

section

variable {c} {s : Logged} {nodes : List Node} {pools : List NodePool} {items : List Compute}

/-- Placing computes leaves the nodes, the pools and the clock alone. -/
def SamePlaces (c : Schedulers) (s : Shared) (now : Logged) : Prop :=
  now.shared.clock = s.clock ∧ (∀ uid, c.nodes.stored now.shared uid = c.nodes.stored s uid) ∧
    ∀ uid, c.pools.stored now.shared uid = c.pools.stored s uid

theorem admissible_samePlaces (origin : Shared) (uid node : String) (now : Logged)
    (kept : c.SamePlaces origin now) :
    Admissible c.computes computePlacement (c.SamePlaces origin) uid node now := by
  intro cur shared _ _ saves
  refine ⟨saves.clock.trans kept.1, ?_, ?_⟩
  · intro other
    exact (saves.stored_other c.computes_nodes.symm other).trans (kept.2.1 other)
  · intro other
    exact (saves.stored_other c.computes_pools.symm other).trans (kept.2.2 other)

variable {ready : String → Bool}

theorem schedule_samePlaces {pick : Allocation → Compute → String} :
    (schedule c.computes computePlacement ready nodes
      (fun alloc item => return pick alloc item) computeDemand
      items).Ends logged (fun _ s' => c.SamePlaces s.shared s') s := by
  have kept : (schedule c.computes computePlacement ready nodes
      (fun alloc item => return pick alloc item)
      computeDemand items).Keeps logged (c.SamePlaces s.shared)
      (fun _ => c.SamePlaces s.shared) s := by
    refine schedule_keeps ⟨rfl, fun _ => rfl, fun _ => rfl⟩ ?_ ?_
    · intro item _ _ now kept
      exact admissible_samePlaces s.shared _ _ now kept
    · intro alloc item _ copy _ _ _ now kept
      exact ⟨kept, fun _ => admissible_samePlaces s.shared _ _ now kept⟩
  exact kept.weaken fun _ _ => trivial

/-- The codecs encode every record, and every record that is stored can be read. -/
structure Working (c : Schedulers) (shared : Shared) : Prop where
  nodesEncode : c.nodes.Encodes
  computesEncode : c.computes.Encodes
  poolsEncode : c.pools.Encodes
  nodesReadable : c.nodes.Readable shared
  computesReadable : c.computes.Readable shared
  poolsReadable : c.pools.Readable shared

theorem writeNodeStatus_served (encodes : c.nodes.Encodes) {alloc : Allocation}
    (once : (nodes.map (·.metadata.uid)).Nodup) (named : ∀ node ∈ nodes, node.metadata.uid ≠ "")
    (has : ∀ node ∈ nodes, c.nodes.stored s.shared node.metadata.uid = some node) :
    (c.writeNodeStatus alloc ready nodes).Ends steady (fun errs _ => errs = []) s := by
  induction nodes generalizing s with
  | nil => rfl
  | cons node nodes ih =>
    rw [forall_mem_cons] at named has
    obtain ⟨fresh, nodup⟩ := nodup_cons.mp once
    rw [writeNodeStatus]
    dsimp only
    split
    · exact ih nodup named.2 has.2
    · apply (keeps_answering (keeps_looking (StatusBase.setPhase_looks _ _ _ _) trivial)).bind
      rintro base _ ⟨-, rfl⟩
      refine (save_served encodes has.1 ?_ rfl named.1).bind ?_
      · rfl
      · rintro reply s' ⟨⟨stored, rfl⟩, frame⟩
        refine ih nodup named.2 ?_
        intro other member
        rw [frame other.metadata.uid fun eq => fresh (List.mem_map.mpr ⟨other, member, eq⟩)]
        exact has.2 other member

theorem writePoolStatus_served (encodes : c.pools.Encodes)
    (once : (pools.map (·.metadata.uid)).Nodup) (named : ∀ pool ∈ pools, pool.metadata.uid ≠ "")
    (has : ∀ pool ∈ pools, c.pools.stored s.shared pool.metadata.uid = some pool) :
    (c.writePoolStatus nodes ready pools).Ends steady (fun errs _ => errs = []) s := by
  induction pools generalizing s with
  | nil => rfl
  | cons pool pools ih =>
    rw [forall_mem_cons] at named has
    obtain ⟨fresh, nodup⟩ := nodup_cons.mp once
    rw [writePoolStatus]
    dsimp only
    split
    · exact ih nodup named.2 has.2
    · apply (keeps_answering (keeps_looking (StatusBase.setPhase_looks _ _ _ _) trivial)).bind
      rintro base _ ⟨-, rfl⟩
      refine (save_served encodes has.1 ?_ rfl named.1).bind ?_
      · rfl
      · rintro reply s' ⟨⟨stored, rfl⟩, frame⟩
        refine ih nodup named.2 ?_
        intro other member
        rw [frame other.metadata.uid fun eq => fresh (List.mem_map.mpr ⟨other, member, eq⟩)]
        exact has.2 other member

theorem writeNodeStatus_pools (c : Schedulers) (s : Logged) (alloc : Allocation)
    (ready : String → Bool)
    (nodes : List Node) : (c.writeNodeStatus alloc ready nodes).Ends logged (fun _ s' =>
      ∀ uid, c.pools.stored s'.shared uid = c.pools.stored s.shared uid) s := by
  have kept : (c.writeNodeStatus alloc ready nodes).Keeps logged
      (fun now => ∀ uid, c.pools.stored now.shared uid = c.pools.stored s.shared uid)
      (fun _ s' => ∀ uid, c.pools.stored s'.shared uid = c.pools.stored s.shared uid)
      s := by
    refine writeNodeStatus_keeps _ _ _ ?_ fun _ => rfl
    intro node _ now base allocated shared kept saves uid
    rw [← kept uid]
    exact saves.stored_other c.nodes_pools.symm uid
  exact kept.weaken fun _ _ => trivial

theorem place_served {sights : Sights} (inventory : c.Inventory s.shared)
    (working : c.Working s.shared) (seen : c.Seen s.shared sights) :
    (c.place sights).Ends steady (fun out _ => out = .ok ()) s := by
  have nodesStored := inventory.nodesIndexed.mem_listing seen.nodes
  have computesStored := inventory.computesIndexed.mem_listing seen.computes
  have poolsStored := inventory.poolsIndexed.mem_listing seen.pools
  have has : ∀ item ∈ sights.computes.map asRead, ∃ orig,
      c.computes.stored s.shared item.metadata.uid = some orig := by
    intro item member
    obtain ⟨cp, mem, rfl⟩ := List.mem_map.mp member
    exact ⟨cp, (computesStored cp).mp mem⟩
  rw [place]
  apply ((schedule_served inventory.computesIndexed.filed working.computesEncode
    inventory.computesIndexed.named
    Places.start has).and (keeps_answering schedule_samePlaces)).bind
  rintro ⟨alloc, errs⟩ between ⟨nothing, eq⟩
  have nothing : errs = [] := nothing
  refine ((writeNodeStatus_served working.nodesEncode seen.nodesOnce ?_ ?_).and
    (keeps_answering (writeNodeStatus_pools c _ _ _ _))).bind ?_
  · intro node member
    exact inventory.nodesIndexed.named _ node ((nodesStored node).mp member)
  · intro node member
    exact (eq.2.1 _).trans ((nodesStored node).mp member)
  · rintro nodeErrors between ⟨rfl, frame⟩
    refine (writePoolStatus_served working.poolsEncode seen.poolsOnce ?_ ?_).bind ?_
    · intro pool member
      exact inventory.poolsIndexed.named _ pool ((poolsStored pool).mp member)
    · intro pool member
      rw [frame, eq.2.2]
      exact (poolsStored pool).mp member
    · rintro poolErrors _ rfl
      rw [nothing]
      rfl

/-- What a pass over the computes leaves, when it gets as far as placing any. -/
theorem place_scheduled {sights : Sights} (inventory : c.Inventory s.shared)
    (seen : c.Seen s.shared sights) :
    (c.place sights).Ends orderly (fun out s' => ∃ turns places,
      c.ComputePass s.shared s'.shared (sights.computes.map asRead) turns ∧
        c.SameSite s.shared places s'.shared ∧
      (out = .ok () → c.ComputesSettled s.shared s'.shared turns)) s := by
  have nodesStored := inventory.nodesIndexed.mem_listing seen.nodes
  have poolsStored := inventory.poolsIndexed.mem_listing seen.pools
  have surveyed := seen.surveyed inventory
  rw [place, seen.now]
  apply ((keeps_answering (schedule_places inventory.computesIndexed.filed surveyed.once)).and
    (keeps_answering schedule_samePlaces)).bind
  rintro ⟨alloc, errs⟩ between ⟨⟨pairs, turns, middle, later, scheduled, clean⟩, clock, sameNodes,
    samePools⟩
  have site : c.SameSite s.shared later between.shared := by
    refine ⟨clock, ?_, ?_, scheduled.settled.tracked⟩
    · intro uid
      rw [sameNodes]
      cases c.nodes.stored s.shared uid with
      | none => exact .none
      | some node => exact .some ⟨rfl, rfl, rfl⟩
    · intro uid
      rw [samePools]
      cases c.pools.stored s.shared uid with
      | none => exact .none
      | some pool => exact .some ⟨rfl, rfl⟩
  have reported : (do
      let nodeErrors ← c.writeNodeStatus alloc (c.ready s.shared.clock sights.nodes) sights.nodes
      let poolErrors ← c.writePoolStatus sights.nodes
        (c.ready s.shared.clock sights.nodes) sights.pools
      return Error.joinAll (errs ++ joined nodeErrors ++ joined poolErrors) : Prog _).Keeps logged
      (fun now => c.SameSite s.shared later now.shared) (fun out s' =>
        c.SameSite s.shared later s'.shared ∧ (out = .ok () → errs = [])) between := by
    refine (writeNodeStatus_keeps _ _ _ ?_ site).bind ?_
    · intro node member now base allocated shared kept saves
      exact kept.node_saved ((nodesStored node).mp member) saves
    · intro nodeErrors now kept
      refine (writePoolStatus_keeps _ _ _ ?_ kept).bind ?_
      · intro pool member now status shared kept saves
        exact kept.pool_saved ((poolsStored pool).mp member) saves
      · intro poolErrors s' kept
        refine ⟨kept, ?_⟩
        intro ok
        cases errs with
        | nil => rfl
        | cons first rest => cases ok
  apply (keeps_answering (reported.weaken fun _ _ => trivial)).mono
  rintro out s' ⟨kept, acknowledged⟩
  have rescheduled : c.ScheduledComputes s.shared sights.nodes sights.pools
      (sights.computes.map asRead)
      s'.shared pairs turns middle later := by
    refine ⟨scheduled.clears, ?_, ?_⟩
    · exact ⟨kept.computes, scheduled.settled.listed, scheduled.settled.outside,
        scheduled.settled.each⟩
    · exact scheduled.follows
  refine ⟨turns, later, computePass_of_scheduled surveyed rescheduled, kept, ?_⟩
  intro ok
  obtain ⟨cleared, wrote⟩ := clean (acknowledged ok)
  exact settled_of_scheduled surveyed rescheduled cleared wrote

theorem first_pass (inventory : c.Inventory s.shared) :
    c.reconcileComputes.Ends orderly (fun out s' =>
      (s' = s ∧ ∃ err, out = .error err) ∨ ∃ items turns places,
        c.ComputePass s.shared s'.shared items turns ∧ c.SameSite s.shared places s'.shared ∧
        (out = .ok () → c.ComputesSettled s.shared s'.shared turns)) s := by
  rw [reconcileComputes_eq]
  apply (survey_seen inventory).bind
  rintro reply _ ⟨rfl, seen⟩
  cases reply with
  | error err => exact .inl ⟨rfl, err, rfl⟩
  | ok sights =>
    apply (place_scheduled inventory (seen sights rfl)).mono
    rintro out s' ⟨turns, places, pass, site, settles⟩
    exact .inr ⟨_, turns, places, pass, site, settles⟩

end

section

open Cluster

def waitingCompute : Compute where
  metadata := { uid := "compute-1" }
  spec := { subnetId := "subnet-1", image := "base" }
  status := {}

def waitingStart : Logged :=
  ⟨⟨storeOf (sampleCluster.computes.entry waitingCompute :: sampleSite), 0⟩, []⟩

theorem waitingStart_inventory : sampleCluster.toSchedulers.Inventory waitingStart.shared :=
  ⟨indexed_of_everyRecord (by decide +kernel), indexed_of_everyRecord (by decide +kernel),
    indexed_of_everyRecord (by decide +kernel)⟩

theorem waitingStart_working : sampleCluster.toSchedulers.Working waitingStart.shared where
  nodesEncode _ := ⟨_, rfl⟩
  computesEncode _ := ⟨_, rfl⟩
  poolsEncode _ := ⟨_, rfl⟩
  nodesReadable := readable_of_entries (by decide +kernel)
  computesReadable := readable_of_entries (by decide +kernel)
  poolsReadable := readable_of_entries (by decide +kernel)

theorem waitingStart_valid (uid : String) (cp : Compute)
    (got : sampleCluster.toSchedulers.computes.stored waitingStart.shared uid = some cp) :
    cp.spec.validateRuntimeLimits = .ok () := by
  have checked : sampleCluster.toSchedulers.computes.everyRecord
      (fun _ read => read.spec.validateRuntimeLimits.isOk) waitingStart.shared = true := by
        decide +kernel
  obtain ⟨read, v, rfl, passed⟩ := check_of_everyRecord checked got
  cases valid : read.spec.validateRuntimeLimits with
  | error err => simp [valid, Except.isOk, Except.toBool] at passed
  | ok done => exact valid

end


end Controllers.Schedulers

end Infrastructure
