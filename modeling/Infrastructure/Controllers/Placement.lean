import Infrastructure.Domain.Placement
import Infrastructure.Registry.Sequence

/-! How the schedulers place records on nodes: which nodes count as ready, which of them a record
fits on, and the passes that clear and set placements. -/

namespace Infrastructure.Controllers

open Concurrency State Domain List

structure NodeAlloc where
  cpus : Rat := 0
  mem : Int := 0
  pods : Int := 0

abbrev Allocation := String → Option NodeAlloc

/-- What a record needs of its node, besides being one pod. -/
structure Demand where
  cpu : Rat := 0
  mem : Int := 0

def NodeAlloc.add (alloc : NodeAlloc) (demand : Demand) : NodeAlloc :=
  ⟨alloc.cpus + demand.cpu, alloc.mem + demand.mem, alloc.pods + 1⟩

section

-- `time.Parse` with the RFC 3339 layout, in nanoseconds, and the longest silence of a ready node
variable (parseTime : String → Option Int) (readyWindow : Int)

def nodeReady (node : Node) (now : Int) : Bool :=
  if node.status.lastSeen = "" then false
  else
    match parseTime node.status.lastSeen with
    | none => false
    | some seen => decide (now - seen ≤ readyWindow)

/-- The map `ready`; a node that was not listed is not ready. -/
def readyNodes (now : Int) (nodes : List Node) : String → Bool :=
  nodes.foldl (fun ready node =>
    Function.update ready node.metadata.uid (nodeReady parseTime readyWindow node now))
    fun _ => false

end

def emptyAllocation (nodes : List Node) : Allocation :=
  nodes.foldl (fun alloc node => Function.update alloc node.metadata.uid (some {})) fun _ => none

/-- A label that is missing reads as the empty text. -/
def matchLabels (labels selector : List (String × String)) : Bool :=
  selector.all fun wanted => (labels.lookup wanted.1).getD "" == wanted.2

/-- The fitting node with the fewest pods, the first of them in the order listed. -/
def pickBest (fits : Node → Bool) (pods : String → Int) : List Node → String → Int → String
  | [], best, _ => best
  | node :: nodes, best, bestPods =>
    if fits node && (best == "" || decide (pods node.metadata.uid < bestPods)) then
      pickBest fits pods nodes node.metadata.uid (pods node.metadata.uid)
    else pickBest fits pods nodes best bestPods

def podsOn (alloc : Allocation) (uid : String) : Int := ((alloc uid).getD {}).pods

def hasRoom (capacity : NodeCapacity) (alloc : NodeAlloc) (demand : Demand) : Bool :=
  !(decide (0 < capacity.maxPods) && decide (capacity.maxPods ≤ alloc.pods)) &&
    !decide ((capacity.cpus : Rat) < alloc.cpus + demand.cpu) &&
      !decide (capacity.memoryMb < alloc.mem + demand.mem)

def pickNode (nodes : List Node) (alloc : Allocation) (ready : String → Bool)
    (selector : List (String × String)) (demand : Demand) : String :=
  pickBest (fun node => ready node.metadata.uid && matchLabels node.spec.labels selector &&
    hasRoom node.spec.capacity ((alloc node.metadata.uid).getD {}) demand)
      (podsOn alloc) nodes "" (-1)

def pickNodeExcluding (nodes : List Node) (alloc : Allocation) (ready : String → Bool)
    (selector : List (String × String)) (exclude : String) : String :=
  pickBest (fun node => node.metadata.uid != exclude && ready node.metadata.uid &&
    matchLabels node.spec.labels selector) (podsOn alloc) nodes "" (-1)

/-- No selector for the empty pool; none at all for a pool that is missing. -/
def poolSelector (pools : List NodePool) (poolId : String) : Option (List (String × String)) :=
  if poolId = "" then some []
  else (pools.find? fun pool => pool.metadata.uid == poolId).map fun pool => pool.spec.nodeSelector

variable {S ST : Type} (r : Registry S ST) (p : Placement ST)

def assign (uid node : String) : Prog (Except Error Unit) := do
  match ← r.get uid with
  | .error err => return .error err
  | .ok cur =>
    if p.on cur = node then return .ok ()
    else
      match ← r.put (p.move node cur) with
      | .error err => return .error err
      | .ok _ => return .ok ()

def evict (uid : String) : Prog (Except Error Unit) := assign r p uid ""

def stranded (ready : String → Bool) (item : Resource S ST) : Bool :=
  !item.metadata.isDeleting && p.on item != "" && !ready (p.on item)

/-- Clears the placements on nodes that are not ready; the rest of the pass works on the copies. -/
def evictStranded (ready : String → Bool) : List (Resource S ST) →
    Prog (List (Resource S ST) × List Error)
  | [] => return ([], [])
  | item :: items => do
      if stranded p ready item then
        match ← evict r p item.metadata.uid with
        | .error err =>
          let (rest, errors) ← evictStranded ready items
          return (item :: rest, .wrap ("evict " ++ item.metadata.uid) err :: errors)
        | .ok () =>
          let (rest, errors) ← evictStranded ready items
          return (p.move "" item :: rest, errors)
      else
        let (rest, errors) ← evictStranded ready items
        return (item :: rest, errors)

def account (demand : Resource S ST → Demand) (alloc : Allocation)
    (item : Resource S ST) : Allocation :=
  if item.metadata.isDeleting then alloc
  else
    match alloc (p.on item) with
    | none => alloc
    | some committed => Function.update alloc (p.on item) (some (committed.add (demand item)))

/-- Places the live records without a node; `choose` is empty for one that cannot be placed. -/
def placeEach (choose : Allocation → Resource S ST → Prog String)
    (demand : Resource S ST → Demand) :
    Allocation → List (Resource S ST) → Prog (Allocation × List Error)
  | alloc, [] => return (alloc, [])
  | alloc, item :: items => do
      if item.metadata.isDeleting || p.on item != "" then placeEach choose demand alloc items
      else
        let node ← choose alloc item
        if node = "" then placeEach choose demand alloc items
        else
          match ← assign r p item.metadata.uid node with
          | .error err =>
            let (alloc, errors) ← placeEach choose demand alloc items
            return (alloc, .wrap ("schedule " ++ item.metadata.uid) err :: errors)
          | .ok () =>
            let committed := ((alloc node).getD {}).add (demand item)
            placeEach choose demand (Function.update alloc node (some committed)) items

def schedule (ready : String → Bool) (nodes : List Node)
    (choose : Allocation → Resource S ST → Prog String) (demand : Resource S ST → Demand)
    (items : List (Resource S ST)) :
    Prog (Allocation × List Error) := do
  let (items, evictions) ← evictStranded r p ready items
  let alloc := items.foldl (account p demand) (emptyAllocation nodes)
  let (alloc, errors) ← placeEach r p choose demand alloc items
  return (alloc, evictions ++ errors)

section

variable {parseTime : String → Option Int} {readyWindow now : Int}
    {nodes : List Node} {name : String}

theorem readyNodes_snoc (nodes : List Node) (node : Node) :
    readyNodes parseTime readyWindow now (nodes ++ [node]) =
    Function.update (readyNodes parseTime readyWindow now nodes) node.metadata.uid
      (nodeReady parseTime readyWindow node now) := by
  rw [readyNodes, foldl_append]
  rfl

theorem readyNodes_listed (ready : readyNodes parseTime readyWindow now nodes name = true) :
    ∃ node ∈ nodes, node.metadata.uid = name ∧ nodeReady parseTime readyWindow node now = true := by
  induction nodes using List.reverseRecOn with
  | nil => cases ready
  | append_singleton nodes node ih =>
    rw [readyNodes_snoc] at ready
    by_cases eq : node.metadata.uid = name
    · rw [← eq, Function.update_self] at ready
      exact ⟨node, by simp, eq, ready⟩
    · rw [Function.update_of_ne (Ne.symm eq)] at ready
      obtain ⟨got, mem, rest⟩ := ih ready
      exact ⟨got, mem_append_left _ mem, rest⟩

theorem readyNodes_of_listed {node : Node} (mem : node ∈ nodes) (named : node.metadata.uid = name)
    (all : ∀ other ∈ nodes, other.metadata.uid = name →
      nodeReady parseTime readyWindow other now = true) :
    readyNodes parseTime readyWindow now nodes name = true := by
  induction nodes using List.reverseRecOn with
  | nil => cases mem
  | append_singleton nodes last ih =>
    rw [readyNodes_snoc]
    by_cases eq : last.metadata.uid = name
    · rw [← eq, Function.update_self]
      exact all last (by simp) eq
    · rw [Function.update_of_ne (Ne.symm eq)]
      have pre : node ∈ nodes := by
        rcases mem_append.mp mem with inside | final
        · exact inside
        · rw [mem_singleton.mp final] at named
          exact absurd named eq
      exact ih pre fun other inside => all other (mem_append_left _ inside)

theorem pickBest_spec (fits : Node → Bool) (pods : String → Int) (nodes : List Node) (best : String)
    (bestPods : Int) :
    pickBest fits pods nodes best bestPods = best ∨
      ∃ node ∈ nodes, fits node = true ∧ node.metadata.uid =
        pickBest fits pods nodes best bestPods := by
  induction nodes generalizing best bestPods with
  | nil => exact .inl rfl
  | cons node nodes ih =>
    rw [pickBest]
    split
    · next better =>
      have fitting : fits node = true := (Bool.and_eq_true _ _ ▸ better).1
      rcases ih node.metadata.uid (pods node.metadata.uid) with eq | ⟨got, mem, rest⟩
      · exact .inr ⟨node, .head _, fitting, eq.symm⟩
      · exact .inr ⟨got, .tail _ mem, rest⟩
    · rcases ih best bestPods with eq | ⟨got, mem, rest⟩
      · exact .inl eq
      · exact .inr ⟨got, .tail _ mem, rest⟩

theorem pickNode_ready {alloc : Allocation} {ready : String → Bool}
    {selector : List (String × String)} {demand : Demand}
    (picked : pickNode nodes alloc ready selector demand ≠ "") :
    ready (pickNode nodes alloc ready selector demand) = true := by
  rcases pickBest_spec _ _ nodes "" (-1) with none | ⟨node, _, fits, eq⟩
  · exact absurd none picked
  · simp only [Bool.and_eq_true] at fits
    rw [pickNode, ← eq]
    exact fits.1.1

theorem pickNodeExcluding_ne {alloc : Allocation} {ready : String → Bool}
    {selector : List (String × String)} {exclude : String}
    (picked : pickNodeExcluding nodes alloc ready selector exclude ≠ "") :
    pickNodeExcluding nodes alloc ready selector exclude ≠ exclude := by
  rcases pickBest_spec _ _ nodes "" (-1) with none | ⟨node, _, fits, eq⟩
  · exact absurd none picked
  · simp only [Bool.and_eq_true, bne_iff_ne] at fits
    rw [pickNodeExcluding, ← eq]
    exact fits.1.1

end

section

variable {r p} {inv : Logged → Prop} {s : Logged} {items : List (Resource S ST)}
variable {ready : String → Bool}

/-- Every placement of the record on the node keeps the invariant. -/
def Admissible (r : Registry S ST) (p : Placement ST) (inv : Logged → Prop) (uid node : String)
    (now : Logged) : Prop :=
  ∀ cur shared, r.stored now.shared uid = some cur → p.on cur ≠ node →
    r.Saves now.shared (p.move node cur) shared → inv (now.over shared)

theorem assign_keeps {uid node : String} (holds : inv s)
    (admissible : Admissible r p inv uid node s) :
    (assign r p uid node).Keeps logged inv (fun _ => inv) s := by
  refine Registry.keeps_get holds (fun _ => holds) ?_
  intro cur got
  dsimp only
  split
  · exact holds
  · next away =>
    have kept := fun shared => admissible cur shared got away
    apply Registry.keeps_put holds kept
    · intro err
      exact holds
    · intro reply s' saves _
      cases reply with
      | error err => exact kept s' saves
      | ok result => exact kept s' saves

def Copies (p : Placement ST) (ready : String → Bool) (item copy : Resource S ST) : Prop :=
  copy = item ∨ (stranded p ready item = true ∧ copy = p.move "" item)

theorem Copies.waiting {item copy : Resource S ST} (copies : Copies p ready item copy)
    (live : copy.metadata.isDeleting = false) (waiting : p.on copy = "") :
    copy.metadata = item.metadata ∧ copy.spec = item.spec ∧ item.metadata.isDeleting = false ∧
      (p.on item = "" ∨ ready (p.on item) = false) := by
  rcases copies with rfl | ⟨out, rfl⟩
  · exact ⟨rfl, rfl, live, .inl waiting⟩
  · simp only [stranded, Bool.and_eq_true, Bool.not_eq_true'] at out
    exact ⟨rfl, rfl, live, .inr out.2⟩

theorem evictStranded_keeps (holds : inv s)
    (clears : ∀ item ∈ items, stranded p ready item = true → ∀ now, inv now →
      Admissible r p inv item.metadata.uid "" now) :
    (evictStranded r p ready items).Keeps logged inv (fun result s' => inv s' ∧
      ∀ copy ∈ result.1, ∃ item ∈ items, Copies p ready item copy) s := by
  induction items generalizing s with
  | nil => exact ⟨holds, nofun⟩
  | cons item items ih =>
    have later (now : Logged) (kept : inv now) (copy : Resource S ST)
        (errs : List Error → List Error)
        (copies : Copies p ready item copy) :
        (do let (rest, causes) ← evictStranded r p ready items
            return (copy :: rest, errs causes) : Prog _).Keeps logged inv (fun result s' =>
          inv s' ∧ ∀ copy ∈ result.1, ∃ other ∈ item :: items, Copies p ready other copy) now := by
      apply (ih kept fun other mem => clears other (.tail _ mem)).bind
      intro result s' ⟨still, all⟩
      refine ⟨still, ?_⟩
      intro other mem
      rcases mem_cons.mp mem with rfl | inside
      · exact ⟨item, .head _, copies⟩
      · obtain ⟨src, seen, rel⟩ := all other inside
        exact ⟨src, .tail _ seen, rel⟩
    rw [evictStranded]
    split
    · next out =>
      have admissible := clears item (.head _) out s holds
      apply (assign_keeps holds admissible).bind
      intro reply s' kept
      cases reply with
      | error err => exact later s' kept item _ (.inl rfl)
      | ok done => exact later s' kept _ id (.inr ⟨out, rfl⟩)
    · exact later s holds item id (.inl rfl)

section

variable {choose : Allocation → Resource S ST → Prog String} {demand : Resource S ST → Demand}

include choose demand

theorem placeEach_keeps {alloc : Allocation} (holds : inv s)
    (chooses : ∀ alloc, ∀ item ∈ items, item.metadata.isDeleting = false → p.on item = "" →
      ∀ now, inv now → (choose alloc item).Keeps logged inv (fun node s' => inv s' ∧
        (node ≠ "" → Admissible r p inv item.metadata.uid node s')) now) :
    (placeEach r p choose demand alloc items).Keeps logged inv (fun _ => inv) s := by
  induction items generalizing s alloc with
  | nil => exact holds
  | cons item items ih =>
    have later (now : Logged) (kept : inv now) (alloc : Allocation) :
        (placeEach r p choose demand alloc items).Keeps logged inv (fun _ => inv) now :=
      ih kept fun alloc other mem => chooses alloc other (.tail _ mem)
    rw [placeEach]
    split
    · exact later s holds alloc
    · next waiting =>
      simp only [Bool.or_eq_true, not_or, Bool.not_eq_true, bne_eq_false_iff_eq] at waiting
      apply (chooses alloc item (.head _) waiting.1 waiting.2 s holds).bind
      intro node s' ⟨kept, admissible⟩
      split
      · exact later s' kept alloc
      · next named =>
        apply (assign_keeps kept (admissible named)).bind
        intro reply final still
        cases reply with
        | error err => exact (later final still alloc).bind fun _ _ done => done
        | ok done => exact later final still _

theorem schedule_keeps {nodes : List Node} (holds : inv s)
    (clears : ∀ item ∈ items, stranded p ready item = true → ∀ now, inv now →
      Admissible r p inv item.metadata.uid "" now)
    (chooses : ∀ alloc, ∀ item ∈ items, ∀ copy, Copies p ready item copy →
      copy.metadata.isDeleting = false → p.on copy = "" → ∀ now, inv now →
      (choose alloc copy).Keeps logged inv (fun node s' => inv s' ∧
        (node ≠ "" → Admissible r p inv copy.metadata.uid node s')) now) :
    (schedule r p ready nodes choose demand items).Keeps logged inv (fun _ => inv) s := by
  apply (evictStranded_keeps holds clears).bind
  intro out s' ⟨kept, copies⟩
  refine (placeEach_keeps kept ?_).bind fun _ _ done => done
  intro alloc copy mem
  obtain ⟨item, seen, rel⟩ := copies copy mem
  exact chooses alloc item seen copy rel

end

end

section

variable {r p} {allowed : Op → Prop} {items : List (Resource S ST)} {ready : String → Bool}

section

variable (looks : ∀ op, op.looks = true → allowed op)
    (puts : ∀ item, (r.put item).Uses allowed fun _ => True)

include looks puts

theorem assign_uses (uid node : String) : (assign r p uid node).Uses allowed fun _ => True := by
  refine ((r.get_looks uid).mono looks fun _ => id).tries (fun _ => trivial) ?_
  intro cur
  dsimp only
  split
  · trivial
  · apply (puts _).bind
    intro reply _
    cases reply <;> trivial

theorem evictStranded_uses : (evictStranded r p ready items).Uses allowed fun _ => True := by
  induction items with
  | nil => trivial
  | cons item items ih =>
    rw [evictStranded]
    split
    · apply (assign_uses looks puts _ _).bind
      intro reply _
      cases reply <;> exact ih.bind fun _ _ => trivial
    · exact ih.bind fun _ _ => trivial

end

section

variable {choose : Allocation → Resource S ST → Prog String} {demand : Resource S ST → Demand}

include choose demand

theorem placeEach_uses (looks : ∀ op, op.looks = true → allowed op)
    (puts : ∀ item, (r.put item).Uses allowed fun _ => True)
    (chooses : ∀ alloc item, (choose alloc item).Uses allowed fun _ => True) (alloc : Allocation) :
    (placeEach r p choose demand alloc items).Uses allowed fun _ => True := by
  induction items generalizing alloc with
  | nil => trivial
  | cons item items ih =>
    rw [placeEach]
    split
    · exact ih alloc
    · apply (chooses alloc item).bind
      intro node _
      split
      · exact ih alloc
      · exact (assign_uses looks puts _ _).tries
          (fun _ => (ih alloc).bind fun _ _ => trivial) fun _ => ih _

theorem schedule_uses {nodes : List Node} (looks : ∀ op, op.looks = true → allowed op)
    (puts : ∀ item, (r.put item).Uses allowed fun _ => True)
    (chooses : ∀ alloc item, (choose alloc item).Uses allowed fun _ => True) :
    (schedule r p ready nodes choose demand items).Uses allowed fun _ => True := by
  apply (evictStranded_uses looks puts).bind
  intro out _
  exact (placeEach_uses looks puts chooses _).bind fun _ _ => trivial

end

end

end Infrastructure.Controllers
