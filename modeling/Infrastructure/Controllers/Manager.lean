import Infrastructure.Cluster.Formats
import Infrastructure.Controllers.ReplicaPlacement
import Infrastructure.Controllers.Upkeep

/-! The process that runs the controllers one after the other while it leads. A renewal of its lease
that fails cancels the context of the run, at any point of any pass. -/

namespace Infrastructure.Controllers

open Concurrency State Domain

def errCanceled : Error := .new "context canceled"

/-- What `contextStore` replies, without a call of the store, once its context is cancelled. -/
def canceledReply : (op : Op) → Option op.Reply
  | .get _ => some (.error errCanceled)
  | .put _ _ => some (.error errCanceled)
  | .delete _ => some (.error errCanceled)
  | .keys _ => some (.error errCanceled)
  | .cas _ _ _ => some (.error errCanceled)
  | .now | .ask _ | .host _ | .random _ => none

/-- `VPCSummaryController.Reconcile`, without the counts that it keeps in memory. -/
def summarizeVPCs (vpcs : Registry VPCSpec VPCStatus) : Prog (Except Error Unit) := do
  match ← vpcs.list with
  | .error err => return .error (.wrap "controllers: list vpcs" err)
  | .ok _ => return .ok ()

/-- The store behind a registry of a pass: the shared one, or that of `contextStore`. -/
structure Handle where
  kind : String
  bound : Bool := false

def handle {S ST : Type} (r : Registry S ST) : Handle := { kind := r.kind }

/-- `Registry.WithContext`. -/
def Handle.withContext (h : Handle) : Handle := { h with bound := true }

/-- Whether an operation is one of the registry: all its keys begin with its kind. -/
def Handle.carries (h : Handle) : Op → Bool
  | .get key | .put key _ | .delete key | .cas key _ _ =>
    (h.kind ++ "/").toList.isPrefixOf key.toList
  | .keys dir => dir == h.kind
  | .now | .ask _ | .host _ | .random _ => false

/-- A controller, its registries as its pass uses them, and the pass. -/
structure Controller where
  name : String
  handles : List Handle
  reconcile : Prog (Except Error Unit)

/-- The controllers that the controller manager adds, in their order, each with the registries that
the first lines of its pass bind or leave as they are. -/
def registered (c : Schedulers) (functions : FunctionController) : List Controller :=
  [⟨"vpc-summary", [(handle functions.vpcs).withContext], summarizeVPCs functions.vpcs⟩,
    ⟨"scheduler", [(handle c.computes).withContext, (handle c.nodes).withContext,
      (handle c.pools).withContext], c.reconcileComputes⟩, ⟨"microvm-scheduler",
      [(handle c.microVMs).withContext, (handle c.nodes).withContext, (handle c.pools).withContext],
      c.reconcileMicroVMs⟩,
    ⟨"disk-scheduler", [handle c.nodes, handle c.disks], c.reconcileDisks⟩,
    ⟨"async-disk-replica-scheduler", [handle c.nodes, handle c.replicas, handle c.pools,
      handle c.disks], c.reconcileReplicas⟩, ⟨"function", [(handle functions.functions).withContext,
      (handle functions.instances).withContext, (handle functions.computes).withContext,
      (handle functions.subnets).withContext, (handle functions.vpcs).withContext,
      (handle functions.securityGroups).withContext], functions.reconcile⟩]

/-- The store while this process leads, and the writes that controllers start once the context of
the run is cancelled. -/
structure Tenure where
  shared : Shared
  cancelled : Bool := false
  late : List (String × Op) := []

namespace Controller

variable (c : Controller)

def refusal (now : Tenure) (op : Op) : Option op.Reply :=
  if now.cancelled && c.handles.any (fun h => h.bound && h.carries op) then canceledReply op
  else none

def reached (now : Tenure) (op : Op) (shared : Shared) : Tenure :=
  { now with
    shared := shared
    late := if now.cancelled && !op.reads then (c.name, op) :: now.late else now.late }

/-- One operation of the controller on a store that refuses those of a cancelled context. -/
def operates (now : Tenure) (op : Op) (reply : op.Reply) (s' : Tenure) : Prop :=
  match c.refusal now op with
  | some refusal => reply = refusal ∧ s' = now
  | none => ∃ shared, exec now.shared op reply shared ∧ s' = c.reached now op shared

/-- The same on a store without faults. -/
def answer (op : Op) (now : Tenure) : op.Reply × Tenure :=
  match c.refusal now op with
  | some refusal => (refusal, now)
  | none => ((State.answer now.shared op).1, c.reached now op (State.answer now.shared op).2)

theorem answer_operates (now : Tenure) (op : Op) :
    c.operates now op (c.answer op now).1 (c.answer op now).2 := by
  unfold operates answer
  cases c.refusal now op with
  | some refusal => exact ⟨rfl, rfl⟩
  | none => exact ⟨_, answer_exec now.shared op, rfl⟩

/-- An operation that only reads, or one of a registry of the pass. -/
def Through (op : Op) : Prop := op.reads = true ∨ ∃ h ∈ c.handles, h.carries op = true

/-- The pass writes to no other registry than those it names. -/
abbrev Confined : Prop := c.reconcile.Uses c.Through fun _ => True

end Controller

section

variable {c : Controller} {S ST : Type} {r : Registry S ST}

/-- The registry is one of the pass, bound or not. -/
def Controller.Names (c : Controller) (r : Registry S ST) : Prop := ∃ h ∈ c.handles, h.kind = r.kind

theorem key_carried {h : Handle} (kind : h.kind = r.kind) (uid : String) :
    (h.kind ++ "/").toList.isPrefixOf (r.key uid).toList = true := by
  have split : (r.key uid).toList = (r.kind ++ "/").toList ++ uid.toList := String.toList_append
  rw [kind, split, List.isPrefixOf_iff_prefix]
  exact List.prefix_append _ _

theorem looks_through (op : Op) (looks : op.looks = true) : c.Through op :=
  .inl (Op.reads_of_looks looks)

variable (named : c.Names r)

include named

theorem delete_through (uid : String) : c.Through (.delete (r.key uid)) := by
  obtain ⟨h, mem, kind⟩ := named
  exact .inr ⟨h, mem, key_carried kind uid⟩

theorem swap_through (uid : String) (old : Option Bytes) (new : Bytes) :
    c.Through (.cas (r.key uid) old new) := by
  obtain ⟨h, mem, kind⟩ := named
  exact .inr ⟨h, mem, key_carried kind uid⟩

theorem put_through (res : Resource S ST) : (r.put res).Uses c.Through fun _ => True :=
  (Registry.put_swaps (.inl rfl) fun old data _ => swap_through named _ old data).mono (fun _ => id)
    fun _ _ => trivial

end

section

variable {c : Controller}

/-- What a pass of the function controller needs to write to no registry but those it names. -/
theorem through_rules {functions : FunctionController}
    (named : ∀ {S ST : Type} {r : Registry S ST}, functions.Keeps r → c.Names r) :
    functions.PassRules (fun _ _ _ _ => True) fun _ prog => prog.Uses c.Through fun _ => True where
  fits _ := trivial
  ret _ := trivial
  bind first rest := first.bind fun val _ => rest val
  look looks rest := (looks.mono looks_through fun _ => id).bind rest
  get _ bad rest := ((Registry.get_looks _ _).mono looks_through fun _ => id).tries bad fun got =>
    rest got trivial
  list _ bad rest :=
    ((Registry.list_looks _).mono looks_through fun _ => id).tries bad fun got =>
      rest got fun _ _ => trivial
  put own _ := put_through (named own) _
  delete own uid := Registry.delete_uses (delete_through (named own) uid)
  update own marks := Registry.tryUpdate_uses (.inl rfl) (swap_through (named own) _) fun got =>
    (marks got).mono looks_through fun _ _ => trivial

theorem schedules_through {S ST : Type} {r : Registry S ST} {p : Placement ST}
    {ready : String → Bool} {nodes : List Node} {choose : Allocation → Resource S ST → Prog String}
    {demand : Resource S ST → Demand} {items : List (Resource S ST)} (named : c.Names r)
    (chooses : ∀ alloc item, (choose alloc item).Uses Op.Looking fun _ => True) :
    (schedule r p ready nodes choose demand items >>= fun out => return Error.joinAll out.2).Uses
    c.Through fun _ => True :=
  (schedule_uses looks_through (put_through named) fun alloc item =>
    (chooses alloc item).mono looks_through fun _ => id).bind fun _ _ => trivial

theorem lists_through {S ST α : Type} {r : Registry S ST}
    {next : Except Error (List (Resource S ST)) → Prog α}
    (bad : ∀ err, (next (.error err)).Uses c.Through fun _ => True)
    (rest : ∀ got, (next (.ok got)).Uses c.Through fun _ => True) :
    (r.list >>= next).Uses c.Through fun _ => True :=
  (r.list_looks.mono looks_through fun _ => id).tries bad rest

theorem chooseForReplica_looks (s : Schedulers) (nodes : List Node) (pools : List NodePool)
    (ready : String → Bool) (alloc : Allocation) (replica : AsyncDiskReplica) :
    (s.chooseForReplica nodes pools ready alloc replica).Uses Op.Looking fun _ => True := by
  refine (Registry.get_looks _ _).tries (fun _ => trivial) ?_
  intro disk
  dsimp only
  split
  · trivial
  · split <;> trivial

variable {s : Schedulers}

theorem reconcileComputes_through (named : c.Names s.computes) (nodes : c.Names s.nodes)
    (pools : c.Names s.pools) :
    s.reconcileComputes.Uses c.Through fun _ => True :=
  Schedulers.reconcileIn_uses _ _ _ _ looks_through (put_through named) (put_through nodes)
    (put_through pools)

theorem reconcileMicroVMs_through (named : c.Names s.microVMs) (nodes : c.Names s.nodes)
    (pools : c.Names s.pools) :
    s.reconcileMicroVMs.Uses c.Through fun _ => True :=
  Schedulers.reconcileIn_uses _ _ _ _ looks_through (put_through named) (put_through nodes)
    (put_through pools)

theorem reconcileDisks_through (named : c.Names s.disks) :
    s.reconcileDisks.Uses c.Through fun _ => True := by
  refine lists_through (fun _ => trivial) fun nodes =>
    lists_through (fun _ => trivial) fun disks => ?_
  refine .perform (.inl rfl) fun now => ?_
  exact schedules_through named fun _ _ => trivial

theorem reconcileReplicas_through (named : c.Names s.replicas) :
    s.reconcileReplicas.Uses c.Through fun _ => True := by
  refine lists_through (fun _ => trivial) fun nodes =>
    lists_through (fun _ => trivial) fun replicas => ?_
  refine lists_through (fun _ => trivial) fun pools => .perform (.inl rfl) fun now => ?_
  exact schedules_through named (chooseForReplica_looks s _ _ _)

end

/-- The passes of all controllers of the process keep to the registries that they name. -/
theorem registered_confined {c : Schedulers} {functions : FunctionController} :
    ∀ pass ∈ registered c functions, pass.Confined := by
  intro pass mem
  simp only [registered, List.mem_cons, List.not_mem_nil, or_false] at mem
  rcases mem with rfl | rfl | rfl | rfl | rfl | rfl
  · exact lists_through (fun _ => trivial) fun _ => trivial
  · exact reconcileComputes_through ⟨_, .head _, rfl⟩ ⟨_, .tail _ (.head _), rfl⟩ ⟨_,
      .tail _ (.tail _ (.head _)), rfl⟩
  · exact reconcileMicroVMs_through ⟨_, .head _, rfl⟩ ⟨_, .tail _ (.head _), rfl⟩ ⟨_,
      .tail _ (.tail _ (.head _)), rfl⟩
  · exact reconcileDisks_through ⟨_, .tail _ (.head _), rfl⟩
  · exact reconcileReplicas_through ⟨_, .tail _ (.head _), rfl⟩
  · refine FunctionController.reconcile_follows (through_rules ?_)
    intro S ST r own
    cases own with
    | functions => exact ⟨_, .head _, rfl⟩
    | instances => exact ⟨_, .tail _ (.head _), rfl⟩
    | computes => exact ⟨_, .tail _ (.tail _ (.head _)), rfl⟩

/-- `Manager.RunOnce` once it leads: the pass that is going on and the controllers to come. -/
structure Round where
  tenure : Tenure
  current : Option (Controller × Prog (Except Error Unit)) := none
  waiting : List Controller

namespace Round

/-- The pass that is going on is one whose registries are all bound to the context of the run. -/
def Bound (round : Round) : Prop :=
  ∀ c rest, round.current = some (c, rest) → ∀ h ∈ c.handles, h.bound = true

/-- One step of the run or of the world around it; `may` says where a renewal may fail. -/
inductive Step (may : Round → Prop) : Round → Round → Prop
  | others {tenure current waiting} (shared : Shared) :
      Step may ⟨tenure, current, waiting⟩ ⟨{ tenure with shared := shared }, current, waiting⟩
  | renewalFails {tenure current waiting} (ok : may ⟨tenure, current, waiting⟩) :
      Step may ⟨tenure, current, waiting⟩ ⟨{ tenure with cancelled := true }, current, waiting⟩
  | begins {tenure c waiting} (leads : tenure.cancelled = false) :
      Step may ⟨tenure, none, c :: waiting⟩ ⟨tenure, some (c, c.reconcile), waiting⟩
  | breaks {tenure waiting} (lost : tenure.cancelled = true) :
      Step may ⟨tenure, none, waiting⟩ ⟨tenure, none, []⟩
  | operates {s s' c op next reply waiting} (ran : c.operates s op reply s') :
      Step may ⟨s, some (c, .call op next), waiting⟩ ⟨s', some (c, next reply), waiting⟩
  | returns {tenure c result waiting} :
      Step may ⟨tenure, some (c, .ret result), waiting⟩ ⟨tenure, none, waiting⟩

/-- Nothing is written late, a cancelled context stops the pass that is going on, and every pass
keeps to its registries. -/
structure Held (round : Round) : Prop where
  none_late : round.tenure.late = []
  stops : round.tenure.cancelled = true → round.Bound
  goes : ∀ c rest, round.current = some (c, rest) → rest.Uses c.Through fun _ => True
  coming : ∀ c ∈ round.waiting, c.Confined

theorem canceledReply_of_writes {op : Op} (writes : op.reads = false) :
    canceledReply op ≠ none := by
  cases op <;> simp_all [Op.reads, canceledReply]

theorem operates_late {c : Controller} {s s' : Tenure} {op : Op} {reply : op.Reply}
    (ran : c.operates s op reply s') (stops : s.cancelled = true → ∀ h ∈ c.handles, h.bound = true)
    (goes : c.Through op) : s'.late = s.late ∧ s'.cancelled = s.cancelled := by
  unfold Controller.operates at ran
  cases refused : c.refusal s op with
  | some refusal =>
    rw [refused] at ran
    rw [ran.2]
    exact ⟨rfl, rfl⟩
  | none =>
    rw [refused] at ran
    obtain ⟨shared, -, rfl⟩ := ran
    refine ⟨if_neg ?_, rfl⟩
    intro late
    obtain ⟨cancelled, writes⟩ := Bool.and_eq_true_iff.mp late
    have writes : op.reads = false := by simpa using writes
    -- a write is one of a registry of the pass, and that registry is bound
    obtain ⟨h, mem, carried⟩ := goes.resolve_left (ne_true_of_eq_false writes)
    have stopped : c.handles.any (fun h => h.bound && h.carries op) = true :=
      List.any_eq_true.mpr ⟨h, mem, Bool.and_eq_true_iff.mpr ⟨stops cancelled h mem, carried⟩⟩
    rw [Controller.refusal, stopped, cancelled] at refused
    exact canceledReply_of_writes writes refused

theorem Step.held {s s' : Round} (step : Step Bound s s') (held : s.Held) : s'.Held := by
  obtain ⟨none_late, stops, goes, coming⟩ := held
  cases step with
  | others shared => exact ⟨none_late, stops, goes, coming⟩
  | renewalFails ok => exact ⟨none_late, fun _ => ok, goes, coming⟩
  | begins leads =>
    refine ⟨none_late, ?_, ?_, fun c mem => coming c (.tail _ mem)⟩
    · intro lost
      cases leads.symm.trans lost
    · rintro c rest ⟨⟩
      exact coming _ (.head _)
  | breaks lost => exact ⟨none_late, nofun, nofun, nofun⟩
  | returns => exact ⟨none_late, nofun, nofun, coming⟩
  | operates ran =>
    obtain ⟨through, rest⟩ := goes _ _ rfl
    obtain ⟨late, cancelled⟩ := operates_late ran (fun lost => stops lost _ _ rfl) through
    refine ⟨late.trans none_late, ?_, ?_, coming⟩
    · rintro lost c rest ⟨⟩
      exact stops (cancelled.symm.trans lost) _ _ rfl
    · rintro c later ⟨⟩
      exact rest _

/-- A run in which the lease is lost only between passes or during one that is bound to the
context. -/
theorem no_write_after_loss (c : Schedulers) (functions : FunctionController) {shared : Shared}
    {round : Round}
    (run : Relation.ReflTransGen (Step Bound) ⟨{ shared := shared }, none,
      registered c functions⟩ round) :
    round.tenure.late = [] := by
  have held : round.Held := by
    induction run with
    | refl => exact ⟨rfl, nofun, nofun, registered_confined⟩
    | tail _ step ih => exact step.held ih
  exact held.none_late

section

variable {may : Round → Prop} {c : Controller} {waiting : List Controller}

theorem completes (prog : Prog (Except Error Unit)) (now : Tenure) :
    Relation.ReflTransGen (Step may) ⟨now, some (c, prog), waiting⟩ ⟨(prog.run c.answer now).2,
      none, waiting⟩ := by
  induction prog generalizing now with
  | ret result => exact .single .returns
  | call op next ih => exact .head (.operates (c.answer_operates now op)) (ih _ _)

/-- The next pass from its start to its end, on a store without faults. -/
def advance (lost : Bool) (round : Round) : Round :=
  match round with
  | ⟨now, none, c :: waiting⟩ =>
    if now.cancelled then ⟨now, none, []⟩
    else ⟨(c.reconcile.run c.answer { now with cancelled := lost }).2, none, waiting⟩
  | round => round

theorem advances (lost : Bool) (round : Round)
    (ok : lost = true → ∀ c ∈ round.waiting.head?,
      may ⟨round.tenure, some (c, c.reconcile), round.waiting.tail⟩) :
    Relation.ReflTransGen (Step may) round (round.advance lost) := by
  obtain ⟨⟨shared, cancelled, late⟩, current, waiting⟩ := round
  cases current with
  | some pass => exact .refl
  | none =>
    cases waiting with
    | nil => exact .refl
    | cons c waiting =>
      cases cancelled with
      | true => exact .single (.breaks rfl)
      | false =>
        apply Relation.ReflTransGen.head (.begins rfl)
        cases lost with
        | false => exact completes _ _
        | true => exact .head (.renewalFails (ok rfl c rfl)) (completes _ _)

open Schedulers (sampleSchedulers sampleStart)

def sampleRound : Round :=
  ⟨{ shared := sampleStart.shared }, none, registered sampleSchedulers Cluster.sampleController⟩

/-- The lease is lost as the compute scheduler starts: its pass ends with a refusal, no other
follows. -/
theorem no_write_after_loss_computes :
    ((sampleRound.advance false).advance true).tenure.cancelled = true ∧
      ((sampleRound.advance false).advance true).tenure.late = [] := by
  refine ⟨by decide +kernel,
    no_write_after_loss _ _ ((advances false sampleRound nofun).trans (advances true _ ?_))⟩
  intro _ c head _ _ same
  cases head
  cases same
  decide

/-- Lost as the disk scheduler starts, it still sees a disk placed. -/
theorem disk_written_after_loss :
    ∃ round, Relation.ReflTransGen (Step fun _ => True) sampleRound round ∧
    round.tenure.late ≠ [] := by
  refine ⟨(((sampleRound.advance false).advance false).advance false).advance true, ?_,
    by decide +kernel⟩
  exact (((advances false _ nofun).trans (advances false _ nofun)).trans
    (advances false _ nofun)).trans
    (advances true _ fun _ _ _ => trivial)

end

end Round

end Infrastructure.Controllers
