import Infrastructure.Cluster.Formats
import Infrastructure.Controllers.Upkeep

/-! How the deletion of function instances reaches their computes: what a pass of the function
controller that meets no fault leaves behind. -/

namespace Infrastructure.Controllers.FunctionController

open Concurrency State Domain List Option Program Registry
open FunctionService.Service (setInstancePhase newUID)

section

variable {c : FunctionController} {insts : List FunctionInstance}
    {stale : String → FunctionInstanceSpec → Prop} {owed : FunctionInstance → Prop}
variable {s : Logged}

variable (wired : c.Wired) (writable : c.Writable)

include wired writable

variable {known : KnownComputes} {fn : Function}

theorem fillPool_served {mine : List FunctionInstance} {readiness : Readiness}
    (incl : ∀ inst ∈ mine, inst ∈ insts)
    (course : c.Course insts (fun _ _ => False) owed s.shared) :
    (c.fillPool fn mine known readiness).Ends steady
      (fun _ s' => c.Course insts (fun _ _ => False) owed s'.shared) s := by
  apply (keeps_answering (syncInstances_course wired incl course)).bind
  rintro reply s' ⟨synced, live⟩
  cases reply with
  | error err => exact synced
  | ok ready =>
    dsimp only
    rw [perform_bind]
    apply answering_look rfl trivial
    intro time _ _
    apply (keeps_answering (createEach_course wired _ known synced)).bind
    rintro ⟨later, reply⟩ mid created
    cases reply with
    | error err => exact created
    | ok done =>
      apply (evictIdle_served wired writable (live ready rfl) created).bind
      intro reply final evicted
      cases reply with
      | error err => exact evicted
      | ok kept =>
        apply (keeps_answering (keeps_looking (setFunctionPhase_looks _ _ _ _) trivial)).bind
        rintro new _ ⟨-, rfl⟩
        apply (keeps_answering (save_course wired evicted)).bind
        intro out last saved
        exact saved

theorem ensureFunction_served {mine : List FunctionInstance} (incl : ∀ inst ∈ mine, inst ∈ insts)
    (course : c.Course insts (fun _ _ => False) owed s.shared) :
    (c.ensureFunction fn mine known).Ends steady
    (fun _ s' => c.Course insts (fun _ _ => False) owed s'.shared) s := by
  have saves {fn : Function} {phase : Phase} {why msg : String} :
      (do let new ← setFunctionPhase fn phase why msg
          return (known, ← c.save new) : Prog _).Ends steady
        (fun _ s' => c.Course insts (fun _ _ => False) owed s'.shared) s := by
    apply (keeps_answering (keeps_looking (setFunctionPhase_looks _ _ _ _) trivial)).bind
    rintro new _ ⟨-, rfl⟩
    apply (keeps_answering (save_course wired course)).bind
    intro out last saved
    exact saved
  rw [ensureFunction]
  dsimp only
  split
  · exact saves
  · apply (keeps_answering (keeps_looking (ready_looks _) trivial)).bind
    rintro reply _ ⟨-, rfl⟩
    cases reply with
    | error err =>
      apply (keeps_answering (keeps_looking (setFunctionPhase_looks _ _ _ _) trivial)).bind
      rintro new _ ⟨-, rfl⟩
      apply (keeps_answering (put_function_course wired course)).bind
      intro out last saved
      exact saved
    | ok readiness =>
      dsimp only
      split
      · exact fillPool_served wired writable incl course
      · exact saves

/-- What is still owed once the functions before these have been dealt with. -/
def Due (insts : List FunctionInstance) (functions : List Function)
    (record : FunctionInstance) : Prop :=
  ∃ fn ∈ functions, fn.metadata.isDeleting = true ∧ fn.metadata.uid = record.spec.functionId ∧
    ∃ copy ∈ insts, copy.metadata.isDeleting = true ∧ copy.spec = record.spec

theorem reconcileFunction_served {fns : List Function}
    (course : c.Course insts (fun _ _ => False) (Due insts (fn :: fns)) s.shared) :
    (c.reconcileFunction fn
      (insts.filter fun inst => inst.spec.functionId == fn.metadata.uid) known).Ends steady
      (fun _ s' => c.Course insts (fun _ _ => False) (Due insts fns) s'.shared) s := by
  have incl (inst : FunctionInstance)
      (mem : inst ∈ insts.filter fun inst => inst.spec.functionId == fn.metadata.uid) :
        inst ∈ insts :=
    mem_of_mem_filter mem
  -- what is owed for this function is owed for a copy among its instances
  have done (rcd : FunctionInstance) (due : Due insts (fn :: fns) rcd) :
      Due insts fns rcd ∨ (fn.metadata.isDeleting = true ∧
        ∃ copy ∈ insts.filter fun inst => inst.spec.functionId == fn.metadata.uid,
          copy.metadata.isDeleting = true ∧ copy.spec = rcd.spec) := by
    obtain ⟨other, mem, mark, eq, copy, inside, gone, spec⟩ := due
    rcases mem_cons.mp mem with rfl | later
    · refine .inr ⟨mark, copy, mem_filter.mpr ⟨inside, ?_⟩, gone, spec⟩
      rw [spec, eq]
      exact beq_self_eq_true _
    · exact .inl ⟨other, later, mark, eq, copy, inside, gone, spec⟩
  rw [reconcileFunction]
  split
  · rw [finalizeFunction]
    split
    · have known (inst : FunctionInstance)
          (mem : inst ∈ insts.filter fun inst => inst.spec.functionId == fn.metadata.uid) :
            Known insts inst := by
        cases mark : inst.metadata.isDeleting
        · exact .inr ⟨inst, incl inst mem, mark, rfl⟩
        · exact .inl mark
      apply (deleteEach_served wired writable known course).bind
      rintro reply s' ⟨rfl, later⟩
      apply later.mono (fun _ _ _ => .inr)
      rintro _ rcd _ _ ⟨due, away⟩
      rcases done rcd due with still | ⟨-, copy, mem, gone, spec⟩
      · exact .inr still
      · exact absurd (congrArg FunctionInstanceSpec.computeId spec.symm) (away copy mem gone)
    · next empty =>
      have later : c.Course insts (fun _ _ => False) (Due insts fns) s.shared := by
        apply course.mono (fun _ _ _ => .inr)
        intro _ rcd _ _ due
        rcases done rcd due with still | ⟨-, copy, mem, -⟩
        · exact .inr still
        · rw [not_not.mp empty] at mem
          cases mem
      dsimp only
      split
      · apply (keeps_answering (delete_function_course wired later)).bind
        intro reply s' last
        exact last
      · apply (keeps_answering (save_course wired later)).bind
        intro reply s' last
        exact last
  · next live =>
    apply (ensureFunction_served wired writable incl course).mono
    intro _ s' later
    apply later.mono (fun _ _ _ => .inr)
    intro _ rcd _ _ due
    exact (done rcd due).elim .inr fun contrary => absurd contrary.1 live

theorem reconcileFunctions_served {fns : List Function} (known : KnownComputes)
    (course : c.Course insts (fun _ _ => False) (Due insts fns) s.shared) :
    (c.reconcileFunctions insts fns known).Ends steady
      (fun _ s' => c.Course insts (fun _ _ => False) (fun _ => False) s'.shared) s := by
  induction fns generalizing s known with
  | nil =>
    apply course.mono (fun _ _ _ => .inr)
    rintro _ rcd _ _ ⟨fn, mem, -⟩
    cases mem
  | cons fn fns ih =>
    apply (reconcileFunction_served wired writable course).bind
    rintro ⟨known, out⟩ s' later
    have rest (errs : List Error) : (do return errs ++ (← c.reconcileFunctions insts fns known) :
        Prog (List Error)).Ends steady
          (fun _ s' => c.Course insts (fun _ _ => False) (fun _ => False) s'.shared) s' := by
      apply (ih known later).bind
      intro errs final last
      exact last
    cases out with
    | error err => exact rest _
    | ok done => exact rest _

end

section

variable {c : FunctionController} {insts : List FunctionInstance}
    {stale : String → FunctionInstanceSpec → Prop}
variable {owed : FunctionInstance → Prop} {s : Logged}

theorem attempt_served {context : String} {step : Prog (Except Error Unit)} {post : Shared → Prop}
    (keeps : step.Ends steady (fun _ s' => post s'.shared) s) :
    (attempt context step).Ends steady (fun _ s' => post s'.shared) s := by
  apply keeps.bind
  intro reply s' later
  cases reply <;> exact later

variable (wired : c.Wired)

include wired

theorem retireOrphans_served {referenced : List String} {computes : List Compute}
    (course : c.Course insts stale owed s.shared) :
    (c.retireOrphans referenced computes).Ends steady
      (fun _ s' => c.Course insts stale owed s'.shared) s := by
  induction computes generalizing s with
  | nil => exact course
  | cons cp computes ih =>
    rw [retireOrphans]
    split
    · exact ih course
    · rw [perform_bind]
      apply answering_look rfl trivial
      intro time _ _
      split
      · exact ih course
      · rw [perform_bind]
        apply answering_look rfl trivial
        intro time _ _
        apply (attempt_served (keeps_answering (retireAttempts_course wired _ _ 16 course))).bind
        intro errs s' later
        apply (ih later).bind
        intro errs final last
        exact last

def Closing (insts : List FunctionInstance) (uid : String) (spec : FunctionInstanceSpec) : Prop :=
  ∃ inst ∈ insts, inst.metadata.isDeleting = true ∧ inst.metadata.uid = uid ∧ inst.spec = spec

theorem finalizeInstance_served {inst : FunctionInstance} {rest : List FunctionInstance}
    (mem : inst ∈ insts) (mark : inst.metadata.isDeleting = true)
    (once : (insts.map (·.metadata.uid)).Nodup)
    (course : c.Course insts (Closing (inst :: rest)) owed s.shared) :
    (c.finalizeInstance inst).Ends steady
      (fun _ s' => c.Course insts (Closing rest) owed s'.shared) s := by
  rw [finalizeInstance]
  cases known : c.computes.stored s.shared inst.spec.computeId with
  | none =>
    apply (get_absent_served trivial (course.computesReadable.value_none known)).bind
    rintro reply _ ⟨rfl, rfl⟩
    have sole : Sole inst := by
      apply (course.closing inst mem mark).resolve_left
      rintro ⟨cp, got⟩
      rw [known] at got
      cases got
    have last : (inst.metadata.removeFinalizer functionInstanceFinalizer).finalizers = [] := sole
    dsimp only
    rw [if_pos (by rfl), if_pos last]
    apply (delete_served _).mono
    rintro reply _ ⟨rfl, rfl⟩
    apply course.erase_instance wired
    · rintro other spec ne ⟨copy, among, gone, eq, equal⟩
      rcases mem_cons.mp among with rfl | later
      · exact absurd eq.symm ne
      · exact ⟨copy, later, gone, eq, equal⟩
    · intro other inside eq
      rw [inj_on_of_nodup_map once inside mem eq]
      exact mark
  | some cp =>
    apply (get_served trivial known).bind
    rintro reply _ ⟨rfl, rfl⟩
    apply course.mono _ (fun _ _ _ _ => .inr)
    rintro uid rcd held ⟨copy, among, gone, eq, equal⟩
    rcases mem_cons.mp among with rfl | later
    · left
      rw [Backed, ← equal]
      exact ⟨cp, known⟩
    · exact .inr ⟨copy, later, gone, eq, equal⟩

theorem finalizeInstances_served {batch : List FunctionInstance}
    (incl : ∀ inst ∈ batch, inst ∈ insts) (once : (insts.map (·.metadata.uid)).Nodup)
    (course : c.Course insts (Closing batch) owed s.shared) :
    (c.finalizeInstances batch).Ends steady
      (fun _ s' => c.Course insts (fun _ _ => False) owed s'.shared) s := by
  induction batch generalizing s with
  | nil =>
    apply course.mono _ (fun _ _ _ _ => .inr)
    rintro _ rcd _ ⟨copy, mem, -⟩
    cases mem
  | cons inst batch ih =>
    have ih {now : Logged} := @ih now fun other mem => incl other (.tail _ mem)
    rw [finalizeInstances]
    split
    · next mark =>
      apply (attempt_served
        (finalizeInstance_served wired (incl inst (.head _)) mark once course)).bind
      intro errs s' later
      apply (ih later).bind
      intro errs final last
      exact last
    · next live =>
      apply ih
      apply course.mono _ (fun _ _ _ _ => .inr)
      rintro uid rcd held ⟨copy, among, gone, eq, equal⟩
      rcases mem_cons.mp among with rfl | later
      · exact absurd gone live
      · exact .inr ⟨copy, later, gone, eq, equal⟩

theorem reapInstances_served (writable : c.Writable) {fns : List Function}
    {batch : List FunctionInstance} (incl : ∀ inst ∈ batch, inst ∈ insts)
    (course : c.Course insts stale owed s.shared) :
    (c.reapInstances fns batch).Ends steady
    (fun _ s' => c.Course insts stale owed s'.shared) s := by
  induction batch generalizing s with
  | nil => exact course
  | cons inst batch ih =>
    have ih {now : Logged} := @ih now fun other mem => incl other (.tail _ mem)
    rw [reapInstances]
    split
    · exact ih course
    · next kept =>
      have live : inst.metadata.isDeleting = false := by
        simpa using (not_or.mp kept).1
      have known : Known insts inst := .inr ⟨inst, incl inst (.head _), live, rfl⟩
      have deleted : (c.deleteInstance inst).Ends steady
          (fun _ s' => c.Course insts stale owed s'.shared) s := by
        apply (deleteInstance_served wired writable known course).mono
        rintro reply s' ⟨-, later⟩
        exact later.mono (fun _ _ _ => .inr) fun _ _ _ _ due => .inr due.1
      apply (attempt_served deleted).bind
      intro errs s' later
      apply (ih later).bind
      intro errs final last
      exact last

end

section

variable {c : FunctionController} {s : Logged}

theorem Recoverable.course (tidy : c.Tidy s.shared) (recoverable : c.Recoverable s.shared)
    {fns : List Function} {insts : List FunctionInstance} (seen : c.functions.Listing s.shared fns)
    (got : c.instances.Listing s.shared insts) :
    c.Course insts (Closing insts) (Due insts fns) s.shared where
  filed := tidy.computes.filed
  named := tidy.computes.named
  computesReadable := tidy.computes.readable
  instancesReadable := tidy.instances.readable
  present inst mem _ := ⟨inst, (tidy.instances.mem_listing got inst).mp mem, rfl⟩
  closing inst mem _ :=
    (recoverable.backed _ inst ((tidy.instances.mem_listing got inst).mp mem)).imp id And.right
  backed uid inst held := by
    rcases recoverable.backed uid inst held with backed | ⟨marked, -⟩
    · exact .inl backed
    · exact .inr ⟨inst, got.complete uid inst held (tidy.instances.listable uid inst held), marked,
        tidy.instances.filed uid inst held, rfl⟩
  marked uid inst held marked := by
    rcases recoverable.pending uid inst held marked with retired | ⟨fn, present, gone⟩
    · exact .inl retired
    · right
      refine ⟨fn, seen.complete _ fn present (tidy.functions.listable _ fn present), gone,
        tidy.functions.filed _ fn present, inst, ?_, marked, rfl⟩
      exact got.complete uid inst held (tidy.instances.listable uid inst held)

theorem reconcile_propagates (wired : c.Wired) (writable : c.Writable)
    (tidy : c.Tidy s.shared) (recoverable : c.Recoverable s.shared) :
    c.reconcile.Ends steady (fun _ s' => c.Propagated s'.shared) s := by
  have orderly (dir : String) (got : List String) (ok : Op.served (.keys dir) (.ok got)) :
      got.Nodup := by
    obtain ⟨keys, eq, once⟩ := ok
    cases eq
    exact once
  rw [reconcile]
  apply ((list_served trivial tidy.functions.readable).and
    (list_once orderly trivial tidy.functions.filed)).bind
  rintro _ _ ⟨⟨rfl, fns, rfl⟩, -, seen⟩
  apply ((list_served trivial tidy.instances.readable).and
    (list_once orderly trivial tidy.instances.filed)).bind
  rintro _ _ ⟨⟨rfl, insts, rfl⟩, -, got⟩
  apply (list_served trivial tidy.computes.readable).bind
  rintro _ _ ⟨rfl, computes, rfl⟩
  have course := recoverable.course tidy (seen fns rfl).1 (got insts rfl).1
  apply (retireOrphans_served wired course).bind
  intro orphans _ course
  apply (finalizeInstances_served wired (fun _ mem => mem) (got insts rfl).2 course).bind
  intro finalized _ course
  apply (reconcileFunctions_served wired writable _ course).bind
  intro reconciled _ course
  apply (reapInstances_served wired writable (fun _ mem => mem) course).bind
  intro reaped final course uid inst held mark
  exact (course.marked uid inst held mark).resolve_right id

theorem Tidy.passes (wired : c.Wired) {start : Logged} (tidy : c.Tidy start.shared)
    (reached : Passes logged (fun _ : Unit => c.reconcile) (fun _ _ => True) start s) :
    c.Tidy s.shared := by
  induction reached with
  | start => exact tidy
  | run _ _ runs ih => exact runs.keeps (reconcile_neat wired _ ih) ih
  | drift _ moved ih => exact ih.drift moved.1

/-- After any passes, one that meets no fault takes every deletion of an instance on to its compute,
where what it finds can be made up for. -/
theorem deletion_propagates (wired : c.Wired) (writable : c.Writable) {start : Logged}
    (tidy : c.Tidy start.shared)
    (reached : Passes logged (fun _ : Unit => c.reconcile) (fun _ _ => True) start s)
    (recoverable : c.Recoverable s.shared) :
    c.reconcile.Keeps steady (fun _ => True) (fun _ s' => c.Propagated s'.shared) s :=
  reconcile_propagates wired writable (tidy.passes wired reached) recoverable

/-- Whatever fails in the passes and wherever they stop, every function, instance and compute can be
read and is filed under its own uid. -/
theorem passes_tidy (wired : c.Wired) {start : Logged} (tidy : c.Tidy start.shared)
    (reached : Passes logged (fun _ : Unit => c.reconcile) (fun _ _ => True) start s) :
    c.Tidy s.shared :=
  tidy.passes wired reached

end

section

open Cluster

def shortFunction : Function where
  metadata := { uid := "fn-1", finalizers := [functionFinalizer] }
  spec := { subnetId := "subnet-1", image := "base", port := 8080, warmPool :=
    { idleTTLSeconds := 60 } }
  status := {}

def idleInstance : FunctionInstance where
  metadata := { uid := "fninst-1", finalizers := [functionInstanceFinalizer] }
  spec := ⟨"fn-1", "function-compute-30000"⟩
  status := {
    phase := .ready, state := .warm, lastUsedAt := noon, port := 30000, nodeName := "node-a" }

def idleCompute : Compute where
  metadata := { uid := "function-compute-30000", labels :=
    [(FunctionPool.label, "fn-1")], finalizers := [computeFinalizer] }
  spec := { subnetId := "subnet-1", image := "base" }
  status := { phase := .ready, nodeName := "node-a" }

def idleStart : Logged :=
  ⟨⟨storeOf (sampleController.functions.entry shortFunction ::
    sampleController.instances.entry idleInstance ::
    sampleController.computes.entry idleCompute :: sampleSite), fiveMinutes⟩, []⟩

def computesFail (s : Logged) (op : Op) : op.Reply × Logged :=
  match op with
  | .cas key old new =>
    if key = sampleController.computes.key "function-compute-30000" then
      (.error (.new "context deadline exceeded"), s)
    else loggedAnswer s (.cas key old new)
  | op => loggedAnswer s op

def hampered (pass : Prog (Except Error Unit)) (s : Logged) : Logged :=
  (pass.run (fun op now => computesFail now op) s).2

def halfMarked : Logged := hampered sampleController.reconcile idleStart

def marks (now : Logged) : Option (Bool × String) × Option Bool :=
  ((sampleController.instances.stored now.shared "fninst-1").map fun inst =>
      (inst.metadata.isDeleting, inst.spec.computeId),
    (sampleController.computes.stored now.shared "function-compute-30000").map fun cp =>
      cp.metadata.isDeleting)

theorem computesFail_exec (s : Logged) (op : Op) :
    logged.exec s op (computesFail s op).1 (computesFail s op).2 := by
  cases op with
  | cas key old new =>
    rw [computesFail]
    split
    · exact ⟨.inl rfl, rfl⟩
    · exact loggedAnswer_exec s _
  | _ => exact loggedAnswer_exec s _

theorem hampered_passes {pass : Prog (Except Error Unit)} (s : Logged) :
    Passes logged (fun _ : Unit => pass) (fun _ _ => True) s (hampered pass s) :=
  Passes.answered computesFail_exec .start () trivial

theorem faultless_keeps {pass : Prog (Except Error Unit)} {post : Logged → Prop} {s : Logged}
    (keeps : pass.Ends steady (fun _ s' => post s') s) : post (faultless pass s) :=
  keeps.answered loggedAnswer_steady

theorem idleStart_tidy : sampleController.Tidy idleStart.shared where
  functions := coherent_of_wellKept (by decide +kernel)
  instances := coherent_of_wellKept (by decide +kernel)
  computes := coherent_of_wellKept (by decide +kernel)

theorem halfMarked_marks : marks (faultless sampleController.reconcile halfMarked) =
    (some (true, "function-compute-30000"), some false) := by
  decide +kernel

/-- An instance is marked and its compute is not, and a pass without faults leaves it so. -/
theorem halfMarked_stays : sampleController.Tidy idleStart.shared ∧
    Passes logged (fun _ : Unit => sampleController.reconcile) (fun _ _ => True)
      idleStart halfMarked ∧
    ¬sampleController.reconcile.Keeps steady (fun _ => True)
      (fun _ s' => sampleController.Propagated s'.shared)
      halfMarked := by
  refine ⟨idleStart_tidy, hampered_passes idleStart, ?_⟩
  intro keeps
  have propagated := faultless_keeps keeps
  have evaluated := halfMarked_marks
  simp only [marks, Prod.mk.injEq, map_eq_some_iff] at evaluated
  obtain ⟨⟨inst, found, marked, same⟩, cp, stored, live⟩ := evaluated
  have retired := propagated "fninst-1" inst found marked cp (same ▸ stored)
  rw [live] at retired
  cases retired

/-- A function and its instance are being deleted; the compute is not marked yet. -/
def closingStart : Logged :=
  ⟨⟨storeOf [
    sampleController.functions.entry
      { shortFunction with metadata :=
        { shortFunction.metadata with deletionTimestamp := some 0 } },
    sampleController.instances.entry
      { idleInstance with metadata := { idleInstance.metadata with deletionTimestamp := some 0 } },
    sampleController.computes.entry idleCompute], fiveMinutes⟩, []⟩

theorem closingStart_tidy : sampleController.Tidy closingStart.shared where
  functions := coherent_of_wellKept (by decide +kernel)
  instances := coherent_of_wellKept (by decide +kernel)
  computes := coherent_of_wellKept (by decide +kernel)

theorem closingStart_recoverable : sampleController.Recoverable closingStart.shared := by
  have cp : (sampleController.computes.stored closingStart.shared
      "function-compute-30000").isSome := by
    decide +kernel
  have fn : ((sampleController.functions.stored closingStart.shared "fn-1").map fun fn =>
      fn.metadata.isDeleting) = some true := by
    decide +kernel
  have ok : sampleController.instances.everyRecord (fun _ read => read.spec.functionId == "fn-1" &&
      read.spec.computeId == "function-compute-30000") closingStart.shared = true := by
    decide +kernel
  have specs (uid : String) (inst : FunctionInstance)
      (got : sampleController.instances.stored closingStart.shared uid = some inst) :
      inst.spec.functionId = "fn-1" ∧ inst.spec.computeId = "function-compute-30000" := by
    obtain ⟨read, v, rfl, passed⟩ := check_of_everyRecord ok got
    simpa using passed
  constructor
  · intro uid inst got _
    right
    rw [(specs uid inst got).1]
    exact map_eq_some_iff.mp fn
  · intro uid inst got
    left
    rw [Backed, (specs uid inst got).2]
    exact isSome_iff_exists.mp cp

theorem sampleController_wired : sampleController.Wired := ⟨rfl, rfl, rfl⟩

theorem sampleController_writable : sampleController.Writable :=
  ⟨fun _ => ⟨_, rfl⟩, fun _ => ⟨_, rfl⟩⟩

theorem deletion_propagates_closingStart : sampleController.Recoverable closingStart.shared ∧
    sampleController.reconcile.Keeps steady (fun _ => True)
      (fun _ s' => sampleController.Propagated s'.shared)
      closingStart :=
  ⟨closingStart_recoverable,
    deletion_propagates sampleController_wired sampleController_writable closingStart_tidy .start
    closingStart_recoverable⟩

theorem passes_tidy_halfMarked : sampleController.Tidy halfMarked.shared :=
  passes_tidy sampleController_wired idleStart_tidy (hampered_passes idleStart)

end

end Infrastructure.Controllers.FunctionController
