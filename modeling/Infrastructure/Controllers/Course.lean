import Infrastructure.Controllers.FunctionController
import Infrastructure.State.Steady

/-! The deletion of function instances and of their computes: what holds all through a pass of the
function controller, and what each of its operations does to it. -/

namespace Infrastructure.Controllers.FunctionController

open Concurrency State Domain List Registry
open FunctionService.Service (setInstancePhase newUID)

/-- The registries of the controller are those of their kinds. -/
structure Wired (c : FunctionController) : Prop where
  functions : c.functions.kind = kindFunction
  instances : c.instances.kind = kindFunctionInstance
  computes : c.computes.kind = kindCompute

section

variable {c : FunctionController} (wired : c.Wired)

include wired

theorem Wired.instances_computes : c.instances.Disjoint c.computes :=
  disjoint_of_kinds wired.instances wired.computes (by decide)

theorem Wired.instances_functions : c.instances.Disjoint c.functions :=
  disjoint_of_kinds wired.instances wired.functions (by decide)

theorem Wired.computes_functions : c.computes.Disjoint c.functions :=
  disjoint_of_kinds wired.computes wired.functions (by decide)

end

variable (c : FunctionController)

def Backed (now : Shared) (inst : FunctionInstance) : Prop :=
  ∃ cp, c.computes.stored now inst.spec.computeId = some cp

/-- The compute of the instance is absent or marked for deletion. -/
def Retired (now : Shared) (inst : FunctionInstance) : Prop :=
  ∀ cp, c.computes.stored now inst.spec.computeId = some cp → cp.metadata.isDeleting = true

/-- Nothing but the controller's own finalizer keeps the instance. -/
def Sole (inst : FunctionInstance) : Prop :=
  (inst.metadata.removeFinalizer functionInstanceFinalizer).finalizers = []

/-- The deletion of every instance has reached its compute. -/
def Propagated (now : Shared) : Prop :=
  ∀ uid inst, c.instances.stored now uid = some inst → inst.metadata.isDeleting = true →
    c.Retired now inst

/-- What a pass without faults can make up for: a deletion is behind only for a function that is
being deleted, and an instance without a compute is about to go. -/
structure Recoverable (now : Shared) : Prop where
  pending : ∀ uid inst, c.instances.stored now uid = some inst → inst.metadata.isDeleting = true →
    c.Retired now inst ∨
      ∃ fn, c.functions.stored now inst.spec.functionId = some fn ∧ fn.metadata.isDeleting = true
  backed : ∀ uid inst, c.instances.stored now uid = some inst →
    c.Backed now inst ∨ (inst.metadata.isDeleting = true ∧ Sole inst)

/-- Throughout such a pass only `stale` instances lack a compute, and only `owed` ones have a
deletion that is behind. -/
structure Course (insts : List FunctionInstance) (stale : String → FunctionInstanceSpec → Prop)
    (owed : FunctionInstance → Prop) (now : Shared) : Prop where
  filed : c.computes.Filed now
  named : ∀ uid cp, c.computes.stored now uid = some cp → uid ≠ ""
  computesReadable : c.computes.Readable now
  instancesReadable : c.instances.Readable now
  present : ∀ inst ∈ insts, inst.metadata.isDeleting = false →
    ∃ cur, c.instances.stored now inst.metadata.uid = some cur ∧ cur.spec = inst.spec
  closing : ∀ inst ∈ insts, inst.metadata.isDeleting = true → c.Backed now inst ∨ Sole inst
  backed : ∀ uid inst, c.instances.stored now uid = some inst →
    c.Backed now inst ∨ stale uid inst.spec
  marked : ∀ uid inst, c.instances.stored now uid = some inst → inst.metadata.isDeleting = true →
    c.Retired now inst ∨ owed inst

section

variable {c} {insts : List FunctionInstance} {stale : String → FunctionInstanceSpec → Prop}
    {owed : FunctionInstance → Prop}
variable {now s' : Shared}

theorem Course.mono (course : c.Course insts stale owed now)
    {fewer : String → FunctionInstanceSpec → Prop}
    {less : FunctionInstance → Prop} (fresh : ∀ uid inst, c.instances.stored now uid = some inst →
      stale uid inst.spec → c.Backed now inst ∨ fewer uid inst.spec)
    (paid : ∀ uid inst, c.instances.stored now uid = some inst → inst.metadata.isDeleting = true →
      owed inst → c.Retired now inst ∨ less inst) : c.Course insts fewer less now where
  filed := course.filed
  named := course.named
  computesReadable := course.computesReadable
  instancesReadable := course.instancesReadable
  present := course.present
  closing := course.closing
  backed uid inst got := (course.backed uid inst got).elim .inl (fresh uid inst got)
  marked uid inst got marked :=
    (course.marked uid inst got marked).elim .inl (paid uid inst got marked)

variable {uid : String}

section

variable (wired : c.Wired) (course : c.Course insts stale owed now)

include wired course

theorem Course.set_compute {cp : Compute} (sets : c.computes.Sets now uid cp s')
    (own : cp.metadata.uid = uid) (name : uid ≠ "")
    (either : (∃ cur, c.computes.stored now uid = some cur ∧
        (cur.metadata.isDeleting = true → cp.metadata.isDeleting = true)) ∨
      ∀ key inst, c.instances.stored now key = some inst → inst.spec.computeId ≠ uid) :
    c.Course insts stale owed s' := by
  obtain ⟨v, wrote⟩ := sets.stored_self
  have eq := sets.stored_other wired.instances_computes
  have still (inst : FunctionInstance) (backed : c.Backed now inst) : c.Backed s' inst := by
    by_cases here : inst.spec.computeId = uid
    · exact ⟨_, here ▸ wrote⟩
    · rw [Backed, sets.stored_of_ne here]
      exact backed
  refine ⟨?_, ?_, course.computesReadable.sets sets,
    course.instancesReadable.sets_other sets wired.instances_computes, ?_, ?_, ?_, ?_⟩
  · intro other got held
    by_cases here : other = uid
    · rw [here, wrote] at held
      cases held
      rw [here]
      exact own
    · rw [sets.stored_of_ne here] at held
      exact course.filed other got held
  · intro other got held
    by_cases here : other = uid
    · exact here ▸ name
    · rw [sets.stored_of_ne here] at held
      exact course.named other got held
  · intro inst mem live
    rw [eq]
    exact course.present inst mem live
  · intro inst mem mark
    exact (course.closing inst mem mark).imp (still inst) id
  · intro key inst held
    rw [eq] at held
    exact (course.backed key inst held).imp (still inst) id
  · intro key inst held mark
    rw [eq] at held
    rcases course.marked key inst held mark with retired | due
    · left
      intro got there
      by_cases here : inst.spec.computeId = uid
      · rw [here, wrote] at there
        cases there
        rcases either with ⟨cur, known, keeps⟩ | fresh
        · exact keeps (retired cur (here ▸ known))
        · exact absurd here (fresh key inst held)
      · rw [sets.stored_of_ne here] at there
        exact retired got there
    · exact .inr due

theorem Course.set_instance {inst : FunctionInstance} (sets : c.instances.Sets now uid inst s')
    (spec : ∀ cur, c.instances.stored now uid = some cur → cur.spec = inst.spec)
    (backed : c.Backed now inst ∨ stale uid inst.spec) {more : FunctionInstance → Prop}
    (incl : ∀ rcd, owed rcd → more rcd)
    (mark : inst.metadata.isDeleting = true → ∀ rcd : FunctionInstance, rcd.spec = inst.spec →
      c.Retired now inst ∨ more rcd) : c.Course insts stale more s' := by
  obtain ⟨v, wrote⟩ := sets.stored_self
  have eq := sets.stored_other wired.instances_computes.symm
  refine ⟨?_, ?_, course.computesReadable.sets_other sets wired.instances_computes.symm,
    course.instancesReadable.sets sets, ?_, ?_, ?_, ?_⟩
  · intro other got held
    rw [eq] at held
    exact course.filed other got held
  · intro other got held
    rw [eq] at held
    exact course.named other got held
  · intro copy mem live
    obtain ⟨cur, held, sameSpec⟩ := course.present copy mem live
    by_cases here : copy.metadata.uid = uid
    · rw [here] at held ⊢
      exact ⟨_, wrote, (spec cur held).symm.trans sameSpec⟩
    · rw [sets.stored_of_ne here]
      exact ⟨cur, held, sameSpec⟩
  · intro copy mem gone
    rw [Backed, eq]
    exact course.closing copy mem gone
  · intro key rcd held
    by_cases here : key = uid
    · rw [here, wrote] at held
      cases held
      rw [here, Backed, eq]
      exact backed
    · rw [sets.stored_of_ne here] at held
      rw [Backed, eq]
      exact course.backed key rcd held
  · intro key rcd held gone
    by_cases here : key = uid
    · rw [here, wrote] at held
      cases held
      rw [Retired, eq]
      exact mark gone _ rfl
    · rw [sets.stored_of_ne here] at held
      rw [Retired, eq]
      exact (course.marked key rcd held gone).imp id (incl rcd)

theorem Course.erase_instance {fewer : String → FunctionInstanceSpec → Prop}
    (fresh : ∀ other spec, other ≠ uid → stale other spec → fewer other spec)
    (mark : ∀ inst ∈ insts, inst.metadata.uid = uid → inst.metadata.isDeleting = true) :
    c.Course insts fewer owed (now.erase (c.instances.key uid)) := by
  have computes (name : String) : (now.erase (c.instances.key uid)).value (c.computes.key name) =
      now.value (c.computes.key name) :=
        erase_value_of_ne _ (wired.instances_computes.symm name uid)
  have eq (name : String) : c.computes.stored (now.erase (c.instances.key uid)) name =
      c.computes.stored now name := by
    rw [Registry.stored, Registry.stored, computes]
  have kept {other : String} (ne : other ≠ uid) :
      c.instances.stored (now.erase (c.instances.key uid)) other =
        c.instances.stored now other := by
    rw [Registry.stored, Registry.stored,
      erase_value_of_ne _ fun keys => ne (c.instances.key_inj keys)]
  have remaining {other : String} {inst : FunctionInstance}
      (held : c.instances.stored (now.erase (c.instances.key uid)) other = some inst) :
      other ≠ uid ∧ c.instances.stored now other = some inst := by
    have ne : other ≠ uid := by
      rintro rfl
      rw [Registry.stored, erase_value_self] at held
      cases held
    exact ⟨ne, (kept ne).symm.trans held⟩
  refine ⟨?_, ?_, ?_, course.instancesReadable.erase _, ?_, ?_, ?_, ?_⟩
  · intro other got held
    rw [eq] at held
    exact course.filed other got held
  · intro other got held
    rw [eq] at held
    exact course.named other got held
  · intro other data
    rw [computes]
    exact course.computesReadable other data
  · intro inst mem live
    have ne : inst.metadata.uid ≠ uid := by
      intro here
      rw [mark inst mem here] at live
      cases live
    rw [kept ne]
    exact course.present inst mem live
  · intro inst mem gone
    rw [Backed, eq]
    exact course.closing inst mem gone
  · intro other inst held
    rw [Backed, eq]
    exact (course.backed other inst (remaining held).2).imp id
      (fresh other inst.spec (remaining held).1)
  · intro other inst held gone
    rw [Retired, eq]
    exact course.marked other inst (remaining held).2 gone

end

theorem Course.congr (course : c.Course insts stale owed now)
    (instances : ∀ uid, s'.value (c.instances.key uid) = now.value (c.instances.key uid))
    (computes : ∀ uid, s'.value (c.computes.key uid) = now.value (c.computes.key uid)) :
    c.Course insts stale owed s' := by
  have sameInstances (uid : String) : c.instances.stored s' uid = c.instances.stored now uid := by
    rw [Registry.stored, Registry.stored, instances]
  have sameComputes (uid : String) : c.computes.stored s' uid = c.computes.stored now uid := by
    rw [Registry.stored, Registry.stored, computes]
  refine ⟨?_, ?_, ?_, ?_, ?_, ?_, ?_, ?_⟩
  · intro uid cp
    rw [sameComputes]
    exact course.filed uid cp
  · intro uid cp
    rw [sameComputes]
    exact course.named uid cp
  · intro uid data
    rw [computes]
    exact course.computesReadable uid data
  · intro uid data
    rw [instances]
    exact course.instancesReadable uid data
  · intro inst mem live
    rw [sameInstances]
    exact course.present inst mem live
  · intro inst mem gone
    rw [Backed, sameComputes]
    exact course.closing inst mem gone
  · intro uid inst
    rw [sameInstances, Backed, sameComputes]
    exact course.backed uid inst
  · intro uid inst
    rw [sameInstances, Retired, sameComputes]
    exact course.marked uid inst

theorem Course.paid (course : c.Course insts stale owed now)
    (retired : ∀ cp, c.computes.stored now uid = some cp → cp.metadata.isDeleting = true) :
    c.Course insts stale (fun inst => owed inst ∧ inst.spec.computeId ≠ uid) now := by
  apply course.mono (fun _ _ _ => .inr)
  intro _ inst _ _ due
  by_cases here : inst.spec.computeId = uid
  · left
    rw [Retired, here]
    exact retired
  · exact .inr ⟨due, here⟩

end

section

variable {c} {insts : List FunctionInstance} {stale : String → FunctionInstanceSpec → Prop}
    {owed : FunctionInstance → Prop}
variable {s : Logged}

structure Writable (c : FunctionController) : Prop where
  instances : c.instances.Encodes
  computes : c.computes.Encodes

variable (wired : c.Wired) (writable : c.Writable)

include wired writable

theorem markCompute_served {inst : FunctionInstance} {time : Int}
    (course : c.Course insts stale owed s.shared) :
    (c.markCompute inst time).Ends steady (fun reply s' => reply = .ok () ∧
      c.Course insts stale (fun rcd => owed rcd ∧ rcd.spec.computeId ≠ inst.spec.computeId)
        s'.shared) s := by
  cases known : c.computes.stored s.shared inst.spec.computeId with
  | none =>
    apply (get_absent_served trivial (course.computesReadable.value_none known)).bind
    rintro reply _ ⟨rfl, rfl⟩
    refine ⟨rfl, course.paid ?_⟩
    intro cp got
    rw [known] at got
    cases got
  | some cp =>
    apply (get_served trivial known).bind
    rintro reply _ ⟨rfl, rfl⟩
    dsimp only
    split
    · next mark =>
      refine ⟨rfl, course.paid ?_⟩
      intro got there
      rw [known] at there
      cases there
      exact mark
    · have own := course.filed _ cp known
      have name := course.named _ cp known
      refine (replace_served writable.computes known ?_ ?_ name).bind ?_
      · exact own
      · rfl
      rintro reply _ ⟨⟨held, rfl⟩, shared, saves, rfl⟩
      have sets := saves.sets
      have later := course.set_compute wired sets rfl (own.symm ▸ name)
        (.inl ⟨cp, own.symm ▸ known, fun _ => rfl⟩)
      refine ⟨rfl, later.paid ?_⟩
      intro got there
      obtain ⟨v, wrote⟩ := sets.stored_self
      have wrote : c.computes.stored shared cp.metadata.uid = _ := wrote
      rw [← own, wrote] at there
      cases there
      rfl

def Marks (found new : FunctionInstance) : Prop :=
  new.spec = found.spec ∧ new.metadata.isDeleting = true

/-- The instance is marked, or one that the pass has read unmarked. -/
def Known (insts : List FunctionInstance) (inst : FunctionInstance) : Prop :=
  inst.metadata.isDeleting = true ∨
    ∃ orig ∈ insts, orig.metadata.isDeleting = false ∧ orig.metadata.uid = inst.metadata.uid

theorem deleteInstance_served {inst : FunctionInstance} (known : Known insts inst)
    (course : c.Course insts stale owed s.shared) :
    (c.deleteInstance inst).Ends steady
    (fun reply s' => reply = .ok () ∧ c.Course insts stale (fun rcd => owed rcd ∧
        (inst.metadata.isDeleting = true → rcd.spec.computeId ≠ inst.spec.computeId))
          s'.shared) s := by
  rw [deleteInstance, Program.perform_bind]
  apply answering_look rfl trivial
  intro time _ _
  -- the part that follows the mark on the instance
  have retires {now : Logged} {copy : FunctionInstance} {due : FunctionInstance →
      Prop} (mark : copy.metadata.isDeleting = true)
      (course : c.Course insts stale due now.shared) :
      (c.retire copy time).Ends steady (fun reply s' => reply = .ok () ∧
        c.Course insts stale (fun rcd => due rcd ∧ rcd.spec.computeId ≠ copy.spec.computeId)
          s'.shared) now := by
    apply (markCompute_served wired writable course).bind
    rintro reply s' ⟨rfl, later⟩
    dsimp only
    rw [if_pos mark]
    exact ⟨rfl, later⟩
  split
  · next mark =>
    apply (retires mark course).mono
    rintro reply s' ⟨rfl, later⟩
    refine ⟨rfl, later.mono (fun _ _ _ => .inr) ?_⟩
    intro _ rcd _ _ due
    exact .inr ⟨due.1, fun _ => due.2⟩
  · next live =>
    obtain ⟨orig, mem, unmarked, eq⟩ := known.resolve_left live
    obtain ⟨cur, got, spec⟩ := course.present orig mem unmarked
    rw [eq] at got
    have mutates : (markIdle time cur).Uses Op.Looking fun out =>
        (∀ new, out = .ok new → Marks cur new) ∧ ∀ err, out = .error err →
          err = errFunctionBusy := by
      rw [markIdle]
      split
      · refine ⟨fun _ wrong => (by cases wrong), ?_⟩
        rintro err ⟨⟩
        rfl
      · refine ⟨?_, fun _ wrong => by cases wrong⟩
        rintro new ⟨⟩
        exact ⟨rfl, rfl⟩
    refine (tryUpdate_served writable.instances got mutates).bind ?_
    rintro reply s' (⟨rfl, err, rfl, rfl⟩ | ⟨rfl, shared, updates, rfl⟩)
    · refine ⟨rfl, course.mono (fun _ _ _ => .inr) ?_⟩
      intro _ rcd _ _ due
      exact .inr ⟨due, fun mark => absurd mark live⟩
    · obtain ⟨found', new, there, ⟨sameSpec, mark⟩, sets⟩ := updates.sets
      rw [got] at there
      cases there
      obtain ⟨v, wrote⟩ := sets.stored_self
      -- until its compute is marked, the instance that has just been marked is owed it
      have between : c.Course insts stale (fun rcd => owed rcd ∨ rcd.spec = cur.spec) shared := by
        refine course.set_instance wired sets ?_ ?_ (fun _ => .inl) ?_
        · intro other held
          rw [got] at held
          cases held
          exact sameSpec.symm
        · rw [Backed, sameSpec]
          exact course.backed _ cur got
        · intro _ rcd eq
          exact .inr (.inr (eq.trans sameSpec))
      apply (get_served trivial wrote).bind
      rintro reply _ ⟨rfl, rfl⟩
      have stamped : ((new.stamp c.instances.kind).withVersion v).metadata.isDeleting = true := mark
      have rest := @retires (s.over shared) _ _ stamped between
      apply rest.mono
      rintro reply s' ⟨rfl, later⟩
      refine ⟨rfl, later.mono (fun _ _ _ => .inr) ?_⟩
      rintro _ rcd _ _ ⟨due | eq, away⟩
      · exact .inr ⟨due, fun contrary => absurd contrary live⟩
      · refine absurd ?_ away
        rw [eq, ← sameSpec]
        rfl

theorem deleteEach_served {batch : List FunctionInstance} (known : ∀ inst ∈ batch, Known insts inst)
    (course : c.Course insts stale owed s.shared) :
    (c.deleteEach batch).Ends steady (fun reply s' => reply = .ok () ∧
      c.Course insts stale (fun rcd => owed rcd ∧ ∀ inst ∈ batch, inst.metadata.isDeleting = true →
        rcd.spec.computeId ≠ inst.spec.computeId) s'.shared) s := by
  induction batch generalizing s owed with
  | nil =>
    refine ⟨rfl, course.mono (fun _ _ _ => .inr) ?_⟩
    intro _ rcd _ _ due
    exact .inr ⟨due, forall_mem_nil _⟩
  | cons inst batch ih =>
    apply (deleteInstance_served wired writable (known inst (.head _)) course).bind
    rintro reply between ⟨rfl, later⟩
    apply (ih (fun other mem => known other (.tail _ mem)) later).mono
    rintro reply s' ⟨rfl, last⟩
    refine ⟨rfl, last.mono (fun _ _ _ => .inr) ?_⟩
    rintro _ rcd _ _ ⟨⟨due, first⟩, others⟩
    exact .inr ⟨due, forall_mem_cons.mpr ⟨first, others⟩⟩

theorem evictExpired_served {policy : WarmPoolPolicy} {time floorStart : Int}
    {batch : List FunctionInstance} (known : ∀ inst ∈ batch, Known insts inst) (i : Nat)
    (course : c.Course insts stale owed s.shared) :
    (c.evictExpired policy time floorStart i batch).Ends steady
    (fun _ s' => c.Course insts stale owed s'.shared) s := by
  induction batch generalizing s i with
  | nil => exact course
  | cons inst batch ih =>
    have ih {now : Logged} := @ih now (fun other mem => known other (.tail _ mem)) (i + 1)
    rw [evictExpired]
    split
    · apply (ih course).bind
      intro reply s' later
      cases reply <;> exact later
    · apply (deleteInstance_served wired writable (known inst (.head _)) course).bind
      rintro reply between ⟨rfl, later⟩
      exact ih (later.mono (fun _ _ _ => .inr) fun _ _ _ _ due => .inr due.1)

theorem evictIdle_served {live : List FunctionInstance} {policy : WarmPoolPolicy} {time : Int}
    (known : ∀ inst ∈ live, Known insts inst) (course : c.Course insts stale owed s.shared) :
    (c.evictIdle live policy time).Ends steady
    (fun _ s' => c.Course insts stale owed s'.shared) s := by
  have ordered (inst : FunctionInstance) (mem : inst ∈ c.byLastUse.order live) : Known insts inst :=
    known inst ((c.byLastUse.perm live).subset mem)
  apply (deleteEach_served wired writable
    (fun inst mem => ordered inst (mem_of_mem_take mem)) course).bind
  rintro reply between ⟨rfl, later⟩
  have later : c.Course insts stale owed between.shared :=
    later.mono (fun _ _ _ => .inr) fun _ _ _ _ due => .inr due.1
  dsimp only
  split
  · exact later
  · exact evictExpired_served wired writable
      (fun inst mem => ordered inst (mem_of_mem_drop mem)) 0 later

end

section

variable {c} {insts : List FunctionInstance} {stale : String → FunctionInstanceSpec → Prop}
    {owed : FunctionInstance → Prop}
variable {s : Logged}

theorem slotUID_ne_empty (port : Nat) : FunctionPool.slotUID port ≠ "" := by
  intro empty
  exact absurd (String.append_eq_empty_iff.mp empty).1 (by decide)

theorem setInstancePhase_looks (inst : FunctionInstance) (phase : Phase) (why msg : String) :
    (setInstancePhase inst phase why msg).Uses Op.Looking fun later =>
      later.metadata = inst.metadata ∧ later.spec = inst.spec := by
  apply (StatusBase.setPhase_looks _ _ _ _).bind
  intro base _
  exact ⟨rfl, rfl⟩

variable (wired : c.Wired)

include wired

theorem retireAttempts_course (uid : String) (time : Int) (attempts : Nat)
    (course : c.Course insts stale owed s.shared) :
    (FunctionPool.retireAttempts c.computes uid time attempts).Ends logged
      (fun _ s' => c.Course insts stale owed s'.shared) s := by
  induction attempts generalizing s with
  | zero => exact course
  | succ attempts ih =>
    have marks (got : Compute) : (return .ok { got with metadata :=
          { got.metadata with deletionTimestamp := some time }.addFinalizer computeFinalizer } :
        Prog (Except Error Compute)).Uses Op.Looking fun out => ∀ new, out = .ok new →
          (fun got new : Compute => new.metadata.uid = got.metadata.uid ∧
            new.metadata.isDeleting = true) got new := by
      rintro new ⟨⟩
      dsimp only
      rw [ObjectMeta.addFinalizer]
      split <;> exact ⟨rfl, rfl⟩
    apply (tryUpdate_updated trivial (fun _ _ => trivial) marks).bind
    intro reply s' ended
    have later : c.Course insts stale owed s'.shared := by
      rcases ended with ⟨rfl, -⟩ | ⟨shared, updates, rfl, -⟩
      · exact course
      · obtain ⟨got, new, known, ⟨eq, mark⟩, sets⟩ := updates.sets
        exact course.set_compute wired sets (eq.trans (course.filed uid got known))
          (course.named uid got known)
          (.inl ⟨got, known, fun _ => mark⟩)
    rcases reply with err | swapped
    · dsimp only
      split <;> exact later
    · cases swapped with
      | true => exact later
      | false => exact ih later

variable {fn : Function} {time : Int}

theorem claimPort_course {used : List Int} {candidates : List Nat}
    (course : c.Course insts (fun _ _ => False) owed s.shared) :
    (FunctionPool.claimPort c.computes fn time used candidates).Ends logged
      (fun reply s' => c.Course insts (fun _ _ => False) owed s'.shared ∧ ∀ cp port,
        reply = .ok (cp, port) →
          ∃ cur, c.computes.stored s'.shared cp.metadata.uid = some cur) s := by
  induction candidates generalizing s with
  | nil => exact ⟨course, fun _ _ wrong => by cases wrong⟩
  | cons port candidates ih =>
    rw [FunctionPool.claimPort]
    split
    · exact ih course
    · apply keeps_put trivial (fun _ _ => trivial)
      · intro err
        dsimp only
        split
        · exact ih course
        · exact ⟨course, fun _ _ wrong => by cases wrong⟩
      · intro reply shared saves got
        have vacant : c.computes.stored s.shared (FunctionPool.slot fn port time).metadata.uid =
            none := by
          rw [Registry.stored, saves.absent rfl, Option.bind_none]
        have later : c.Course insts (fun _ _ => False) owed shared := by
          apply course.set_compute wired saves.sets rfl (slotUID_ne_empty port)
          right
          intro key inst held eq
          obtain ⟨cp, backed⟩ := (course.backed key inst held).resolve_right id
          rw [eq] at backed
          rw [vacant] at backed
          cases backed
        cases reply with
        | error err =>
          dsimp only
          split
          · exact ih later
          · exact ⟨later, fun _ _ wrong => by cases wrong⟩
        | ok cp =>
          refine ⟨later, ?_⟩
          rintro _ _ ⟨⟩
          obtain ⟨v, wrote⟩ := saves.stored_self
          have eq := (got cp rfl).symm.trans wrote
          cases eq
          exact ⟨_, wrote⟩

theorem createCompute_course (course : c.Course insts (fun _ _ => False) owed s.shared) :
    (FunctionPool.createCompute c.computes fn time).Ends logged
      (fun reply s' => c.Course insts (fun _ _ => False) owed s'.shared ∧ ∀ cp port,
        reply = .ok (cp, port) →
          ∃ cur, c.computes.stored s'.shared cp.metadata.uid = some cur) s := by
  rw [FunctionPool.createCompute]
  dsimp only
  split
  · exact ⟨course, fun _ _ wrong => by cases wrong⟩
  · refine keeps_list trivial (fun _ => ⟨course, fun _ _ wrong => by cases wrong⟩) ?_
    intro old _
    exact claimPort_course wired course

variable {known : KnownComputes}

theorem createInstance_course (course : c.Course insts (fun _ _ => False) owed s.shared) :
    (c.createInstance fn known time).Ends logged
    (fun _ s' => c.Course insts (fun _ _ => False) owed s'.shared) s := by
  apply (createCompute_course wired course).bind
  rintro reply s' ⟨created, given⟩
  match reply with
  | .error err => exact created
  | .ok (cp, port) =>
    obtain ⟨cur, held⟩ := given cp port rfl
    have named : (newUID "fninst").Uses Op.Looking fun _ => True := .perform rfl fun _ => trivial
    apply (keeps_looking named trivial).bind
    rintro uid _ ⟨-, rfl⟩
    apply (keeps_looking (setInstancePhase_looks _ _ _ _) trivial).bind
    rintro inst _ ⟨⟨metadata, spec⟩, rfl⟩
    apply keeps_put trivial (fun _ _ => trivial)
    · intro err
      apply (retireAttempts_course wired _ _ 16 created).bind
      intro retired final later
      exact later
    · intro reply shared saves _
      have later : c.Course insts (fun _ _ => False) owed shared := by
        refine created.set_instance wired saves.sets ?_ ?_ (fun _ => id) ?_
        · intro other there
          rw [Registry.stored, saves.absent (by rw [metadata]), Option.bind_none] at there
          cases there
        · left
          rw [Backed, spec]
          exact ⟨cur, held⟩
        · intro mark
          rw [metadata] at mark
          cases mark
      cases reply with
      | error err =>
        apply (retireAttempts_course wired _ _ 16 later).bind
        intro retired final last
        exact last
      | ok result => exact later

theorem createEach_course (count : Nat) (known : KnownComputes)
    (course : c.Course insts (fun _ _ => False) owed s.shared) :
    (c.createEach fn time count known).Ends logged
      (fun _ s' => c.Course insts (fun _ _ => False) owed s'.shared) s := by
  induction count generalizing s known with
  | zero => exact course
  | succ count ih =>
    apply (createInstance_course wired course).bind
    rintro ⟨later, reply⟩ s' created
    cases reply with
    | error err => exact created
    | ok inst => exact ih later created

theorem syncInstance_course {inst : FunctionInstance} (mem : inst ∈ insts)
    (live : inst.metadata.isDeleting = false) (course : c.Course insts stale owed s.shared) :
    (c.syncInstance known inst).Ends logged (fun reply s' =>
      c.Course insts stale owed s'.shared ∧ ∀ synced, reply = .ok synced →
        Known insts synced) s := by
  rw [syncInstance]
  dsimp only
  split
  · refine ⟨course, ?_⟩
    rintro synced ⟨⟩
    exact .inr ⟨inst, mem, live, rfl⟩
  · apply (keeps_looking (setInstancePhase_looks _ _ _ _) trivial).bind
    rintro copy _ ⟨⟨metadata, spec⟩, rfl⟩
    apply keeps_put trivial (fun _ _ => trivial)
    · intro err
      exact ⟨course, fun _ wrong => by cases wrong⟩
    · intro reply shared saves got
      obtain ⟨cur, held, eq⟩ := course.present inst mem live
      have uid : copy.metadata.uid = inst.metadata.uid := by rw [metadata]
      have later : c.Course insts stale owed shared := by
        refine course.set_instance wired saves.sets ?_ ?_ (fun _ => id) ?_
        · intro other there
          rw [uid, held] at there
          cases there
          rw [eq, spec]
        · rw [Backed, spec, uid, ← eq]
          exact course.backed _ cur held
        · intro mark
          rw [metadata] at mark
          have contrary := live.symm.trans mark
          cases contrary
      cases reply with
      | error err => exact ⟨later, fun _ wrong => by cases wrong⟩
      | ok out =>
        refine ⟨later, ?_⟩
        rintro synced ⟨⟩
        obtain ⟨v, wrote⟩ := saves.stored_self
        have equal := (got out rfl).symm.trans wrote
        cases equal
        exact .inr ⟨inst, mem, live, uid.symm⟩

theorem syncInstances_course {batch : List FunctionInstance} (incl : ∀ inst ∈ batch, inst ∈ insts)
    (course : c.Course insts stale owed s.shared) :
    (c.syncInstances known batch).Ends logged (fun reply s' =>
      c.Course insts stale owed s'.shared ∧ ∀ live, reply = .ok live →
        ∀ inst ∈ live, Known insts inst) s := by
  induction batch generalizing s with
  | nil =>
    refine ⟨course, ?_⟩
    rintro live ⟨⟩
    exact forall_mem_nil _
  | cons inst batch ih =>
    have ih {now : Logged} := @ih now fun other mem => incl other (.tail _ mem)
    rw [syncInstances]
    split
    · exact ih course
    · next unmarked =>
      apply (syncInstance_course wired (incl inst (.head _)) (by simpa using unmarked) course).bind
      rintro reply s' ⟨later, known⟩
      cases reply with
      | error err => exact ⟨later, fun _ wrong => by cases wrong⟩
      | ok synced =>
        apply (ih later).bind
        rintro reply final ⟨last, others⟩
        cases reply with
        | error err => exact ⟨last, fun _ wrong => by cases wrong⟩
        | ok live =>
          dsimp only
          split
          · refine ⟨last, ?_⟩
            rintro _ ⟨⟩
            exact forall_mem_cons.mpr ⟨known synced rfl, others live rfl⟩
          · exact ⟨last, others⟩

theorem put_function_course (course : c.Course insts stale owed s.shared) :
    (c.functions.put fn).Ends logged
      (fun _ s' => c.Course insts stale owed s'.shared) s := by
  apply (put_written trivial fun _ _ => trivial).mono
  rintro reply s' (⟨rfl, -⟩ | ⟨shared, ⟨data, -, -, rfl⟩, rfl, -⟩)
  · exact course
  · apply course.congr
    · intro uid
      exact write_value_of_ne _ _ (wired.instances_functions uid _)
    · intro uid
      exact write_value_of_ne _ _ (wired.computes_functions uid _)

theorem save_course (course : c.Course insts stale owed s.shared) : (c.save fn).Ends logged
      (fun _ s' => c.Course insts stale owed s'.shared) s := by
  apply (put_function_course wired course).bind
  intro reply s' later
  cases reply <;> exact later

theorem delete_function_course {uid : String} (course : c.Course insts stale owed s.shared) :
    (c.functions.delete uid).Ends logged (fun _ s' => c.Course insts stale owed s'.shared) s := by
  apply (delete_keeps trivial trivial).mono
  rintro reply s' (⟨rfl, -⟩ | rfl)
  · exact course
  · apply course.congr
    · intro name
      exact erase_value_of_ne _ (wired.instances_functions name _)
    · intro name
      exact erase_value_of_ne _ (wired.computes_functions name _)

end

end Infrastructure.Controllers.FunctionController
