import Infrastructure.Controllers.Course

/-! The records of functions stay in good order: what every pass of the function controller keeps,
whatever fails in it and wherever it stops. -/

namespace Infrastructure.Controllers.FunctionController

open Concurrency State Domain List Registry
open FunctionService.Service (setInstancePhase newUID)

/-- The records that the controller reads are stored in good order. -/
structure Tidy (c : FunctionController) (now : Shared) : Prop where
  functions : c.functions.Coherent now
  instances : c.instances.Coherent now
  computes : c.computes.Coherent now

section

variable {S ST : Type} (r : Registry S ST)

def Fit (uid : String) : Prop := r.Listable uid ∧ uid ≠ ""

variable {r}

theorem fit_of_stored {shared : Shared} (ok : r.Coherent shared) {uid : String}
    {got : Resource S ST} (has : r.stored shared uid = some got) : Fit r got.metadata.uid := by
  rw [ok.filed uid got has]
  exact ⟨ok.listable uid got has, ok.named uid got has⟩

theorem fit_of_listing {shared : Shared} (ok : r.Coherent shared) {got : List (Resource S ST)}
    (listing : r.Listing shared got) (res : Resource S ST) (mem : res ∈ got) :
    Fit r res.metadata.uid :=
  fit_of_stored ok ((ok.mem_listing listing res).mp mem)

theorem fit_of_word {uid : String} {word rest : List Char} (shape : uid.toList = word ++ rest)
    (plain : '/' ∉ word ∧ word ≠ [] ∧ word.head? ≠ some '.') (flat : '/' ∉ rest) : Fit r uid := by
  obtain ⟨first, word, rfl⟩ := exists_cons_of_ne_nil plain.2.1
  have visible : '.' ≠ first := fun eq => plain.2.2 (congrArg some eq.symm)
  refine ⟨⟨?_, ?_⟩, ?_⟩
  · rw [shape, mem_append]
    exact not_or.mpr ⟨plain.1, flat⟩
  · have parts : ((r.kind ++ "/.tmp-").toList.isPrefixOf (r.key uid).toList) = false := by
      simp [Registry.key, shape, isPrefixOf_iff_prefix, Bool.eq_false_iff, visible]
    exact parts
  · rintro rfl
    cases shape

end

/-- The registries that the controller writes to. -/
inductive Keeps (c : FunctionController) : {S ST : Type} → Registry S ST → Prop
  | functions : Keeps c c.functions
  | instances : Keeps c c.instances
  | computes : Keeps c c.computes

section

variable {c : FunctionController} {now s' : Shared}

theorem Tidy.coherent (tidy : c.Tidy now) {S ST : Type} {r : Registry S ST} (own : c.Keeps r) :
    r.Coherent now := by
  cases own with
  | functions => exact tidy.functions
  | instances => exact tidy.instances
  | computes => exact tidy.computes

theorem Tidy.set (wired : c.Wired) (tidy : c.Tidy now) {S ST : Type} {r : Registry S ST}
    (own : c.Keeps r) {uid : String} {res : Resource S ST} (sets : r.Sets now uid res s')
    (filed : res.metadata.uid = uid) (fit : Fit r uid) : c.Tidy s' := by
  cases own with
  | functions =>
    exact ⟨tidy.functions.sets sets filed fit.1 fit.2,
      tidy.instances.sets_other sets wired.instances_functions,
      tidy.computes.sets_other sets wired.computes_functions⟩
  | instances =>
    exact ⟨tidy.functions.sets_other sets wired.instances_functions.symm,
      tidy.instances.sets sets filed fit.1 fit.2,
      tidy.computes.sets_other sets wired.instances_computes.symm⟩
  | computes =>
    exact ⟨tidy.functions.sets_other sets wired.computes_functions.symm,
      tidy.instances.sets_other sets wired.instances_computes,
      tidy.computes.sets sets filed fit.1 fit.2⟩

theorem Tidy.erase (tidy : c.Tidy now) (key : String) : c.Tidy (now.erase key) :=
  ⟨tidy.functions.erase key, tidy.instances.erase key, tidy.computes.erase key⟩

theorem Tidy.drift (tidy : c.Tidy now) (moved : State.drift now s') : c.Tidy s' := by
  have eq (key : String) : s'.value key = now.value key := by
    rw [Shared.value, moved.1, Shared.value]
  exact ⟨tidy.functions.congr fun _ => eq _, tidy.instances.congr fun _ => eq _,
    tidy.computes.congr fun _ => eq _⟩

end

/-- What is shown of every pass if it is shown of the calls that passes are made of. A record that
was read is filed under a uid of which `Fits` is known, and so is one that is written. -/
structure PassRules (c : FunctionController) (Fits : (S ST : Type) → Registry S ST → String → Prop)
    (Q : (α : Type) → Prog α → Prop) : Prop where
  fits {S ST : Type} {r : Registry S ST} {uid : String} (fit : Fit r uid) : Fits S ST r uid
  ret {α : Type} (val : α) : Q α (.ret val)
  bind {α β : Type} {prog : Prog α} {next : α →
    Prog β} (first : Q α prog) (rest : ∀ val, Q β (next val)) :
    Q β (prog >>= next)
  look {α β : Type} {prog : Prog α} {post : α → Prop} {next : α →
    Prog β} (looks : prog.Uses Op.Looking post)
    (rest : ∀ val, post val → Q β (next val)) : Q β (prog >>= next)
  get {S ST α : Type} {r : Registry S ST} {uid : String}
    {next : Except Error (Resource S ST) → Prog α} (own : c.Keeps r)
    (bad : ∀ err, Q α (next (.error err)))
    (rest : ∀ got, Fits S ST r got.metadata.uid → Q α (next (.ok got))) : Q α (r.get uid >>= next)
  list {S ST α : Type} {r : Registry S ST} {next : Except Error (List (Resource S ST)) → Prog α}
    (own : c.Keeps r) (bad : ∀ err, Q α (next (.error err)))
    (rest : ∀ got, (∀ res ∈ got, Fits S ST r res.metadata.uid) → Q α (next (.ok got))) :
      Q α (r.list >>= next)
  put {S ST : Type} {r : Registry S ST} {res : Resource S ST} (own : c.Keeps r)
    (fit : Fits S ST r res.metadata.uid) : Q _ (r.put res)
  delete {S ST : Type} {r : Registry S ST} (own : c.Keeps r) (uid : String) : Q _ (r.delete uid)
  update {S ST : Type} {r : Registry S ST} {uid : String}
    {mutate : Resource S ST → Prog (Except Error (Resource S ST))} (own : c.Keeps r)
    (marks : ∀ got, (mutate got).Uses Op.Looking fun out =>
      ∀ new, out = .ok new → new.metadata.uid = got.metadata.uid) : Q _ (r.tryUpdate uid mutate)

section

variable {c : FunctionController}

theorem slotUID_fit (port : Nat) : Fit c.computes (FunctionPool.slotUID port) := by
  apply fit_of_word (FunctionPool.slotUID_toList port) (by decide +kernel)
  intro mem
  exact absurd (Nat.isDigit_of_mem_toDigits (by omega) (by omega) mem) (by decide)

theorem slash_not_mem_byteDigits (byte : UInt8) : '/' ∉ Crypto.byteDigits byte := by
  have digits : ∀ val < 16, '/' ≠ Crypto.hexDigit val := by decide
  have small : byte.toNat < 256 := byte.toNat_lt
  simp only [Crypto.byteDigits, mem_cons, not_mem_nil, or_false, not_or]
  exact ⟨digits _ (by omega), digits _ (by omega)⟩

theorem newUID_looks : (newUID "fninst").Uses Op.Looking fun uid => Fit c.instances uid := by
  refine .perform rfl ?_
  intro bytes
  have shape : ("fninst" ++ "-" ++ Crypto.hexEncode (List.ofFn bytes)).toList =
      ("fninst" ++ "-").toList ++ (List.ofFn bytes).flatMap Crypto.byteDigits := by
    rw [String.toList_append, Crypto.hexEncode, String.toList_ofList]
  apply fit_of_word shape (by decide +kernel)
  intro mem
  obtain ⟨byte, -, among⟩ := mem_flatMap.mp mem
  exact slash_not_mem_byteDigits byte among

theorem setFunctionPhase_looks (fn : Function) (phase : Phase) (why msg : String) :
    (setFunctionPhase fn phase why msg).Uses Op.Looking fun later =>
      later.metadata = fn.metadata := by
  apply (StatusBase.setPhase_looks _ _ _ _).bind
  intro base _
  rfl

theorem securityGroupReady_looks (uid : String) :
    (c.securityGroupReady uid).Uses Op.Looking fun _ => True := by
  rw [securityGroupReady]
  split
  · trivial
  · apply (get_looks _ _).tries
    · intro err
      dsimp only
      split <;> trivial
    · intro group
      dsimp only
      split <;> trivial

theorem ready_looks (spec : FunctionSpec) : (c.ready spec).Uses Op.Looking fun _ => True := by
  apply (get_looks _ _).tries
  · intro err
    dsimp only
    split <;> trivial
  · intro subnet
    dsimp only
    split
    · trivial
    · apply (get_looks _ _).tries
      · intro err
        dsimp only
        split <;> trivial
      · intro vpc
        dsimp only
        split
        · trivial
        · exact securityGroupReady_looks _

variable {Fits : (S ST : Type) → Registry S ST → String → Prop}
    {Q : (α : Type) → Prog α → Prop} {α β : Type}

theorem PassRules.andThen (rules : c.PassRules Fits Q) {ε : Type} {step : Prog (Except ε α)}
    {next : Except ε α → Prog β} (first : Q _ step) (bad : ∀ err, Q _ (next (.error err)))
    (rest : ∀ val, Q _ (next (.ok val))) : Q _ (step >>= next) := by
  apply rules.bind first
  intro reply
  cases reply with
  | error err => exact bad err
  | ok val => exact rest val

theorem PassRules.now (rules : c.PassRules Fits Q) {next : Int → Prog α}
    (rest : ∀ time, Q _ (next time)) :
    Q _ (Program.perform Op.now >>= next) := by
  have looks : (Program.perform Op.now : Prog Int).Uses Op.Looking fun _ => True :=
    .perform rfl fun _ => trivial
  exact rules.look looks fun time _ => rest time

variable (rules : c.PassRules Fits Q)

include rules

variable {fn : Function} {inst : FunctionInstance}

theorem retireAttempts_follows (uid : String) (time : Int) (attempts : Nat) :
    Q _ (FunctionPool.retireAttempts c.computes uid time attempts) := by
  induction attempts with
  | zero => exact rules.ret _
  | succ attempts ih =>
    have marks (got : Compute) : (return .ok { got with metadata :=
          { got.metadata with deletionTimestamp := some time }.addFinalizer computeFinalizer } :
        Prog (Except Error Compute)).Uses Op.Looking fun out =>
          ∀ new, out = .ok new → new.metadata.uid = got.metadata.uid := by
      rintro new ⟨⟩
      dsimp only
      rw [ObjectMeta.addFinalizer]
      split <;> rfl
    refine rules.andThen (rules.update .computes marks) ?_ ?_
    · intro err
      dsimp only
      split <;> exact rules.ret _
    · intro swapped
      cases swapped with
      | true => exact rules.ret _
      | false => exact ih

variable {time : Int}

theorem claimPort_follows {used : List Int} (candidates : List Nat) :
    Q _ (FunctionPool.claimPort c.computes fn time used candidates) := by
  induction candidates with
  | nil => exact rules.ret _
  | cons port candidates ih =>
    rw [FunctionPool.claimPort]
    split
    · exact ih
    · have fit : Fits _ _ c.computes (FunctionPool.slot fn port time).metadata.uid :=
        rules.fits (slotUID_fit port)
      apply rules.bind (rules.put .computes fit)
      intro reply
      cases reply with
      | error err =>
        dsimp only
        split
        · exact ih
        · exact rules.ret _
      | ok cp => exact rules.ret _

theorem createCompute_follows : Q _ (FunctionPool.createCompute c.computes fn time) := by
  rw [FunctionPool.createCompute]
  dsimp only
  split
  · exact rules.ret _
  · refine rules.list .computes (fun _ => rules.ret _) ?_
    intro old _
    exact claimPort_follows rules _

variable {known : KnownComputes}

theorem createInstance_follows : Q _ (c.createInstance fn known time) := by
  apply rules.bind (createCompute_follows rules)
  intro reply
  match reply with
  | .error err => exact rules.ret _
  | .ok (cp, port) =>
    apply rules.look newUID_looks
    intro uid fit
    apply rules.look (setInstancePhase_looks _ _ _ _)
    rintro inst ⟨metadata, -⟩
    have eq : inst.metadata.uid = uid := by rw [metadata]
    apply rules.bind (rules.put .instances (eq ▸ rules.fits fit))
    intro reply
    cases reply with
    | error err =>
      apply rules.bind (retireAttempts_follows rules _ _ 16)
      intro retired
      exact rules.ret _
    | ok stored => exact rules.ret _

theorem createEach_follows (count : Nat) (known : KnownComputes) :
    Q _ (c.createEach fn time count known) := by
  induction count generalizing known with
  | zero => exact rules.ret _
  | succ count ih =>
    apply rules.bind (createInstance_follows rules)
    rintro ⟨known, reply⟩
    cases reply with
    | error err => exact rules.ret _
    | ok inst => exact ih known

theorem syncInstances_follows {batch : List FunctionInstance}
    (fit : ∀ inst ∈ batch, Fits _ _ c.instances inst.metadata.uid) :
    Q _ (c.syncInstances known batch) := by
  induction batch with
  | nil => exact rules.ret _
  | cons inst batch ih =>
    have ih := ih fun other mem => fit other (.tail _ mem)
    have synced : Q _ (c.syncInstance known inst) := by
      rw [syncInstance]
      dsimp only
      split
      · exact rules.ret _
      · apply rules.look (setInstancePhase_looks _ _ _ _)
        rintro copy ⟨metadata, -⟩
        have eq : copy.metadata.uid = inst.metadata.uid := by rw [metadata]
        apply rules.bind (rules.put .instances (eq ▸ fit inst (.head _)))
        intro reply
        cases reply <;> exact rules.ret _
    rw [syncInstances]
    split
    · exact ih
    · refine rules.andThen synced (fun _ => rules.ret _) ?_
      intro copy
      refine rules.andThen ih (fun _ => rules.ret _) ?_
      intro live
      dsimp only
      split <;> exact rules.ret _

theorem markCompute_follows : Q _ (c.markCompute inst time) := by
  apply rules.get .computes
  · intro err
    dsimp only
    split <;> exact rules.ret _
  · intro cp fit
    dsimp only
    split
    · exact rules.ret _
    · refine rules.bind (rules.put .computes ?_) ?_
      · exact fit
      · intro reply
        cases reply <;> exact rules.ret _

theorem deleteInstance_follows (inst : FunctionInstance) : Q _ (c.deleteInstance inst) := by
  apply rules.now
  intro time
  have retires (copy : FunctionInstance)
      (fit : copy.metadata.isDeleting = true ∨ Fits _ _ c.instances copy.metadata.uid) :
      Q _ (c.retire copy time) := by
    refine rules.andThen (markCompute_follows rules) (fun _ => rules.ret _) ?_
    intro done
    dsimp only
    split
    · exact rules.ret _
    · next live =>
      refine rules.bind (rules.put .instances ?_) ?_
      · exact fit.resolve_left live
      · intro reply
        cases reply <;> exact rules.ret _
  split
  · next mark => exact retires inst (.inl mark)
  · have marks (got : FunctionInstance) : (markIdle time got).Uses Op.Looking fun out =>
        ∀ new, out = .ok new → new.metadata.uid = got.metadata.uid := by
      rw [markIdle]
      split
      · intro new wrong
        cases wrong
      · rintro new ⟨⟩
        rfl
    refine rules.andThen (rules.update .instances marks) ?_ ?_
    · intro err
      dsimp only
      split <;> exact rules.ret _
    · intro swapped
      cases swapped with
      | false => exact rules.ret _
      | true =>
        refine rules.get .instances (fun _ => rules.ret _) ?_
        intro cur fit
        exact retires cur (.inr fit)

theorem deleteEach_follows (batch : List FunctionInstance) : Q _ (c.deleteEach batch) := by
  induction batch with
  | nil => exact rules.ret _
  | cons inst batch ih =>
    refine rules.andThen (deleteInstance_follows rules inst) (fun _ => rules.ret _) ?_
    intro done
    exact ih

theorem evictExpired_follows {policy : WarmPoolPolicy} {time floorStart : Int} (i : Nat)
    (batch : List FunctionInstance) :
    Q _ (c.evictExpired policy time floorStart i batch) := by
  induction batch generalizing i with
  | nil => exact rules.ret _
  | cons inst batch ih =>
    rw [evictExpired]
    split
    · apply rules.bind (ih (i + 1))
      intro reply
      cases reply <;> exact rules.ret _
    · refine rules.andThen (deleteInstance_follows rules inst) (fun _ => rules.ret _) ?_
      intro done
      exact ih (i + 1)

theorem evictIdle_follows {live : List FunctionInstance} {policy : WarmPoolPolicy} :
    Q _ (c.evictIdle live policy time) := by
  refine rules.andThen (deleteEach_follows rules _) (fun _ => rules.ret _) ?_
  intro done
  dsimp only
  split
  · exact rules.ret _
  · exact evictExpired_follows rules 0 _

theorem save_follows (fit : Fits _ _ c.functions fn.metadata.uid) : Q _ (c.save fn) := by
  apply rules.bind (rules.put .functions fit)
  intro reply
  cases reply <;> exact rules.ret _

theorem fillPool_follows {mine : List FunctionInstance} {readiness : Readiness}
    (fit : Fits _ _ c.functions fn.metadata.uid)
    (fits : ∀ inst ∈ mine, Fits _ _ c.instances inst.metadata.uid) :
    Q _ (c.fillPool fn mine known readiness) := by
  refine rules.andThen (syncInstances_follows rules fits) (fun _ => rules.ret _) ?_
  intro live
  apply rules.now
  intro time
  apply rules.bind (createEach_follows rules _ known)
  rintro ⟨known, reply⟩
  cases reply with
  | error err => exact rules.ret _
  | ok done =>
    refine rules.andThen (evictIdle_follows rules) (fun _ => rules.ret _) ?_
    intro kept
    apply rules.look (setFunctionPhase_looks _ _ _ _)
    intro new metadata
    refine rules.bind (save_follows rules ?_) fun _ => rules.ret _
    rw [metadata]
    exact fit

theorem ensureFunction_follows {mine : List FunctionInstance}
    (fit : Fits _ _ c.functions fn.metadata.uid)
    (fits : ∀ inst ∈ mine, Fits _ _ c.instances inst.metadata.uid) :
    Q _ (c.ensureFunction fn mine known) := by
  have eq (name : String) : (fn.metadata.addFinalizer name).uid = fn.metadata.uid := by
    rw [ObjectMeta.addFinalizer]
    split <;> rfl
  rw [ensureFunction]
  dsimp only
  split
  · apply rules.look (setFunctionPhase_looks _ _ _ _)
    intro new metadata
    refine rules.bind (save_follows rules ?_) fun _ => rules.ret _
    rw [metadata]
    exact fit
  · apply rules.look (ready_looks _)
    intro reply _
    cases reply with
    | error err =>
      apply rules.look (setFunctionPhase_looks _ _ _ _)
      intro new metadata
      refine rules.bind (rules.put .functions ?_) fun _ => rules.ret _
      rw [metadata, eq]
      exact fit
    | ok readiness =>
      dsimp only
      split
      · refine fillPool_follows rules ?_ fits
        rw [eq]
        exact fit
      · apply rules.look (setFunctionPhase_looks _ _ _ _)
        intro new metadata
        refine rules.bind (save_follows rules ?_) fun _ => rules.ret _
        rw [metadata, eq]
        exact fit

theorem finalizeFunction_follows (mine : List FunctionInstance)
    (fit : Fits _ _ c.functions fn.metadata.uid) :
    Q _ (c.finalizeFunction fn mine) := by
  rw [finalizeFunction]
  split
  · exact deleteEach_follows rules mine
  · dsimp only
    split
    · exact rules.delete .functions _
    · exact save_follows rules fit

theorem finalizeInstance_follows (fit : Fits _ _ c.instances inst.metadata.uid) :
    Q _ (c.finalizeInstance inst) := by
  apply rules.look (get_looks _ _)
  intro reply _
  cases reply with
  | ok cp => exact rules.ret _
  | error err =>
    dsimp only
    split
    · split
      · exact rules.delete .instances _
      · refine rules.bind (rules.put .instances ?_) ?_
        · exact fit
        · intro reply
          cases reply <;> exact rules.ret _
    · exact rules.ret _

theorem attempt_follows {context : String} {step : Prog (Except Error Unit)} (first : Q _ step) :
    Q _ (attempt context step) := by
  apply rules.bind first
  intro reply
  cases reply <;> exact rules.ret _

theorem retireOrphans_follows {referenced : List String} (computes : List Compute) :
    Q _ (c.retireOrphans referenced computes) := by
  induction computes with
  | nil => exact rules.ret _
  | cons cp computes ih =>
    rw [retireOrphans]
    split
    · exact ih
    · apply rules.now
      intro time
      split
      · exact ih
      · apply rules.now
        intro time
        apply rules.bind (attempt_follows rules (retireAttempts_follows rules _ _ 16))
        intro errs
        exact rules.bind ih fun _ => rules.ret _

theorem finalizeInstances_follows {batch : List FunctionInstance}
    (fits : ∀ inst ∈ batch, Fits _ _ c.instances inst.metadata.uid) :
    Q _ (c.finalizeInstances batch) := by
  induction batch with
  | nil => exact rules.ret _
  | cons inst batch ih =>
    have ih := ih fun other mem => fits other (.tail _ mem)
    rw [finalizeInstances]
    split
    · apply rules.bind
        (attempt_follows rules (finalizeInstance_follows rules (fits inst (.head _))))
      intro errs
      exact rules.bind ih fun _ => rules.ret _
    · exact ih

theorem reconcileFunctions_follows {insts : List FunctionInstance} {fns : List Function}
    (known : KnownComputes) (fit : ∀ fn ∈ fns, Fits _ _ c.functions fn.metadata.uid)
    (fits : ∀ inst ∈ insts, Fits _ _ c.instances inst.metadata.uid) :
    Q _ (c.reconcileFunctions insts fns known) := by
  induction fns generalizing known with
  | nil => exact rules.ret _
  | cons fn fns ih =>
    have own := fit fn (.head _)
    have ih (known : KnownComputes) := ih known fun other mem => fit other (.tail _ mem)
    have reconciled : Q _ (c.reconcileFunction fn
        (insts.filter fun inst => inst.spec.functionId == fn.metadata.uid) known) := by
      rw [reconcileFunction]
      split
      · exact rules.bind (finalizeFunction_follows rules _ own) fun _ => rules.ret _
      · exact ensureFunction_follows rules own fun inst mem => fits inst (mem_of_mem_filter mem)
    apply rules.bind reconciled
    rintro ⟨known, out⟩
    apply rules.bind (attempt_follows rules (rules.ret out))
    intro errs
    exact rules.bind (ih known) fun _ => rules.ret _

theorem reapInstances_follows {fns : List Function} (batch : List FunctionInstance) :
    Q _ (c.reapInstances fns batch) := by
  induction batch with
  | nil => exact rules.ret _
  | cons inst batch ih =>
    rw [reapInstances]
    split
    · exact ih
    · apply rules.bind (attempt_follows rules (deleteInstance_follows rules inst))
      intro errs
      exact rules.bind ih fun _ => rules.ret _

/-- The whole pass. -/
theorem reconcile_follows : Q _ c.reconcile := by
  refine rules.list .functions (fun _ => rules.ret _) ?_
  intro fns fit
  refine rules.list .instances (fun _ => rules.ret _) ?_
  intro insts fits
  refine rules.list .computes (fun _ => rules.ret _) ?_
  intro computes _
  apply rules.bind (retireOrphans_follows rules computes)
  intro orphans
  apply rules.bind (finalizeInstances_follows rules fits)
  intro finalized
  apply rules.bind (reconcileFunctions_follows rules _ fit fits)
  intro reconciled
  exact rules.bind (reapInstances_follows rules insts) fun _ => rules.ret _

end

/-- The program keeps the records in good order, wherever it stops. -/
def Neat (c : FunctionController) (α : Type) (prog : Prog α) : Prop :=
  ∀ s : Logged, c.Tidy s.shared → prog.Keeps logged (fun now => c.Tidy now.shared)
    (fun _ s' => c.Tidy s'.shared) s

section

variable {c : FunctionController} (wired : c.Wired)

include wired

theorem neat_rules : c.PassRules (fun _ _ => Fit) c.Neat where
  fits := id
  ret val := fun _ tidy => tidy
  bind neat rest := by
    intro s tidy
    apply (neat s tidy).bind
    intro val s' later
    exact rest val s' later
  look looks rest := by
    intro s tidy
    apply (keeps_looking looks tidy).bind
    rintro val _ ⟨promised, rfl⟩
    exact rest val promised _ tidy
  get own bad rest := by
    intro s tidy
    exact keeps_get tidy (fun err => bad err s tidy) fun got has =>
      rest got (fit_of_stored (tidy.coherent own) has) s tidy
  list own bad rest := by
    intro s tidy
    exact keeps_list tidy (fun err => bad err s tidy) fun got listing =>
      rest got (fit_of_listing (tidy.coherent own) listing) s tidy
  put own fit := by
    intro s tidy
    apply (put_written tidy fun _ saves => tidy.set wired own saves.sets rfl fit).mono
    rintro reply s' (⟨rfl, -⟩ | ⟨shared, saves, rfl, -⟩)
    · exact tidy
    · exact tidy.set wired own saves.sets rfl fit
  delete own uid := by
    intro s tidy
    apply (delete_keeps tidy (tidy.erase _)).mono
    rintro reply s' (⟨rfl, -⟩ | rfl)
    · exact tidy
    · exact tidy.erase _
  update {_ _ r uid _} own marks := by
    intro s tidy
    have kept (s' : Shared) (updates : r.Updates s.shared uid
        (fun got new => new.metadata.uid = got.metadata.uid) s') : c.Tidy s' := by
      obtain ⟨got, new, known, eq, sets⟩ := updates.sets
      have filed := (tidy.coherent own).filed uid got known
      exact tidy.set wired own sets (eq.trans filed)
        (filed ▸ fit_of_stored (tidy.coherent own) known)
    apply (tryUpdate_updated tidy kept marks).mono
    rintro reply s' (⟨rfl, -⟩ | ⟨shared, updates, rfl, -⟩)
    · exact tidy
    · exact kept shared updates

/-- A pass leaves the records in good order, wherever it stops. -/
theorem reconcile_neat : c.Neat _ c.reconcile := reconcile_follows (neat_rules wired)

end

end Infrastructure.Controllers.FunctionController
