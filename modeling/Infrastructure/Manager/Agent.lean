import Infrastructure.Domain.Placement
import Infrastructure.Manager.AddressBook
import Infrastructure.Registry.Sequence

/-! The agents of the placed kinds: each node looks after the records placed on it. -/

namespace Infrastructure.Manager

open Concurrency State Domain

/-- What sets the agents of computes, micro-VMs, disks and replicas apart. -/
structure Agent (S ST : Type) where
  registry : Registry S ST
  placement : Placement ST
  title : String
  plural : String
  finalizer : String
  mine : Resource S ST → Bool
  ensure : Resource S ST → Prog (Except Error Unit)
  teardown : Resource S ST → Prog (Except Error Unit)
  failure : String
  release : Resource S ST → Prog (Except Error Unit)
  farewell : String

namespace Agent

variable {S ST : Type} (agent : Agent S ST)

def context (action uid : String) : String :=
  "manager: " ++ action ++ " " ++ agent.title ++ " " ++ quoted uid

/-- Once no finalizers remain, the record can leave the store. -/
def removeIfFree (res : Resource S ST) : Prog (Except Error Unit) := do
  if res.metadata.finalizers = [] then
    match ← agent.registry.delete res.metadata.uid with
    | .error err => return .error (.wrap (agent.context "delete" res.metadata.uid) err)
    | .ok () => return .ok ()
  else return .ok ()

def finalize (res : Resource S ST) : Prog (Except Error Unit) := do
  if res.metadata.hasFinalizer agent.finalizer then
    match ← agent.teardown res with
    | .error err =>
      let failed ← agent.placement.setPhase res .error agent.failure err.text
      let _ ← agent.registry.put failed
      return .error err
    | .ok () =>
      match ← agent.release res with
      | .error err => return .error err
      | .ok () =>
        let freed := { res with metadata := res.metadata.removeFinalizer agent.finalizer }
        let freed ← agent.placement.setPhase freed .deleting "Deleting" agent.farewell
        match ← agent.registry.put freed with
        | .error err => return .error (.wrap (agent.context "save" res.metadata.uid) err)
        | .ok stored => agent.removeIfFree stored
  else agent.removeIfFree res

def reconcile (uid : String) : Prog (Except Error Unit) := do
  match ← agent.registry.get uid with
  | .error err =>
    if err.is errNotFound then return .ok ()
    else return .error (.wrap (agent.context "load" uid) err)
  | .ok res =>
    if agent.mine res then
      if res.metadata.isDeleting then agent.finalize res else agent.ensure res
    else return .ok ()

def reconcileEach : List (Resource S ST) → Prog (List Error)
  | [] => return []
  | res :: resources => do
      let result ← agent.reconcile res.metadata.uid
      let errors ← reconcileEach resources
      match result with
      | .error err => return .wrap (agent.title ++ " " ++ res.metadata.uid) err :: errors
      | .ok () => return errors

def reconcileAll : Prog (Except Error Unit) := do
  match ← agent.registry.list with
  | .error err => return .error (.wrap ("manager: list " ++ agent.plural) err)
  | .ok resources => return Error.joinAll (← agent.reconcileEach resources)

end Agent

/-- What an agent makes of a record: it attaches and detaches its finalizer and fills in
defaults. -/
structure Upkeep {S ST : Type} (placement : Placement ST) (finalizer : String)
    (withDefaults : S → S) (copy edited : Resource S ST) : Prop where
  uid : edited.metadata.uid = copy.metadata.uid
  mark : edited.metadata.deletionTimestamp = copy.metadata.deletionTimestamp
  node : placement.on edited = placement.on copy
  finalizers : ∀ name ∈ edited.metadata.finalizers, name ∈ copy.metadata.finalizers ∨
    name = finalizer
  spec : edited.spec = copy.spec ∨ edited.spec = withDefaults copy.spec

/-- A program with a copy of a record: it may look around, run its own commands, reserve and release
addresses, save the copy and remove the record. -/
inductive Tends {S ST α : Type} (r : Registry S ST) (edits : Resource S ST → Resource S ST → Prop)
    (acts : Resource S ST → List String → Prop) : Resource S ST → Prog α → Prop
  | done (copy : Resource S ST) (val : α) : Tends r edits acts copy (.ret val)
  | look {copy : Resource S ST} {op : Op} {next : op.Reply → Prog α} (looks : op.looks = true)
      (rest : ∀ reply, Tends r edits acts copy (next reply)) :
      Tends r edits acts copy (.call op next)
  | act {copy : Resource S ST} {cmd : List String} {next : Except Error String → Prog α}
      (own : acts copy cmd) (rest : ∀ reply, Tends r edits acts copy (next reply)) :
      Tends r edits acts copy (.call (.host cmd) next)
  | reserve {copy : Resource S ST} {subnet ip : String} {old : Option Bytes} {new : Bytes}
      {next : Except Error Bool → Prog α} (rest : ∀ reply, Tends r edits acts copy (next reply)) :
      Tends r edits acts copy (.call (.cas (addressKey subnet ip) old new) next)
  | release {copy : Resource S ST} {subnet ip : String} {next : Except Error Unit → Prog α}
      (rest : ∀ reply, Tends r edits acts copy (next reply)) :
      Tends r edits acts copy (.call (.delete (addressKey subnet ip)) next)
  | save {copy edited : Resource S ST} {next : Except Error (Resource S ST) → Prog α}
      (sameUID : edited.metadata.uid = copy.metadata.uid) (edit : edits copy edited)
      (failed : ∀ err, ∃ val, next (.error err) = .ret val)
      (stored : ∀ v, Tends r edits acts ((edited.stamp r.kind).withVersion v)
        (next (.ok ((edited.stamp r.kind).withVersion v)))) :
      Tends r edits acts copy (r.put edited >>= next)
  | remove {copy : Resource S ST} {next : Except Error Unit →
      Prog α} (free : copy.metadata.finalizers = [])
      (rest : ∀ reply, ∃ val, next reply = .ret val) :
      Tends r edits acts copy (r.delete copy.metadata.uid >>= next)

section

variable {S ST α β : Type} {r : Registry S ST} {edits : Resource S ST → Resource S ST → Prop}
variable {acts : Resource S ST → List String → Prop} {copy : Resource S ST}

/-- The operations between two writes of the record. -/
def Permitted (acts : List String → Prop) : Op → Prop
  | .host cmd => acts cmd
  | .cas key _ _ => ∃ subnet ip, key = addressKey subnet ip
  | .delete key => ∃ subnet ip, key = addressKey subnet ip
  | .put _ _ => False
  | _ => True

theorem permitted_of_looks {acts : List String → Prop} {op : Op} (looks : op.looks = true) :
    Permitted acts op := by
  cases op <;> trivial

theorem Tends.after {prog : Prog α} {k : α → Prog β} {post : α → Prop}
    (uses : prog.Uses (Permitted (acts copy)) post)
    (rest : ∀ val, post val → Tends r edits acts copy (k val)) :
    Tends r edits acts copy (prog >>= k) := by
  induction prog with
  | ret val => exact rest val uses
  | call op next ih =>
    have later := fun reply => ih reply (uses.2 reply)
    match op, uses.1, next, later with
    | .get _, _, _, later => exact .look rfl later
    | .keys _, _, _, later => exact .look rfl later
    | .now, _, _, later => exact .look rfl later
    | .ask _, _, _, later => exact .look rfl later
    | .random _, _, _, later => exact .look rfl later
    | .host _, own, _, later => exact .act own later
    | .cas _ _ _, ⟨_, _, rfl⟩, _, later => exact .reserve later
    | .delete _, ⟨_, _, rfl⟩, _, later => exact .release later

/-- Keys of records are not keys of reservations. -/
def ClearOfAddresses (r : Registry S ST) : Prop :=
  ∀ uid subnet ip, r.key uid ≠ addressKey subnet ip

theorem clearOfAddresses (flat : '/' ∉ r.kind.toList) (ne : r.kind ≠ "ipam") :
    ClearOfAddresses r := by
  intro uid subnet ip eq
  have apart : r.Disjoint (⟨"ipam", r.codec⟩ : Registry S ST) :=
    Registry.disjoint_of_kinds (l := "ipam") rfl rfl ⟨ne, flat, by decide⟩
  apply apart uid (subnet ++ "/" ++ ip)
  rw [eq, addressKey, Registry.key]
  simp [String.append_assoc]

end

section

variable {S ST : Type} {agent : Agent S ST} {withDefaults : S → S}
    {acts : Resource S ST → List String → Prop}

theorem Upkeep.refl (placement : Placement ST) (finalizer : String) (copy : Resource S ST) :
    Upkeep placement finalizer withDefaults copy copy :=
  ⟨rfl, rfl, rfl, fun _ seen => .inl seen, .inl rfl⟩

theorem Upkeep.setBase {placement : Placement ST} {finalizer : String} {copy edited : Resource S ST}
    (upkeep : Upkeep placement finalizer withDefaults copy edited) (base : StatusBase) :
    Upkeep placement finalizer withDefaults copy
      { edited with status := placement.setBase base edited.status } :=
  ⟨upkeep.uid, upkeep.mark, (placement.nodeName_setBase base edited.status).trans upkeep.node,
    upkeep.finalizers, upkeep.spec⟩

theorem removeIfFree_tends (res : Resource S ST) {edits : Resource S ST → Resource S ST → Prop} :
    Tends agent.registry edits acts res (agent.removeIfFree res) := by
  rw [Agent.removeIfFree]
  split
  · next free =>
    refine .remove free ?_
    intro reply
    cases reply <;> exact ⟨_, rfl⟩
  · exact .done _ _

theorem finalize_tends (agent : Agent S ST)
    (tearsDown : ∀ res, (agent.teardown res).Uses (Permitted (acts res)) fun _ => True)
    (releases : ∀ res, (agent.release res).Uses (Permitted (acts res)) fun _ => True)
    (res : Resource S ST) :
    Tends agent.registry (Upkeep agent.placement agent.finalizer withDefaults) acts res
      (agent.finalize res) := by
  rw [Agent.finalize]
  split
  · apply Tends.after (tearsDown res)
    intro out _
    cases out with
    | error err =>
      apply Tends.after
        ((Placement.setPhase_looks _ _ _ _ _).mono (fun _ => permitted_of_looks) fun _ => id)
      rintro _ ⟨base, rfl⟩
      exact .save rfl ((Upkeep.refl _ _ res).setBase base) (fun _ => ⟨_, rfl⟩) fun _ => .done _ _
    | ok done =>
      apply Tends.after (releases res)
      intro out _
      cases out with
      | error err => exact .done _ _
      | ok done =>
        have freed : Upkeep agent.placement agent.finalizer withDefaults res
            { res with metadata := res.metadata.removeFinalizer agent.finalizer } :=
          ⟨rfl, rfl, rfl, fun _ seen => .inl (List.mem_of_mem_filter seen), .inl rfl⟩
        apply Tends.after
          ((Placement.setPhase_looks _ _ _ _ _).mono (fun _ => permitted_of_looks) fun _ => id)
        rintro _ ⟨base, rfl⟩
        exact .save rfl (freed.setBase base) (fun _ => ⟨_, rfl⟩) fun _ => removeIfFree_tends _
  · exact removeIfFree_tends res

end

section

open Program

variable {S ST : Type} (agent : Agent S ST) (acts : String → List String → Prop)

/-- What is done for the record of a uid: its commands are run, it is written or removed, and
addresses are reserved and given back. -/
def Agent.For (uid : String) : Op → Prop
  | .host cmd => acts uid cmd
  | .cas key _ _ | .delete key =>
    key = agent.registry.key uid ∨ ∃ subnet ip, key = addressKey subnet ip
  | .put _ _ => False
  | _ => True

/-- An agent only looks around, or acts for a record that it has read and found placed on its node,
and since then it has acted for no other. -/
def Agent.Awaits (past : Trace Op Op.Reply) (op : Op) : Prop :=
  op.looks = true ∨ ∃ newer older uid data res, past = newer ++
    ⟨.get (agent.registry.key uid), .ok data⟩ :: older ∧
    agent.registry.decode uid data = .ok res ∧ agent.mine res = true ∧
    agent.For acts res.metadata.uid op ∧ ∀ event ∈ newer, agent.For acts res.metadata.uid event.1

variable {agent acts} {uid : String} {α : Type}

theorem Agent.For.of_permitted {op : Op} (permitted : Permitted (acts uid) op) :
    agent.For acts uid op := by
  cases op with
  | cas => exact .inr permitted
  | delete => exact .inr permitted
  | _ => exact permitted

theorem for_of_permitted {prog : Prog α} {post : α → Prop}
    (uses : prog.Uses (Permitted (acts uid)) post) :
    prog.Uses (agent.For acts uid) post :=
  uses.mono (fun _ => .of_permitted) fun _ => id

theorem for_of_looks {prog : Prog α} {post : α → Prop} (uses : prog.Uses Op.Looking post) :
    prog.Uses (agent.For acts uid) post :=
  for_of_permitted (uses.mono (fun _ => permitted_of_looks) fun _ => id)

theorem put_for (res : Resource S ST) (same : res.metadata.uid = uid) :
    (agent.registry.put res).Uses (agent.For acts uid) fun reply =>
    ∀ held, reply = .ok held → held.metadata.uid = uid := by
  refine (Registry.put_swaps trivial fun _ _ _ => .inl (same ▸ rfl)).mono (fun _ => id) ?_
  rintro reply stored held rfl
  obtain ⟨v, rfl⟩ := stored held rfl
  exact same

/-- A phase is set and the record saved. -/
theorem saved_for (agent : Agent S ST) {res : Resource S ST} (same : res.metadata.uid = uid)
    {phase : Phase} {reason msg : String}
    {next : Resource S ST → Except Error (Resource S ST) → Prog α}
    (fails : ∀ res err, (next res (.error err)).Uses (agent.For acts uid) fun _ => True)
    (goes : ∀ res held, held.metadata.uid = uid →
      (next res (.ok held)).Uses (agent.For acts uid) fun _ => True) :
    (agent.placement.setPhase res phase reason msg >>= fun res =>
      agent.registry.put res >>= next res).Uses
      (agent.For acts uid) fun _ => True := by
  apply (for_of_looks (agent.placement.setPhase_looks _ _ _ _)).bind
  rintro _ ⟨base, rfl⟩
  refine (put_for _ ?_).bind ?_
  · exact same
  intro reply stored
  cases reply with
  | error err => exact fails _ err
  | ok held => exact goes _ held (stored held rfl)

theorem Tends.acts_for {edits : Resource S ST → Resource S ST → Prop}
    {own : Resource S ST → List String → Prop}
    (covers : ∀ copy cmd, own copy cmd → acts copy.metadata.uid cmd) {copy : Resource S ST}
    {prog : Prog α} (tends : Tends agent.registry edits own copy prog) :
    prog.Uses (agent.For acts copy.metadata.uid) fun _ => True := by
  induction tends with
  | done => trivial
  | look looks rest ih => exact ⟨.of_permitted (permitted_of_looks looks), ih⟩
  | act cmd rest ih => exact ⟨covers _ _ cmd, ih⟩
  | reserve rest ih => exact ⟨.inr ⟨_, _, rfl⟩, ih⟩
  | release rest ih => exact ⟨.inr ⟨_, _, rfl⟩, ih⟩
  | save sameUID edit failed stored ih =>
    refine (Registry.put_swaps trivial fun _ _ _ => .inl (sameUID ▸ rfl)).bind ?_
    intro reply held
    cases reply with
    | error err =>
      obtain ⟨val, ends⟩ := failed err
      rw [ends]
      trivial
    | ok got =>
      obtain ⟨v, rfl⟩ := held got rfl
      rw [← sameUID]
      exact ih v
  | remove free rest =>
    refine (Registry.delete_uses (.inl rfl)).bind ?_
    intro reply _
    obtain ⟨val, ends⟩ := rest reply
    rw [ends]
    trivial

/-- What an agent does for a record of its own is for that record. -/
structure Agent.Dutiful (agent : Agent S ST) (acts : String → List String → Prop) : Prop where
  ensures : ∀ res, agent.mine res = true → res.metadata.isDeleting = false →
    (agent.ensure res).Uses (agent.For acts res.metadata.uid) fun _ => True
  tearsDown : ∀ res, (agent.teardown res).Uses (Permitted (acts res.metadata.uid)) fun _ => True
  releases : ∀ res, (agent.release res).Uses (Permitted (acts res.metadata.uid)) fun _ => True

theorem removeIfFree_for (res : Resource S ST) :
    (agent.removeIfFree res).Uses (agent.For acts res.metadata.uid) fun _ => True := by
  rw [Agent.removeIfFree]
  split
  · exact (Registry.delete_uses (.inl rfl)).tries (fun _ => trivial) fun _ => trivial
  · trivial

section

variable (dutiful : agent.Dutiful acts)

include dutiful

theorem finalize_for (res : Resource S ST) :
    (agent.finalize res).Uses (agent.For acts res.metadata.uid) fun _ => True := by
  rw [Agent.finalize]
  split
  · refine (for_of_permitted (dutiful.tearsDown res)).tries ?_ ?_
    · intro err
      refine saved_for agent rfl ?_ ?_ <;> intros <;> trivial
    · intro _
      refine (for_of_permitted (dutiful.releases res)).tries (fun _ => trivial) ?_
      intro _
      have freed : ({ res with metadata := res.metadata.removeFinalizer agent.finalizer } :
        Resource S ST).metadata.uid =
          res.metadata.uid := rfl
      refine saved_for agent freed (fun _ _ => trivial) ?_
      intro _ held same
      rw [← same]
      exact removeIfFree_for held
  · exact removeIfFree_for res

variable (past : Trace Op Op.Reply)

theorem reconcile_awaits (uid : String) :
    (agent.reconcile uid).Always (agent.Awaits acts) (fun _ _ => True) past := by
  rw [Agent.reconcile, Registry.get_bind]
  refine ⟨.inl rfl, ?_⟩
  intro reply
  dsimp only
  split
  · split <;> trivial
  · next read received =>
    split
    case isFalse => trivial
    case isTrue mine =>
      cases reply with
      | error err => cases received
      | ok data =>
        have tends :
            (if read.metadata.isDeleting then agent.finalize read else agent.ensure read).Uses
            (agent.For acts read.metadata.uid) fun _ => True := by
          split
          · exact finalize_for dutiful read
          · next live => exact dutiful.ensures read mine (eq_false_of_ne_true live)
        refine always_of_uses ?_ tends
        intro newer op came own
        exact .inr ⟨newer, past, uid, data, read, rfl, received, mine, own, came⟩

theorem reconcileAll_awaits :
    agent.reconcileAll.Always (agent.Awaits acts) (fun _ _ => True) past := by
  have lists : agent.registry.list.Always (agent.Awaits acts) (fun _ _ => True) past :=
    always_of_uses (fun _ _ _ looks => .inl looks) agent.registry.list_looks
  apply lists.bind
  intro later reply _
  cases reply with
  | error err => trivial
  | ok items =>
    have each : (agent.reconcileEach items).Always (agent.Awaits acts) (fun _ _ => True) later := by
      induction items generalizing later with
      | nil => trivial
      | cons res items ih =>
        apply (reconcile_awaits dutiful _ _).bind
        intro mid result _
        apply (ih mid).bind
        intro last errors _
        cases result <;> trivial
    exact each.bind fun _ _ _ => trivial

end

end

end Infrastructure.Manager
