import Infrastructure.Registry.Rules

/-! The way request handlers, controllers and agents treat records.

A pass works on a copy of one record at a time. It may look at the clock, the
host and other records, load a copy, save what it makes of it under the version
it was read at, update a record in place, create one, and remove the record it
holds a copy of. A discipline says which saves, creations and removals it makes;
the copy in hand is the index of the predicate. -/

namespace Infrastructure.Registry

open Concurrency State Domain Program

structure Discipline (S ST : Type) where
  saves : Resource S ST → Resource S ST → Prop
  creates : Resource S ST → Prop
  removes : Resource S ST → Prop

inductive Pass {S ST α : Type} (r : Registry S ST) (discipline : Discipline S ST) :
    Option (Resource S ST) → Prog α → Prop
  | done {copy : Option (Resource S ST)} (val : α) : Pass r discipline copy (.ret val)
  | ambient {copy : Option (Resource S ST)} {op : Op} {next : op.Reply → Prog α}
      (ambient : op.ambient = true) (rest : ∀ reply, Pass r discipline copy (next reply)) :
      Pass r discipline copy (perform op >>= next)
  | peek {copy : Option (Resource S ST)} {key : String} {next : Except Error Bytes → Prog α}
      (other : ∀ res, copy = some res → key ≠ r.key res.metadata.uid)
      (rest : ∀ reply, Pass r discipline copy (next reply)) :
      Pass r discipline copy (perform (.get key) >>= next)
  | load {copy : Option (Resource S ST)} {uid : String}
      {next : Except Error (Resource S ST) → Prog α}
      (failed : ∀ err, Pass r discipline none (next (.error err)))
      (found : ∀ res, res.metadata.uid = uid →
        Pass r discipline (some res) (next (.ok res))) :
      Pass r discipline copy (r.get uid >>= next)
  | save {copy saved : Resource S ST} {next : Except Error (Resource S ST) → Prog α}
      (sameVersion : saved.metadata.resourceVersion = copy.metadata.resourceVersion)
      (sameUID : saved.metadata.uid = copy.metadata.uid) (saves : discipline.saves copy saved)
      (failed : ∀ err, Pass r discipline none (next (.error err)))
      (stored : ∀ v, Pass r discipline
        (some ((saved.stamp r.kind).withVersion v))
        (next (.ok ((saved.stamp r.kind).withVersion v)))) :
      Pass r discipline (some copy) (r.put saved >>= next)
  | create {copy : Option (Resource S ST)} {created : Resource S ST}
      {next : Except Error (Resource S ST) → Prog α}
      (fresh : created.metadata.resourceVersion = "") (creates : discipline.creates created)
      (failed : ∀ err, Pass r discipline none (next (.error err)))
      (stored : ∀ v, Pass r discipline
        (some ((created.stamp r.kind).withVersion v))
        (next (.ok ((created.stamp r.kind).withVersion v)))) :
      Pass r discipline copy (r.put created >>= next)
  | update {copy : Option (Resource S ST)} {uid : String}
      {mutate : Resource S ST → Prog (Except Error (Resource S ST))}
      {next : Except Error Bool → Prog α}
      (mutates : ∀ res, (mutate res).Uses (fun op => op.ambient = true) fun result =>
        ∀ updated, result = .ok updated →
          updated.metadata.uid = res.metadata.uid ∧ discipline.saves res updated)
      (rest : ∀ reply, Pass r discipline none (next reply)) :
      Pass r discipline copy (r.tryUpdate uid mutate >>= next)
  | remove {copy : Resource S ST} {next : Except Error Unit → Prog α}
      (removes : discipline.removes copy)
      (rest : ∀ reply, Pass r discipline none (next reply)) :
      Pass r discipline (some copy) (r.delete copy.metadata.uid >>= next)

variable {S ST α β : Type} {r : Registry S ST} {discipline : Discipline S ST}
variable {copy : Option (Resource S ST)} {k : α → Prog β} {prog : Prog α}

theorem Pass.bind (pass : Pass r discipline copy prog)
    (rest : ∀ val later, Pass r discipline later (k val)) :
    Pass r discipline copy (prog >>= k) := by
  induction pass with
  | done val => exact rest val _
  | ambient ambient _ ih =>
    rw [bind_assoc]
    exact .ambient ambient ih
  | peek other _ ih =>
    rw [bind_assoc]
    exact .peek other ih
  | load _ _ failed got =>
    rw [bind_assoc]
    exact .load failed got
  | save sameVersion sameUID saves _ _ failed stored =>
    rw [bind_assoc]
    exact .save sameVersion sameUID saves failed stored
  | create fresh creates _ _ failed stored =>
    rw [bind_assoc]
    exact .create fresh creates failed stored
  | update mutates _ ih =>
    rw [bind_assoc]
    exact .update mutates ih
  | remove removes _ ih =>
    rw [bind_assoc]
    exact .remove removes ih

theorem Pass.after {post : α → Prop} (uses : prog.Uses (fun op => op.ambient = true) post)
    (rest : ∀ val, post val → Pass r discipline copy (k val)) :
    Pass r discipline copy (prog >>= k) := by
  induction prog with
  | ret val => exact rest val uses
  | call op next ih => exact .ambient uses.1 fun reply => ih reply (uses.2 reply)

theorem Pass.reading {post : α → Prop} (uses : prog.Uses (fun op => op.reads = true) post)
    (rest : ∀ val, post val → Pass r discipline none (k val)) :
    Pass r discipline none (prog >>= k) := by
  induction prog with
  | ret val => exact rest val uses
  | call op next ih =>
    have later := fun reply => ih reply (uses.2 reply)
    cases op with
    | get key => exact .peek nofun later
    | put key val => cases uses.1
    | delete key => cases uses.1
    | cas key old new => cases uses.1
    | keys dir => exact .ambient rfl later
    | now => exact .ambient rfl later
    | ask question => exact .ambient rfl later
    | host cmd => exact .ambient rfl later
    | random count => exact .ambient rfl later

/-- What controllers and agents make of a record: spec and status, finalizers, and a request for its
deletion. -/
inductive Edited (orig : Resource S ST) : Resource S ST → Prop
  | refl : Edited orig orig
  | spec {edited : Resource S ST} (spec : S) (before : Edited orig edited) :
      Edited orig { edited with spec := spec }
  | status {edited : Resource S ST} (status : ST) (before : Edited orig edited) :
      Edited orig { edited with status := status }
  | addFinalizer {edited : Resource S ST} (name : String) (before : Edited orig edited) :
      Edited orig { edited with metadata := edited.metadata.addFinalizer name }
  | removeFinalizer {edited : Resource S ST} (name : String) (before : Edited orig edited) :
      Edited orig { edited with metadata := edited.metadata.removeFinalizer name }
  | markDeleting {edited : Resource S ST} (time : Int) (before : Edited orig edited) :
      Edited orig
        { edited with metadata := { edited.metadata with deletionTimestamp := some time } }

/-- The metadata but for the finalizers and the deletion timestamp. -/
def lasting (metadata : ObjectMeta) : ObjectMeta :=
  { metadata with finalizers := [], deletionTimestamp := none }

variable {orig edited : Resource S ST}

section

variable (edits : Edited orig edited)

include edits

theorem Edited.lasting : Registry.lasting edited.metadata = Registry.lasting orig.metadata := by
  induction edits with
  | refl => rfl
  | spec _ _ ih => exact ih
  | status _ _ ih => exact ih
  | addFinalizer name _ ih =>
    simp only [ObjectMeta.addFinalizer]
    split <;> exact ih
  | removeFinalizer _ _ ih => exact ih
  | markDeleting _ _ ih => exact ih

theorem Edited.uid : edited.metadata.uid = orig.metadata.uid := by
  have eq := congrArg ObjectMeta.uid edits.lasting
  exact eq

theorem Edited.resourceVersion :
    edited.metadata.resourceVersion = orig.metadata.resourceVersion := by
  have eq := congrArg ObjectMeta.resourceVersion edits.lasting
  exact eq

end

/-- Agents remove a record only once their copy lists no finalizer. -/
def agents : Discipline S ST where
  saves := Edited
  creates _ := True
  removes copy := copy.metadata.finalizers = []

end Infrastructure.Registry
