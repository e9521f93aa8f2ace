import Infrastructure.Handler
import Infrastructure.Registry.Pass

/-! Everything that writes the records of one kind: API requests, controllers and
agents, any number of each. -/

namespace Infrastructure.Lifecycle

open Concurrency State Domain Registry

variable {S ST α : Type}

/-- What an API PUT makes of the record it replaces. -/
structure Replaced (copy saved : Resource S ST) : Prop where
  createdAt : saved.metadata.createdAt = copy.metadata.createdAt
  ownerUID : saved.metadata.ownerUID = copy.metadata.ownerUID
  projectID : saved.metadata.projectID = copy.metadata.projectID
  finalizers : saved.metadata.finalizers = copy.metadata.finalizers
  deletionTimestamp : saved.metadata.deletionTimestamp = copy.metadata.deletionTimestamp
  generation : saved.metadata.generation = copy.metadata.generation + 1
  status : saved.status = copy.status

def replacing : Discipline S ST where
  saves := Replaced
  creates _ := True
  removes _ := False

section

variable {h : Handler S ST} {req : Request S ST} {discipline : Discipline S ST}

theorem authorize_ambient (ownerUID projectID : String) (permission : Permission) :
    (h.authorize req ownerUID projectID permission).Uses
    (fun op => op.ambient = true) fun _ => True := by
  unfold Handler.authorize
  split
  · trivial
  · split
    · trivial
    · split
      · trivial
      · exact ⟨rfl, fun _ => trivial⟩

theorem authorizeReferences_ambient (res : Resource S ST) :
    (h.authorizeReferences req res).Uses (fun op => op.ambient = true) fun _ => True := by
  unfold Handler.authorizeReferences
  split
  · trivial
  · split
    · trivial
    · exact ⟨rfl, fun _ => trivial⟩

theorem creator_ambient (res : Resource S ST) :
    (h.creator req res).Uses (fun op => op.ambient = true) fun _ => True := by
  unfold Handler.creator
  split
  · split <;> trivial
  · split
    · split
      · trivial
      · split
        · trivial
        · refine .perform rfl ?_
          intro reply
          cases reply <;> trivial
    · trivial

theorem store_pass {copy : Option (Resource S ST)} {created : Bool} {res : Resource S ST}
    (writes : ∀ next : Except Error (Resource S ST) → Prog (Response S ST),
      (∀ out later, Pass h.registry discipline later (next out)) → Pass h.registry discipline copy
        (h.registry.put { res with spec := h.withDefaults res.spec } >>= next)) :
    Pass h.registry discipline copy (h.store req created res) := by
  unfold Handler.store
  dsimp only
  split
  · exact .done _
  · refine Pass.after (authorizeReferences_ambient _) ?_
    intro allowed _
    cases allowed with
    | false => exact .done _
    | true =>
      refine writes _ ?_
      intro out later
      cases out with
      | error err =>
        dsimp only
        split <;> exact .done _
      | ok stored => exact .done _

theorem replace_pass {res old : Resource S ST} (sameUID : res.metadata.uid = old.metadata.uid) :
    Pass h.registry replacing (some old) (h.replace req res old) := by
  unfold Handler.replace
  split
  · exact .done _
  · split
    · exact .done _
    · next sameProject =>
      refine Pass.after (authorize_ambient _ _ _) ?_
      intro ok _
      cases ok with
      | false => exact .done _
      | true =>
        refine store_pass ?_
        intro next rest
        refine .save rfl sameUID ?_ (fun _ => rest _ _) (fun _ => rest _ _)
        exact ⟨rfl, rfl, not_not.mp sameProject, rfl, rfl, rfl, rfl⟩

theorem create_pass (res : Resource S ST) : Pass h.registry replacing none (h.create req res) := by
  refine Pass.after (creator_ambient res) ?_
  intro owner _
  cases owner with
  | none => exact .done _
  | some ownerUID =>
    refine .ambient rfl ?_
    intro time
    refine store_pass ?_
    intro next rest
    exact .create rfl trivial (fun _ => rest _ _) (fun _ => rest _ _)

theorem put_pass (uid : String) : Pass h.registry replacing none (h.put req uid) := by
  unfold Handler.put
  split
  · exact .done _
  · split
    · exact .done _
    · refine .load ?_ ?_
      · intro err
        dsimp only
        split
        · exact create_pass _
        · exact .done _
      · intro old sameUID
        exact replace_pass sameUID.symm

theorem delete_pass (uid : String) : Pass h.registry agents none (h.delete req uid) := by
  refine .load ?_ ?_
  · intro err
    dsimp only
    split <;> exact .done _
  · rintro old rfl
    refine Pass.after (authorize_ambient _ _ _) ?_
    intro ok _
    cases ok with
    | false => exact .done _
    | true =>
      simp only [↓reduceIte]
      split
      · next free =>
        refine .remove free ?_
        intro reply
        cases reply <;> exact .done _
      · refine .ambient rfl ?_
        intro time
        refine .save rfl rfl (.markDeleting time .refl) (fun _ => .done _) (fun _ => .done _)

end

/-- One writer: a request, or a controller's or agent's pass that follows the discipline. -/
inductive Writer (h : Handler S ST) (discipline : Discipline S ST) where
  | put (req : Request S ST) (uid : String)
  | delete (req : Request S ST) (uid : String)
  | pass (prog : Prog Unit) (follows : Pass h.registry discipline none prog)

variable {h : Handler S ST} {discipline : Discipline S ST}

def Writer.run : Writer h discipline → Prog Unit
  | .put req uid => do let _ ← h.put req uid
  | .delete req uid => do let _ ← h.delete req uid
  | .pass prog _ => prog

def Writer.conduct : Writer h discipline → Discipline S ST
  | .put _ _ => replacing
  | .delete _ _ => agents
  | .pass _ _ => discipline

theorem Writer.run_pass (writer : Writer h discipline) :
    Pass h.registry writer.conduct none writer.run := by
  cases writer with
  | put req uid => exact (put_pass uid).bind fun _ _ => .done _
  | delete req uid => exact (delete_pass uid).bind fun _ _ => .done _
  | pass prog follows => exact follows

end Infrastructure.Lifecycle
