import Infrastructure.Registry

/-! The generic HTTP handler: one resource kind served from its registry. -/

namespace Infrastructure

open Concurrency State Domain Program

structure Identity where
  subject : String
  roles : List String

def adminRole : String := "admin"

def Identity.hasRole (identity : Identity) (role : String) : Bool := identity.roles.contains role

/-- A request for one record: who asks, and the body as `encoding/json` decoded it. -/
structure Request (S ST : Type) where
  identity : Option Identity
  body : Except String (Resource S ST)

def Request.isAdmin {S ST : Type} (req : Request S ST) : Bool :=
  match req.identity with
  | some identity => identity.hasRole adminRole
  | none => false

inductive Response (S ST : Type) where
  | noContent
  | failure (status : Nat) (msg : String)
  | record (status : Nat) (res : Resource S ST)

/-- The functions are the methods of the kind's spec type; a spec without one has the neutral
function. -/
structure Handler (S ST : Type) where
  registry : Registry S ST
  authorization : Bool
  adminOnly : Bool
  privileged : S → Bool
  withDefaults : S → S
  validate : S → Except Error Unit
  references : S → List (String × String)
  zero : ST

namespace Handler

variable {S ST : Type} (h : Handler S ST)

def authorize (req : Request S ST) (ownerUID projectID : String) (permission : Permission) :
    Prog Bool :=
  if !h.adminOnly && !h.authorization then return true
  else
    match req.identity with
    | none => return false
    | some identity =>
      if h.adminOnly then return identity.hasRole adminRole
      else perform (Op.ask
        (.allowed identity.subject (identity.hasRole adminRole) ownerUID projectID permission))

def authorizeReferences (req : Request S ST) (res : Resource S ST) : Prog Bool :=
  if !h.authorization then return true
  else
    match req.identity with
    | none => return false
    | some identity => perform (Op.ask (.references identity.subject
        (identity.hasRole adminRole) res.metadata.projectID (h.references res.spec)))

/-- The end of a PUT: defaults, validation, references and the conditional write. -/
def store (req : Request S ST) (created : Bool) (res : Resource S ST) :
    Prog (Response S ST) := do
  let res := { res with spec := h.withDefaults res.spec }
  match h.validate res.spec with
  | .error err => return .failure 400 err.text
  | .ok () =>
    if ← h.authorizeReferences req res then
      match ← h.registry.put res with
      | .error err =>
        if err.is errConflict then return .failure 409 "resource version conflict"
        else return .failure 500 err.text
      | .ok stored => return .record (if created then 201 else 200) stored
    else return .failure 403 "reference is unavailable or outside the permitted scope"

/-- The spec comes from the client; what the server owns comes from the stored record. -/
def inherit (res existing : Resource S ST) : Resource S ST :=
  { res with
    metadata := { res.metadata with
      resourceVersion := existing.metadata.resourceVersion
      createdAt := existing.metadata.createdAt
      generation := existing.metadata.generation + 1
      ownerUID := existing.metadata.ownerUID
      finalizers := existing.metadata.finalizers
      deletionTimestamp := existing.metadata.deletionTimestamp }
    status := existing.status }

def replace (req : Request S ST) (res existing : Resource S ST) : Prog (Response S ST) := do
  if res.metadata.resourceVersion ≠ "" ∧
      res.metadata.resourceVersion ≠ existing.metadata.resourceVersion then
    return .failure 409 "resource version conflict"
  else if res.metadata.projectID ≠ existing.metadata.projectID then
    return .failure 400 "projectId is immutable once set"
  else if ← h.authorize req existing.metadata.ownerUID existing.metadata.projectID .write then
    h.store req false (inherit res existing)
  else return .failure 403 "forbidden"

def creator (req : Request S ST) (res : Resource S ST) : Prog (Option String) :=
  if h.adminOnly then
    match req.identity with
    | none => return none
    | some identity => return if identity.hasRole adminRole then some identity.subject else none
  else if h.authorization then
    match req.identity with
    | none => return none
    | some identity => do
        if res.metadata.projectID = "" then return some identity.subject
        else if ← perform (Op.ask (.allowed identity.subject (identity.hasRole adminRole) ""
            res.metadata.projectID .write)) then return some identity.subject
        else return none
  else return some res.metadata.ownerUID

def create (req : Request S ST) (res : Resource S ST) : Prog (Response S ST) := do
  match ← h.creator req res with
  | none => return .failure 403 "forbidden"
  | some ownerUID =>
    let time ← perform Op.now
    h.store req true { res with
      metadata := { res.metadata with
        ownerUID := ownerUID
        createdAt := time
        generation := 1
        finalizers := []
        deletionTimestamp := none
        resourceVersion := "" }
      status := h.zero }

def put (req : Request S ST) (uid : String) : Prog (Response S ST) := do
  match req.body with
  | .error err => return .failure 400 ("invalid body: " ++ err)
  | .ok body =>
    if h.privileged body.spec && !req.isAdmin then
      return .failure 403 "admin role required for privileged compute"
    else
      let res := { body with metadata := { body.metadata with uid := uid } }
      match ← h.registry.get uid with
      | .ok existing => h.replace req res existing
      | .error err =>
        if err.is errNotFound then h.create req res
        else return .failure 500 err.text

def remove (uid : String) : Prog (Response S ST) := do
  match ← h.registry.delete uid with
  | .error err => return .failure 500 err.text
  | .ok () => return .noContent

def markDeleted (existing : Resource S ST) : Prog (Response S ST) := do
  let time ← perform Op.now
  let marked :=
    { existing with metadata := { existing.metadata with deletionTimestamp := some time } }
  match ← h.registry.put marked with
  | .error err => return .failure 500 err.text
  | .ok stored => return .record 202 stored

def delete (req : Request S ST) (uid : String) : Prog (Response S ST) := do
  match ← h.registry.get uid with
  | .error err =>
    if err.is errNotFound then return .noContent else return .failure 500 err.text
  | .ok existing =>
    if ← h.authorize req existing.metadata.ownerUID existing.metadata.projectID .delete then
      if existing.metadata.finalizers = [] then h.remove uid
      else h.markDeleted existing
    else return .failure 403 "forbidden"

end Handler

end Infrastructure
