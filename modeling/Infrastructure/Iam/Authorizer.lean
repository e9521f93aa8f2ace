import Infrastructure.Iam.Resolve
import Infrastructure.Memo.Recall

/-! Who may do what, asked of the store or of the memory of one request. -/

namespace Infrastructure.Iam

open Memo
open State (Permission)

structure Authorizer (m : Type → Type) where
  lookup : ScopeLookup m
  bindings : m (Except String (List IAMBinding))
  decide : Option (String → String → Permission → m (Except String Bool)) := none

structure Query where
  subject : String
  isAdmin : Bool
  ownerUID : String
  projectID : String
  perm : Permission
  deriving DecidableEq, Repr

def memberPrefixUser : String := "user"

section

variable {m : Type → Type} [Monad m]

def Authorizer.allowed (a : Authorizer m) (q : Query) : m (Except String Bool) :=
  if q.isAdmin || (q.ownerUID != "" && q.ownerUID == q.subject) then return .ok true
  else if q.projectID = "" then return .ok false
  else
    match a.decide with
    | some decide => decide q.subject q.projectID q.perm
    | none => do
        match ← scopeChain a.lookup q.projectID with
        | .error err => return .error err
        | .ok chain =>
          match ← a.bindings with
          | .error err => return .error err
          | .ok bindings =>
            let principal := memberPrefixUser ++ ":" ++ q.subject
            return .ok (q.perm ∈ effectivePermissions bindings chain principal)

end

/-- What the store holds while a request is served. -/
structure Content where
  projectParent : String → Except String Parent
  folderParent : String → Except String Parent
  bindings : Except String (List IAMBinding)

def Content.lookup (content : Content) : ScopeLookup Id where
  projectParent := content.projectParent
  folderParent := content.folderParent

/-- The authorizer that asks the store every time. -/
def Content.authorizer (content : Content) : Authorizer Id where
  lookup := content.lookup
  bindings := content.bindings

def Content.scopeChain (content : Content) (projectID : String) :
    Except String (List ObjectReference) :=
  (Iam.scopeChain content.lookup projectID).run

def Content.allowed (content : Content) (q : Query) : Except String Bool :=
  (content.authorizer.allowed q).run

structure DecisionKey where
  subject : String
  project : String
  perm : Permission
  deriving DecidableEq, Repr

structure RequestMemory where
  bindings : Option (Except String (List IAMBinding)) := none
  projects : String → Option (Except String Parent) := fun _ => none
  folders : String → Option (Except String Parent) := fun _ => none
  decisions : DecisionKey → Option (Except String Bool) := fun _ => none

namespace RequestMemory

def bindingsTable : Table RequestMemory Unit (Except String (List IAMBinding)) where
  find memory _ := memory.bindings
  insert memory _ result := { memory with bindings := some result }

def projectsTable : Table RequestMemory String (Except String Parent) where
  find := projects
  insert memory id result :=
    { memory with projects := Function.update memory.projects id (some result) }

def foldersTable : Table RequestMemory String (Except String Parent) where
  find := folders
  insert memory id result :=
    { memory with folders := Function.update memory.folders id (some result) }

def decisionsTable : Table RequestMemory DecisionKey (Except String Bool) where
  find := decisions
  insert memory key result :=
    { memory with decisions := Function.update memory.decisions key (some result) }

end RequestMemory

open RequestMemory

def requestLookup (src : ScopeLookup Id) : ScopeLookup (StateM RequestMemory) where
  projectParent id := memoized projectsTable (pure (src.projectParent id)) id
  folderParent id := memoized foldersTable (pure (src.folderParent id)) id

/-- The authorizer without the memory of decisions. -/
def Authorizer.live (a : Authorizer Id) : Authorizer (StateM RequestMemory) where
  lookup := requestLookup a.lookup
  bindings := memoized bindingsTable (pure a.bindings) ()

def Authorizer.forRequest (a : Authorizer Id) : Authorizer (StateM RequestMemory) :=
  { a.live with
    decide := some fun subject project perm =>
      memoized decisionsTable (a.live.allowed ⟨subject, false, "", project, perm⟩) ⟨subject,
        project, perm⟩ }

end Infrastructure.Iam
