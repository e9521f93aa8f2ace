import Infrastructure.State.Store

/-! Permission resolution: the chain of scopes above a project, and what bindings on it grant. -/

namespace Infrastructure.Iam

open State (Permission)

/-- The permissions of a role; a role that is not known has none. -/
def permissions (role : String) : List Permission :=
  if role = "roles/viewer" then [.read]
  else if role = "roles/editor" then [.read, .write, .delete]
  else if role = "roles/owner" then [.read, .write, .delete, .admin]
  else []

structure ObjectReference where
  kind : String
  uid : String
  name : String := ""
  deriving DecidableEq, Repr

structure IAMBinding where
  resource : ObjectReference
  role : String
  members : List String
  deriving DecidableEq, Repr

inductive ParentKind where
  | organization
  | folder
  | unknown (text : String)
  deriving DecidableEq, Repr

structure Parent where
  kind : ParentKind
  id : String
  deriving DecidableEq, Repr

/-- One level of the hierarchy at a time, through a registry or a memory of one. -/
structure ScopeLookup (m : Type → Type) where
  projectParent : String → m (Except String Parent)
  folderParent : String → m (Except String Parent)

def maxChainDepth : Nat := 64

section

variable {m : Type → Type} [Monad m]

/-- The walk with so many hops left. -/
def climb (lookup : ScopeLookup m) : Nat → Parent → List ObjectReference →
    m (Except String (List ObjectReference))
  | 0, _, _ => return .error s!"iam: parent chain exceeds {maxChainDepth} hops (cycle?)"
  | hops + 1, parent, chain =>
    match parent.kind with
    | .organization => return .ok (chain ++ [⟨"organization", parent.id, ""⟩])
    | .folder => do
        match ← lookup.folderParent parent.id with
        | .error err => return .error err
        | .ok next => climb lookup hops next (chain ++ [⟨"folder", parent.id, ""⟩])
    | .unknown text => return .error s!"iam: unknown parent kind {text.quote}"

def scopeChain (lookup : ScopeLookup m) (projectID : String) :
    m (Except String (List ObjectReference)) := do
  match ← lookup.projectParent projectID with
  | .error err => return .error err
  | .ok parent => climb lookup maxChainDepth parent [⟨"project", projectID, ""⟩]

end

def inChain (ref : ObjectReference) (chain : List ObjectReference) : Bool :=
  chain.any fun c => c.kind == ref.kind && c.uid == ref.uid

def hasMember (members : List String) (subject : String) : Bool :=
  members.any fun mem => mem == subject

def effectivePermissions (bindings : List IAMBinding) (chain : List ObjectReference)
    (subject : String) :
    List Permission :=
  bindings.flatMap fun b =>
    if !inChain b.resource chain || !hasMember b.members subject then [] else permissions b.role

section

variable {lookup : ScopeLookup Id}

/-- A parent is an organization, or a folder from whose parent the organization is reached. -/
inductive Reaches (lookup : ScopeLookup Id) : Parent → List String → String → Prop
  | organization (id : String) : Reaches lookup ⟨.organization, id⟩ [] id
  | folder (id : String) (next : Parent) (folders : List String) (organization : String)
      (found : lookup.folderParent id = .ok next)
        (rest : Reaches lookup next folders organization) :
      Reaches lookup ⟨.folder, id⟩ (id :: folders) organization

def path (projectID : String) (folders : List String) (organization : String) :
    List ObjectReference :=
  ⟨"project", projectID, ""⟩ :: folders.map (⟨"folder", ·, ""⟩) ++
    [⟨"organization", organization, ""⟩]

def IsPath (lookup : ScopeLookup Id) (projectID : String) (chain : List ObjectReference) : Prop :=
  ∃ parent folders organization, lookup.projectParent projectID = .ok parent ∧
    Reaches lookup parent folders organization ∧ folders.length < maxChainDepth ∧
    chain = path projectID folders organization

theorem climb_eq_ok (hops : Nat) (parent : Parent) (walked chain : List ObjectReference) :
    climb lookup hops parent walked = .ok chain ↔
      ∃ folders organization, Reaches lookup parent folders organization ∧ folders.length < hops ∧
        chain = walked ++ folders.map (⟨"folder", ·, ""⟩) ++
          [⟨"organization", organization, ""⟩] := by
  induction hops generalizing parent walked with
  | zero =>
    constructor
    · intro got
      cases got
    · intro ⟨_, _, _, short, _⟩
      cases short
  | succ hops ih =>
    obtain ⟨kind, id⟩ := parent
    cases kind with
    | organization =>
      constructor
      · intro got
        cases got
        exact ⟨[], id, .organization id, Nat.succ_pos hops, by simp⟩
      · intro ⟨folders, organization, reaches, _, eq⟩
        cases reaches
        simp only [List.map_nil, List.append_nil] at eq
        rw [eq]
        rfl
    | unknown text =>
      constructor
      · intro got
        cases got
      · intro ⟨_, _, reaches, _⟩
        cases reaches
    | folder =>
      cases parent : lookup.folderParent id with
      | error err =>
        constructor
        · intro got
          simp only [climb, parent] at got
          cases got
        · intro ⟨_, _, reaches, _⟩
          cases reaches with
          | folder _ _ _ _ got _ =>
            rw [parent] at got
            cases got
      | ok next =>
        have step : climb lookup (hops + 1) ⟨.folder, id⟩ walked =
            climb lookup hops next (walked ++ [⟨"folder", id, ""⟩]) := by
          simp only [climb, parent]
          rfl
        rw [step, ih]
        constructor
        · intro ⟨folders, organization, reaches, short, eq⟩
          refine ⟨id :: folders, organization, .folder id next folders organization parent reaches,
            Nat.succ_lt_succ short, ?_⟩
          simp [eq]
        · intro ⟨folders, organization, reaches, short, eq⟩
          cases reaches with
          | folder _ other rest _ got reaches =>
            rw [parent] at got
            cases got
            exact ⟨rest, organization, reaches, Nat.lt_of_succ_lt_succ short, by simp [eq]⟩

theorem scopeChain_eq_ok (projectID : String) (chain : List ObjectReference) :
    scopeChain lookup projectID = .ok chain ↔ IsPath lookup projectID chain := by
  cases parent : lookup.projectParent projectID with
  | error err =>
    constructor
    · intro got
      simp only [scopeChain, parent] at got
      cases got
    · intro ⟨_, _, _, got, _⟩
      rw [parent] at got
      cases got
  | ok first =>
    have step : scopeChain lookup projectID =
        climb lookup maxChainDepth first [⟨"project", projectID, ""⟩] := by
      simp only [scopeChain, parent]
      rfl
    rw [step, climb_eq_ok]
    constructor
    · intro ⟨folders, organization, reaches, short, eq⟩
      exact ⟨first, folders, organization, parent, reaches, short, eq⟩
    · intro ⟨other, folders, organization, got, reaches, short, eq⟩
      rw [parent] at got
      cases got
      exact ⟨folders, organization, reaches, short, eq⟩

end

/-- A binding on a member of the chain that gives the subject the permission. -/
def Grants (bindings : List IAMBinding) (chain : List ObjectReference) (subject : String)
    (perm : Permission) : Prop :=
  ∃ b ∈ bindings, (∃ c ∈ chain, c.kind = b.resource.kind ∧ c.uid = b.resource.uid) ∧
    subject ∈ b.members ∧
    perm ∈ permissions b.role

theorem mem_effectivePermissions {bindings : List IAMBinding} {chain : List ObjectReference}
    {subject : String}
    {perm : Permission} : perm ∈ effectivePermissions bindings chain subject ↔
    Grants bindings chain subject perm := by
  unfold effectivePermissions Grants
  rw [List.mem_flatMap]
  apply exists_congr
  intro b
  apply and_congr_right
  intro _
  have members : hasMember b.members subject = true ↔ subject ∈ b.members := by simp [hasMember]
  have scopes : inChain b.resource chain = true ↔
      ∃ c ∈ chain, c.kind = b.resource.kind ∧ c.uid = b.resource.uid := by
    simp [inChain]
  rw [← members, ← scopes]
  cases inChain b.resource chain
  · simp
  · cases hasMember b.members subject
    · simp
    · simp

theorem Grants.mono {bindings more : List IAMBinding} {chain : List ObjectReference}
    {subject : String} {perm : Permission} (grants : Grants bindings chain subject perm)
    (added : bindings ⊆ more) :
    Grants more chain subject perm := by
  obtain ⟨b, mem, rest⟩ := grants
  exact ⟨b, added mem, rest⟩

end Infrastructure.Iam
