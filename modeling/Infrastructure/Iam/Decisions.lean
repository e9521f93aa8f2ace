import Infrastructure.Iam.Authorizer

/-! What the authorizer answers, and that the memory of a request does not change it. -/

namespace Infrastructure.Iam

open Memo RequestMemory Bool
open State (Permission)

variable {content : Content}

/-- A binding on the scope chain of the resource's project grants the caller the permission. -/
def Granted (content : Content) (q : Query) : Prop :=
  q.projectID ≠ "" ∧ ∃ chain bindings, IsPath content.lookup q.projectID chain ∧
    content.bindings = .ok bindings ∧
    Grants bindings chain (memberPrefixUser ++ ":" ++ q.subject) q.perm

def Owns (q : Query) : Prop := q.ownerUID ≠ "" ∧ q.ownerUID = q.subject

section

variable {q : Query}
    (outside : (q.isAdmin || (q.ownerUID != "" && q.ownerUID == q.subject)) = false)
  (placed : q.projectID ≠ "")

include q outside placed

theorem allowed_by_bindings :
    content.allowed q = match content.scopeChain q.projectID, content.bindings with
      | .error err, _ => .error err
      | .ok _, .error err => .error err
      | .ok chain, .ok bindings =>
        .ok (q.perm ∈
          effectivePermissions bindings chain (memberPrefixUser ++ ":" ++ q.subject)) := by
  simp only [Content.allowed, Authorizer.allowed, outside, false_eq_true, if_false, if_neg placed,
    Content.authorizer, Content.scopeChain]
  cases scopeChain content.lookup q.projectID with
  | error err => rfl
  | ok chain =>
    cases content.bindings with
    | error err => rfl
    | ok bindings => rfl

theorem granted_iff : content.allowed q = .ok true ↔ Granted content q := by
  rw [allowed_by_bindings outside placed]
  cases got : content.scopeChain q.projectID with
  | error err =>
    simp only [reduceCtorEq, false_iff]
    intro ⟨_, chain, _, isPath, _⟩
    have eq : content.scopeChain q.projectID = .ok chain :=
      (scopeChain_eq_ok q.projectID chain).mpr isPath
    rw [got] at eq
    cases eq
  | ok chain =>
    have isPath := (scopeChain_eq_ok q.projectID chain).mp got
    cases listed : content.bindings with
    | error err => simp [Granted, listed]
    | ok bindings =>
      simp only [Except.ok.injEq, decide_eq_true_eq, mem_effectivePermissions]
      constructor
      · intro grants
        exact ⟨placed, chain, bindings, isPath, listed, grants⟩
      · intro ⟨_, other, read, otherPath, eq, grants⟩
        have again : content.scopeChain q.projectID = .ok other :=
          (scopeChain_eq_ok q.projectID other).mpr otherPath
        rw [got] at again
        rw [listed] at eq
        cases again
        cases eq
        exact grants

end

theorem allowed_iff (q : Query) : content.allowed q = .ok true ↔
    q.isAdmin = true ∨ Owns q ∨ Granted content q := by
  have owner : (q.ownerUID != "" && q.ownerUID == q.subject) = true ↔ Owns q := by simp [Owns]
  cases fast : q.isAdmin || (q.ownerUID != "" && q.ownerUID == q.subject) with
  | true =>
    have answer : content.allowed q = .ok true := by
      simp only [Content.allowed, Authorizer.allowed, fast]
      rfl
    rw [or_eq_true, owner] at fast
    simp only [answer, true_iff]
    exact fast.imp id .inl
  | false =>
    have neither := fast
    rw [or_eq_false_iff, ← not_eq_true, ← not_eq_true, owner] at neither
    rw [or_iff_right neither.1, or_iff_right neither.2]
    by_cases placed : q.projectID = ""
    · have answer : content.allowed q = .ok false := by
        simp only [Content.allowed, Authorizer.allowed, fast, if_pos placed]
        rfl
      simp [answer, Granted, placed]
    · exact granted_iff fast placed

/-- Resolution over any parent graph. The organization counts as the last of the 64 hops. -/
theorem permission_resolution (content : Content) :
    (∀ projectID chain, content.scopeChain projectID = .ok chain ↔
      IsPath content.lookup projectID chain) ∧
      (∀ projectID, (¬ ∃ chain, IsPath content.lookup projectID chain) →
        ∃ err, content.scopeChain projectID = .error err) ∧
      (∀ q, content.allowed q = .ok true ↔ q.isAdmin = true ∨ Owns q ∨ Granted content q) ∧
      ∀ q bindings more, content.bindings = .ok bindings → bindings ⊆ more →
        content.allowed q = .ok true →
        Content.allowed { content with bindings := .ok more } q = .ok true := by
  constructor
  · exact scopeChain_eq_ok
  · constructor
    · intro projectID none
      cases found : content.scopeChain projectID with
      | error err => exact ⟨err, rfl⟩
      | ok chain => exact absurd ⟨chain, (scopeChain_eq_ok projectID chain).mp found⟩ none
    · constructor
      · exact allowed_iff
      · intro q bindings more listed added allowed
        rw [allowed_iff] at allowed ⊢
        apply allowed.imp_right
        apply Or.imp_right
        intro ⟨placed, chain, read, isPath, same, grants⟩
        rw [listed] at same
        cases same
        exact ⟨placed, chain, more, isPath, rfl, grants.mono added⟩

def oneFolder : Content where
  projectParent _ := .ok ⟨.folder, "f"⟩
  folderParent _ := .ok ⟨.organization, "o"⟩
  bindings := .ok []

theorem permission_resolution_oneFolder : oneFolder.scopeChain "p" = .ok (path "p" ["f"] "o") :=
  ((permission_resolution oneFolder).1 "p" _).mpr
    ⟨_, ["f"], "o", rfl, .folder "f" _ [] "o" rfl (.organization "o"), by decide, rfl⟩

/-- Everything remembered is what the store says. -/
structure Remembers (content : Content) (memory : RequestMemory) : Prop where
  bindings : ∀ found, memory.bindings = some found → found = content.bindings
  projects : ∀ id found, memory.projects id = some found → found = content.projectParent id
  folders : ∀ id found, memory.folders id = some found → found = content.folderParent id
  decisions : ∀ key found, memory.decisions key = some found →
    found = content.allowed ⟨key.subject, false, "", key.project, key.perm⟩

theorem update_some {κ ν : Type} [DecidableEq κ] {table : κ → Option ν} {function : κ → ν}
    (right : ∀ key got, table key = some got → got = function key) (key other : κ) (got : ν)
    (has : Function.update table key (some (function key)) other = some got) :
    got = function other := by
  by_cases eq : other = key
  · subst eq
    rw [Function.update_self] at has
    cases has
    rfl
  · rw [Function.update_of_ne eq] at has
    exact right other got has

theorem projectParent_agrees (id : String) : Agrees (Remembers content)
    ((requestLookup content.lookup).projectParent id) (content.projectParent id) := by
  apply agrees_recall
  · intro memory memo
    exact memo.projects id
  · exact agrees_pure _
  · intro memory memo
    exact { memo with projects := update_some memo.projects id }

theorem folderParent_agrees (id : String) : Agrees (Remembers content)
    ((requestLookup content.lookup).folderParent id) (content.folderParent id) := by
  apply agrees_recall
  · intro memory memo
    exact memo.folders id
  · exact agrees_pure _
  · intro memory memo
    exact { memo with folders := update_some memo.folders id }

theorem bindings_agrees :
    Agrees (Remembers content) content.authorizer.live.bindings content.bindings := by
  apply agrees_recall
  · intro memory memo
    exact memo.bindings
  · exact agrees_pure _
  · intro memory memo
    exact { memo with bindings := fun got has => (Option.some.inj has).symm }

theorem climb_agrees (hops : Nat) (parent : Parent) (walked : List ObjectReference) :
    Agrees (Remembers content) (climb (requestLookup content.lookup) hops parent walked)
      (climb content.lookup hops parent walked) := by
  induction hops generalizing parent walked with
  | zero => exact agrees_pure _
  | succ hops ih =>
    obtain ⟨kind, id⟩ := parent
    cases kind with
    | organization => exact agrees_pure _
    | unknown text => exact agrees_pure _
    | folder =>
      apply (folderParent_agrees id).bind
      simp only [climb, Content.lookup]
      cases content.folderParent id with
      | error err => exact agrees_pure _
      | ok next => exact ih next _

theorem scopeChain_agrees (projectID : String) : Agrees (Remembers content)
    (scopeChain (requestLookup content.lookup) projectID)
    (scopeChain content.lookup projectID) := by
  apply (projectParent_agrees projectID).bind
  simp only [scopeChain, Content.lookup]
  cases content.projectParent projectID with
  | error err => exact agrees_pure _
  | ok parent => exact climb_agrees _ parent _

theorem live_agrees (q : Query) : Agrees (Remembers content) (content.authorizer.live.allowed q)
    (content.allowed q) := by
  unfold Content.allowed Authorizer.allowed
  split
  · exact agrees_pure _
  · split
    · exact agrees_pure _
    · apply (scopeChain_agrees q.projectID).bind
      simp only [Content.authorizer]
      cases scopeChain content.lookup q.projectID with
      | error err => exact agrees_pure _
      | ok chain =>
        apply bindings_agrees.bind
        cases content.bindings with
        | error err => exact agrees_pure _
        | ok bindings => exact agrees_pure _

theorem forRequest_agrees (q : Query) :
    Agrees (Remembers content) (content.authorizer.forRequest.allowed q) (content.allowed q) := by
  cases fast : q.isAdmin || (q.ownerUID != "" && q.ownerUID == q.subject) with
  | true =>
    simp only [Content.allowed, Authorizer.allowed, fast]
    exact agrees_pure _
  | false =>
    by_cases placed : q.projectID = ""
    · simp only [Content.allowed, Authorizer.allowed, fast, if_pos placed]
      exact agrees_pure _
    · -- the decision is made for a caller with no standing of its own, who gets the same answer
      have bare : content.allowed q = content.allowed ⟨q.subject, false, "", q.projectID,
          q.perm⟩ := by
        rw [allowed_by_bindings fast placed]
        exact (allowed_by_bindings (q := ⟨q.subject, false, "", q.projectID, q.perm⟩)
          rfl placed).symm
      have asked : content.authorizer.forRequest.allowed q = memoized decisionsTable
          (content.authorizer.live.allowed ⟨q.subject, false, "", q.projectID, q.perm⟩)
          ⟨q.subject, q.projectID, q.perm⟩ := by
        simp only [Authorizer.allowed, fast, if_neg placed, Authorizer.forRequest]
        rfl
      rw [bare, asked]
      apply agrees_recall
      · intro memory memo
        exact memo.decisions ⟨q.subject, q.projectID, q.perm⟩
      · exact live_agrees _
      · intro memory memo
        exact { memo with decisions := update_some memo.decisions ⟨q.subject, q.projectID, q.perm⟩ }

/-- One authorizer for the request answers each query as the plain one would, errors included. -/
theorem forRequest_answers (content : Content) (queries : List Query) :
    ((queries.mapM content.authorizer.forRequest.allowed).run {}).1 = queries.map
    content.allowed := by
  have start : Remembers content {} := by
    constructor
    all_goals
      intros
      contradiction
  exact (agrees_mapM forRequest_agrees queries {} start).1

end Infrastructure.Iam
