import Infrastructure.Cluster.Formats
import Infrastructure.State.Steady

/-! Access tokens act as the user who owns them, whom they name by uid. -/

namespace Infrastructure.AccessTokens

open Concurrency State Domain Crypto Option Registry

def kindAccessToken : String := "access_token"

def kindUser : String := "user"

structure AccessTokenSpec where
  name : String
  expiresAt : Option Int := none

structure AccessTokenStatus extends StatusBase where
  ownerUid : String := ""
  tokenHash : Bytes := []

structure UserSpec where
  username : String
  password : String := ""
  roles : List String := []
  disabled : Bool := false

structure UserStatus extends StatusBase where
  passwordHash : Bytes := []

abbrev AccessToken := Resource AccessTokenSpec AccessTokenStatus

abbrev User := Resource UserSpec UserStatus

def errInvalid : Error := .new "accesstoken: invalid token"

/-- What both services keep of the metadata of a record they replace. -/
def renewed (uid name : String) (existing : ObjectMeta) : ObjectMeta where
  uid := uid
  name := name
  resourceVersion := existing.resourceVersion
  createdAt := existing.createdAt
  generation := existing.generation + 1

/-- The services of users and of tokens. `hash` is `bcrypt.GenerateFromPassword` and `base64` the
URL encoding. -/
structure Services where
  tokenCodec : Codec AccessTokenSpec AccessTokenStatus
  userCodec : Codec UserSpec UserStatus
  hash : String → Except Error Bytes
  base64 : Bytes → String

namespace Services

variable (svc : Services)

def tokens : Registry AccessTokenSpec AccessTokenStatus := ⟨kindAccessToken, svc.tokenCodec⟩

def users : Registry UserSpec UserStatus := ⟨kindUser, svc.userCodec⟩

/-- The end of `identity.Service.Put`. -/
def saveUser (metadata : ObjectMeta) (status : UserStatus) (spec : UserSpec) :
    Prog (Except Error User) := do
  match if spec.password = "" then .ok status.passwordHash else svc.hash spec.password with
  | .error err => return .error (.wrap "identity: hash password" err)
  | .ok passwordHash =>
    let base := status.toStatusBase.markReconciled metadata.generation
    let base ← base.setPhase .ready "Stored" "user record stored"
    match ← svc.users.put { metadata, spec := { spec with password := "" }, status :=
      ⟨base, passwordHash⟩ } with
    | .error err => return .error err
    | .ok user => return .ok { user with status := { user.status with passwordHash := [] } }

/-- `identity.Service.Put`. -/
def putUser (uid : String) (spec : UserSpec) : Prog (Except Error User) := do
  if uid = "" then return .error (.new "identity: uid is required")
  else if spec.username = "" then return .error (.new "user: username is required")
  else
    match ← svc.users.get uid with
    | .ok existing =>
      svc.saveUser (renewed uid spec.username existing.metadata) existing.status spec
    | .error err =>
      if err.is errNotFound then
        if spec.password = "" then
          return .error (.new "identity: password is required to create a user")
        else
          let time ← Program.perform Op.now
          svc.saveUser { uid, name := spec.username, createdAt := time, generation := 1 } {} spec
      else return .error err

/-- The end of `accesstoken.Service.Put`. -/
def saveToken (metadata : ObjectMeta) (status : AccessTokenStatus) (spec : AccessTokenSpec)
    (plaintext : String) :
    Prog (Except Error (AccessToken × String)) := do
  let base := status.toStatusBase.markReconciled metadata.generation
  let base ← base.setPhase .ready "Stored" "access token stored"
  match ← svc.tokens.put { metadata, spec, status := { status with toStatusBase := base } } with
  | .error err => return .error err
  | .ok token =>
    return .ok ({ token with status := { token.status with tokenHash := [] } }, plaintext)

/-- `accesstoken.Service.Put`: a record that cannot be read is taken for a new one. -/
def putToken (uid ownerUid : String) (spec : AccessTokenSpec) :
    Prog (Except Error (AccessToken × String)) := do
  if uid = "" then return .error (.new "accesstoken: uid is required")
  else if spec.name = "" then return .error (.new "access_token: name is required")
  else
    match ← svc.tokens.get uid with
    | .ok existing =>
      svc.saveToken (renewed uid spec.name existing.metadata) existing.status spec ""
    | .error _ =>
      let time ← Program.perform Op.now
      let bytes ← Program.perform (Op.random 32)
      let plaintext := "infra_" ++ svc.base64 (List.ofFn bytes)
      let status := { ownerUid, tokenHash := sha256 (bytesOf plaintext) }
      svc.saveToken { uid, name := spec.name, createdAt := time, generation :=
        1 } status spec plaintext

def expired : Option Int → Prog Bool
  | none => return false
  | some expiry => do
      let time ← Program.perform Op.now
      return decide (expiry < time)

/-- The subject and the roles of the owner of a token. -/
def introspect (plaintext : String) : Prog (Except Error (String × List String)) := do
  if plaintext = "" then return .error errInvalid
  else
    match ← svc.tokens.list with
    | .error err => return .error err
    | .ok tokens =>
      match tokens.find? fun token => token.status.tokenHash = sha256 (bytesOf plaintext) with
      | none => return .error errInvalid
      | some token =>
        let late ← expired token.spec.expiresAt
        if late then return .error errInvalid
        else
          match ← svc.users.get token.status.ownerUid with
          | .error _ => return .error errInvalid
          | .ok owner =>
            if owner.spec.disabled then return .error errInvalid
            else return .ok (owner.metadata.uid, owner.spec.roles)

inductive Call where
  | putUser (uid : String) (spec : UserSpec)
  | deleteUser (uid : String)
  | putToken (uid ownerUid : String) (spec : AccessTokenSpec)
  | deleteToken (uid : String)

def body : Call → Prog Unit
  | .putUser uid spec => do let _ ← svc.putUser uid spec
  | .deleteUser uid => do let _ ← svc.users.delete uid
  | .putToken uid ownerUid spec => do let _ ← svc.putToken uid ownerUid spec
  | .deleteToken uid => do let _ ← svc.tokens.delete uid

/-- The states of a run, newest first. Any operation may fail, and a call may be cut short. -/
inductive History (admits : Call → Shared → Prop) : List Logged → Prop
  | start (first : Logged) : History admits [first]
  | call {now s' : Logged} {past : List Logged} {rest : Prog Unit}
      (pre : History admits (now :: past)) (call : Call) (admitted : admits call now.shared)
      (runs : (svc.body call).Runs logged now rest s') :
      History admits (s' :: now :: past)
  | wait {now s' : Logged} {past : List Logged} (pre : History admits (now :: past))
      (waited : logged.drift now s') : History admits (s' :: now :: past)

/-- For as long as there has been a record of the token, there has been one of the user. -/
def Since (token user : String) : List Logged → Prop
  | [] => True
  | now :: past => (svc.tokens.stored now.shared token).isSome →
      (svc.users.stored now.shared user).isSome ∧ Since token user past

/-- For as long as there has been a record of the token, it has named this owner. -/
def Named (token owner : String) : List Logged → Prop
  | [] => True
  | now :: past => ∀ got, svc.tokens.stored now.shared token = some got →
      got.status.ownerUid = owner ∧ Named token owner past

/-- No user is created under a uid that a token names as its owner's. -/
def Fresh (call : Call) (s : Shared) : Prop :=
  ∀ uid spec, call = .putUser uid spec → svc.users.stored s uid = none →
    ∀ other token, svc.tokens.stored s other = some token → token.status.ownerUid ≠ uid

/-- Tokens keep their owners, and users appear only by being put. -/
structure Evolves (s : Shared) (call : Call) (s' : Shared) : Prop where
  owners : ∀ uid token, svc.tokens.stored s' uid = some token → ∀ pre,
    svc.tokens.stored s uid = some pre → pre.status.ownerUid = token.status.ownerUid
  users : ∀ uid, (svc.users.stored s' uid).isSome → (svc.users.stored s uid).isSome ∨
    ∃ spec, call = .putUser uid spec

section

variable {svc} {s s' : Logged} {call : Call}

theorem users_apart : svc.users.Disjoint svc.tokens :=
  disjoint_of_kinds (k := kindUser) (l := kindAccessToken) rfl rfl (by decide)

theorem Evolves.fewer {s s' : Shared}
    (tokens : ∀ uid token, svc.tokens.stored s' uid = some token →
      svc.tokens.stored s uid = some token)
    (users : ∀ uid, (svc.users.stored s' uid).isSome → (svc.users.stored s uid).isSome ∨
      ∃ spec, call = .putUser uid spec) : svc.Evolves s call s' where
  owners uid token present pre got := by
    rw [tokens uid token present] at got
    cases got
    rfl
  users := users

theorem Evolves.refl (s : Shared) : svc.Evolves s call s :=
  .fewer (fun _ _ has => has) fun _ has => .inl has

theorem Evolves.erased (s : Shared) (key : String) : svc.Evolves s call (s.erase key) := by
  apply Evolves.fewer
  · intro uid token has
    exact stored_of_erase has
  · intro uid has
    obtain ⟨user, got⟩ := isSome_iff_exists.mp has
    exact .inl (isSome_of_eq_some (stored_of_erase got))

theorem Evolves.saved_user {s s' : Shared} {user : User} (saves : svc.users.Saves s user s')
    (spec : UserSpec) : svc.Evolves s (.putUser user.metadata.uid spec) s' := by
  apply Evolves.fewer
  · intro uid token has
    rwa [saves.stored_other users_apart.symm] at has
  · intro uid has
    by_cases eq : uid = user.metadata.uid
    · exact .inr ⟨spec, by rw [eq]⟩
    · rw [saves.stored_of_ne eq] at has
      exact .inl has

theorem Evolves.saved_token {s s' : Shared} {token : AccessToken}
    (saves : svc.tokens.Saves s token s')
    (kept : ∀ pre, svc.tokens.stored s token.metadata.uid = some pre →
      pre.status.ownerUid = token.status.ownerUid) : svc.Evolves s call s' where
  owners uid later has pre got := by
    rcases saves.stored_cases has with ⟨rfl, v, rfl⟩ | ⟨-, eq⟩
    · exact kept pre got
    · rw [eq] at got
      cases got
      rfl
  users uid has := by
    rw [saves.stored_other users_apart] at has
    exact .inl has

variable {S ST α : Type} {r : Registry S ST} {inv : Logged → Prop}

/-- What `identity.Service.Put` stores: without a password in the spec the user keeps the old
one. -/
structure Written (svc : Services) (s : Shared) (uid : String) (spec : UserSpec)
    (user : User) : Prop where
  own : user.metadata.uid = uid
  named : uid ≠ ""
  given : user.spec = { spec with password := "" }
  hash : if spec.password = "" then
      ∃ old, svc.users.stored s uid = some old ∧ user.status.passwordHash = old.status.passwordHash
    else svc.hash spec.password = .ok user.status.passwordHash

theorem keeps_save {base : StatusBase} {why msg : String} {rcd : StatusBase → Resource S ST}
    {next : Except Error (Resource S ST) → Prog α} {post : α → Logged → Prop} (holds : inv s)
    (kept : ∀ base s', r.Saves s.shared (rcd base) s' → inv (s.over s'))
    (fails : ∀ err now, (next (.error err)).Keeps logged inv post now)
    (ends : ∀ base got s', r.Saves s.shared (rcd base) s' →
      (next (.ok got)).Keeps logged inv post (s.over s')) :
    (base.setPhase .ready why msg >>= fun base => r.put (rcd base) >>= next).Keeps logged
    inv post s := by
  apply (keeps_looking (base.setPhase_looks .ready why msg) holds).bind
  rintro base s' ⟨-, eq⟩
  subst s'
  refine keeps_put holds (kept base) (fun err => fails err _) ?_
  intro reply s' saves _
  cases reply with
  | error err => exact fails err _
  | ok got => exact ends base got s' saves

section

variable {uid : String} {spec : UserSpec} (holds : inv s)
  (kept : ∀ user s', svc.users.Saves s.shared user s' → svc.Written s.shared uid spec user →
    inv (s.over s'))

include holds kept

theorem saveUser_keeps {metadata : ObjectMeta} {status : UserStatus} (own : metadata.uid = uid)
    (named : uid ≠ "") (old : spec.password = "" → ∃ old, svc.users.stored s.shared uid = some old ∧
      status.passwordHash = old.status.passwordHash) :
    (svc.saveUser metadata status spec).Keeps logged inv (fun reply s' => ∀ got, reply = .ok got →
      ∃ user, svc.Written s.shared uid spec user ∧
        svc.users.stored s'.shared uid = some user) s := by
  rw [saveUser]
  split
  · nofun
  · next passwordHash chosen =>
    have wrote (base : StatusBase) : svc.Written s.shared uid spec
        { metadata, spec := { spec with password := "" }, status := ⟨base, passwordHash⟩ } := by
      refine ⟨own, named, rfl, ?_⟩
      split at chosen
      · next empty =>
        cases chosen
        simpa [empty] using old empty
      · next given => simpa [given] using chosen
    refine keeps_save holds (fun base s' saves => kept _ s' saves (wrote base))
      (fun _ _ => nofun) ?_
    intro base got s' saves _ _
    obtain ⟨v, stored⟩ := saves.stored_self
    subst own
    refine ⟨_, ?_, stored⟩
    exact ⟨rfl, named, rfl, (wrote base).hash⟩

theorem putUser_keeps :
    (svc.putUser uid spec).Keeps logged inv (fun reply s' => ∀ got, reply = .ok got →
      ∃ user, svc.Written s.shared uid spec user ∧
        svc.users.stored s'.shared uid = some user) s := by
  rw [putUser]
  split
  · nofun
  · next named =>
    split
    · nofun
    · apply keeps_get holds
      · intro err
        dsimp only
        split
        · split
          · nofun
          · next given =>
            apply keeps_look rfl holds
            intro time _
            exact saveUser_keeps holds kept rfl named fun empty => absurd empty given
        · nofun
      · intro old got
        exact saveUser_keeps holds kept rfl named fun _ => ⟨old, got, rfl⟩

end

section

variable (holds : inv s) (kept : ∀ token s', svc.tokens.Saves s.shared token s' →
  (∀ pre, svc.tokens.stored s.shared token.metadata.uid = some pre →
    pre.status.ownerUid = token.status.ownerUid) → inv (s.over s'))

include holds kept

theorem saveToken_keeps {metadata : ObjectMeta} {status : AccessTokenStatus}
    (owned : ∀ pre, svc.tokens.stored s.shared metadata.uid = some pre →
      Matches metadata.resourceVersion (s.shared.value (svc.tokens.key metadata.uid)) →
      pre.status.ownerUid = status.ownerUid) (spec : AccessTokenSpec) (plaintext : String) :
    (svc.saveToken metadata status spec plaintext).Keeps logged inv (fun _ _ => True) s := by
  refine keeps_save holds (fun base s' saves => kept _ s' saves ?_) (fun _ _ => trivial)
    fun _ _ _ _ => trivial
  intro pre got
  obtain ⟨_, _, fit, _⟩ := saves
  exact owned pre got fit

theorem putToken_keeps (uid ownerUid : String) (spec : AccessTokenSpec) :
    (svc.putToken uid ownerUid spec).Keeps logged inv (fun _ _ => True) s := by
  rw [putToken]
  split
  · trivial
  · split
    · trivial
    · apply keeps_get holds
      · intro err
        apply keeps_look rfl holds
        intro time _
        apply keeps_look rfl holds
        intro bytes _
        apply saveToken_keeps holds kept
        -- Without a version the put only creates.
        intro pre got gone
        rw [Matches, if_pos rfl] at gone
        rw [Registry.stored, gone] at got
        cases got
      · intro old read
        apply saveToken_keeps holds kept
        intro pre got _
        cases read.symm.trans got
        rfl

end

theorem body_evolves (call : Call) (s : Logged) :
    (svc.body call).Keeps logged (fun now => svc.Evolves s.shared call now.shared)
    (fun _ _ => True) s := by
  cases call with
  | putUser uid spec =>
    refine (putUser_keeps (Evolves.refl _) fun user s' saves wrote => ?_).bind fun _ _ _ => trivial
    exact wrote.own ▸ Evolves.saved_user saves spec
  | putToken uid ownerUid spec =>
    exact (putToken_keeps (Evolves.refl _) (fun _ _ => Evolves.saved_token) uid ownerUid spec).bind
      fun _ _ _ => trivial
  | deleteUser uid | deleteToken uid =>
    exact (delete_keeps (Evolves.refl _) (Evolves.erased _ _)).bind fun _ _ _ => trivial

theorem Evolves.owned (evolves : svc.Evolves s.shared call s'.shared)
    (fresh : svc.Fresh call s.shared) {uid : String} {token pre : AccessToken}
    (has : svc.tokens.stored s'.shared uid = some token)
    (owner : (svc.users.stored s'.shared token.status.ownerUid).isSome)
    (got : svc.tokens.stored s.shared uid = some pre) :
    (svc.users.stored s.shared pre.status.ownerUid).isSome := by
  have eq := evolves.owners uid token has pre got
  rcases evolves.users _ owner with known | ⟨spec, put⟩
  · rwa [eq]
  · by_contra missing
    rw [not_isSome_iff_eq_none, eq] at missing
    exact fresh _ spec put missing uid pre got eq

theorem Since.older {past : List Logged} {uid owner : String}
    (older : ∀ pre, svc.tokens.stored s.shared uid = some pre →
      (svc.users.stored s.shared pre.status.ownerUid).isSome ∧ pre.status.ownerUid = owner)
    (ih : ∀ pre, svc.tokens.stored s.shared uid = some pre →
      (svc.users.stored s.shared pre.status.ownerUid).isSome →
      svc.Since uid pre.status.ownerUid (s :: past)) : svc.Since uid owner (s :: past) := by
  cases got : svc.tokens.stored s.shared uid with
  | none =>
    intro has
    rw [got] at has
    cases has
  | some pre =>
    obtain ⟨known, rfl⟩ := older pre got
    exact ih pre got known

theorem History.since {states : List Logged} (history : svc.History svc.Fresh states) :
    ∀ now past, states = now :: past → ∀ uid token, svc.tokens.stored now.shared uid = some token →
      (svc.users.stored now.shared token.status.ownerUid).isSome →
      svc.Since uid token.status.ownerUid states := by
  induction history with
  | start first =>
    rintro now past ⟨⟩ uid token has owner _
    exact ⟨owner, trivial⟩
  | call pre call admitted runs ih =>
    rintro now past ⟨⟩ uid token has owner _
    have evolves := runs.keeps (body_evolves call _) (Evolves.refl _)
    refine ⟨owner, Since.older ?_ (ih _ _ rfl uid)⟩
    intro older got
    exact ⟨evolves.owned admitted has owner got, evolves.owners uid token has older got⟩
  | wait pre waited ih =>
    rintro now past ⟨⟩ uid token has owner _
    rw [stored_drift waited.1] at has owner
    refine ⟨by rwa [stored_drift waited.1], ih _ _ rfl uid token has owner⟩

/-- A token keeps the owner it was created for. -/
theorem History.named {admits : Call → Shared → Prop} {states : List Logged}
    (history : svc.History admits states) :
    ∀ now past, states = now :: past → ∀ uid token, svc.tokens.stored now.shared uid = some token →
      svc.Named uid token.status.ownerUid states := by
  have older {s : Logged} {past : List Logged} {uid owner : String}
      (same : ∀ pre, svc.tokens.stored s.shared uid = some pre → pre.status.ownerUid = owner)
      (ih : ∀ pre, svc.tokens.stored s.shared uid = some pre →
        svc.Named uid pre.status.ownerUid (s :: past)) :
      svc.Named uid owner (s :: past) := by
    intro pre got
    have named := ih pre got
    rw [same pre got] at named
    exact named pre got
  induction history with
  | start first =>
    rintro now past ⟨⟩ uid token has got found
    cases has.symm.trans found
    exact ⟨rfl, trivial⟩
  | call pre call admitted runs ih =>
    rintro now past ⟨⟩ uid token has got found
    cases has.symm.trans found
    have evolves := runs.keeps (body_evolves call _) (Evolves.refl _)
    exact ⟨rfl, older (evolves.owners uid token has) (ih _ _ rfl uid)⟩
  | wait pre waited ih =>
    rintro now past ⟨⟩ uid token has got found
    cases has.symm.trans found
    rw [stored_drift waited.1] at has
    exact ⟨rfl, ih _ _ rfl uid token has⟩

end

/-- An unexpired token with the plaintext's hash, whose owner is enabled and has the subject and
roles. -/
structure Accepts (now : Shared) (plaintext uid : String) (token : AccessToken)
    (grants : String × List String) : Prop where
  present : svc.tokens.stored now uid = some token
  hash : token.status.tokenHash = sha256 (bytesOf plaintext)
  unexpired : ∀ expiry, token.spec.expiresAt = some expiry → now.clock ≤ expiry
  owned : ∃ user, svc.users.stored now token.status.ownerUid = some user ∧
    user.spec.disabled = false ∧
    grants = (user.metadata.uid, user.spec.roles)

variable {svc}

theorem keeps_expired {α : Type} {inv : Logged → Prop} {post : α → Logged → Prop} {s : Logged}
    {expiry : Option Int} {next : Bool → Prog α} (holds : inv s)
    (rest : ∀ late, (late = false → ∀ time, expiry = some time → s.shared.clock ≤ time) →
      (next late).Keeps logged inv post s) : (expired expiry >>= next).Keeps logged inv post s := by
  cases expiry with
  | none => exact rest false nofun
  | some time =>
    apply keeps_look rfl holds
    rintro clock ⟨-, rfl⟩
    apply rest
    rintro early _ ⟨⟩
    exact not_lt.mp (of_decide_eq_false early)

theorem introspect_keeps (plaintext : String) (now : Logged) :
    (svc.introspect plaintext).Ends logged (fun reply _ => ∀ grants, reply = .ok grants →
      ∃ uid token, svc.Accepts now.shared plaintext uid token grants) now := by
  rw [introspect]
  split
  · nofun
  · refine keeps_list trivial (fun _ => nofun) ?_
    intro tokens seen
    dsimp only
    split
    · nofun
    · next token first =>
      obtain ⟨uid, has⟩ := seen.sound token (List.mem_of_find?_eq_some first)
      have hash : token.status.tokenHash = sha256 (bytesOf plaintext) := by
        simpa using List.find?_some first
      apply keeps_expired trivial
      intro late early
      split
      · nofun
      · next unexpired =>
        refine keeps_get trivial (fun _ => nofun) ?_
        intro owner read
        dsimp only
        split
        · nofun
        · next enabled =>
          rintro _ ⟨⟩
          exact ⟨uid, token, has, hash, early (Bool.eq_false_iff.mpr unexpired), owner,
            read, Bool.eq_false_iff.mpr enabled, rfl⟩

section

open Text.Format

def bytesFormat : Text.Format Bytes :=
  (list nat).via (List.map UInt8.toNat) (List.map UInt8.ofNat) (by simp [Function.comp_def])

def sampleServices : Services where
  tokenCodec := .ofFormat
    ((string.pair (option int)).via (fun val => (val.name, val.expiresAt))
      (fun (name, expiry) => ⟨name, expiry⟩)
      (fun _ => rfl))
    ((statusBaseFormat.pair (string.pair bytesFormat)).via
      (fun val => (val.toStatusBase, val.ownerUid, val.tokenHash))
        (fun (base, owner, hash) => ⟨base, owner, hash⟩)
      (fun _ => rfl))
  userCodec := .ofFormat
    ((string.pair (string.pair ((list string).pair bool))).via
      (fun val => (val.username, val.password, val.roles, val.disabled))
      (fun (name, password, roles, disabled) => ⟨name, password, roles, disabled⟩) (fun _ => rfl))
    ((statusBaseFormat.pair bytesFormat).via (fun val => (val.toStatusBase, val.passwordHash))
      (fun (base, hash) => ⟨base, hash⟩) (fun _ => rfl))
  hash password := .ok (bytesOf password)
  base64 := hexEncode

/-- Where calls without faults lead from an empty store, the last call first. -/
def played : List Call → Logged
  | [] => ⟨⟨∅, 0⟩, []⟩
  | call :: pre => (sampleServices.body call).outcome loggedAnswer (played pre)

def before : List Call → List Logged
  | [] => []
  | _ :: pre => played pre :: before pre

theorem played_call {admits : Call → Shared → Prop} {calls : List Call}
    (history : sampleServices.History admits (played calls :: before calls)) {call : Call}
    (ok : admits call (played calls).shared) :
    sampleServices.History admits (played (call :: calls) :: before (call :: calls)) :=
  .call history call ok (.answered loggedAnswer_exec _ _)

def plaintext : String := "infra_" ++ hexEncode (List.replicate 32 0)

def signUp : List Call :=
  [.putToken "ci" "alice" ⟨"ci", none⟩, .putUser "alice" { username := "alice", password := "a" }]

/-- The user is deleted, and another one gets the uid. -/
def reuse : List Call :=
  .putUser "alice" { username := "mallory", password := "m", roles := ["admin"] } ::
    .deleteUser "alice" :: signUp

end

end Services

end Infrastructure.AccessTokens
