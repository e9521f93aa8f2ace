import Infrastructure.Idp.AccessTokens

/-! Authentication by name and password. Users are stored under their uids, and a name is looked up
in the list of all of them. -/

namespace Infrastructure.AccessTokens.Services

open Concurrency State Domain Registry

def errInvalidCredentials : Error := .new "identity: invalid credentials"

/-- `identity.Service.Authenticate`. `verify` is `bcrypt.CompareHashAndPassword`. -/
def authenticate (svc : Services) (verify : Bytes → String → Bool) (username password : String) :
    Prog (Except Error User) := do
  match ← svc.users.list with
  | .error err => return .error err
  | .ok users =>
    match users.find? fun user => user.spec.username = username with
    | none => return .error errInvalidCredentials
    | some user =>
      if user.spec.disabled then return .error errInvalidCredentials
      else if verify user.status.passwordHash password then
        return .ok { user with
          spec := { user.spec with password := "" }
          status := { user.status with passwordHash := [] } }
      else return .error errInvalidCredentials

/-- The user under the uid is enabled and has the name and the password. -/
def Admits (svc : Services) (now : Shared) (username password uid : String) : Prop :=
  ∃ user ∈ svc.users.stored now uid, user.spec.username = username ∧ user.spec.disabled = false ∧
    svc.hash password = .ok user.status.passwordHash

/-- Users are listed, told apart by their names, and have passwords. -/
structure Orderly (svc : Services) (now : Shared) : Prop where
  coherent : svc.users.Coherent now
  distinct : ∀ uid user other second, svc.users.stored now uid = some user →
    svc.users.stored now other = some second →
      second.spec.username = user.spec.username → other = uid
  hashed : ∀ uid user, svc.users.stored now uid = some user →
    ∃ password, svc.hash password = .ok user.status.passwordHash

/-- A user is put under a uid that stores list, and with a name that no other user has. -/
def Distinct (svc : Services) (call : Call) (s : Shared) : Prop :=
  ∀ uid spec, call = .putUser uid spec → svc.users.Listable uid ∧
    ∀ other user, svc.users.stored s other = some user →
      user.spec.username = spec.username → other = uid

variable {svc : Services}

section

variable {s s' : Shared}

theorem Orderly.fewer (ok : svc.Orderly s) (coherent : svc.users.Coherent s')
    (fewer : ∀ uid user, svc.users.stored s' uid = some user → svc.users.stored s uid = some user) :
    svc.Orderly s' where
  coherent := coherent
  distinct uid user other snd one two :=
    ok.distinct _ _ _ _ (fewer uid user one) (fewer other snd two)
  hashed uid user present := ok.hashed uid user (fewer uid user present)

theorem Orderly.erase (ok : svc.Orderly s) (key : String) : svc.Orderly (s.erase key) :=
  ok.fewer (ok.coherent.erase key) fun _ _ => stored_of_erase

theorem Orderly.saved_token (ok : svc.Orderly s) {token : AccessToken}
    (saves : svc.tokens.Saves s token s') : svc.Orderly s' := by
  apply ok.fewer (ok.coherent.sets_other saves.sets users_apart)
  intro uid user has
  rwa [saves.stored_other users_apart] at has

theorem Orderly.saved_user (ok : svc.Orderly s) {uid : String} {spec : UserSpec} {user : User}
    (distinct : svc.Distinct (.putUser uid spec) s) (saves : svc.users.Saves s user s')
    (wrote : svc.Written s uid spec user) : svc.Orderly s' := by
  obtain ⟨listable, apart⟩ := distinct uid spec rfl
  have origin {name : String} {got : User} (has : svc.users.stored s' name = some got) :
      (name = uid ∧ got.spec.username = spec.username ∧ got.status = user.status) ∨
        svc.users.stored s name = some got := by
    rcases saves.stored_cases has with ⟨rfl, v, rfl⟩ | ⟨-, same⟩
    · exact .inl ⟨wrote.own, (congrArg UserSpec.username wrote.given :), rfl⟩
    · exact .inr same
  refine ⟨ok.coherent.sets (wrote.own ▸ saves.sets) wrote.own listable wrote.named, ?_, ?_⟩
  · intro name got other snd one two eq
    rcases origin one with ⟨rfl, named, -⟩ | one
    · rcases origin two with ⟨rfl, -, -⟩ | two
      · rfl
      · exact apart other snd two (eq.trans named)
    · rcases origin two with ⟨rfl, named, -⟩ | two
      · exact (apart name got one (eq.symm.trans named)).symm
      · exact ok.distinct _ _ _ _ one two eq
  · intro name got has
    rcases origin has with ⟨rfl, -, status⟩ | old
    · have hash := wrote.hash
      rw [status]
      split at hash
      · obtain ⟨old, known, eq⟩ := hash
        rw [eq]
        exact ok.hashed _ old known
      · exact ⟨_, hash⟩
    · exact ok.hashed name got old

theorem body_orderly {call : Call} {s : Logged} (distinct : svc.Distinct call s.shared)
    (ok : svc.Orderly s.shared) :
    (svc.body call).Keeps logged (fun now => svc.Orderly now.shared) (fun _ _ => True) s := by
  cases call with
  | putUser uid spec =>
    exact (putUser_keeps ok fun _ _ => ok.saved_user distinct).bind fun _ _ _ => trivial
  | putToken uid ownerUid spec =>
    exact (putToken_keeps ok (fun _ _ saves _ => ok.saved_token saves) uid ownerUid spec).bind
      fun _ _ _ => trivial
  | deleteUser uid | deleteToken uid =>
    exact (delete_keeps ok (ok.erase _)).bind fun _ _ _ => trivial

theorem History.orderly {states : List Logged} (history : svc.History svc.Distinct states)
    (begins : ∀ first ∈ states.getLast?, svc.Orderly first.shared) :
    ∀ now ∈ states.head?, svc.Orderly now.shared := by
  induction history with
  | start first => exact begins
  | call pre call admitted runs ih =>
    rintro now ⟨⟩
    have ok := ih (by simpa using begins) _ rfl
    exact runs.keeps (body_orderly admitted ok) ok
  | wait pre waited ih =>
    rintro now ⟨⟩
    have ok := ih (by simpa using begins) _ rfl
    apply ok.fewer (ok.coherent.congr fun _ => by rw [Shared.value, waited.1.1, Shared.value])
    intro uid user has
    rwa [stored_drift waited.1] at has

end

variable {verify : Bytes → String → Bool} {now : Logged}

section

variable (lawful : ∀ password hash, svc.hash password = .ok hash →
      ∀ guess, verify hash guess = true ↔ guess = password)

include lawful

theorem verify_iff (ok : svc.Orderly now.shared) {uid password : String} {user : User}
    (has : svc.users.stored now.shared uid = some user) :
    verify user.status.passwordHash password = true ↔
      svc.hash password = .ok user.status.passwordHash := by
  obtain ⟨chosen, hash⟩ := ok.hashed uid user has
  rw [lawful chosen _ hash]
  constructor
  · rintro rfl
    exact hash
  · intro eq
    exact ((lawful chosen _ hash password).mp ((lawful password _ eq password).mpr rfl))

/-- Authentication finds the one user of that name. -/
theorem authenticate_served (ok : svc.Orderly now.shared) (username password : String) :
    (svc.authenticate verify username password).Ends steady (fun reply _ =>
      (∃ got, reply = .ok got ∧ svc.Admits now.shared username password got.metadata.uid) ∨
        (∃ err, reply = .error err) ∧ ∀ uid, ¬svc.Admits now.shared username password uid) now := by
  rw [authenticate]
  apply ((list_served trivial ok.coherent.readable).and (keeps_answering (list_keeps trivial))).bind
  rintro reply s' ⟨⟨-, users, rfl⟩, -, listing⟩
  have mem := ok.coherent.mem_listing (listing users rfl)
  dsimp only
  cases got : users.find? fun user => user.spec.username = username with
  | none =>
    refine .inr ⟨⟨_, rfl⟩, ?_⟩
    rintro uid ⟨user, has, named, -⟩
    have own := ok.coherent.filed uid user has
    have missed := List.find?_eq_none.mp got user ((mem user).mpr (own.symm ▸ has))
    simp [named] at missed
  | some user =>
    have has := (mem user).mp (List.mem_of_find?_eq_some got)
    have named : user.spec.username = username := by simpa using List.find?_some got
    have only {uid : String} (admits : svc.Admits now.shared username password uid) :
        user.spec.disabled = false ∧ verify user.status.passwordHash password = true := by
      obtain ⟨other, held, eq, enabled, hash⟩ := admits
      have uids := ok.distinct _ _ _ _ has held (eq.trans named.symm)
      rw [uids, has] at held
      cases held
      exact ⟨enabled, (verify_iff lawful ok has).mpr hash⟩
    dsimp only
    split
    · next disabled =>
        exact .inr ⟨⟨_, rfl⟩, fun uid admits => nomatch disabled.symm.trans (only admits).1⟩
    · next enabled =>
      split
      · next verified =>
        exact .inl ⟨_, rfl, user, has, named, Bool.eq_false_iff.mpr enabled,
          (verify_iff lawful ok has).mp verified⟩
      · next wrong => exact .inr ⟨⟨_, rfl⟩, fun uid admits => wrong (only admits).2⟩

end

/-- After calls that keep the names of users distinct. -/
theorem authenticate_identifies (svc : Services) (verify : Bytes → String → Bool)
    (lawful : ∀ password hash, svc.hash password = .ok hash → ∀ guess, verify hash guess = true ↔
      guess = password)
    {now : Logged} {past : List Logged} (history : svc.History svc.Distinct (now :: past))
    (begins : ∀ first ∈ (now :: past).getLast?, svc.Orderly first.shared)
    (username password : String) :
    (∀ uid, svc.Admits now.shared username password uid →
      (svc.authenticate verify username password).Ends steady
        (fun reply _ => ∃ found, reply = .ok found ∧ found.metadata.uid = uid) now) ∧
    ((∀ uid, ¬svc.Admits now.shared username password uid) →
      (svc.authenticate verify username password).Ends steady
        (fun reply _ => ∃ err, reply = .error err) now) ∧
    ∀ uid spec found s', (svc.putUser uid spec).Runs logged now (.ret (.ok found)) s' →
      ∃ user, svc.Written now.shared uid spec user ∧
        svc.users.stored s'.shared uid = some user := by
  have orderly := history.orderly begins now rfl
  have served := authenticate_served lawful orderly username password
  refine ⟨fun uid admits => served.mono ?_, fun refused => served.mono ?_,
    fun uid spec found s' runs => ?_⟩
  · rintro reply _ (⟨found, rfl, known⟩ | ⟨-, never⟩)
    · obtain ⟨user, present, named, -⟩ := admits
      obtain ⟨other, stored, same, -⟩ := known
      exact ⟨found, rfl, orderly.distinct _ _ _ _ present stored (same.trans named.symm)⟩
    · exact absurd admits (never uid)
  · rintro reply _ (⟨found, -, known⟩ | ⟨failed, -⟩)
    · exact absurd known (refused _)
    · exact failed
  · have keeps : (svc.putUser uid spec).Ends logged _ now :=
      putUser_keeps trivial fun _ _ _ _ => trivial
    exact runs.ends keeps found rfl

def matching (hash : Bytes) (password : String) : Bool := hash == bytesOf password

theorem matching_lawful (password : String) (hash : Bytes)
    (eq : sampleServices.hash password = .ok hash)
    (guess : String) : matching hash guess = true ↔ guess = password := by
  cases eq
  rw [matching, beq_iff_eq]
  exact ⟨fun eq => (bytesOf_inj eq).symm, fun eq => eq ▸ rfl⟩

theorem admits_of_any {now : Shared} {username password uid : String}
    (ok : (svc.users.stored now uid).any (fun user => user.spec.username = username ∧
      user.spec.disabled = false ∧ svc.hash password = .ok user.status.passwordHash) = true) :
    svc.Admits now username password uid := by
  obtain ⟨user, has, passed⟩ := (Option.any_eq_true _ _).mp ok
  exact ⟨user, has, of_decide_eq_true passed⟩

theorem played_orderly : sampleServices.Orderly (played []).shared where
  coherent := coherent_of_wellKept (by decide +kernel)
  distinct := by rintro _ _ _ _ ⟨⟩
  hashed := by rintro _ _ ⟨⟩

def namesakes : List Call :=
  [.putUser "b" { username := "x", password := "b" },
    .putUser "a" { username := "x", password := "a" }]

theorem authenticate_identifies_alice : (sampleServices.authenticate matching "x" "a").Ends steady
    (fun reply _ => ∃ found, reply = .ok found ∧ found.metadata.uid = "a")
    (played namesakes.tail) := by
  have history : sampleServices.History sampleServices.Distinct
      (played namesakes.tail :: before namesakes.tail) := by
    refine played_call (.start _) ?_
    rintro _ _ ⟨⟩
    exact ⟨by decide +kernel, nofun⟩
  have begins : ∀ first ∈ (played namesakes.tail :: before namesakes.tail).getLast?,
      sampleServices.Orderly first.shared := by
    rintro _ ⟨⟩
    exact played_orderly
  exact (authenticate_identifies sampleServices matching matching_lawful history begins "x" "a").1
    "a"
    (admits_of_any (by decide +kernel))

/-- Of two users with one name, the one that is listed later is not let in. -/
theorem namesake_refused : ∃ now past, sampleServices.History (fun _ _ => True) (now :: past) ∧
    sampleServices.Admits now.shared "x" "a" "a" ∧
      ¬(sampleServices.authenticate matching "x" "a").Ends steady
        (fun reply _ => ∃ found, reply = .ok found) now := by
  refine ⟨played namesakes, before namesakes, played_call (played_call (.start _) trivial) trivial,
    admits_of_any (by decide +kernel), ?_⟩
  intro ends
  obtain ⟨found, ok⟩ := ends.answered loggedAnswer_steady
  have refused :
      ((sampleServices.authenticate matching "x" "a").run (fun op now => loggedAnswer now op)
      (played namesakes)).1.toOption.isNone = true := by decide +kernel
  rw [ok] at refused
  cases refused

end Infrastructure.AccessTokens.Services
