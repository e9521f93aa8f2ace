import Infrastructure.Idp.Device

/-! One transaction on the grants, between the value it read and the value it writes. -/

namespace Infrastructure.Idp

open Concurrency State Finmap Finset

/-- The program only asks for the time, and with answers from `since` on returns a value with the
property. -/
def Timed {α : Type} (since : Int) (post : α → Prop) : Prog α → Prop
  | .ret val => post val
  | .call .now next => ∀ time, since ≤ time → Timed since post (next time)
  | .call _ _ => False

section

variable {α β : Type} {since : Int} {prog : Prog α}

theorem Timed.bind {mid : α → Prop} {post : β → Prop} {k : α → Prog β}
    (timed : Timed since mid prog) (rest : ∀ val, mid val → Timed since post (k val)) :
    Timed since post (prog >>= k) := by
  induction prog with
  | ret val => exact rest val timed
  | call op next ih =>
    cases op with
    | now => exact fun time later => ih time (timed time later)
    | _ => exact timed.elim

theorem Timed.now {post : β → Prop} {k : Int → Prog β}
    (rest : ∀ time, since ≤ time → Timed since post (k time)) :
    Timed since post (Program.perform Op.now >>= k) :=
  rest

theorem Timed.mono {strong weak : α → Prop} (weaker : ∀ val, strong val → weak val)
    (timed : Timed since strong prog) : Timed since weak prog := by
  induction prog with
  | ret val => exact weaker val timed
  | call op next ih =>
    cases op with
    | now => exact fun time later => ih time (timed time later)
    | _ => exact timed.elim

theorem Timed.later {since' : Int} (later : since ≤ since') {post : α → Prop}
    (timed : Timed since post prog) : Timed since' post prog := by
  induction prog with
  | ret val => exact timed
  | call op next ih =>
    cases op with
    | now => exact fun time after => ih time (timed time (Int.le_trans later after))
    | _ => exact timed.elim

theorem Timed.returns {post : α → Prop} (timed : ∀ since, Timed since post prog)
    {val : α} (out : prog.Returns val) : post val := by
  induction prog with
  | ret result =>
    cases out
    exact timed 0
  | call op next ih =>
    obtain ⟨reply, out⟩ := out
    cases op with
    | now =>
      -- asked again, the clock may be behind `since`, so the bound is lowered to the answer
      have answered (since : Int) : Timed since post (next reply) :=
        (timed (min since reply) reply (Int.min_le_right since reply)).later
          (Int.min_le_left since reply)
      exact ih reply answered out
    | _ => exact (timed 0).elim

end

/-- Grants are filed under their device code, no two share a user code, and they are not too
many. -/
structure Tidy (grants : Grants) : Prop where
  keyed : ∀ code da, grants.lookup code = some da → da.deviceCode = code
  distinct : ∀ code other da da', grants.lookup code = some da → grants.lookup other = some da' →
    da.userCode = da'.userCode → code = other
  bounded : grants.keys.card ≤ maxDeviceAuthorizations

def Inverse (indexes : Indexes) : Prop :=
  ∀ user code, indexes.byUser.lookup user = some code ↔
    ∃ da, indexes.byDevice.lookup code = some da ∧ da.userCode = user

structure Consistent (indexes : Indexes) : Prop where
  tidy : Tidy indexes.byDevice
  inverse : Inverse indexes

theorem tidy_empty : Tidy ∅ where
  keyed code da got := by
    rw [lookup_empty] at got
    cases got
  distinct code other da da' got := by
    rw [lookup_empty] at got
    cases got
  bounded := by
    rw [keys_empty]
    decide

variable {grants : Grants}

/-- A user's entry is the grant visited with that user code, or what was there before. -/
theorem lookup_indexUsers (tidy : Tidy grants) (codes : List String)
    (users : Finmap fun _ : String => String) (user code : String) :
    (indexUsers grants codes users).lookup user = some code ↔
      (code ∈ codes ∧ ∃ da, grants.lookup code = some da ∧ da.userCode = user) ∨
        ((∀ other ∈ codes, ∀ da, grants.lookup other = some da → da.userCode ≠ user) ∧
          users.lookup user = some code) := by
  induction codes generalizing users with
  | nil => simp [indexUsers]
  | cons head tail ih =>
    rw [indexUsers]
    split
    · next missing =>
      rw [ih]
      grind
    · next da got =>
      rw [ih]
      by_cases eq : user = da.userCode
      · subst eq
        rw [lookup_insert]
        have unique := tidy.distinct
        grind
      · rw [lookup_insert_of_ne _ eq]
        grind

theorem load_consistent (tidy : Tidy grants) (visits : Visits) :
    Consistent (load visits grants) where
  tidy := tidy
  inverse user code := by
    simp only [load, lookup_indexUsers tidy, lookup_empty]
    constructor
    · rintro (⟨-, got⟩ | ⟨-, impossible⟩)
      · exact got
      · cases impossible
    · intro got
      obtain ⟨da, held, named⟩ := got
      have seen := (visits.complete grants code).mpr (mem_of_lookup_eq_some held)
      exact .inl ⟨seen, da, held, named⟩

variable {da : DeviceAuth}

theorem lookup_erase_eq_some {code other : String} :
    (grants.erase code).lookup other = some da ↔ other ≠ code ∧ grants.lookup other = some da := by
  by_cases eq : other = code
  · subst eq
    simp
  · simp [lookup_erase_ne eq, eq]

theorem Tidy.erase (tidy : Tidy grants) (code : String) : Tidy (grants.erase code) where
  keyed other da got := tidy.keyed other da (lookup_erase_eq_some.mp got).2
  distinct first snd da da' got found' :=
    tidy.distinct first snd da da' (lookup_erase_eq_some.mp got).2
      (lookup_erase_eq_some.mp found').2
  bounded := by
    rw [keys_erase]
    exact (card_erase_le).trans tidy.bounded

variable {indexes : Indexes} {code : String}

theorem removeLocked_consistent (ok : Consistent indexes)
    (got : indexes.byDevice.lookup code = some da) : Consistent (removeLocked indexes da) where
  tidy := ok.tidy.erase da.deviceCode
  inverse user other := by
    have keyed := ok.tidy.keyed code da got
    have inverse := ok.inverse
    have distinct := ok.tidy.distinct
    simp only [removeLocked, lookup_erase_eq_some]
    by_cases eq : user = da.userCode
    · subst eq
      rw [lookup_erase]
      grind
    · rw [lookup_erase_ne eq, inverse]
      grind

theorem purge_timed {since : Int} (codes : List String) (ok : Consistent indexes)
    (visited : ∀ code da, indexes.byDevice.lookup code = some da →
      code ∈ codes ∨ since < da.expiresAt) :
    Timed since (fun left => Consistent left ∧
      (∀ code, left.byDevice.lookup code = indexes.byDevice.lookup code ∨
        left.byDevice.lookup code = none) ∧
      ∀ code da, left.byDevice.lookup code = some da →
        since < da.expiresAt) (purge codes indexes) := by
  induction codes generalizing indexes with
  | nil =>
    refine ⟨ok, fun _ => .inl rfl, ?_⟩
    intro code da got
    exact (visited code da got).resolve_left List.not_mem_nil
  | cons head tail ih =>
    rw [purge]
    split
    · next missing =>
      apply ih ok
      intro code da got
      have ne : code ≠ head := by
        rintro rfl
        rw [missing] at got
        cases got
      exact (visited code da got).imp_left fun seen => List.mem_of_ne_of_mem ne seen
    · next da got =>
      refine .now ?_
      intro time later
      have keyed := ok.tidy.keyed head da got
      split
      · next expired =>
        refine (ih (removeLocked_consistent ok got) ?_).mono ?_
        · intro code other held
          obtain ⟨ne, held⟩ := lookup_erase_eq_some.mp held
          rw [keyed] at ne
          exact (visited code other held).imp_left fun seen =>
            List.mem_of_ne_of_mem ne seen
        · intro left ⟨kept, fewer, alive⟩
          refine ⟨kept, ?_, alive⟩
          intro code
          rcases fewer code with eq | gone
          · by_cases dropped : code = da.deviceCode
            · subst dropped
              rw [removeLocked, lookup_erase] at eq
              exact .inr eq
            · rw [removeLocked, lookup_erase_ne dropped] at eq
              exact .inl eq
          · exact .inr gone
      · next alive =>
        apply ih ok
        intro code other held
        by_cases eq : code = head
        · subst eq
          rw [got] at held
          cases held
          exact .inr (by omega)
        · exact (visited code other held).imp_left fun seen => List.mem_of_ne_of_mem eq seen

/-- All that a call may do to the grant of one device code. -/
inductive Turn (call : DeviceCall) (code : String) : Option DeviceAuth → Option DeviceAuth → Prop
  | keep (entry : Option DeviceAuth) : Turn call code entry entry
  | expire (da : DeviceAuth) : Turn call code (some da) none
  | create {orders : Orders} {da : DeviceAuth} (made : call = .create orders)
      (pending : da.status = .pending) : Turn call code none (some da)
  | approve {orders : Orders} {da : DeviceAuth} {subject : String} {roles : List String}
      (made : call = .approve orders da.userCode subject roles) (pending : da.status = .pending) :
      Turn call code (some da)
        (some { da with status := .approved, subject := subject, roles := roles })
  | deny {orders : Orders} {da : DeviceAuth} (made : call = .deny orders da.userCode)
      (pending : da.status = .pending) :
        Turn call code (some da) (some { da with status := .denied })
  | touch {da : DeviceAuth} (time interval : Int) (pending : da.status = .pending) :
      Turn call code (some da) (some { da with lastPoll := time, pollInterval := interval })
  | consume {orders : Orders} {da : DeviceAuth} (made : call = .poll orders code) :
      Turn call code (some da) none

variable {call : DeviceCall}

theorem Turn.purged {old left new : Option DeviceAuth} (purged : left = old ∨ left = none)
    (turn : Turn call code left new)
    (absent : left = none → old ≠ none → new = none) : Turn call code old new := by
  rcases purged with eq | gone
  · rw [← eq]
    exact turn
  · cases old with
    | none =>
      rw [← gone]
      exact turn
    | some da =>
      rw [absent gone nofun]
      exact .expire da

theorem lookup_insert_eq_some {code other : String} {da da' : DeviceAuth} :
    (grants.insert code da).lookup other = some da' ↔
      (other = code ∧ da' = da) ∨ (other ≠ code ∧ grants.lookup other = some da') := by
  by_cases eq : other = code
  · subst eq
    rw [lookup_insert]
    grind
  · rw [lookup_insert_of_ne _ eq]
    grind

theorem keys_insert (grants : Grants) (code : String) (da : DeviceAuth) :
    (grants.insert code da).keys = insert code grants.keys := by
  ext other
  rw [Finmap.mem_keys, Finmap.mem_insert, Finset.mem_insert, Finmap.mem_keys]

theorem Consistent.rewrite (ok : Consistent indexes) {da da' : DeviceAuth}
    (got : indexes.byDevice.lookup code = some da) (sameDevice : da'.deviceCode = da.deviceCode)
    (sameUser : da'.userCode = da.userCode) :
    Consistent { indexes with byDevice := indexes.byDevice.insert code da' } where
  tidy := {
    keyed := by
      have keyed := ok.tidy.keyed
      simp only [lookup_insert_eq_some]
      grind
    distinct := by
      have distinct := ok.tidy.distinct
      simp only [lookup_insert_eq_some]
      grind
    bounded := by
      have has : code ∈ indexes.byDevice.keys :=
        Finmap.mem_keys.mpr (mem_of_lookup_eq_some got)
      rw [keys_insert, insert_eq_of_mem has]
      exact ok.tidy.bounded }
  inverse user other := by
    have inverse := ok.inverse user other
    simp only [lookup_insert_eq_some]
    grind

theorem Consistent.other_user (ok : Consistent indexes) {user : String}
    (unused : user ∉ indexes.byUser) (code : String) (da : DeviceAuth)
    (held : indexes.byDevice.lookup code = some da) : da.userCode ≠ user := by
  intro eq
  exact unused (mem_of_lookup_eq_some ((ok.inverse user code).mpr ⟨da, held, eq⟩))

theorem Consistent.add (ok : Consistent indexes)
    (free : indexes.byDevice.lookup da.deviceCode = none) (unused : da.userCode ∉ indexes.byUser)
    (room : indexes.byDevice.keys.card < maxDeviceAuthorizations) :
    Consistent ⟨indexes.byDevice.insert da.deviceCode da,
      indexes.byUser.insert da.userCode da.deviceCode⟩ where
  tidy := {
    keyed := by
      have keyed := ok.tidy.keyed
      simp only [lookup_insert_eq_some]
      grind
    distinct := by
      have other := ok.other_user unused
      have distinct := ok.tidy.distinct
      simp only [lookup_insert_eq_some]
      grind
    bounded := by
      rw [keys_insert]
      exact (card_insert_le _ _).trans room }
  inverse user code := by
    have other := ok.other_user unused
    simp only [lookup_insert_eq_some]
    by_cases eq : user = da.userCode
    · subst eq
      rw [lookup_insert]
      grind
    · rw [lookup_insert_of_ne _ eq, ok.inverse]
      grind

/-- What a change makes of the grants it was given. -/
structure Changed (call : DeviceCall) (old new : Indexes) : Prop where
  consistent : Consistent new
  turn : ∀ code, Turn call code (old.byDevice.lookup code) (new.byDevice.lookup code)

theorem Changed.refl (ok : Consistent indexes) : Changed call indexes indexes :=
  ⟨ok, fun _ => .keep _⟩

theorem Changed.insert
    (ok : Consistent { indexes with byDevice := indexes.byDevice.insert code da })
    (turn : Turn call code (indexes.byDevice.lookup code) (some da)) :
    Changed call indexes { indexes with byDevice := indexes.byDevice.insert code da } := by
  refine ⟨ok, ?_⟩
  intro other
  by_cases eq : other = code
  · subst eq
    rw [lookup_insert]
    exact turn
  · rw [lookup_insert_of_ne _ eq]
    exact .keep _

section

variable {since : Int} {indexes : Indexes}

theorem createChange_timed (orders : Orders) (ok : Consistent indexes)
    (pending : da.status = .pending) (free : indexes.byDevice.lookup da.deviceCode = none) :
    Timed since (fun out => ∀ new, out.1 = .ok new → Changed (.create orders) indexes new ∧
      ∀ code, code ≠ da.deviceCode → new.byDevice.lookup code = indexes.byDevice.lookup code)
      (createChange da indexes) := by
  unfold createChange
  split
  · exact nofun
  · next room =>
    split
    · exact nofun
    · next unused =>
      rintro new ⟨⟩
      have others (code : String) (ne : code ≠ da.deviceCode) :
          (indexes.byDevice.insert da.deviceCode da).lookup code = indexes.byDevice.lookup code :=
        lookup_insert_of_ne _ ne
      refine ⟨⟨ok.add free unused (by omega), ?_⟩, others⟩
      intro code
      by_cases eq : code = da.deviceCode
      · subst eq
        rw [free, lookup_insert]
        exact .create rfl pending
      · rw [others code eq]
        exact .keep _

/-- A change that reports that it resolved the grant of a user code has done so. -/
def Resolved (code : String) (resolve : DeviceAuth → DeviceAuth) (done : Bool)
    (old new : Indexes) : Prop :=
  done = true → ∃ device da, da.userCode = code ∧ da.status = .pending ∧
    old.byDevice.lookup device = some da ∧ new.byDevice.lookup device = some (resolve da)

theorem resolveChange_timed {resolve : DeviceAuth → DeviceAuth} (ok : Consistent indexes)
    (eq : ∀ da, (resolve da).deviceCode = da.deviceCode ∧ (resolve da).userCode = da.userCode)
    (turn : ∀ device da, da.userCode = code → da.status = .pending →
      Turn call device (some da) (some (resolve da))) :
    Timed since (fun out => ∀ new, out.1 = .ok new →
      Changed call indexes new ∧ Resolved code resolve out.2 indexes new)
      (resolveChange code resolve indexes) := by
  unfold resolveChange
  split
  · rintro new ⟨⟩
    exact ⟨.refl ok, nofun⟩
  · next device named =>
    split
    · rintro new ⟨⟩
      exact ⟨.refl ok, nofun⟩
    · next da got =>
      split
      · next pending =>
        rintro new ⟨⟩
        obtain ⟨other, held, user⟩ := (ok.inverse code device).mp named
        rw [got] at held
        cases held
        constructor
        · refine .insert (ok.rewrite got (eq da).1 (eq da).2) ?_
          rw [got]
          exact turn device da user pending
        · intro _
          exact ⟨device, da, user, pending, got, lookup_insert _⟩
      · rintro new ⟨⟩
        exact ⟨.refl ok, nofun⟩

theorem approveChange_timed (orders : Orders) (code subject : String) (roles : List String)
    (ok : Consistent indexes) : Timed since (fun out => ∀ new, out.1 = .ok new →
      Changed (.approve orders code subject roles) indexes new ∧
        Resolved code (fun da => { da with status := .approved, subject := subject, roles :=
          roles }) out.2 indexes new)
      (approveChange code subject roles indexes) := by
  refine resolveChange_timed ok (fun _ => ⟨rfl, rfl⟩) ?_
  intro device da user pending
  subst user
  exact .approve rfl pending

theorem denyChange_timed (orders : Orders) (code : String) (ok : Consistent indexes) :
    Timed since (fun out => ∀ new, out.1 = .ok new → Changed (.deny orders code) indexes new ∧
      Resolved code (fun da => { da with status := .denied }) out.2 indexes new)
        (denyChange code indexes) := by
  refine resolveChange_timed ok (fun _ => ⟨rfl, rfl⟩) ?_
  intro device da user pending
  subst user
  exact .deny rfl pending

/-- A poll that gets an approved grant has taken it out. -/
def Consumed (code : String) (out : DeviceAuth) (old new : Indexes) : Prop :=
  out.status = .approved → old.byDevice.lookup code = some out ∧ new.byDevice.lookup code = none

theorem pollPending_timed (ok : Consistent indexes) (got : indexes.byDevice.lookup code = some da)
    (pending : da.status = .pending) : Timed since (fun out => ∀ new, out.1 = .ok new →
      Changed call indexes new ∧
        Consumed code out.2.1 indexes new) (pollPending code da indexes) := by
  have touched (time interval : Int) : Changed call indexes { indexes with
      byDevice := indexes.byDevice.insert code { da with lastPoll := time, pollInterval :=
        interval } } := by
    refine .insert (ok.rewrite got rfl rfl) ?_
    rw [got]
    exact .touch time interval pending
  have soon (polled : DeviceAuth) : Timed since (fun _ => True) (polledTooSoon polled) := by
    unfold polledTooSoon
    split
    · trivial
    · exact fun _ _ => trivial
  unfold pollPending
  refine (soon _).bind ?_
  intro tooSoon _
  split
  · refine .now ?_
    intro time _
    rintro new ⟨⟩
    split
    · exact ⟨touched time _, nofun⟩
    · exact ⟨touched time _, nofun⟩
  · refine .now ?_
    intro time _
    rintro new ⟨⟩
    split
    · refine ⟨touched time devicePollInterval, ?_⟩
      intro approved
      simp [pending] at approved
    · refine ⟨touched time da.pollInterval, ?_⟩
      intro approved
      simp [pending] at approved

theorem pollChange_timed (orders : Orders) (code : String) (ok : Consistent indexes) :
    Timed since (fun out => ∀ new, out.1 = .ok new →
      Changed (.poll orders code) indexes new ∧ Consumed code out.2.1 indexes new)
      (pollChange code indexes) := by
  unfold pollChange
  split
  · rintro new ⟨⟩
    exact ⟨.refl ok, nofun⟩
  · next da got =>
    split
    · next pending => exact pollPending_timed ok got pending
    · rintro new ⟨⟩
      have keyed := ok.tidy.keyed code da got
      have gone : (removeLocked indexes da).byDevice.lookup code = none := by
        rw [removeLocked, keyed, lookup_erase]
      refine ⟨⟨removeLocked_consistent ok got, ?_⟩, fun _ => ⟨got, gone⟩⟩
      intro other
      by_cases eq : other = code
      · subst eq
        rw [got, gone]
        exact .consume rfl
      · rw [removeLocked, lookup_erase_ne (keyed ▸ eq)]
        exact .keep _

end

/-- What the two maps may be while the expired ones of the grants read are dropped. -/
inductive Purging (grants : Grants) : Indexes → Prop
  | loaded (visits : Visits) : Purging grants (load visits grants)
  | dropped {indexes : Indexes} {code : String} {da : DeviceAuth} (purging : Purging grants indexes)
      (found : indexes.byDevice.lookup code = some da) : Purging grants (removeLocked indexes da)

theorem Purging.consistent (tidy : Tidy grants) (purging : Purging grants indexes) :
    Consistent indexes := by
  induction purging with
  | loaded visits => exact load_consistent tidy visits
  | dropped _ got ih => exact removeLocked_consistent ih got

theorem Purging.fewer (purging : Purging grants indexes)
    (missing : grants.lookup code = none) : indexes.byDevice.lookup code = none := by
  induction purging with
  | loaded visits => exact missing
  | @dropped indexes _ da _ _ ih =>
    by_cases eq : code = da.deviceCode
    · subst eq
      exact lookup_erase _ _
    · calc (indexes.byDevice.erase da.deviceCode).lookup code
          = indexes.byDevice.lookup code := lookup_erase_ne eq
        _ = none := ih

end Infrastructure.Idp
