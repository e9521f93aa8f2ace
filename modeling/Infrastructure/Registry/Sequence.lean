import Infrastructure.Registry.Rules
import Infrastructure.State.Contract
import Infrastructure.State.Logged

/-! What the functions of a registry may do to the records of a store that nobody else writes to
meanwhile. -/

namespace Infrastructure.Registry

open Concurrency State Domain List Option

variable {S ST S' ST' : Type} (r : Registry S ST)

def stored (shared : Shared) (uid : String) : Option (Resource S ST) :=
  (shared.value (r.key uid)).bind fun data => (r.decode uid data).toOption

def Filed (shared : Shared) : Prop :=
  ∀ uid res, r.stored shared uid = some res → res.metadata.uid = uid

/-- One name, and not one the file store gives to files it is writing. -/
def Listable (uid : String) : Prop :=
  '/' ∉ uid.toList ∧ temporary r.kind (r.key uid) = false

instance (uid : String) : Decidable (r.Listable uid) := inferInstanceAs (Decidable (_ ∧ _))

structure Listing (shared : Shared) (found : List (Resource S ST)) : Prop where
  sound : ∀ res ∈ found, ∃ uid, r.stored shared uid = some res
  complete : ∀ uid res, r.stored shared uid = some res → r.Listable uid →
    res ∈ found

/-- A check of every record by its key, for stores that are given in full. -/
def everyRecord (check : String → Resource S ST → Bool) (shared : Shared) : Bool :=
  shared.store.entries.all fun entry =>
    match r.codec.unmarshal entry.2 with
    | .ok read => check entry.1 read
    | .error _ => true

def Saves (s : Shared) (res : Resource S ST) (s' : Shared) : Prop :=
  ∃ data, r.codec.marshal (res.stamp r.kind) = .ok data ∧
    Matches res.metadata.resourceVersion (s.value (r.key res.metadata.uid)) ∧
    s' = s.write (r.key res.metadata.uid) data

def Updates (s : Shared) (uid : String) (changes : Resource S ST → Resource S ST → Prop)
    (s' : Shared) : Prop :=
  ∃ found new data, r.stored s uid = some found ∧ changes found new ∧
    r.codec.marshal (new.stamp r.kind) = .ok data ∧ s' = s.write (r.key uid) data

def Disjoint (first : Registry S ST) (second : Registry S' ST') : Prop :=
  ∀ left right, first.key left ≠ second.key right

theorem disjoint_of_kinds {first : Registry S ST} {snd : Registry S' ST'} {k l : String}
    (left : first.kind = k) (right : snd.kind = l)
    (apart : k ≠ l ∧ '/' ∉ k.toList ∧ '/' ∉ l.toList) :
    first.Disjoint snd := by
  subst left right
  intro one two eq
  apply apart.1
  have split (kind uid : String) (flat : '/' ∉ kind.toList) :
      (kind ++ "/" ++ uid).toList.takeWhile (· ≠ '/') = kind.toList := by
    have parts : (kind ++ "/" ++ uid).toList = kind.toList ++ '/' :: uid.toList := by simp
    have plain : ∀ char ∈ kind.toList, (char ≠ '/' : Bool) = true := by
      intro char mem
      simpa using ne_of_mem_of_not_mem mem flat
    rw [parts, takeWhile_append_of_pos plain]
    simp
  apply String.toList_inj.mp
  rw [← split first.kind one apart.2.1, ← split snd.kind two apart.2.2]
  exact congrArg (fun key : String => key.toList.takeWhile (· ≠ '/')) eq

theorem Disjoint.symm {first : Registry S ST} {snd : Registry S' ST'} (apart : first.Disjoint snd) :
    snd.Disjoint first := fun left right eq => apart right left eq.symm

section

variable {r} {s s' : Shared} {res : Resource S ST} {other : Registry S' ST'} {uid : String}

theorem stored_write_of_ne {key : String} {data : Bytes} (ne : r.key uid ≠ key) :
    r.stored (s.write key data) uid = r.stored s uid := by
  rw [stored, write_value_of_ne s data ne, stored]

theorem stored_erase_of_ne {key : String} (ne : r.key uid ≠ key) :
    r.stored (s.erase key) uid = r.stored s uid := by
  rw [stored, erase_value_of_ne s ne, stored]

theorem stored_erase_self (uid : String) : r.stored (s.erase (r.key uid)) uid = none := by
  rw [stored, erase_value_self, bind_none]

theorem stored_of_erase {key : String} {got : Resource S ST}
    (has : r.stored (s.erase key) uid = some got) : r.stored s uid = some got := by
  by_cases eq : r.key uid = key
  · rw [← eq, stored_erase_self] at has
    cases has
  · rwa [stored_erase_of_ne eq] at has

theorem stored_drift (moved : drift s s') (uid : String) : r.stored s' uid = r.stored s uid := by
  rw [stored, Shared.value, moved.1, stored, Shared.value]

theorem stored_write_self {data : Bytes} (enc : r.codec.marshal (res.stamp r.kind) = .ok data) :
    r.stored (s.write (r.key res.metadata.uid) data) res.metadata.uid =
      some ((res.stamp r.kind).withVersion (revision data)) := by
  rw [stored, write_value_self, bind_some, decode, r.codec.roundTrip _ data enc]
  rfl

section

variable (saves : r.Saves s res s')
include saves

theorem Saves.stored_self :
    ∃ v, r.stored s' res.metadata.uid = some ((res.stamp r.kind).withVersion v) := by
  obtain ⟨data, enc, -, rfl⟩ := saves
  exact ⟨revision data, stored_write_self enc⟩

theorem Saves.stored_of_ne (ne : uid ≠ res.metadata.uid) : r.stored s' uid = r.stored s uid := by
  obtain ⟨data, -, -, rfl⟩ := saves
  exact stored_write_of_ne fun eq => ne (r.key_inj eq)

theorem Saves.stored_other (apart : other.Disjoint r) (uid : String) :
    other.stored s' uid = other.stored s uid := by
  obtain ⟨data, -, -, rfl⟩ := saves
  exact stored_write_of_ne (apart uid _)

theorem Saves.clock : s'.clock = s.clock := by
  obtain ⟨data, -, -, rfl⟩ := saves
  rfl

theorem Saves.stored_cases {got : Resource S ST} (has : r.stored s' uid = some got) :
    (uid = res.metadata.uid ∧ ∃ v, got = (res.stamp r.kind).withVersion v) ∨
      (uid ≠ res.metadata.uid ∧ r.stored s uid = some got) := by
  by_cases eq : uid = res.metadata.uid
  · obtain ⟨v, wrote⟩ := saves.stored_self
    rw [eq, wrote] at has
    exact .inl ⟨eq, v, (Option.some.inj has).symm⟩
  · rw [saves.stored_of_ne eq] at has
    exact .inr ⟨eq, has⟩

end

section

variable (filed : r.Filed s)

include filed

theorem Filed.saves (saves : r.Saves s res s') : r.Filed s' := by
  intro uid got has
  rcases saves.stored_cases has with ⟨rfl, v, rfl⟩ | ⟨-, pre⟩
  · rfl
  · exact filed uid got pre

theorem Filed.write {data : Bytes} (enc : r.codec.marshal (res.stamp r.kind) = .ok data) :
    r.Filed (s.write (r.key res.metadata.uid) data) := by
  intro uid got has
  by_cases eq : uid = res.metadata.uid
  · rw [eq, stored_write_self enc] at has
    cases has
    exact eq.symm
  · rw [stored_write_of_ne fun equal => eq (r.key_inj equal)] at has
    exact filed uid got has

theorem Filed.erase (key : String) : r.Filed (s.erase key) :=
  fun uid got has => filed uid got (stored_of_erase has)

theorem Filed.congr (eq : ∀ uid, r.stored s' uid = r.stored s uid) : r.Filed s' := by
  intro uid got has
  rw [eq] at has
  exact filed uid got has

end

end

theorem get_looks (uid : String) : (r.get uid).Uses Op.Looking fun _ => True := by
  refine .perform rfl ?_
  intro reply
  cases reply <;> trivial

theorem list_looks : r.list.Uses Op.Looking fun _ => True := by
  refine .bind (list_uses (fun _ => rfl) r.kind rfl) ?_
  intro vals _
  cases vals <;> trivial

section

variable {r} {α : Type} {inv : Logged → Prop} {post : α → Logged → Prop} {s : Logged}
variable {uid : String} {res : Resource S ST}

theorem entry_of_stored {shared : Shared} (has : r.stored shared uid = some res) :
    ∃ data read, shared.value (r.key uid) = some data ∧ r.codec.unmarshal data = .ok read ∧
      res = read.withVersion (revision data) := by
  obtain ⟨data, val, dec⟩ := bind_eq_some_iff.mp has
  rw [decode] at dec
  split at dec
  · cases dec
  · next read raw =>
    cases dec
    exact ⟨data, read, val, raw, rfl⟩

theorem keeps_get {next : Except Error (Resource S ST) → Prog α} (holds : inv s)
    (fails : ∀ err, (next (.error err)).Keeps logged inv post s)
    (goes : ∀ got, r.stored s.shared uid = some got → (next (.ok got)).Keeps logged inv post s) :
    (r.get uid >>= next).Keeps logged inv post s := by
  rw [get_bind]
  apply keeps_look rfl holds
  intro reply ran
  cases received : r.received uid reply with
  | error err => exact fails err
  | ok got =>
    apply goes
    cases reply with
    | error err => cases received
    | ok data =>
      rw [stored, (exec_get ran).2 data rfl, bind_some]
      exact congrArg Except.toOption received

theorem get_keeps (holds : inv s) {got : Resource S ST} (has : r.stored s.shared uid = some got) :
    (r.get uid).Keeps logged inv (fun reply s' => s' = s ∧
      (reply = .ok got ∨ ∃ err, reply = .error err ∧ err.is errNotFound = false)) s := by
  obtain ⟨data, read, val, raw, rfl⟩ := entry_of_stored has
  rw [get, Program.perform_bind]
  apply keeps_look rfl holds
  intro reply ran
  cases reply with
  | error err =>
    refine ⟨rfl, .inr ⟨err, rfl, Bool.eq_false_iff.mpr ?_⟩⟩
    intro missing
    have gone := ran.2 missing
    rw [val] at gone
    cases gone
  | ok got =>
    have eq := (exec_get ran).2 got rfl
    rw [val] at eq
    cases eq
    refine ⟨rfl, .inl ?_⟩
    rw [decode, raw]

theorem keeps_readEach (holds : inv s) (keys : List String) :
    (readEach keys).Keeps logged inv (fun reply s' => s' = s ∧ ∀ vals, reply = .ok vals →
      vals.map Prod.fst = keys ∧ ∀ entry ∈ vals, s.shared.value entry.1 = some entry.2) s := by
  induction keys with
  | nil =>
    refine ⟨rfl, ?_⟩
    intro vals eq
    cases eq
    exact ⟨rfl, nofun⟩
  | cons key keys ih =>
    rw [readEach, Program.perform_bind]
    apply keeps_look rfl holds
    intro reply ran
    cases reply with
    | error err =>
      refine ⟨rfl, ?_⟩
      intro vals eq
      cases eq
    | ok data =>
      apply ih.bind
      intro rest s' ⟨same, read⟩
      cases rest with
      | error err =>
        refine ⟨same, ?_⟩
        intro vals eq
        cases eq
      | ok vals =>
        obtain ⟨names, got⟩ := read vals rfl
        refine ⟨same, ?_⟩
        intro all eq
        cases eq
        refine ⟨by rw [map_cons, names], ?_⟩
        intro entry mem
        rcases mem_cons.mp mem with rfl | later
        · exact (exec_get ran).2 data rfl
        · exact got entry later

theorem mem_decodeEach {vals : List (String × Bytes)} {got : List (Resource S ST)}
    (dec : r.decodeEach vals = .ok got) (res : Resource S ST) :
    res ∈ got ↔ ∃ entry ∈ vals, ∃ read, r.codec.unmarshal entry.2 = .ok read ∧
      res = read.withVersion (revision entry.2) := by
  induction vals generalizing got with
  | nil =>
    cases dec
    simp
  | cons entry vals ih =>
    rw [decodeEach] at dec
    split at dec
    · cases dec
    · next read raw =>
      split at dec
      · cases dec
      · next rest later =>
        cases dec
        simp [ih later, raw]

variable {shared : Shared}

theorem stored_of_entry {data : Bytes} {read : Resource S ST}
    (has : shared.value (r.key uid) = some data) (raw : r.codec.unmarshal data = .ok read) :
    r.stored shared uid = some (read.withVersion (revision data)) := by
  rw [stored, has, bind_some, decode, raw]
  rfl

theorem check_of_everyRecord {check : String → Resource S ST → Bool}
    (ok : r.everyRecord check shared = true) (has : r.stored shared uid = some res) :
    ∃ read v, res = read.withVersion v ∧ check (r.key uid) read = true := by
  obtain ⟨data, read, val, raw, rfl⟩ := entry_of_stored has
  have mem : Sigma.mk (r.key uid) data ∈ shared.store.entries := AList.mem_lookup_iff.mp val
  have passed := all_eq_true.mp ok _ mem
  simp only [raw] at passed
  exact ⟨read, _, rfl, passed⟩

theorem filed_of_everyRecord
    (ok : r.everyRecord (fun key read => key == r.key read.metadata.uid) shared = true) :
    r.Filed shared := by
  intro uid res has
  obtain ⟨read, v, rfl, eq⟩ := check_of_everyRecord ok has
  exact (r.key_inj (beq_iff_eq.mp eq)).symm

theorem listing_of_entries {keys : List String} {vals : List (String × Bytes)}
    {got : List (Resource S ST)} (dec : r.decodeEach vals = .ok got)
    (names : vals.map Prod.fst = keys) (read : ∀ entry ∈ vals, shared.value entry.1 = some entry.2)
    (seen : ∀ key ∈ keys, (shared.value key).isSome ∧ directChild r.kind key = true)
    (all : ∀ key, (shared.value key).isSome → directChild r.kind key = true →
      temporary r.kind key = false → key ∈ keys) : r.Listing shared got := by
  constructor
  · intro res mem
    obtain ⟨entry, inside, item, raw, rfl⟩ := (mem_decodeEach dec res).mp mem
    have named : entry.1 ∈ keys := names ▸ mem_map_of_mem inside
    obtain ⟨rest, parts, -⟩ := (directChild_iff r.kind entry.1).mp (seen entry.1 named).2
    have key : entry.1 = r.key (String.ofList rest) := by
      apply String.toList_inj.mp
      simp [parts, Registry.key]
    have has := read entry inside
    rw [key] at has
    exact ⟨String.ofList rest, stored_of_entry has raw⟩
  · intro uid res has listable
    obtain ⟨data, item, val, raw, rfl⟩ := entry_of_stored has
    have child : directChild r.kind (r.key uid) = true := by
      rw [directChild_iff]
      exact ⟨uid.toList, by simp [Registry.key], listable.1⟩
    have inside : r.key uid ∈ keys := all _ (by rw [val]; rfl) child listable.2
    rw [← names] at inside
    obtain ⟨entry, mem, eq⟩ := mem_map.mp inside
    have held := read entry mem
    rw [eq, val] at held
    rw [mem_decodeEach dec]
    exact ⟨entry, mem, item, Option.some.inj held ▸ raw, by rw [Option.some.inj held]⟩

section

variable (holds : inv s)
include holds

theorem list_keeps : r.list.Keeps logged inv (fun reply s' => s' = s ∧
      ∀ got, reply = .ok got → r.Listing s.shared got) s := by
  rw [Registry.list, State.list, Program.bind_assoc, Program.perform_bind]
  apply keeps_look rfl holds
  intro reply ran
  cases reply with
  | error err => exact ⟨rfl, nofun⟩
  | ok keys =>
    apply (keeps_readEach holds keys).bind
    intro vals s' ⟨eq, read⟩
    cases vals with
    | error err => exact ⟨eq, nofun⟩
    | ok vals =>
      refine ⟨eq, ?_⟩
      intro got dec
      obtain ⟨names, has⟩ := read vals rfl
      exact listing_of_entries dec names has ran.2.1 ran.2.2

theorem keeps_list {next : Except Error (List (Resource S ST)) → Prog α}
    (fails : ∀ err, (next (.error err)).Keeps logged inv post s)
    (goes : ∀ got, r.Listing s.shared got → (next (.ok got)).Keeps logged inv post s) :
    (r.list >>= next).Keeps logged inv post s := by
  apply (list_keeps holds).bind
  intro reply s' ⟨eq, got⟩
  rw [eq]
  cases reply with
  | error err => exact fails err
  | ok listed => exact goes listed (got listed rfl)

/-- The ways a `put` can end: without a trace, or with the resource stored. -/
def Written (s : Logged) (res : Resource S ST) (reply : Except Error (Resource S ST))
    (s' : Logged) : Prop :=
  (s' = s ∧ ∃ err, reply = .error err) ∨
    ∃ shared, r.Saves s.shared res shared ∧ s' = s.over shared ∧
      ∀ found, reply = .ok found → r.stored shared res.metadata.uid = some found

section

variable (kept : ∀ s', r.Saves s.shared res s' → inv (s.over s'))
include kept

theorem keeps_swap {old : Option Bytes} {data : Bytes}
    (enc : r.codec.marshal (res.stamp r.kind) = .ok data)
    (expects : s.shared.value (r.key res.metadata.uid) = old →
      Matches res.metadata.resourceVersion (s.shared.value (r.key res.metadata.uid))) :
    (r.swap res old data).Keeps logged inv (r.Written s res) s := by
  have saves (got : s.shared.value (r.key res.metadata.uid) = old) : r.Saves s.shared res
        (s.shared.write (r.key res.metadata.uid) data) :=
    ⟨data, enc, expects got, rfl⟩
  rw [swap, Program.perform_bind]
  refine keeps_cas holds (fun got => kept _ (saves got)) ?_ ?_
  · intro reply denied
    match reply, denied with
    | .error err, _ => exact .inl ⟨rfl, _, rfl⟩
    | .ok false, _ => exact .inl ⟨rfl, _, rfl⟩
    | .ok true, denied => exact absurd rfl denied
  · intro reply got ok
    match reply, ok with
    | .error err, _ => exact .inr ⟨_, saves got, rfl, nofun⟩
    | .ok false, ok => exact absurd rfl ok
    | .ok true, _ =>
      refine .inr ⟨_, saves got, rfl, ?_⟩
      intro out eq
      cases eq
      rw [stored, write_value_self, bind_some, decode, r.codec.roundTrip _ data enc]
      rfl

theorem put_written : (r.put res).Keeps logged inv (r.Written s res) s := by
  rw [put]
  split
  · exact .inl ⟨rfl, _, rfl⟩
  · cases enc : r.codec.marshal (res.stamp r.kind) with
    | error err => exact .inl ⟨rfl, _, rfl⟩
    | ok data =>
      dsimp only
      rw [expected]
      split
      · next bare =>
        refine keeps_swap holds kept enc ?_
        intro gone
        rw [gone, Matches, if_pos bare]
      · next versioned =>
        rw [Program.perform_bind, Program.call_bind]
        apply keeps_look rfl holds
        intro reply ran
        cases reply with
        | error err => exact .inl ⟨rfl, _, rfl⟩
        | ok old =>
          dsimp only
          split
          · next cur =>
            refine keeps_swap holds kept enc ?_
            intro got
            rw [got, Matches, if_neg versioned]
            exact ⟨old, rfl, cur⟩
          · exact .inl ⟨rfl, _, rfl⟩

theorem keeps_put {next : Except Error (Resource S ST) → Prog α}
    (left : ∀ err, (next (.error err)).Keeps logged inv post s)
    (saved : ∀ reply s', r.Saves s.shared res s' →
      (∀ got, reply = .ok got → r.stored s' res.metadata.uid = some got) →
      (next reply).Keeps logged inv post (s.over s')) :
    (r.put res >>= next).Keeps logged inv post s := by
  apply (put_written holds kept).bind
  intro reply s' wrote
  rcases wrote with ⟨rfl, err, rfl⟩ | ⟨shared, saves, rfl, got⟩
  · exact left err
  · exact saved reply shared saves got

end

/-- The ways a `tryUpdate` can end: without a trace, or with the change stored. -/
def Updated (s : Logged) (uid : String) (changes : Resource S ST → Resource S ST → Prop)
    (reply : Except Error Bool) (s' : Logged) : Prop :=
  (s' = s ∧ reply ≠ .ok true) ∨
    ∃ shared, r.Updates s.shared uid changes shared ∧ s' = s.over shared ∧ reply ≠ .ok false

theorem tryUpdate_updated {mutate : Resource S ST → Prog (Except Error (Resource S ST))}
    {changes : Resource S ST → Resource S ST → Prop}
    (kept : ∀ s', r.Updates s.shared uid changes s' → inv (s.over s'))
    (mutates : ∀ got, (mutate got).Uses Op.Looking fun out => ∀ new, out = .ok new →
      changes got new) :
    (r.tryUpdate uid mutate).Keeps logged inv (r.Updated s uid changes) s := by
  rw [tryUpdate, Program.perform_bind]
  apply keeps_look rfl holds
  intro reply ran
  cases reply with
  | error err => exact .inl ⟨rfl, by simp⟩
  | ok old =>
    have val := (exec_get ran).2 old rfl
    dsimp only
    rw [decode]
    cases unmarshalled : r.codec.unmarshal old with
    | error err => exact .inl ⟨rfl, by simp⟩
    | ok read =>
      apply (keeps_looking (mutates _) holds).bind
      rintro out s' ⟨changed, same⟩
      subst s'
      cases out with
      | error err => exact .inl ⟨rfl, by simp⟩
      | ok new =>
        dsimp only
        split
        · exact .inl ⟨rfl, by simp⟩
        · next data enc =>
          have updates : r.Updates s.shared uid changes (s.shared.write (r.key uid) data) :=
            ⟨_, new, data, stored_of_entry val unmarshalled, changed new rfl, enc, rfl⟩
          rw [Program.perform_bind]
          refine keeps_cas holds (fun _ => kept _ updates) ?_ ?_
          · intro reply denied
            cases reply with
            | error err => exact .inl ⟨rfl, by simp⟩
            | ok swapped => exact .inl ⟨rfl, fun eq => denied (by cases eq; rfl)⟩
          · intro reply _ took
            cases reply with
            | error err => exact .inr ⟨_, updates, rfl, by simp⟩
            | ok swapped => exact .inr ⟨_, updates, rfl, fun eq => took (by cases eq; rfl)⟩

theorem delete_keeps (kept : inv (s.over (s.shared.erase (r.key uid)))) :
    (r.delete uid).Keeps logged inv (fun reply s' => (s' = s ∧ ∃ err, reply = .error err) ∨
      s' = s.over (s.shared.erase (r.key uid))) s := by
  rw [delete, Program.perform_bind]
  refine keeps_delete holds kept ?_ ?_
  · intro reply denied
    cases reply with
    | error err => exact .inl ⟨rfl, _, rfl⟩
    | ok done => exact absurd rfl denied
  · intro reply
    cases reply with
    | error err => exact .inr rfl
    | ok done => exact .inr rfl

end

end

end Infrastructure.Registry
