import Infrastructure.Registry.Sequence

/-! Stores that list each key once, and stores that serve every request. -/

namespace Infrastructure.State

open Concurrency Domain

/-- A listing names each key once. -/
def Op.orderly : (op : Op) → op.Reply → Prop
  | .keys _, .ok found => found.Nodup
  | _, _ => True

/-- Nothing fails: every request is served and every command succeeds. -/
def Op.served : (op : Op) → op.Reply → Prop
  | .get _, reply => ∀ err, reply = .error err → err = errNotFound
  | .put _ _, reply => reply = .ok ()
  | .delete _, reply => reply = .ok ()
  | .keys _, reply => ∃ found, reply = .ok found ∧ found.Nodup
  | .cas _ _ _, reply => ∃ swapped, reply = .ok swapped
  | .host _, reply => ∃ text, reply = .ok text
  | .now, _ => True
  | .ask _, _ => True
  | .random _, _ => True

/-- The operation may change what is stored under the key. -/
def Op.Writes (key : String) : Op → Prop
  | .put name _ | .delete name | .cas name _ _ => name = key
  | _ => False

theorem Op.not_writes_of_looks {op : Op} (looks : op.looks = true) (key : String) :
    ¬op.Writes key := by
  cases op with
  | put | delete | cas | host => cases looks
  | _ => exact id

/-- The store and the hosts, with the replies that are admitted. -/
def answering (admits : (op : Op) → op.Reply → Prop) : Machine Op Op.Reply Logged where
  exec s op reply s' := logged.exec s op reply s' ∧ admits op reply
  drift := logged.drift

/-- Any operation may fail, and a listing names each key once. -/
def orderly : Machine Op Op.Reply Logged := answering Op.orderly

def steady : Machine Op Op.Reply Logged := answering Op.served

theorem Op.orderly_of_served {op : Op} {reply : op.Reply} (served : op.served reply) :
    op.orderly reply := by
  cases op with
  | keys dir =>
    obtain ⟨found, rfl, once⟩ := served
    exact once
  | _ => trivial

theorem steady_orderly (s : Logged) (op : Op) (reply : op.Reply) (s' : Logged)
    (ran : steady.exec s op reply s') : orderly.exec s op reply s' :=
  ⟨ran.1, Op.orderly_of_served ran.2⟩

theorem loggedAnswer_steady (s : Logged) (op : Op) :
    steady.exec s op (loggedAnswer s op).1 (loggedAnswer s op).2 := by
  refine ⟨loggedAnswer_exec s op, ?_⟩
  cases op with
  | get key =>
    intro err bad
    simp only [loggedAnswer, answer] at bad
    split at bad <;> cases bad
    rfl
  | keys dir => exact ⟨_, rfl, s.shared.store.keys_nodup.filter _⟩
  | cas key old new =>
    simp only [loggedAnswer, answer]
    split <;> exact ⟨_, rfl⟩
  | put | delete => exact rfl
  | host cmd => exact ⟨_, rfl⟩
  | now | ask | random => trivial

section

variable {α : Type} {admits : (op : Op) → op.Reply → Prop} {inv : Logged → Prop}
variable {post : α → Logged → Prop} {s : Logged}

theorem keeps_answering {prog : Prog α} (keeps : prog.Keeps logged inv post s) :
    prog.Keeps (answering admits) inv post s := by
  apply keeps.refine
  intro _ _ _ _ ran
  exact ran.1

theorem answering_look {op : Op} {next : op.Reply → Prog α} (looks : op.looks = true)
    (holds : inv s)
    (rest : ∀ reply, exec s.shared op reply s.shared → admits op reply →
      (next reply).Keeps (answering admits) inv post s) :
    (Program.call op next).Keeps (answering admits) inv post s := by
  intro reply s' ran
  obtain rfl := logged_looks looks ran.1
  exact ⟨holds, rest reply ran.1.1 ran.2⟩

end

end Infrastructure.State

namespace Infrastructure.Registry

open Concurrency State Domain

variable {S ST α : Type} {r : Registry S ST} {admits : (op : Op) → op.Reply → Prop}
variable {inv : Logged → Prop} {post : α → Logged → Prop} {s : Logged}

theorem keys_of_decodeEach {shared : Shared} (filed : r.Filed shared) {vals : List (String × Bytes)}
    {found : List (Resource S ST)} (dec : r.decodeEach vals = .ok found)
    (read : ∀ entry ∈ vals, shared.value entry.1 = some entry.2)
    (children : ∀ entry ∈ vals, ∃ uid, entry.1 = r.key uid) :
    found.map (fun res => r.key res.metadata.uid) = vals.map Prod.fst := by
  induction vals generalizing found with
  | nil =>
    cases dec
    rfl
  | cons entry vals ih =>
    rw [decodeEach] at dec
    split at dec
    · cases dec
    · next item raw =>
      split at dec
      · cases dec
      · next rest later =>
        cases dec
        have tail := ih later (fun other mem => read other (.tail _ mem)) fun other mem =>
          children other (.tail _ mem)
        obtain ⟨uid, named⟩ := children entry (.head _)
        have has := read entry (.head _)
        rw [named] at has
        have own := filed uid _ (stored_of_entry has raw)
        rw [List.map_cons, List.map_cons, tail, named]
        exact congrArg (fun name => r.key name :: _) own

theorem child_key {key : String} (child : directChild r.kind key = true) :
    ∃ uid, key = r.key uid := by
  obtain ⟨rest, parts, -⟩ := (directChild_iff r.kind key).mp child
  exact ⟨String.ofList rest, String.toList_inj.mp (by simp [parts, Registry.key])⟩

theorem list_once (once : ∀ dir found, admits (.keys dir) (.ok found) → found.Nodup) (holds : inv s)
    (filed : r.Filed s.shared) :
    r.list.Keeps (answering admits) inv (fun reply s' => s' = s ∧ ∀ found, reply = .ok found →
      r.Listing s.shared found ∧ (found.map (·.metadata.uid)).Nodup) s := by
  rw [Registry.list, State.list, Program.bind_assoc, Program.perform_bind]
  apply answering_look rfl holds
  intro reply ran admitted
  cases reply with
  | error err => exact ⟨rfl, by simp⟩
  | ok keys =>
    apply (keeps_answering (keeps_readEach holds keys)).bind
    rintro vals s' ⟨eq, read⟩
    cases vals with
    | error err => exact ⟨eq, by simp⟩
    | ok vals =>
      refine ⟨eq, ?_⟩
      intro found dec
      obtain ⟨names, has⟩ := read vals rfl
      refine ⟨listing_of_entries dec names has ran.2.1 ran.2.2, ?_⟩
      have children (entry : String × Bytes) (mem : entry ∈ vals) : ∃ uid, entry.1 = r.key uid := by
        have named : entry.1 ∈ keys := names ▸ List.mem_map_of_mem mem
        exact child_key (ran.2.1 entry.1 named).2
      have nodup : (found.map fun res => r.key res.metadata.uid).Nodup := by
        rw [keys_of_decodeEach filed dec has children, names]
        exact once _ _ admitted
      have through : (found.map fun res => r.key res.metadata.uid) =
          (found.map (·.metadata.uid)).map r.key := by
        rw [List.map_map]
        rfl
      rw [through] at nodup
      exact nodup.of_map r.key

section

variable {uid : String} {res found : Resource S ST}

theorem matches_of_stored {shared : Shared} (has : r.stored shared uid = some found)
    (cur : res.metadata.resourceVersion = found.metadata.resourceVersion) :
    Matches res.metadata.resourceVersion (shared.value (r.key uid)) := by
  obtain ⟨data, read, val, -, rfl⟩ := entry_of_stored has
  rw [cur, val]
  have v : (read.withVersion (revision data)).metadata.resourceVersion = revision data := rfl
  rw [v, Matches, if_neg (revision_ne_empty data)]
  exact ⟨data, rfl, rfl⟩

/-- A steady store answers a read with the bytes that it holds. -/
theorem reads_served {key : String} {data : Bytes} {next : Except Error Bytes → Prog α}
    (holds : inv s) (val : s.shared.value key = some data)
    (rest : (next (.ok data)).Keeps steady inv post s) :
    (Program.call (.get key) next).Keeps steady inv post s := by
  apply answering_look rfl holds
  intro reply ran served
  cases reply with
  | error err =>
    have gone := ran.2 (by rw [served err rfl]; rfl)
    rw [val] at gone
    cases gone
  | ok read =>
    have eq := (exec_get ran).2 read rfl
    rw [val] at eq
    cases eq
    exact rest

theorem get_served (holds : inv s) (has : r.stored s.shared uid = some found) :
    (r.get uid).Keeps steady inv (fun reply s' => s' = s ∧ reply = .ok found) s := by
  obtain ⟨data, read, val, raw, rfl⟩ := entry_of_stored has
  rw [get, Program.perform_bind]
  refine reads_served holds val ⟨rfl, ?_⟩
  rw [decode, raw]

theorem get_absent_served (holds : inv s) (gone : s.shared.value (r.key uid) = none) :
    (r.get uid).Keeps steady inv (fun reply s' => s' = s ∧ reply = .error errNotFound) s := by
  rw [get, Program.perform_bind]
  apply answering_look rfl holds
  intro reply ran served
  cases reply with
  | error err => exact ⟨rfl, congrArg Except.error (served err rfl)⟩
  | ok read =>
    have val := (exec_get ran).2 read rfl
    rw [gone] at val
    cases val

theorem swap_served {old : Option Bytes} {data : Bytes}
    (kept : ∀ s', r.Saves s.shared res s' → inv (s.over s'))
    (enc : r.codec.marshal (res.stamp r.kind) = .ok data)
    (cur : Matches res.metadata.resourceVersion (s.shared.value (r.key res.metadata.uid)))
    (expects : s.shared.value (r.key res.metadata.uid) = old) :
    (r.swap res old data).Keeps steady inv (fun reply s' => (∃ held, reply = .ok held) ∧
      ∃ shared, r.Saves s.shared res shared ∧ s' = s.over shared) s := by
  have saves : r.Saves s.shared res (s.shared.write (r.key res.metadata.uid) data) :=
    ⟨data, enc, cur, rfl⟩
  rw [swap, Program.perform_bind]
  intro reply s' ran
  obtain ⟨swapped, rfl⟩ := ran.2
  have shape : s' = s.over s'.shared := Logged.ext rfl ran.1.2
  rcases exec_cas ran.1.1 with ⟨-, denied⟩ | ⟨-, wrote, ok⟩
  · cases swapped with
    | true => exact absurd rfl denied
    | false => exact absurd expects ran.1.1.1
  · cases swapped with
    | false => exact absurd rfl ok
    | true =>
      rw [shape, wrote]
      exact ⟨kept _ saves, ⟨_, rfl⟩, _, saves, rfl⟩

theorem put_served (holds : inv s) (kept : ∀ s', r.Saves s.shared res s' → inv (s.over s'))
    (named : res.metadata.uid ≠ "")
    (encodes : ∃ data, r.codec.marshal (res.stamp r.kind) = .ok data)
    (cur : Matches res.metadata.resourceVersion (s.shared.value (r.key res.metadata.uid))) :
    (r.put res).Keeps steady inv (fun reply s' => (∃ held, reply = .ok held) ∧
      ∃ shared, r.Saves s.shared res shared ∧ s' = s.over shared) s := by
  obtain ⟨data, enc⟩ := encodes
  rw [put, if_neg named, enc]
  dsimp only
  rw [expected]
  by_cases unversioned : res.metadata.resourceVersion = ""
  · rw [if_pos unversioned]
    refine swap_served kept enc cur ?_
    rw [Matches, if_pos unversioned] at cur
    exact cur
  · rw [if_neg unversioned, Program.perform_bind, Program.call_bind]
    obtain ⟨old, val, v⟩ : ∃ old, s.shared.value (r.key res.metadata.uid) = some old ∧
        revision old = res.metadata.resourceVersion := by
      rwa [Matches, if_neg unversioned] at cur
    apply reads_served holds val
    simp only [v, if_true]
    exact swap_served kept enc cur val

def Encodes (r : Registry S ST) : Prop := ∀ res, ∃ data, r.codec.marshal res = .ok data

theorem replace_served (encodes : r.Encodes) (has : r.stored s.shared uid = some found)
    (eq : res.metadata.uid = uid)
    (v : res.metadata.resourceVersion = found.metadata.resourceVersion)
    (named : uid ≠ "") : (r.put res).Ends steady (fun reply s' => (∃ held, reply = .ok held) ∧
      ∃ shared, r.Saves s.shared res shared ∧ s' = s.over shared) s := by
  have cur := matches_of_stored has v
  rw [← eq] at named cur
  exact put_served trivial (fun _ _ => trivial) named (encodes _) cur

theorem save_served (encodes : r.Encodes) (has : r.stored s.shared uid = some found)
    (eq : res.metadata = found.metadata) (own : found.metadata.uid = uid) (named : uid ≠ "") :
    (r.put res).Ends steady (fun reply s' => (∃ held, reply = .ok held) ∧
      ∀ other, other ≠ uid → r.stored s'.shared other = r.stored s.shared other) s := by
  have uids : res.metadata.uid = uid := by rw [eq, own]
  have v : res.metadata.resourceVersion = found.metadata.resourceVersion := by rw [eq]
  apply (replace_served encodes has uids v named).mono
  rintro reply _ ⟨held, shared, saves, rfl⟩
  refine ⟨held, ?_⟩
  intro other ne
  exact saves.stored_of_ne (uids ▸ ne)

theorem tryUpdate_served {mutate : Resource S ST → Prog (Except Error (Resource S ST))}
    {changes : Resource S ST → Resource S ST → Prop} {refuses : Error → Prop} (encodes : r.Encodes)
    (has : r.stored s.shared uid = some found) (mutates : (mutate found).Uses Op.Looking fun out =>
      (∀ updated, out = .ok updated → changes found updated) ∧
        ∀ err, out = .error err → refuses err) :
    (r.tryUpdate uid mutate).Ends steady
      (fun reply s' => (s' = s ∧ ∃ err, refuses err ∧ reply = .error err) ∨
        (reply = .ok true ∧ ∃ shared, r.Updates s.shared uid changes shared ∧
          s' = s.over shared)) s := by
  obtain ⟨data, read, val, raw, rfl⟩ := entry_of_stored has
  rw [tryUpdate, Program.perform_bind]
  apply reads_served trivial val
  dsimp only
  rw [decode, raw]
  apply (keeps_answering (keeps_looking mutates trivial)).bind
  rintro out s' ⟨outcome, eq⟩
  subst s'
  cases out with
  | error err => exact .inl ⟨rfl, err, outcome.2 err rfl, rfl⟩
  | ok updated =>
    obtain ⟨new, enc⟩ := encodes (updated.stamp r.kind)
    dsimp only
    rw [enc]
    dsimp only
    rw [Program.perform_bind]
    intro reply s' ran
    obtain ⟨swapped, rfl⟩ := ran.2
    have shape : s' = s.over s'.shared := Logged.ext rfl ran.1.2
    refine ⟨trivial, .inr ?_⟩
    cases swapped with
    | false => exact absurd val ran.1.1.1
    | true =>
      rw [shape]
      exact ⟨rfl, _, ⟨_, updated, new, has, outcome.1 updated rfl, enc, ran.1.1.2⟩, rfl⟩

theorem delete_served (uid : String) : (r.delete uid).Ends steady (fun reply s' => reply = .ok () ∧
      s' = s.over (s.shared.erase (r.key uid))) s := by
  rw [delete, Program.perform_bind]
  intro reply s' ran
  have done : reply = .ok () := ran.2
  subst done
  have shape : s' = s.over s'.shared := Logged.ext rfl ran.1.2
  rw [shape, (exec_delete ran.1.1).resolve_left fun eq => eq.2 rfl]
  exact ⟨trivial, rfl, rfl⟩

def Readable (r : Registry S ST) (shared : Shared) : Prop :=
  ∀ uid data, shared.value (r.key uid) = some data → ∃ res, r.codec.unmarshal data = .ok res

theorem decodeEach_ok {shared : Shared} (readable : r.Readable shared)
    {vals : List (String × Bytes)} (read : ∀ entry ∈ vals, shared.value entry.1 = some entry.2)
    (children : ∀ entry ∈ vals, ∃ uid, entry.1 = r.key uid) :
    ∃ found, r.decodeEach vals = .ok found := by
  induction vals with
  | nil => exact ⟨[], rfl⟩
  | cons entry vals ih =>
    obtain ⟨rest, later⟩ := ih (fun other mem => read other (.tail _ mem)) fun other mem =>
      children other (.tail _ mem)
    obtain ⟨uid, named⟩ := children entry (.head _)
    have has := read entry (.head _)
    rw [named] at has
    obtain ⟨res, raw⟩ := readable uid entry.2 has
    rw [decodeEach, raw, later]
    exact ⟨_, rfl⟩

theorem readEach_served (holds : inv s) {keys : List String}
    (has : ∀ key ∈ keys, (s.shared.value key).isSome) :
    (readEach keys).Keeps steady inv (fun reply s' => s' = s ∧ ∃ vals, reply = .ok vals) s := by
  induction keys with
  | nil => exact ⟨rfl, [], rfl⟩
  | cons key keys ih =>
    rw [readEach, Program.perform_bind]
    obtain ⟨data, val⟩ := Option.isSome_iff_exists.mp (has key (.head _))
    apply reads_served holds val
    apply (ih fun other mem => has other (.tail _ mem)).bind
    rintro reply s' ⟨eq, vals, rfl⟩
    exact ⟨eq, _, rfl⟩

theorem list_served (holds : inv s) (readable : r.Readable s.shared) :
    r.list.Keeps steady inv (fun reply s' => s' = s ∧ ∃ found, reply = .ok found) s := by
  rw [Registry.list, State.list, Program.bind_assoc, Program.perform_bind]
  apply answering_look rfl holds
  intro reply ran served
  obtain ⟨keys, rfl, -⟩ := served
  have has (key : String) (mem : key ∈ keys) := (ran.2.1 key mem).1
  apply ((readEach_served holds has).and (keeps_answering (keeps_readEach holds keys))).bind
  rintro reply s' ⟨⟨eq, vals, rfl⟩, -, read⟩
  obtain ⟨names, vals⟩ := read vals rfl
  refine ⟨eq, ?_⟩
  apply decodeEach_ok readable vals
  intro entry mem
  have named : entry.1 ∈ keys := names ▸ List.mem_map_of_mem mem
  exact child_key (ran.2.1 entry.1 named).2

end

section

variable {S' ST' : Type} {other : Registry S' ST'} {shared s' : Shared} {uid : String}
    {res : Resource S ST}

def Sets (r : Registry S ST) (shared : Shared) (uid : String) (res : Resource S ST)
    (s' : Shared) : Prop :=
  ∃ data, r.codec.marshal (res.stamp r.kind) = .ok data ∧
    s' = shared.write (r.key uid) data

theorem Saves.sets (saves : r.Saves shared res s') : r.Sets shared res.metadata.uid res s' := by
  obtain ⟨data, enc, -, wrote⟩ := saves
  exact ⟨data, enc, wrote⟩

theorem Saves.absent (saves : r.Saves shared res s') (bare : res.metadata.resourceVersion = "") :
    shared.value (r.key res.metadata.uid) = none := by
  obtain ⟨data, -, fit, -⟩ := saves
  rw [Matches, if_pos bare] at fit
  exact fit

theorem Updates.sets {changes : Resource S ST → Resource S ST → Prop}
    (updates : r.Updates shared uid changes s') :
    ∃ found updated, r.stored shared uid = some found ∧ changes found updated ∧
      r.Sets shared uid updated s' := by
  obtain ⟨found, updated, data, has, new, enc, wrote⟩ := updates
  exact ⟨found, updated, has, new, data, enc, wrote⟩

section

variable (sets : r.Sets shared uid res s')

include sets

theorem Sets.stored_self : ∃ v, r.stored s' uid = some ((res.stamp r.kind).withVersion v) := by
  obtain ⟨data, enc, rfl⟩ := sets
  exact ⟨_, stored_of_entry (write_value_self _ _ _) (r.codec.roundTrip _ data enc)⟩

theorem Sets.stored_of_ne {name : String} (ne : name ≠ uid) :
    r.stored s' name = r.stored shared name := by
  obtain ⟨data, -, rfl⟩ := sets
  exact stored_write_of_ne fun eq => ne (r.key_inj eq)

theorem Sets.stored_other (apart : other.Disjoint r) (name : String) :
    other.stored s' name = other.stored shared name := by
  obtain ⟨data, -, rfl⟩ := sets
  exact stored_write_of_ne (apart name _)

end

theorem Readable.sets (readable : r.Readable shared) (sets : r.Sets shared uid res s') :
    r.Readable s' := by
  obtain ⟨data, enc, rfl⟩ := sets
  intro name found val
  by_cases eq : name = uid
  · rw [eq, write_value_self] at val
    cases val
    exact ⟨_, r.codec.roundTrip _ data enc⟩
  · rw [write_value_of_ne _ _ fun keys => eq (r.key_inj keys)] at val
    exact readable name found val

theorem Readable.sets_other (readable : other.Readable shared) (sets : r.Sets shared uid res s')
    (apart : other.Disjoint r) : other.Readable s' := by
  obtain ⟨data, -, rfl⟩ := sets
  intro name found val
  rw [write_value_of_ne _ _ (apart name uid)] at val
  exact readable name found val

theorem Readable.erase (readable : r.Readable shared) (key : String) :
    r.Readable (shared.erase key) := by
  intro name found val
  by_cases eq : r.key name = key
  · rw [eq, erase_value_self] at val
    cases val
  · rw [erase_value_of_ne _ eq] at val
    exact readable name found val

theorem Readable.value_none (readable : r.Readable shared) (gone : r.stored shared uid = none) :
    shared.value (r.key uid) = none := by
  cases val : shared.value (r.key uid) with
  | none => rfl
  | some data =>
    obtain ⟨read, raw⟩ := readable uid data val
    rw [stored_of_entry val raw] at gone
    cases gone

end

/-- Every record is stored under its own uid, which is a name that every store lists. -/
structure Indexed (r : Registry S ST) (shared : Shared) : Prop where
  filed : r.Filed shared
  listable : ∀ uid res, r.stored shared uid = some res → r.Listable uid
  named : ∀ uid res, r.stored shared uid = some res → uid ≠ ""

theorem Indexed.mem_listing {shared : Shared} (indexed : r.Indexed shared)
    {found : List (Resource S ST)} (listing : r.Listing shared found) (res : Resource S ST) :
    res ∈ found ↔ r.stored shared res.metadata.uid = some res := by
  constructor
  · intro mem
    obtain ⟨uid, has⟩ := listing.sound res mem
    rw [indexed.filed uid res has]
    exact has
  · intro has
    exact listing.complete _ res has (indexed.listable _ res has)

theorem indexed_of_everyRecord {shared : Shared}
    (ok : r.everyRecord (fun key read => key == r.key read.metadata.uid &&
      decide (r.Listable read.metadata.uid) && read.metadata.uid != "") shared = true) :
    r.Indexed shared := by
  have each (uid : String) (res : Resource S ST) (found : r.stored shared uid = some res) :
      res.metadata.uid = uid ∧ r.Listable uid ∧ uid ≠ "" := by
    obtain ⟨read, v, rfl, eq⟩ := check_of_everyRecord ok found
    simp only [Bool.and_eq_true, beq_iff_eq, decide_eq_true_eq, bne_iff_ne] at eq
    have own : read.metadata.uid = uid := (r.key_inj eq.1.1).symm
    rw [own] at eq
    exact ⟨own, eq.1.2, eq.2⟩
  exact ⟨fun uid res found => (each uid res found).1, fun uid res found => (each uid res found).2.1,
    fun uid res found => (each uid res found).2.2⟩

theorem readable_of_entries {shared : Shared}
    (checked : shared.store.entries.all (fun entry => (r.codec.unmarshal entry.2).isOk ||
      !(r.kind.toList ++ ['/']).isPrefixOf entry.1.toList) = true) : r.Readable shared := by
  intro uid data val
  have mem : Sigma.mk (r.key uid) data ∈ shared.store.entries := AList.mem_lookup_iff.mp val
  have passed := List.all_eq_true.mp checked _ mem
  have inside : (r.kind.toList ++ ['/']).isPrefixOf (r.key uid).toList = true := by
    simp [Registry.key]
  simp only [inside, Bool.not_true, Bool.or_false] at passed
  cases read : r.codec.unmarshal data with
  | error err => simp [read, Except.isOk, Except.toBool] at passed
  | ok res => exact ⟨res, rfl⟩

/-- Every record can be read and is stored under its own uid, which every store lists. -/
structure Coherent (r : Registry S ST) (shared : Shared) : Prop extends r.Indexed shared where
  readable : r.Readable shared

/-- A check that a store keeps the records of the registry in good order. -/
def wellKept (r : Registry S ST) (shared : Shared) : Bool :=
  shared.store.entries.all fun entry =>
    !(r.kind.toList ++ ['/']).isPrefixOf entry.1.toList ||
      match r.codec.unmarshal entry.2 with
      | .ok read => entry.1 == r.key read.metadata.uid && decide (r.Listable read.metadata.uid) &&
          read.metadata.uid != ""
      | .error _ => false

theorem coherent_of_wellKept {shared : Shared} (ok : r.wellKept shared = true) :
    r.Coherent shared := by
  have each (uid : String) (data : Bytes) (val : shared.value (r.key uid) = some data) :
      ∃ read, r.codec.unmarshal data = .ok read ∧ read.metadata.uid = uid ∧
        r.Listable uid ∧ uid ≠ "" := by
    have mem : Sigma.mk (r.key uid) data ∈ shared.store.entries := AList.mem_lookup_iff.mp val
    have passed := List.all_eq_true.mp ok _ mem
    have inside : (r.kind.toList ++ ['/']).isPrefixOf (r.key uid).toList = true := by
      simp [Registry.key]
    simp only [inside, Bool.not_true, Bool.false_or] at passed
    split at passed
    · next read raw =>
      simp only [Bool.and_eq_true, beq_iff_eq, decide_eq_true_eq, bne_iff_ne] at passed
      have own : read.metadata.uid = uid := (r.key_inj passed.1.1).symm
      rw [own] at passed
      exact ⟨read, raw, own, passed.1.2, passed.2⟩
    · cases passed
  have held (uid : String) (found : Resource S ST) (has : r.stored shared uid = some found) :
      found.metadata.uid = uid ∧ r.Listable uid ∧ uid ≠ "" := by
    obtain ⟨data, read, val, raw, rfl⟩ := entry_of_stored has
    obtain ⟨eq, unmarshalled', rest⟩ := each uid data val
    rw [raw] at unmarshalled'
    cases unmarshalled'
    exact rest
  refine ⟨⟨fun uid found has => (held uid found has).1,
    fun uid found has => (held uid found has).2.1,
    fun uid found has => (held uid found has).2.2⟩, ?_⟩
  intro uid data val
  obtain ⟨read, raw, -⟩ := each uid data val
  exact ⟨read, raw⟩

section

variable {S' ST' : Type} {other : Registry S' ST'} {shared s' : Shared} {uid : String}
    {res : Resource S ST}

theorem Coherent.sets (ok : r.Coherent shared) (sets : r.Sets shared uid res s')
    (own : res.metadata.uid = uid) (listable : r.Listable uid) (named : uid ≠ "") :
    r.Coherent s' := by
  have each (name : String) (found : Resource S ST) (has : r.stored s' name = some found) :
      found.metadata.uid = name ∧ r.Listable name ∧ name ≠ "" := by
    by_cases eq : name = uid
    · obtain ⟨v, wrote⟩ := sets.stored_self
      rw [eq, wrote] at has
      cases has
      rw [eq]
      exact ⟨own, listable, named⟩
    · rw [sets.stored_of_ne eq] at has
      exact ⟨ok.filed name found has, ok.listable name found has, ok.named name found has⟩
  exact ⟨⟨fun name found has => (each name found has).1,
    fun name found has => (each name found has).2.1,
    fun name found has => (each name found has).2.2⟩, ok.readable.sets sets⟩

theorem Coherent.congr (ok : r.Coherent shared)
    (eq : ∀ uid, s'.value (r.key uid) = shared.value (r.key uid)) : r.Coherent s' := by
  have held (name : String) : r.stored s' name = r.stored shared name := by
    rw [Registry.stored, Registry.stored, eq]
  refine ⟨⟨ok.filed.congr held, ?_, ?_⟩, ?_⟩
  · intro name found has
    rw [held] at has
    exact ok.listable name found has
  · intro name found has
    rw [held] at has
    exact ok.named name found has
  · intro name data val
    rw [eq] at val
    exact ok.readable name data val

theorem Coherent.sets_other (ok : other.Coherent shared) (sets : r.Sets shared uid res s')
    (apart : other.Disjoint r) : other.Coherent s' := by
  obtain ⟨data, -, rfl⟩ := sets
  exact ok.congr fun name => write_value_of_ne _ _ (apart name uid)

theorem Coherent.erase (ok : r.Coherent shared) (key : String) : r.Coherent (shared.erase key) := by
  have kept {name : String} {found : Resource S ST}
      (has : r.stored (shared.erase key) name = some found) :
      r.stored shared name = some found := by
    by_cases eq : r.key name = key
    · rw [← eq, stored_erase_self] at has
      cases has
    · rwa [stored_erase_of_ne eq] at has
  exact ⟨⟨fun name found has => ok.filed name found (kept has),
    fun name found has => ok.listable name found (kept has),
    fun name found has => ok.named name found (kept has)⟩, ok.readable.erase key⟩

end

end Infrastructure.Registry
