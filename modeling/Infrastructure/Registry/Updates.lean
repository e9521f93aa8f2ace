import Infrastructure.Registry.Rules

/-! Any number of clients of any number of registries over one store: a write
commits only over the bytes its version was computed from. -/

namespace Infrastructure.Registry

open Concurrency State Domain Crypto

/-- The calls of a client. A `mutate` that reads the clock is the function it turns out to be. -/
inductive ClientCall (S ST : Type) where
  | get (uid : String)
  | put (res : Resource S ST)
  | tryUpdate (uid : String) (mutate : Resource S ST → Except Error (Resource S ST))
  | delete (uid : String)
  | list

def ClientCall.run {S ST : Type} (r : Registry S ST) : ClientCall S ST → Prog Unit
  | .get uid => do let _ ← r.get uid
  | .put res => do let _ ← r.put res
  | .tryUpdate uid mutate => do let _ ← r.tryUpdate uid fun res => return mutate res
  | .delete uid => do let _ ← r.delete uid
  | .list => do let _ ← r.list

variable {Kind : Type} {S ST : Kind → Type}

abbrev Client (S ST : Kind → Type) := (kind : Kind) × ClientCall (S kind) (ST kind)

def clients (registries : (kind : Kind) → Registry (S kind) (ST kind)) (client : Client S ST) :
    Prog Unit :=
  client.2.run (registries client.1)

def StoredWithin (encodings : Set Bytes) (shared : Shared) : Prop :=
  ∀ key data, shared.value key = some data → data ∈ encodings

def latest {Call : Type} (i : Nat) (past : List (StoreEvent Call)) : Option (StoreEvent Call) :=
  past.find? fun event => event.thread == i

/-- What a write of `new` to `key` that commits found in the store. -/
def CommitsOverRead (registries : (kind : Kind) → Registry (S kind) (ST kind))
    (encodings : Set Bytes) (s : StoreWorld (Client S ST)) (i : Nat) (key : String) (new : Bytes) :
    Client S ST → Prop
  | ⟨kind, .put res⟩ =>
    key = (registries kind).key res.metadata.uid ∧
      (registries kind).codec.marshal (res.stamp (registries kind).kind) = .ok new ∧
      if res.metadata.resourceVersion = "" then s.state.value key = none
      else ∃ stored, s.state.value key = some stored ∧
        revision stored = res.metadata.resourceVersion ∧
        ∀ read ∈ encodings, revision read = res.metadata.resourceVersion → read = stored
  | ⟨kind, .tryUpdate uid mutate⟩ =>
    key = (registries kind).key uid ∧
      ∃ read res updated, s.state.value key = some read ∧
        latest i s.past =
          some ⟨i, ⟨kind, .tryUpdate uid mutate⟩, .get key, .ok read⟩ ∧
        (registries kind).decode uid read = .ok res ∧ mutate res = .ok updated ∧
        (registries kind).codec.marshal (updated.stamp (registries kind).kind) = .ok new
  | _ => False

def updates (registries : (kind : Kind) → Registry (S kind) (ST kind)) (encodings : Set Bytes) :
    Protocol machine (Client S ST) where
  invariant _ := True
  permitted s _ := StoredWithin encodings s.state
  rely i _ s s' := latest i s'.past = latest i s.past
  guarantee s s' := ∀ i call key old new reply,
    s'.past = ⟨i, call, .cas key old new, reply⟩ :: s.past →
    Commits s.state s'.state (.cas key old new) reply →
    CommitsOverRead registries encodings s i key new call
  rely_refl _ _ _ := rfl
  rely_trans _ _ _ _ _ first second := second.trans first

variable {registries : (kind : Kind) → Registry (S kind) (ST kind)} {encodings : Set Bytes}

theorem updates_idle : Idle (updates registries encodings) := by
  intro now event _ quiet ran _
  refine ⟨?_, trivial⟩
  intro i call key old new reply newest commits
  simp only [World.next_past, List.cons.injEq, and_true] at newest
  subst event
  match reply, quiet, commits with
  | .ok false, _, changed => exact absurd rfl changed
  | .error err, _, changed => exact absurd rfl changed

variable {i : Nat} {w : StoreWorld (Client S ST)}

theorem updates_get (kind : Kind) (uid : String) :
    (updates registries encodings).Safe i ⟨kind, .get uid⟩ (fun _ _ => True)
      (clients registries ⟨kind, .get uid⟩) w := by
  refine safe_read updates_idle rfl ?_
  intro now reply _ _ _ _ _
  cases reply <;> trivial

theorem updates_list (kind : Kind) : (updates registries encodings).Safe i ⟨kind, .list⟩
    (fun _ _ => True)
      (clients registries ⟨kind, .list⟩) w := by
  have reading : Reading (clients registries ⟨kind, .list⟩) := .bind list_reading fun _ _ => trivial
  exact safe_reading updates_idle reading trivial fun _ _ _ _ => trivial

theorem updates_delete (kind : Kind) (uid : String) :
    (updates registries encodings).Safe i ⟨kind, .delete uid⟩ (fun _ _ => True)
      (clients registries ⟨kind, .delete uid⟩) w := by
  refine safe_remove updates_idle (fun _ _ _ => trivial) ?_
  intro now reply _ _ _
  refine ⟨?_, trivial⟩
  intro other call key old new answer newest
  simp at newest

theorem updates_put (free : Set.InjOn sha256 encodings) (kind : Kind)
    (res : Resource (S kind) (ST kind)) :
    (updates registries encodings).Safe i ⟨kind, .put res⟩ (fun _ _ => True)
    (clients registries ⟨kind, .put res⟩) w := by
  refine safe_put updates_idle trivial (fun _ _ _ => trivial) ?_
  intro old data now reply enc _ got fit _ held
  refine ⟨?_, trivial, fun _ => trivial⟩
  intro other call key expected new answer newest _
  simp only [World.next_past, List.cons.injEq, Event.mk.injEq, and_true] at newest
  obtain ⟨rfl, rfl, eq⟩ := newest
  obtain ⟨⟨rfl, rfl, rfl⟩, -⟩ := eq
  refine ⟨rfl, enc, ?_⟩
  rw [Matches] at fit
  split at fit
  · next bare =>
    rw [if_pos bare, got, fit]
  · next versioned =>
    obtain ⟨read, rfl, v⟩ := fit
    rw [if_neg versioned]
    refine ⟨read, got, v, ?_⟩
    intro other mem eq
    exact revision_inj free mem (held _ _ got) (eq.trans v.symm)

theorem updates_tryUpdate (kind : Kind) (uid : String)
    (mutate : Resource (S kind) (ST kind) → Except Error (Resource (S kind) (ST kind))) :
    (updates registries encodings).Safe i ⟨kind, .tryUpdate uid mutate⟩ (fun _ _ => True)
      ((registries kind).tryUpdate uid fun res => return mutate res) w := by
  unfold Registry.tryUpdate
  refine safe_read updates_idle rfl ?_
  intro first reply _ _ _ _ _
  cases reply with
  | error err => trivial
  | ok read =>
    dsimp only
    split
    · trivial
    · next res dec =>
      simp only [Program.pure_eq_ret, Program.ret_bind]
      split
      · trivial
      · next updated mutated =>
        split
        · trivial
        · next new enc =>
          refine safe_cas updates_idle ?_ ?_
          · intro now reply _ _ _ _
            cases reply <;> trivial
          · intro now reply _ rely got _ _
            refine ⟨?_, trivial, by cases reply <;> trivial⟩
            intro other call key expected data answer newest _
            simp only [World.next_past, List.cons.injEq, Event.mk.injEq, and_true] at newest
            obtain ⟨rfl, rfl, eq⟩ := newest
            obtain ⟨⟨rfl, rfl, rfl⟩, -⟩ := eq
            refine ⟨rfl, read, res, updated, got, ?_, dec, mutated, enc⟩
            rw [rely]
            simp [latest]

theorem updates_sound (free : Set.InjOn sha256 encodings) :
    (updates registries encodings).Sound (clients registries) fun s _ =>
    StoredWithin encodings s.state where
  safe i client w _ := by
    obtain ⟨kind, call⟩ := client
    cases call with
    | get uid => exact updates_get kind uid
    | put res => exact updates_put free kind res
    | tryUpdate uid mutate => exact Protocol.Safe.bind (updates_tryUpdate kind uid mutate)
    | delete uid => exact updates_delete kind uid
    | list => exact updates_list kind
  permitted _ _ stored := stored
  drift s state _ _ _ := by
    refine ⟨trivial, ?_⟩
    intro i call key old new reply newest
    simp at newest
  interference s s' i _ _ _ _ _ _ quiet _ _ := by
    rcases quiet with eq | ⟨event, other, grown⟩
    · exact congrArg (latest i) eq
    · show latest i s'.past = latest i s.past
      rw [grown, latest, List.find?_cons_of_neg (by simpa using other), latest]

theorem commits_over_version_read (registries : (kind : Kind) → Registry (S kind) (ST kind))
    (encodings : Set Bytes) (collisionFree : Set.InjOn sha256 encodings) (start : Shared)
    {s s' : Configuration Op Op.Reply Shared (Client S ST) Unit}
    (reached : Reachable machine (clients registries)
      (fun s _ => StoredWithin encodings s.state) start s) (stored : StoredWithin encodings s.state)
    (moved : Step machine (clients registries) s s') {i : Nat} {client : Client S ST} {key : String}
    {old : Option Bytes} {new : Bytes}
      {reply : Except Error Bool}
    (newest : s'.past = ⟨i, client, .cas key old new, reply⟩ :: s.past)
    (commits : Commits s.state s'.state (.cas key old new) reply) :
    CommitsOverRead registries encodings s.toWorld i key new client := by
  have sound : (updates registries encodings).Sound (clients registries) _ :=
    updates_sound collisionFree
  rcases sound.guarantee trivial reached moved stored with same | guaranteed
  · have unchanged : s'.past = s.past := congrArg World.past same
    simp [unchanged] at newest
  · exact guaranteed i client key old new reply newest commits

def sampleRecord (finalizers : List String) : Resource Unit Unit where
  apiVersion := "infra/v1"
  kind := "vpc"
  metadata := { uid := "vpc-a1", finalizers := finalizers, generation := 1 }
  spec := ()
  status := ()

def sampleBare : Bytes := bytesOf ("\x7b\"apiVersion\":\"infra/v1\",\"kind\":\"vpc\"," ++
  "\"metadata\":\x7b\"uid\":\"vpc-a1\",\"name\":\"\",\"generation\":1," ++
  "\"createdAt\":\"1970-01-01T00:00:00Z\"\x7d,\"spec\":\x7b\x7d,\"status\":\x7b\x7d\x7d")

def sampleHeld : Bytes := bytesOf ("\x7b\"apiVersion\":\"infra/v1\",\"kind\":\"vpc\"," ++
  "\"metadata\":\x7b\"uid\":\"vpc-a1\",\"name\":\"\",\"finalizers\":[\"infra.io/vpc\"],\"generation\":1," ++
  "\"createdAt\":\"1970-01-01T00:00:00Z\"\x7d,\"spec\":\x7b\x7d,\"status\":\x7b\x7d\x7d")

def sampleRegistry : Registry Unit Unit where
  kind := "vpc"
  codec := .ofTable [(sampleRecord [], sampleBare), (sampleRecord ["infra.io/vpc"], sampleHeld)]
    (by decide +kernel)

def sampleUpdate : Client (fun _ : Unit => Unit) (fun _ : Unit => Unit) :=
  ⟨(), .tryUpdate "vpc-a1" fun res =>
    .ok { res with metadata := res.metadata.addFinalizer "infra.io/vpc" }⟩

def sampleStore : Shared := ⟨(∅ : Store).insert (sampleRegistry.key "vpc-a1") sampleBare, 0⟩

theorem sampleStore_within : StoredWithin {sampleBare} sampleStore := by
  intro key data got
  by_cases eq : key = (sampleRegistry.key "vpc-a1")
  · subst key
    exact (Option.some.inj ((write_value_self ⟨∅, 0⟩ _ _).symm.trans got)).symm
  · exact absurd ((write_value_of_ne ⟨∅, 0⟩ _ eq).symm.trans got) (by simp [Shared.value])

set_option maxRecDepth 8000 in
theorem commits_over_version_read_tryUpdate :
    ∃ s : Configuration Op Op.Reply Shared (Client (fun _ : Unit => Unit) fun _ => Unit) Unit,
      s.state = sampleStore ∧
      CommitsOverRead (fun _ => sampleRegistry) {sampleBare} s.toWorld 0
        (sampleRegistry.key "vpc-a1") sampleHeld
        sampleUpdate := by
  exact ⟨_, rfl, commits_over_version_read (fun _ => sampleRegistry) {sampleBare}
    (Set.injOn_singleton _ _) sampleStore
    (.step (.step .initial (.start _ 0 sampleUpdate rfl) sampleStore_within)
      (.act _ 0 sampleUpdate _ _ _ _ rfl (answer_exec _ _)) sampleStore_within)
    sampleStore_within (.act _ 0 sampleUpdate _ _ _ _ rfl (answer_exec _ _)) rfl trivial⟩

end Infrastructure.Registry
