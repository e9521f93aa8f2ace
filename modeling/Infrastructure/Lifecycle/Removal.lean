import Infrastructure.Lifecycle.Writers
import Infrastructure.Manager.VPC

/-! When a record leaves the store.

The handler and the agents decide to remove a record on a copy and then remove it
by key. What is stored at that moment may have gained a finalizer since. -/

namespace Infrastructure.Lifecycle

open Concurrency State Domain Registry

variable {S ST Call : Type} (r : Registry S ST)

def finalizersOf (data : Bytes) : List String :=
  match r.codec.unmarshal data with
  | .ok res => res.metadata.finalizers
  | .error _ => []

/-- Every stored value is a record filed under its own uid. -/
def Filed (shared : Shared) : Prop :=
  ∀ key data, shared.value key = some data →
    ∃ res, r.codec.unmarshal data = .ok res ∧ key = r.key res.metadata.uid

def Bare (key : String) (shared : Shared) : Prop :=
  ∀ data, shared.value key = some data → finalizersOf r data = []

/-- The event may have stored a record with a finalizer under the key. -/
def attaches (key : String) (event : StoreEvent Call) : Bool :=
  match event.op, event.reply with
  | .cas _ _ _, .ok false => false
  | .cas t _ new, _ => t == key && finalizersOf r new != []
  | .put t new, _ => t == key && finalizersOf r new != []
  | _, _ => false

/-- The thread learns what is stored under the key, by reading it or by having replaced it. -/
def refreshes (i : Nat) (key : String) (event : StoreEvent Call) : Bool :=
  event.thread == i &&
    match event.op, event.reply with
    | .get t, .ok _ => t == key
    | .cas t _ _, .ok true => t == key
    | _, _ => false

/-- Since the thread last learnt what is stored under the key, no write has attached a finalizer. -/
def Undisturbed (i : Nat) (key : String) (past : List (StoreEvent Call)) : Prop :=
  ∀ event ∈ past.takeWhile fun event => !refreshes i key event, attaches r key event = false

def RemovesBare (s s' : Shared) : Prop :=
  ∀ key data, s.value key = some data → s'.value key = none →
    ∃ res, r.codec.unmarshal data = .ok res ∧ res.metadata.finalizers = []

/-- What a thread knows while it waits to remove the record. -/
def KnownBare (i : Nat) (key : String) (w : StoreWorld Call) : Prop :=
  Undisturbed r i key w.past → Bare r key w.state

def removal : Protocol machine Call where
  invariant w := Filed r w.state
  permitted s s' := ∀ i call key reply,
    s'.past = ⟨i, call, .delete key, reply⟩ :: s.past →
    Undisturbed r i key s.past
  rely i _ s s' := ∀ key,
    KnownBare r i key s → KnownBare r i key s'
  guarantee s s' := RemovesBare r s.state s'.state ∧
    ((s'.past = s.past ∧ ∀ key, s'.state.value key = s.state.value key) ∨
      ∃ event, s'.past = event :: s.past ∧
        exec s.state event.op event.reply s'.state)
  rely_refl _ _ _ _ known := known
  rely_trans _ _ _ _ _ first second key known := second key (first key known)

variable {r} {res : Resource S ST}

theorem finalizersOf_eq {data : Bytes} (dec : r.codec.unmarshal data = .ok res) :
    finalizersOf r data = res.metadata.finalizers := by
  rw [finalizersOf, dec]

variable {key : String}

theorem undisturbed_cons {i : Nat} {event : StoreEvent Call}
    {past : List (StoreEvent Call)} (stale : refreshes i key event = false)
    (calm : Undisturbed r i key (event :: past)) :
    attaches r key event = false ∧ Undisturbed r i key past := by
  have window : (event :: past).takeWhile (fun event => !refreshes i key event) =
      event :: past.takeWhile fun event => !refreshes i key event := by
    simp [stale]
  rw [Undisturbed, window] at calm
  exact ⟨calm event List.mem_cons_self, fun other mem => calm other (.tail _ mem)⟩

theorem bare_exec {s s' : Shared} {event : StoreEvent Call}
    (ran : exec s event.op event.reply s') (detached : attaches r key event = false)
    (bare : Bare r key s) : Bare r key s' := by
  intro data held
  obtain ⟨t, call, op, reply⟩ := event
  rcases exec_value ran key with eq | ⟨old, new, rfl, ok, -, got⟩ | ⟨val, rfl, got⟩ | ⟨-, gone⟩
  · exact bare data (eq.symm.trans held)
  · cases held.symm.trans got
    match reply, ok, detached with
    | .ok false, ok, _ => exact absurd trivial ok
    | .ok true, _, detached => simpa [attaches] using detached
    | .error err, _, detached => simpa [attaches] using detached
  · cases held.symm.trans got
    simpa [attaches] using detached
  · cases held.symm.trans gone

theorem removesBare_write (s : Shared) (key : String) (val : Bytes) :
    RemovesBare r s (s.write key val) := by
  intro other data held gone
  by_cases eq : other = key
  · subst eq
    rw [write_value_self] at gone
    cases gone
  · rw [write_value_of_ne s val eq, held] at gone
    cases gone

variable {s : Shared}

theorem filed_write {data : Bytes} (filed : Filed r s)
    (enc : r.codec.marshal (res.stamp r.kind) = .ok data) :
    Filed r (s.write (r.key res.metadata.uid) data) := by
  intro key val held
  by_cases eq : key = r.key res.metadata.uid
  · subst eq
    rw [write_value_self] at held
    cases held
    exact ⟨_, r.codec.roundTrip _ _ enc, rfl⟩
  · rw [write_value_of_ne s data eq] at held
    exact filed key val held

theorem filed_erase (filed : Filed r s) (key : String) : Filed r (s.erase key) := by
  intro other val held
  by_cases eq : other = key
  · subst eq
    rw [erase_value_self] at held
    cases held
  · rw [erase_value_of_ne s eq] at held
    exact filed other val held

theorem removal_idle : Idle (removal r : Protocol machine Call) := by
  intro now event kept _ ran _
  refine ⟨⟨?_, .inr ⟨event, rfl, ran⟩⟩, kept⟩
  intro key data held gone
  cases held.symm.trans gone

variable {i : Nat} {call : Call} {w : StoreWorld Call}

theorem knownBare_read {op : Op} {reply : op.Reply}
    (stale : refreshes i key (⟨i, call, op, reply⟩ : StoreEvent Call) = false)
    (known : KnownBare r i key w) :
    KnownBare r i key (w.next ⟨i, call, op, reply⟩ w.state) := by
  intro calm
  exact known (undisturbed_cons stale calm).2

theorem knownBare_refresh {op : Op} {reply : op.Reply} {state : Shared} (bare : Bare r key state) :
    KnownBare r i key (w.next ⟨i, call, op, reply⟩ state) :=
  fun _ => bare

def CopyKnown (r : Registry S ST) (i : Nat) (w : StoreWorld Call) :
    Option (Resource S ST) → Prop
  | none => True
  | some copy =>
    copy.metadata.finalizers = [] → KnownBare r i (r.key copy.metadata.uid) w

theorem bare_write {data : Bytes} (enc : r.codec.marshal (res.stamp r.kind) = .ok data)
    (free : res.metadata.finalizers = []) :
    Bare r (r.key res.metadata.uid) (s.write (r.key res.metadata.uid) data) := by
  intro val held
  rw [write_value_self] at held
  cases held
  rw [finalizersOf_eq (r.codec.roundTrip _ _ enc)]
  exact free

theorem swapped_exec {old : Option Bytes} {new : Bytes}
    {reply : Except Error Bool} (got : s.value key = old) (ok : reply ≠ .ok false) :
    exec s (.cas key old new) reply (s.write key new) := by
  match reply, ok with
  | .ok true, _ => exact ⟨got, rfl⟩
  | .ok false, ok => exact absurd rfl ok
  | .error err, _ => exact .inr ⟨got, rfl⟩

theorem removal_put {α : Type} {next : Except Error (Resource S ST) → Prog α}
    (kept : Filed r w.state)
    (bad : ∀ err later, Filed r later.state →
      (removal r).Safe i call (fun _ _ => True) (next (.error err)) later)
    (held : ∀ v later, Filed r later.state →
      CopyKnown r i later (some ((res.stamp r.kind).withVersion v)) →
      (removal r).Safe i call (fun _ _ => True)
        (next (.ok ((res.stamp r.kind).withVersion v))) later) :
    (removal r).Safe i call (fun _ _ => True) (r.put res >>= next) w := by
  refine safe_put removal_idle kept bad ?_
  intro old data now reply enc filed got _ ok _
  have refiled := filed_write filed enc
  refine ⟨⟨removesBare_write _ _ _, .inr ⟨_, rfl, swapped_exec got ok⟩⟩, refiled, ?_⟩
  intro succeeded
  refine held _ _ refiled ?_
  intro free
  exact knownBare_refresh (bare_write enc free)

variable {copy : Option (Resource S ST)}

theorem copyKnown_ambient {op : Op} {reply : op.Reply} (ambient : op.ambient = true)
    (known : CopyKnown r i w copy) :
    CopyKnown r i (w.next ⟨i, call, op, reply⟩ w.state) copy := by
  cases copy with
  | none => trivial
  | some res =>
    intro free
    refine knownBare_read ?_ (known free)
    cases op <;> first | cases ambient; done | simp [refreshes]

theorem copyKnown_rely {op : Op} {now : StoreWorld Call}
    (rely : (removal r).rely i op w now) (known : CopyKnown r i w copy) :
    CopyKnown r i now copy := by
  cases copy with
  | none => trivial
  | some res => exact fun free => rely _ (known free)

theorem pass_safe {discipline : Discipline S ST} {α : Type} {prog : Prog α}
    (careful : ∀ copy, discipline.removes copy → copy.metadata.finalizers = [])
    (pass : Pass r discipline copy prog) (kept : Filed r w.state) (known : CopyKnown r i w copy) :
    (removal r).Safe i call (fun _ _ => True) prog w := by
  induction pass generalizing w with
  | done val => trivial
  | ambient ambient _ ih =>
    refine safe_read removal_idle (Op.reads_of_ambient ambient) ?_
    intro now reply _ rely _ _ inv
    exact ih reply inv (copyKnown_ambient ambient (copyKnown_rely rely known))
  | @peek copy key _ other _ ih =>
    refine safe_read removal_idle rfl ?_
    intro now reply _ rely _ _ inv
    refine ih reply inv ?_
    have cur := copyKnown_rely rely known
    cases copy with
    | none => trivial
    | some res =>
      intro free
      refine knownBare_read ?_ (cur free)
      cases reply <;> simp [refreshes, other res rfl]
  | @load _ uid _ _ _ bad got =>
    refine safe_get removal_idle (fun err later inv => bad err inv trivial) ?_
    intro data res now filed _ held dec _ inv
    obtain ⟨filedAs, eq, under⟩ := filed _ _ held
    cases dec.symm.trans eq
    have uidSame := r.key_inj under
    refine got (res.withVersion (revision data)) uidSame.symm inv ?_
    intro free
    refine knownBare_refresh ?_
    intro val has
    cases held.symm.trans ((congrArg _ under).trans has)
    rw [finalizersOf_eq dec]
    exact free
  | save _ _ _ _ _ bad held | create _ _ _ _ bad held =>
    exact removal_put kept (fun err later inv => bad err inv trivial)
      (fun v later inv knows => held v inv knows)
  | @update _ uid mutate _ mutates _ ih =>
    have reading : ∀ res, (mutate res).Uses (fun op => op.reads = true) fun out =>
        ∀ updated, out = .ok updated → updated.metadata.uid = res.metadata.uid := by
      intro res
      exact (mutates res).mono (fun op => Op.reads_of_ambient)
        (fun out new updated produced => (new updated produced).1)
    refine safe_tryUpdate removal_idle reading (fun err later inv => ih _ inv trivial)
      (fun later inv => ih _ inv trivial) ?_
    intro old res updated data now reply dec sameUID enc filed got took _
    obtain ⟨filedAs, eq, under⟩ := filed _ _ got
    cases dec.symm.trans eq
    have t : r.key uid = r.key updated.metadata.uid :=
      under.trans (congrArg r.key sameUID.symm)
    have refiled : Filed r (now.state.write (r.key uid) data) := by
      rw [t]
      exact filed_write filed enc
    exact ⟨⟨removesBare_write _ _ _, .inr ⟨_, rfl, swapped_exec got took⟩⟩, refiled,
      fun _ => ih _ refiled trivial⟩
  | @remove copy _ removes _ ih =>
    refine safe_remove removal_idle (fun reply later inv => ih reply inv trivial) ?_
    intro now reply filed rely permitted
    have bare := rely _ (known (careful copy removes)) (permitted _ _ _ _ rfl)
    refine ⟨⟨?_, .inr ⟨_, rfl, ?_⟩⟩, filed_erase filed _⟩
    · intro key data held gone
      obtain ⟨res, dec, -⟩ := filed key data held
      refine ⟨res, dec, ?_⟩
      by_cases eq : key = r.key copy.metadata.uid
      · subst eq
        rw [← finalizersOf_eq dec]
        exact bare data held
      · rw [World.next_state, erase_value_of_ne _ eq, held] at gone
        cases gone
    · cases reply with
      | error err => exact .inr rfl
      | ok done => exact rfl

/-- No write has attached a finalizer since a call that removes last read or replaced the record. -/
def Settled {h : Handler S ST} {Out : Type}
    (s s' : Configuration Op Op.Reply Shared (Writer h agents) Out) : Prop :=
  ∀ i call key reply, s'.past = ⟨i, call, .delete key, reply⟩ :: s.past →
    Undisturbed h.registry i key s.past

theorem careful_conduct {h : Handler S ST} (writer : Writer h agents) (copy : Resource S ST)
    (removes : writer.conduct.removes copy) : copy.metadata.finalizers = [] := by
  cases writer with
  | put req uid => cases removes
  | delete req uid => exact removes
  | pass prog follows => exact removes

theorem removal_sound (h : Handler S ST) :
    (removal h.registry).Sound (Writer.run : Writer h agents → Prog Unit) Settled where
  safe i writer w filed :=
    pass_safe (careful_conduct writer) writer.run_pass filed trivial
  permitted _ _ settled := settled
  drift s state filed moved _ := by
    have eq : ∀ key, state.value key = s.state.value key := by
      intro key
      rw [Shared.value, Shared.value, moved.1]
    refine ⟨?_, ?_, .inl ⟨rfl, eq⟩⟩
    · intro key data held
      exact filed key data ((eq key).symm.trans held)
    · intro key data held gone
      cases held.symm.trans ((eq key).symm.trans gone)
  interference s s' i _ _ _ _ _ got quiet _ _ := by
    intro key known calm
    rcases got.2 with ⟨past, vals⟩ | ⟨event, past, ran⟩
    · intro data held
      rw [past] at calm
      exact known calm data ((vals key).symm.trans held)
    · have other : event.thread ≠ i := by
        rcases quiet with same | ⟨newest, other, grown⟩
        · simp [same] at past
        · rw [grown, List.cons.injEq] at past
          rw [← past.1]
          exact other
      have stale : refreshes i key event = false := by simp [refreshes, other]
      rw [past] at calm
      have detached := undisturbed_cons stale calm
      exact bare_exec ran detached.1 (known detached.2)

/-- From the empty store, over every interleaving of requests and agent passes. -/
theorem removes_bare_of_settled (h : Handler S ST) (clock : Int)
    {s s' : Configuration Op Op.Reply Shared (Writer h agents) Unit}
    (reached : Reachable machine Writer.run Settled ⟨∅, clock⟩ s)
    (moved : Step machine Writer.run s s') (settled : Settled s s') :
    RemovesBare h.registry s.state s'.state := by
  have initially : (removal h.registry).invariant
      (⟨⟨∅, clock⟩, []⟩ : StoreWorld (Writer h agents)) := by
    intro key data stored
    simp [Shared.value] at stored
  rcases (removal_sound h).guarantee initially reached moved settled with same | guaranteed
  · have unchanged : s'.state = s.state := congrArg World.state same
    rw [unchanged]
    intro key data stored gone
    cases stored.symm.trans gone
  · exact guaranteed.1

section

open Manager

def createdVPC : VPC where
  apiVersion := "infra/v1"
  kind := "vpc"
  metadata := { uid := "vpc-a1", name := "net", generation := 1 }
  spec := ⟨"10.0.0.0/16"⟩
  status := {}

def readyVPC : VPC := { createdVPC with
  metadata := { createdVPC.metadata with finalizers := ["infra.io/vpc"] }
  status := {
    observedGeneration := 1
    phase := .ready
    conditions := [⟨.progressing, .isFalse, "Reconciled", "bridge ready", 0⟩,
      ⟨.ready, .isTrue, "Reconciled", "bridge ready", 0⟩]
    bridgeName := "br-vpc-a1" } }

def createdVPCJson : Bytes := bytesOf (
  "\x7b\"apiVersion\":\"infra/v1\",\"kind\":\"vpc\",\"metadata\":\x7b\"uid\":\"vpc-a1\",\"name\":\"net\"," ++
  "\"generation\":1,\"createdAt\":\"1970-01-01T00:00:00Z\"\x7d,\"spec\":\x7b\"cidr\":\"10.0.0.0/16\"\x7d," ++
  "\"status\":\x7b\"observedGeneration\":0,\"phase\":\"\"\x7d\x7d")

def readyVPCJson : Bytes := bytesOf (
  "\x7b\"apiVersion\":\"infra/v1\",\"kind\":\"vpc\",\"metadata\":\x7b\"uid\":\"vpc-a1\",\"name\":\"net\"," ++
  "\"finalizers\":[\"infra.io/vpc\"],\"generation\":1,\"createdAt\":\"1970-01-01T00:00:00Z\"\x7d," ++
  "\"spec\":\x7b\"cidr\":\"10.0.0.0/16\"\x7d,\"status\":\x7b\"observedGeneration\":1,\"phase\":\"Ready\",\"conditions\":[" ++
  "\x7b\"type\":\"Progressing\",\"status\":\"False\",\"reason\":\"Reconciled\",\"message\":\"bridge ready\"," ++
  "\"lastTransitionTime\":\"1970-01-01T00:00:00Z\"\x7d,\x7b\"type\":\"Ready\",\"status\":\"True\"," ++
  "\"reason\":\"Reconciled\",\"message\":\"bridge ready\",\"lastTransitionTime\":\"1970-01-01T00:00:00Z\"\x7d]," ++
  "\"bridgeName\":\"br-vpc-a1\"\x7d\x7d")

def raceHandler : Handler VPCSpec VPCStatus :=
  vpcHandler (.ofTable [(createdVPC, createdVPCJson), (readyVPC, readyVPCJson)] (by decide +kernel))
    (fun _ => .ok ()) false

def putVPC : Writer raceHandler agents :=
  .put ⟨none, .ok { metadata := { name := "net" }, spec := ⟨"10.0.0.0/16"⟩, status := {} }⟩ "vpc-a1"

def deleteVPC : Writer raceHandler agents := .delete ⟨none, .error "EOF"⟩ "vpc-a1"

def agentPass : Writer raceHandler agents :=
  .pass (do let _ ← (VPCReconciler.mk raceHandler.registry).reconcileAll)
    (VPCReconciler.reconcileAll_pass.bind fun _ _ => .done _)

/-- A VPC is created; the DELETE reads it without finalizers; the agent attaches its own. -/
def raceMoves : List (Move Shared (Writer raceHandler agents)) :=
  [.start 0 putVPC, .act 0, .act 0, .act 0, .finish 0, .start 1 deleteVPC, .act 1,
    .start 2 agentPass, .act 2, .act 2, .act 2, .act 2, .act 2, .act 2, .act 2, .act 2, .act 2,
      .act 2, .act 2]

def removesHeld (s s' : Configuration Op Op.Reply Shared (Writer raceHandler agents) Unit) : Bool :=
  match s.state.value "vpc/vpc-a1", s'.state.value "vpc/vpc-a1" with
  | some data, none => finalizersOf raceHandler.registry data == ["infra.io/vpc"]
  | _, _ => false

/-- The DELETE then removes a record that lists the agent's finalizer. -/
theorem delete_removes_held_record : ∃ s s' :
    Configuration Op Op.Reply Shared (Writer raceHandler agents) Unit,
      Reachable machine Writer.run (fun _ _ => True) ⟨∅, 0⟩ s ∧ Step machine Writer.run s s' ∧
        ¬RemovesBare raceHandler.registry s.state s'.state := by
  have played :
      ((play answer Writer.run (fun _ _ => true) (Configuration.initial ⟨∅, 0⟩) raceMoves).any
      fun s => (playOne answer Writer.run s (.act 1)).any (removesHeld s)) = true := by
    decide +kernel
  have legal : ∀ move ∈ Move.act 1 :: raceMoves, move.Legal machine := by
    simp [raceMoves, Move.Legal]
  obtain ⟨s, s', reached, moved, held⟩ :=
    play_step answer_exec (fun _ _ _ => trivial) legal played
  refine ⟨s, s', reached, moved, ?_⟩
  intro bare
  unfold removesHeld at held
  split at held
  · next data stored gone =>
    obtain ⟨res, dec, free⟩ := bare _ data stored gone
    rw [finalizersOf_eq dec, free] at held
    cases held
  · cases held

instance {Call : Type} (i : Nat) (key : String) (past : List (StoreEvent Call)) :
    Decidable (Undisturbed raceHandler.registry i key past) :=
  inferInstanceAs (Decidable (∀ event ∈ past.takeWhile _, _))

def settledStep (s s' : Configuration Op Op.Reply Shared (Writer raceHandler agents) Unit) : Bool :=
  match s'.past.head? with
  | some ⟨i, _, .delete key, _⟩ => decide (Undisturbed raceHandler.registry i key s.past)
  | _ => true

theorem settled_of_step (s s' : Configuration Op Op.Reply Shared (Writer raceHandler agents) Unit)
    (ok : settledStep s s' = true) : Settled s s' := by
  intro i call key reply newest
  simp only [settledStep, newest, List.head?_cons] at ok
  exact of_decide_eq_true ok

/-- Without the agent in between, the same DELETE removes the record as it read it. -/
theorem removes_bare_of_settled_delete : ∃ s s' :
    Configuration Op Op.Reply Shared (Writer raceHandler agents) Unit,
      s.state.value "vpc/vpc-a1" = some createdVPCJson ∧ s'.state.value "vpc/vpc-a1" = none ∧
        RemovesBare raceHandler.registry s.state s'.state := by
  have played : ((play answer Writer.run settledStep (Configuration.initial ⟨∅, 0⟩)
      (raceMoves.take 7)).any fun s => (playOne answer Writer.run s (.act 1)).any fun s' =>
        settledStep s s' && s.state.value "vpc/vpc-a1" == some createdVPCJson &&
          s'.state.value "vpc/vpc-a1" == none) = true := by
    decide +kernel
  have legal : ∀ move ∈ Move.act 1 :: raceMoves.take 7, move.Legal machine := by
    simp [raceMoves, Move.Legal]
  obtain ⟨s, s', reached, moved, checked⟩ :=
    play_step answer_exec settled_of_step legal played
  simp only [Bool.and_eq_true, beq_iff_eq] at checked
  exact ⟨s, s', checked.1.2, checked.2,
    removes_bare_of_settled raceHandler 0 reached moved (settled_of_step _ _ checked.1.1)⟩

end

end Infrastructure.Lifecycle
