import Infrastructure.State.Encoding
import Infrastructure.State.Rules

/-! Leader election: a lease kept as one record of the store, taken, renewed and
given up by compare-and-swap. -/

namespace Infrastructure.Controllers

open Concurrency State

structure LeaseRecord where
  holder : String := ""
  expiry : Int := zeroTime
  deriving DecidableEq, Repr

structure Lease where
  key : String
  holder : String
  ttl : Int

section

variable (json : Encoding LeaseRecord) (lease : Lease)

/-- Writes a fresh record only if the stored value still equals `old`. -/
def Lease.swap (old : Option Bytes) : Prog (Except Error Bool) := do
  let now ← Program.perform Op.now
  match json.marshal ⟨lease.holder, now + lease.ttl⟩ with
  | .error err => return .error (.wrap "controllers: encode lease" err)
  | .ok data =>
    match ← Program.perform (Op.cas lease.key old data) with
    | .error err => return .error (.wrap "controllers: swap lease" err)
    | .ok swapped => return .ok swapped

def Lease.acquire : Prog (Except Error Bool) := do
  if lease.ttl ≤ 0 then
    return .error (.new "controllers: lease TTL must be positive")
  else
    match ← Program.perform (Op.get lease.key) with
    | .error err =>
      if err.is errNotFound then lease.swap json none
      else return .error (.wrap "controllers: read lease" err)
    | .ok cur =>
      match json.unmarshal cur with
      | .error err => return .error (.wrap "controllers: decode lease" err)
      | .ok record =>
        -- the clock is read only for a record of another holder
        if record.holder = lease.holder then lease.swap json (some cur)
        else
          let now ← Program.perform Op.now
          if record.expiry ≤ now then lease.swap json (some cur) else return .ok false

def Lease.release : Prog (Except Error Unit) := do
  match ← Program.perform (Op.get lease.key) with
  | .error err =>
    if err.is errNotFound then return .ok ()
    else return .error (.wrap "controllers: read lease" err)
  | .ok cur =>
    match json.unmarshal cur with
    | .error err => return .error (.wrap "controllers: decode lease" err)
    | .ok record =>
      if record.holder ≠ lease.holder then return .ok ()
      else
        match json.marshal {} with
        | .error err => return .error err
        | .ok data =>
          match ← Program.perform (Op.cas lease.key (some cur) data) with
          | .error err => return .error (.wrap "controllers: release lease" err)
          | .ok _ => return .ok ()

def Lease.renew : Prog (Except Error Bool) := do
  match ← Program.perform (Op.get lease.key) with
  | .error err => return .error err
  | .ok cur =>
    match json.unmarshal cur with
    | .error err => return .error err
    | .ok record =>
      if record.holder ≠ lease.holder then return .ok false
      else
        let now ← Program.perform Op.now
        if record.expiry ≤ now then return .ok false else lease.swap json (some cur)

end

/-- The processes that contend for one lease, each under its own name. -/
structure Election (Process : Type) where
  key : String
  holder : Process → String
  ttl : Process → Int
  distinct : Function.Injective holder
  named : ∀ process, holder process ≠ ""

inductive LeaseAction where
  | acquire
  | renew
  | release
  deriving DecidableEq, Repr

structure LeaseCall (Process : Type) where
  process : Process
  action : LeaseAction
  deriving DecidableEq

variable {Process : Type}

def Election.lease (e : Election Process) (process : Process) : Lease :=
  ⟨e.key, e.holder process, e.ttl process⟩

@[simp] theorem Election.lease_key (e : Election Process) (process : Process) :
    (e.lease process).key = e.key := rfl

/-- What a process calls; a release that succeeds reports no lease. -/
def Election.body (e : Election Process) (json : Encoding LeaseRecord) :
    LeaseCall Process → Prog (Except Error Bool)
  | ⟨process, .acquire⟩ => (e.lease process).acquire json
  | ⟨process, .renew⟩ => (e.lease process).renew json
  | ⟨process, .release⟩ => return (← (e.lease process).release json).map fun _ => false

/-- The expiry that a swap of an acquire or a renew granted. -/
def grantedBy (json : Encoding LeaseRecord) : LeaseAction → (op : Op) → op.Reply → Option Int
  | .release, _, _ => none
  | _, .cas _ _ data, .ok true => (json.unmarshal data).toOption.map LeaseRecord.expiry
  | _, _, _ => none

/-- A call that reports the lease as its own has made the swap that granted it. -/
def Granted (json : Encoding LeaseRecord) (i : Nat) (call : LeaseCall Process)
    (out : Except Error Bool) (w : StoreWorld (LeaseCall Process)) : Prop :=
  out = .ok true → ∃ event ∈ w.past, event.thread = i ∧ event.call = call ∧
    grantedBy json call.action event.op event.reply ≠ none

/-- The process has sent the swap that gives the lease up, without being told of a conflict. -/
def releasedBy : LeaseAction → (op : Op) → op.Reply → Bool
  | .release, .cas _ _ _, .ok false => false
  | .release, .cas _ _ _, _ => true
  | _, _, _ => false

/-- The expiries of all leases granted to a process since it last released. -/
def grants [DecidableEq Process] (json : Encoding LeaseRecord) (process : Process) :
    List (StoreEvent (LeaseCall Process)) → List Int
  | [] => []
  | ⟨_, call, op, reply⟩ :: past =>
    if call.process = process then
      if releasedBy call.action op reply then []
      else (grantedBy json call.action op reply).toList ++ grants json process past
    else grants json process past

/-- The process was granted a lease that it has not released and that has not expired. -/
def Leads [DecidableEq Process] (json : Encoding LeaseRecord) (w : StoreWorld (LeaseCall Process))
    (process : Process) : Prop :=
  ∃ expiry ∈ grants json process w.past, w.state.clock < expiry

instance [DecidableEq Process] (json : Encoding LeaseRecord) (w : StoreWorld (LeaseCall Process))
    (process : Process) : Decidable (Leads json w process) :=
  inferInstanceAs (Decidable (∃ expiry ∈ grants json process w.past, w.state.clock < expiry))

def Timely (json : Encoding LeaseRecord) (e : Election Process) (shared : Shared) : Prop :=
  ∀ process data expiry, shared.value e.key = some data →
    json.unmarshal data = .ok ⟨e.holder process, expiry⟩ →
    expiry ≤ shared.clock + e.ttl process

section

variable [DecidableEq Process] {json : Encoding LeaseRecord} {e : Election Process}

/-- Every unexpired lease is of the holder in the store, which keeps it at least as long. -/
structure LeaseInvariant (json : Encoding LeaseRecord) (e : Election Process)
    (w : StoreWorld (LeaseCall Process)) : Prop where
  timely : Timely json e w.state
  recorded : ∀ process expiry, expiry ∈ grants json process w.past → w.state.clock < expiry →
    ∃ data later, w.state.value e.key = some data ∧
      json.unmarshal data = .ok ⟨e.holder process, later⟩ ∧ expiry ≤ later

/-- All that the processes rely on: the clock does not go back. -/
def leases (json : Encoding LeaseRecord) (e : Election Process) :
    Protocol machine (LeaseCall Process) where
  invariant := LeaseInvariant json e
  permitted _ _ := True
  rely _ _ s s' := s.state.clock ≤ s'.state.clock
  guarantee s s' := s.state.clock ≤ s'.state.clock
  rely_refl _ _ w := Int.le_refl w.state.clock
  rely_trans _ _ _ _ _ := Int.le_trans

/-- What the process knew of the value it replaces: absent, expired, or its own and no longer
lasting. -/
def Replaceable (json : Encoding LeaseRecord) (e : Election Process) (process : Process)
    (time : Int) : Option Bytes → Prop
  | none => True
  | some data => ∃ record, json.unmarshal data = .ok record ∧
      (record.expiry ≤ time ∨ record.holder = e.holder process ∧
        record.expiry ≤ time + e.ttl process)

variable {process : Process} {record : LeaseRecord} {data : Bytes}

omit [DecidableEq Process] in
theorem Timely.own {shared : Shared} (timely : Timely json e shared)
    (held : shared.value e.key = some data) (dec : json.unmarshal data = .ok record)
    (own : record.holder = e.holder process) :
    record.expiry ≤ shared.clock + e.ttl process := by
  apply timely process data record.expiry held
  rw [dec, ← own]

variable {old : Option Bytes}

omit [DecidableEq Process] in
theorem Replaceable.later {time now : Int} (known : Replaceable json e process time old)
    (ok : time ≤ now) :
    Replaceable json e process now old := by
  cases old with
  | none => trivial
  | some data =>
    obtain ⟨record, dec, expired | ⟨own, short⟩⟩ := known
    · exact ⟨record, dec, .inl (by omega)⟩
    · exact ⟨record, dec, .inr ⟨own, by omega⟩⟩

variable {past : List (StoreEvent (LeaseCall Process))} {expiry : Int}

theorem grants_quiet {event : StoreEvent (LeaseCall Process)}
    (quiet : Quiet event.op event.reply) (held : expiry ∈ grants json process (event :: past)) :
    expiry ∈ grants json process past := by
  obtain ⟨i, call, op, reply⟩ := event
  have nothing : grantedBy json call.action op reply = none := by
    unfold grantedBy
    split
    · rfl
    · exact quiet.elim
    · rfl
  rw [grants] at held
  split at held
  · split at held
    · cases held
    · rw [nothing] at held
      exact held
  · exact held

theorem leases_idle : Idle (leases json e) := by
  intro now event kept quiet _ _
  refine ⟨Int.le_refl now.state.clock, kept.timely, ?_⟩
  intro process expiry held alive
  exact kept.recorded process expiry (grants_quiet quiet held) alive

variable {reply : Except Error Bool}

theorem grantedBy_swap {action : LeaseAction} {key : String}
    (dec : json.unmarshal data = .ok record)
    (got : grantedBy json action (.cas key old data) reply = some expiry) :
    expiry = record.expiry := by
  match action, reply, got with
  | .acquire, .ok true, got | .renew, .ok true, got =>
    simp only [grantedBy, dec, Except.toOption, Option.map_some, Option.some.injEq] at got
    exact got.symm

theorem grants_swap {i : Nat} {call : LeaseCall Process} {key : String}
    (dec : json.unmarshal data = .ok record)
    (held : expiry ∈ grants json process (⟨i, call, .cas key old data, reply⟩ :: past)) :
    (call.process = process ∧ expiry = record.expiry) ∨ expiry ∈ grants json process past := by
  rw [grants] at held
  split at held
  · next own =>
    split at held
    · cases held
    · rcases List.mem_append.mp held with got | pre
      · exact .inl ⟨own, grantedBy_swap dec (Option.mem_toList.mp got)⟩
      · exact .inr pre
  · exact .inr held

theorem grants_release {process other : Process} {i : Nat} {key : String}
    (ok : reply ≠ .ok false) (held : expiry ∈ grants json other
      (⟨i, ⟨process, .release⟩, .cas key old data, reply⟩ :: past)) :
    process ≠ other ∧ expiry ∈ grants json other past := by
  rw [grants] at held
  split at held
  · have gone : releasedBy .release (.cas key old data) reply = true := by
      match reply, ok with
      | .ok false, ok => exact absurd rfl ok
      | .ok true, _ => rfl
      | .error err, _ => rfl
    rw [if_pos gone] at held
    cases held
  · next ne => exact ⟨ne, held⟩

variable {w : StoreWorld (LeaseCall Process)}

theorem LeaseInvariant.no_other {process other : Process} {expiry time : Int}
    (kept : LeaseInvariant json e w) (held : expiry ∈ grants json other w.past)
    (alive : w.state.clock < expiry) (got : w.state.value e.key = old) (ok : time ≤ w.state.clock)
    (known : Replaceable json e process time old) :
    other = process ∧ expiry ≤ time + e.ttl process := by
  obtain ⟨data, later, stored, dec, lasts⟩ := kept.recorded other expiry held alive
  rw [stored] at got
  subst old
  obtain ⟨record, read, expired | ⟨own, short⟩⟩ := known
  · rw [dec] at read
    cases read
    dsimp only at expired
    omega
  · rw [dec] at read
    cases read
    exact ⟨e.distinct own, Int.le_trans lasts short⟩

variable {i : Nat}

omit [DecidableEq Process] in
theorem granted_swap {action : LeaseAction} (takes : action ≠ .release) {key : String}
    {w : StoreWorld (LeaseCall Process)}
    (newest : ⟨i, ⟨process, action⟩, .cas key old data, .ok true⟩ ∈ w.past)
    (dec : json.unmarshal data = .ok record)
    (out : Except Error Bool) : Granted json i ⟨process, action⟩ out w := by
  intro _
  refine ⟨_, newest, rfl, rfl, ?_⟩
  cases action with
  | release => exact absurd rfl takes
  | acquire | renew => simp [grantedBy, dec, Except.toOption]

theorem swap_safe {action : LeaseAction} (takes : action ≠ .release)
    (known : Replaceable json e process w.state.clock old) :
    (leases json e).Safe i ⟨process, action⟩ (Granted json i ⟨process, action⟩)
    ((e.lease process).swap json old) w := by
  unfold Lease.swap
  refine safe_read leases_idle rfl ?_
  intro asked time _ since ran _ _
  have told : time = asked.state.clock := ran.2
  have byThen := known.later since
  rw [← told] at byThen
  split
  · nofun
  · next data enc =>
    have dec := json.roundTrip _ _ enc
    refine safe_cas leases_idle ?_ ?_
    · intro now reply _ _ refused _
      match reply, refused with
      | .error err, _ => nofun
      | .ok false, _ => nofun
      | .ok true, refused => exact absurd rfl refused
    · intro now reply kept rely got took _
      have ok : time ≤ now.state.clock := by
        rw [told]
        exact rely
      refine ⟨Int.le_refl _, ⟨?_, ?_⟩, ?_⟩
      · intro other wrote expiry stored read
        rw [World.next_state, Election.lease_key, write_value_self] at stored
        cases stored
        rw [dec] at read
        simp only [Except.ok.injEq, LeaseRecord.mk.injEq, Election.lease] at read
        rw [World.next_state, write_clock, ← e.distinct read.1, ← read.2]
        exact Int.add_le_add_right ok _
      · intro other expiry held alive
        rw [World.next_state, write_clock] at alive
        refine ⟨data, time + e.ttl process, write_value_self _ _ _, ?_⟩
        rcases grants_swap dec held with ⟨own, fresh⟩ | pre
        · subst own
          exact ⟨dec, by rw [fresh]; exact Int.le_refl _⟩
        · obtain ⟨eq, within⟩ := kept.no_other pre alive got ok byThen
          subst eq
          exact ⟨dec, within⟩
      · match reply, took with
        | .error err, _ => nofun
        | .ok false, took => exact absurd rfl took
        | .ok true, _ => exact granted_swap takes (.head _) dec _

theorem acquire_safe (process : Process) :
    (leases json e).Safe i ⟨process, .acquire⟩ (Granted json i ⟨process, .acquire⟩)
      ((e.lease process).acquire json) w := by
  unfold Lease.acquire
  split
  · nofun
  · refine safe_read leases_idle rfl ?_
    intro read reply kept _ ran _ _
    cases reply with
    | error err =>
      dsimp only
      split
      · exact swap_safe nofun trivial
      · nofun
    | ok cur =>
      dsimp only
      split
      · nofun
      · next record dec =>
        split
        · next own =>
          have short := kept.timely.own ran.2 dec own
          exact swap_safe nofun ⟨record, dec, .inr ⟨own, short⟩⟩
        · refine safe_read leases_idle rfl ?_
          intro asked time _ _ told _ _
          split
          · next expired =>
            exact swap_safe nofun ⟨record, dec, .inl (Int.le_trans expired (Int.le_of_eq told.2))⟩
          · nofun

theorem renew_safe (process : Process) :
    (leases json e).Safe i ⟨process, .renew⟩ (Granted json i ⟨process, .renew⟩)
      ((e.lease process).renew json) w := by
  unfold Lease.renew
  refine safe_read leases_idle rfl ?_
  intro read reply kept _ ran _ _
  cases reply with
  | error err => nofun
  | ok cur =>
    dsimp only
    split
    · nofun
    · next record dec =>
      split
      · nofun
      · next own =>
        rw [ne_eq, Decidable.not_not] at own
        have short := kept.timely.own ran.2 dec own
        refine safe_read leases_idle rfl ?_
        intro asked time _ since _ _ _
        split
        · nofun
        · have known : Replaceable json e process read.state.clock (some cur) :=
            ⟨record, dec, .inr ⟨own, short⟩⟩
          exact swap_safe nofun (known.later since)

theorem release_safe (process : Process) :
    (leases json e).Safe i ⟨process, .release⟩ (fun _ _ => True)
      ((e.lease process).release json) w := by
  unfold Lease.release
  refine safe_read leases_idle rfl ?_
  intro read reply _ _ _ _ _
  cases reply with
  | error err =>
    dsimp only
    split <;> trivial
  | ok cur =>
    dsimp only
    split
    · trivial
    · next record dec =>
      split
      · trivial
      · next own =>
        rw [ne_eq, Decidable.not_not] at own
        split
        · trivial
        · next data enc =>
          have blank := json.roundTrip _ _ enc
          refine safe_cas leases_idle ?_ ?_
          · intro now reply _ _ _ _
            cases reply <;> trivial
          · intro now reply kept _ got took _
            refine ⟨Int.le_refl _, ⟨?_, ?_⟩, by cases reply <;> trivial⟩
            · -- the record written names no process
              intro other wrote expiry stored reread
              rw [World.next_state, Election.lease_key, write_value_self] at stored
              cases stored
              rw [blank] at reread
              simp only [Except.ok.injEq, LeaseRecord.mk.injEq] at reread
              exact absurd reread.1.symm (e.named other)
            · -- the record replaced was its own, so no other process has a lease
              intro other expiry held alive
              obtain ⟨ne, pre⟩ := grants_release took held
              obtain ⟨current', later, stored, named, -⟩ := kept.recorded other expiry pre alive
              have eq : some current' = some cur := stored.symm.trans got
              cases eq
              rw [dec] at named
              cases named
              exact absurd (e.distinct own).symm ne

theorem leases_delivers :
    (leases json e).Delivers (Granted json) (e.body json) fun _ _ => True where
  safe i call w _ := by
    obtain ⟨process, action⟩ := call
    cases action with
    | acquire => exact acquire_safe process
    | renew => exact renew_safe process
    | release =>
      apply Protocol.Safe.bind
      apply (release_safe process).mono
      intro out later _
      cases out <;> nofun
  permitted _ _ _ := trivial
  drift s state kept moved _ := by
    have eq (key : String) : state.value key = s.state.value key := by
      rw [Shared.value, moved.1, Shared.value]
    have ok : s.state.clock ≤ state.clock := moved.2
    refine ⟨⟨?_, ?_⟩, ok⟩
    · intro process data expiry stored dec
      rw [eq] at stored
      have short := kept.timely process data expiry stored dec
      dsimp only
      omega
    · intro process expiry held alive
      dsimp only at alive
      rw [eq]
      exact kept.recorded process expiry held (by omega)
  interference _ _ _ _ _ _ _ _ guaranteed _ _ _ := guaranteed
  lasts := by
    intro s s' i call out _ grown granted reported
    obtain ⟨event, mem, own⟩ := granted reported
    rcases grown with eq | ⟨other, -, longer⟩
    · exact ⟨event, eq ▸ mem, own⟩
    · exact ⟨event, longer ▸ List.mem_cons_of_mem _ mem, own⟩

/-- At most one process at a time has an unexpired lease that it was granted and has not released;
a call that reports the lease as its own was granted it. -/
theorem leads_unique (json : Encoding LeaseRecord) (e : Election Process) {start : Shared}
    (timely : Timely json e start)
    {config : Configuration Op Op.Reply Shared (LeaseCall Process) (Except Error Bool)}
    (reached : Reachable machine (e.body json) (fun _ _ => True) start config) :
    (∀ first second, Leads json config.toWorld first → Leads json config.toWorld second →
      first = second) ∧
      ∀ i call, config.thread i = some ⟨call, .ret (.ok true)⟩ →
        ∃ event ∈ config.past, event.thread = i ∧ event.call = call ∧
          grantedBy json call.action event.op event.reply ≠ none := by
  have initially : LeaseInvariant json e ⟨start, []⟩ := ⟨timely, nofun⟩
  have kept := (leases_delivers.holds initially reached).1
  refine ⟨?_, fun i call returned => leases_delivers.result initially reached returned rfl⟩
  rintro first second ⟨expiry, held, alive⟩ ⟨other, also, lasting⟩
  obtain ⟨data, _, stored, dec, -⟩ := kept.recorded first expiry held alive
  obtain ⟨data', _, stored', decoded', -⟩ := kept.recorded second other also lasting
  have same : some data = some data' := stored.symm.trans stored'
  cases same
  rw [dec] at decoded'
  simp only [Except.ok.injEq, LeaseRecord.mk.injEq] at decoded'
  exact e.distinct decoded'.1

end

def sampleElection : Election Bool where
  key := "leases/controller-manager"
  holder process := if process then "host-a" else "host-b"
  ttl _ := 15 * 10 ^ 9
  distinct first second same := by
    cases first <;> cases second <;> first | rfl | exact absurd same (by decide)
  named := by decide

def firstLease : Bytes :=
  bytesOf "\x7b\"holder\":\"host-a\",\"expiry\":\"1970-01-01T00:00:15Z\"\x7d"

def secondLease : Bytes :=
  bytesOf "\x7b\"holder\":\"host-b\",\"expiry\":\"1970-01-01T00:00:35Z\"\x7d"

def sampleEncoding : Encoding LeaseRecord :=
  .ofTable [(⟨"host-a", 15 * 10 ^ 9⟩, firstLease),
    (⟨"host-b", 35 * 10 ^ 9⟩, secondLease)] (by decide +kernel)

/-- `host-a` takes the lease, and the clock goes on for twenty seconds. -/
def sampleTakeover : List (Move Shared (LeaseCall Bool)) :=
  [.start 0 ⟨true, .acquire⟩, .act 0, .act 0, .act 0,
    .drift fun s => { s with clock := s.clock + 20 * 10 ^ 9 }, .start 1 ⟨false, .acquire⟩, .act 1,
    .act 1, .act 1, .act 1]

/-- The call of a thread that has been told that the lease is its own. -/
def winner (thread : Thread Op Op.Reply (LeaseCall Bool) (Except Error Bool)) :
    Option (LeaseCall Bool) :=
  match thread.rest with
  | .ret (.ok true) => some thread.call
  | _ => none

theorem winner_eq {thread : Thread Op Op.Reply (LeaseCall Bool) (Except Error Bool)}
    {call : LeaseCall Bool}
    (won : winner thread = some call) : thread = ⟨call, .ret (.ok true)⟩ := by
  obtain ⟨made, rest⟩ := thread
  match rest, won with
  | .ret (.ok true), rfl => rfl

/-- `host-b` takes the lease that `host-a` let expire, is told so, and then only it leads. -/
theorem leads_unique_takeover :
    ∃ config : Configuration Op Op.Reply Shared (LeaseCall Bool) (Except Error Bool),
      Leads sampleEncoding config.toWorld false ∧
      (∀ process, Leads sampleEncoding config.toWorld process → process = false) ∧
      ∃ event ∈ config.past, event.thread = 1 ∧ event.call = ⟨false, .acquire⟩ ∧
        grantedBy sampleEncoding .acquire event.op event.reply ≠ none := by
  have timely : Timely sampleEncoding sampleElection ⟨∅, 0⟩ := nofun
  have legal : ∀ move ∈ sampleTakeover, move.Legal machine := by
    have later (s : Shared) : machine.drift s { s with clock := s.clock + 20 * 10 ^ 9 } :=
      ⟨rfl, by dsimp only; omega⟩
    simpa [sampleTakeover, Move.Legal] using later
  obtain ⟨config, reached, played⟩ : ∃ config,
      Reachable machine (sampleElection.body sampleEncoding) (fun _ _ => True) ⟨∅, 0⟩ config ∧
        decide (Leads sampleEncoding config.toWorld false ∧
          (config.thread 1).bind winner = some ⟨false, .acquire⟩) = true :=
    play_freely answer_exec legal (by decide +kernel)
  obtain ⟨leads, won⟩ := of_decide_eq_true played
  obtain ⟨thread, running, told⟩ := Option.bind_eq_some_iff.mp won
  rw [winner_eq told] at running
  have unique := leads_unique _ _ timely reached
  exact ⟨config, leads, fun process also => unique.1 _ _ also leads, unique.2 1 _ running⟩

end Infrastructure.Controllers
