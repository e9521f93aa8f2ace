import Infrastructure.Cluster.Formats

/-! Any number of writers that create computes for functions: no two of them get the same host
port. -/

namespace Infrastructure.FunctionPool

open Concurrency State Domain List Registry

inductive PoolCall where
  | create (fn : Function) (now : Int)
  | retire (uid : String) (now : Int)
  | remove (uid : String)

variable (computes : Computes)

/-- What a writer does; a `create` returns the compute and its port. -/
def PoolCall.body : PoolCall → Prog (Except Error (Option (Compute × Nat)))
  | .create fn now => return (← createCompute computes fn now).map some
  | .retire uid now => return (← retireCompute computes uid now).map fun _ => none
  | .remove uid => return (← computes.delete uid).map fun _ => none

def OfFunction (cp : Compute) : Prop := label ∈ cp.metadata.labels.map Prod.fst

def hostPorts (cp : Compute) : List Int := cp.spec.ports.filterMap hostPort

def Holds (shared : Shared) (uid : String) (port : Int) : Prop :=
  ∃ cp, computes.stored shared uid = some cp ∧ OfFunction cp ∧ port ∈ hostPorts cp

/-- Every function compute is stored under the name of its one host port. -/
def BySlot (shared : Shared) : Prop :=
  ∀ uid cp, computes.stored shared uid = some cp → OfFunction cp →
    ∃ port : Nat, uid = slotUID port ∧ hostPorts cp = [(port : Int)]

/-- A host port stays with its compute until the record is removed. -/
def Lasts (s s' : Shared) : Prop :=
  ∀ uid port, Holds computes s uid port →
    s'.value (computes.key uid) = none ∨ Holds computes s' uid port

/-- The operation that hands a port to a `create`: the record of the port is new. -/
def Grants (event : StoreEvent PoolCall) (port : Nat) : Prop :=
  (∃ fn now, event.call = .create fn now) ∧
    match event.op, event.reply with
    | .cas key _ _, .ok true => key = computes.key (slotUID port)
    | _, _ => False

theorem slotUID_inj {first snd : Nat} (eq : slotUID first = slotUID snd) : first = snd := by
  have digits : Nat.toDigits 10 first = Nat.toDigits 10 snd := by
    have texts := congrArg String.toList eq
    rw [slotUID_toList, slotUID_toList] at texts
    exact append_cancel_left texts
  have val := congrArg (fun digits => Nat.ofDigitChars 10 digits 0) digits
  simpa [Nat.ofDigitChars_toDigits] using val

theorem hostPort_slot {port : Nat} (small : port < 2 ^ 63) (rest : String) :
    hostPort (toString port ++ ":" ++ rest ++ "/tcp") = some (port : Int) := by
  have digits (digit : Char) (mem : digit ∈ Nat.toDigits 10 port) : digit ≠ ':' := by
    rintro rfl
    exact absurd (Nat.isDigit_of_mem_toDigits (by omega) (by omega) mem) (by decide)
  have text : (toString port ++ ":" ++ rest ++ "/tcp").toList =
      Nat.toDigits 10 port ++ ':' :: (rest.toList ++ "/tcp".toList) := by
    simp
  have host : (Nat.toDigits 10 port ++ ':' :: (rest.toList ++ "/tcp".toList)).takeWhile (· ≠ ':') =
      Nat.toDigits 10 port := by
    rw [takeWhile_append_of_pos (by simpa using digits)]
    simp
  rw [hostPort, text, host, if_pos (by simp)]
  exact Text.atoi_toDigits small

section

variable {computes} {s : Shared} {uid : String} {data : Bytes} {found : Compute}

theorem holds_congr {s' : Shared} (eq : ∀ uid, computes.stored s' uid = computes.stored s uid)
    {port : Int} : Holds computes s' uid port ↔ Holds computes s uid port := by
  rw [Holds, Holds, eq]

theorem BySlot.write (slots : BySlot computes s)
    (wrote : computes.stored (s.write (computes.key uid) data) uid = some found)
    (slotted : OfFunction found → ∃ port : Nat, uid = slotUID port ∧
      hostPorts found = [(port : Int)]) :
    BySlot computes (s.write (computes.key uid) data) := by
  intro other cp has owned
  by_cases eq : other = uid
  · rw [eq, wrote] at has
    cases has
    rw [eq]
    exact slotted owned
  · rw [stored_write_of_ne fun keys => eq (computes.key_inj keys)] at has
    exact slots other cp has owned

theorem Lasts.write (kept : ∀ port, Holds computes s uid port →
      Holds computes (s.write (computes.key uid) data) uid port) :
    Lasts computes s (s.write (computes.key uid) data) := by
  intro other port holds
  right
  by_cases eq : other = uid
  · rw [eq] at holds ⊢
    exact kept port holds
  · rw [Holds, stored_write_of_ne fun keys => eq (computes.key_inj keys)]
    exact holds

theorem BySlot.erase (slots : BySlot computes s) :
    BySlot computes (s.erase (computes.key uid)) := by
  intro other cp has owned
  by_cases eq : other = uid
  · rw [eq, stored_erase_self] at has
    cases has
  · rw [stored_erase_of_ne fun keys => eq (computes.key_inj keys)] at has
    exact slots other cp has owned

theorem lasts_erase : Lasts computes s (s.erase (computes.key uid)) := by
  intro other port holds
  by_cases eq : other = uid
  · rw [eq]
    exact .inl (erase_value_self _ _)
  · right
    rw [Holds, stored_erase_of_ne fun keys => eq (computes.key_inj keys)]
    exact holds

theorem BySlot.unique (slots : BySlot computes s) {first snd : String} {port : Int}
    (left : Holds computes s first port) (right : Holds computes s snd port) : first = snd := by
  obtain ⟨one, held, owned, mem⟩ := left
  obtain ⟨two, storedToo, ownedToo, memberToo⟩ := right
  obtain ⟨n, rfl, ports⟩ := slots first one held owned
  obtain ⟨other, rfl, portsToo⟩ := slots snd two storedToo ownedToo
  rw [ports, mem_singleton] at mem
  rw [portsToo, mem_singleton] at memberToo
  have eq : n = other := by omega
  rw [eq]

end

section

def ports : Protocol machine PoolCall where
  invariant w := BySlot computes w.state
  permitted _ _ := True
  rely _ _ _ _ := True
  guarantee s s' := Lasts computes s.state s'.state ∧
    ∀ event port, s'.past = event :: s.past → Grants computes event port →
      (∀ uid, ¬Holds computes s.state uid port) ∧ Holds computes s'.state (slotUID port) port
  rely_refl _ _ _ := trivial
  rely_trans _ _ _ _ _ _ _ := trivial

def Handed (i : Nat) (result : Except Error (Option (Compute × Nat)))
    (w : StoreWorld PoolCall) : Prop :=
  ∀ cp port, result = .ok (some (cp, port)) →
    ∃ event ∈ w.past, event.thread = i ∧ Grants computes event port

variable {computes} {i : Nat} {call : PoolCall} {w : StoreWorld PoolCall}

theorem not_grants_of_quiet {event : StoreEvent PoolCall} (quiet : Quiet event.op event.reply)
    (port : Nat) :
    ¬Grants computes event port := by
  obtain ⟨t, call, op, reply⟩ := event
  rintro ⟨-, got⟩
  cases op with
  | cas key old new =>
    match reply, got, quiet with
    | .ok true, _, quiet => exact quiet
  | _ => exact got

theorem not_grants_of_call {event : StoreEvent PoolCall}
    (other : ∀ fn now, event.call ≠ .create fn now) (port : Nat) : ¬Grants computes event port := by
  rintro ⟨⟨fn, now, eq⟩, -⟩
  exact other fn now eq

theorem ports_idle : Idle (ports computes) := by
  intro now event slots quiet _ _
  refine ⟨⟨fun uid port holds => .inr holds, ?_⟩, slots⟩
  rintro _ port ⟨⟩ got
  exact absurd got (not_grants_of_quiet quiet port)

theorem claim_commits (i : Nat) (fn : Function) (now : Int) {owner : Function} {time : Int}
    {port : Nat} {data : Bytes} (small : port < 2 ^ 63) (slots : BySlot computes w.state)
    (gone : w.state.value (computes.key (slotUID port)) = none)
    (enc : computes.codec.marshal ((slot owner port time).stamp computes.kind) = .ok data)
    (reply : Except Error Bool) : (ports computes).guarantee w
      (swapped w i (.create fn now) (computes.key (slotUID port)) none data reply) ∧
    BySlot computes (w.state.write (computes.key (slotUID port)) data) := by
  have wrote : computes.stored (w.state.write (computes.key (slotUID port)) data) (slotUID port) =
      some (((slot owner port time).stamp computes.kind).withVersion (revision data)) :=
    stored_write_self enc
  have held : hostPorts (((slot owner port time).stamp computes.kind).withVersion (revision data)) =
      [(port : Int)] := by
    show [_].filterMap hostPort = _
    rw [filterMap_cons, hostPort_slot small]
    rfl
  have owned :
      OfFunction (((slot owner port time).stamp computes.kind).withVersion (revision data)) :=
    mem_singleton.mpr rfl
  have vacant : computes.stored w.state (slotUID port) = none := by
    rw [Registry.stored, gone, Option.bind_none]
  refine ⟨⟨?_, ?_⟩, ?_⟩
  · apply Lasts.write
    rintro other ⟨cp, has, -⟩
    rw [vacant] at has
    cases has
  · rintro _ other ⟨⟩ ⟨-, got⟩
    have eq : port = other := by
      rcases reply with err | swapped
      · cases got
      · cases swapped with
        | false => cases got
        | true => exact slotUID_inj (computes.key_inj got)
    subst eq
    constructor
    · rintro uid ⟨cp, has, ofFunction, mem⟩
      obtain ⟨n, rfl, single⟩ := slots uid cp has ofFunction
      rw [single, mem_singleton] at mem
      have number_eq : port = n := by omega
      rw [← number_eq, vacant] at has
      cases has
    · exact ⟨_, wrote, owned, held ▸ mem_singleton.mpr rfl⟩
  · exact slots.write wrote fun _ => ⟨port, rfl, held⟩

theorem handed_error (i : Nat) (err : Error) (w : StoreWorld PoolCall) :
    Handed computes i (.error err) w := by
  intro cp port wrong
  cases wrong

theorem claimPort_safe {fn owner : Function} {now time : Int} {used : List Int}
    {candidates : List Nat} (small : ∀ port ∈ candidates, port < 2 ^ 63)
    (slots : BySlot computes w.state) :
    (ports computes).Safe i (.create fn now)
    (fun out later => Handed computes i (out.map some) later)
      (claimPort computes owner time used candidates) w := by
  induction candidates generalizing w with
  | nil => exact handed_error i _ w
  | cons port candidates ih =>
    have ih {later : StoreWorld PoolCall} := @ih later fun other mem => small other (.tail _ mem)
    rw [claimPort]
    split
    · exact ih slots
    · refine safe_put ports_idle slots ?_ ?_
      · intro err later kept
        dsimp only
        split
        · exact ih kept
        · exact handed_error i _ later
      · intro old data later reply enc kept found fit _ _
        have gone : old = none := by
          have bare : (slot owner port time).metadata.resourceVersion = "" := rfl
          rw [Matches, if_pos bare] at fit
          exact fit
        subst gone
        have commits := claim_commits i fn now (small port (.head _)) kept found enc reply
        refine ⟨commits.1, commits.2, ?_⟩
        rintro rfl cp other ⟨⟩
        exact ⟨_, .head _, rfl, ⟨_, _, rfl⟩, rfl⟩

theorem createCompute_safe {fn : Function} {now : Int} (slots : BySlot computes w.state) :
    (ports computes).Safe i (.create fn now) (Handed computes i)
    (PoolCall.body computes (.create fn now)) w := by
  apply Protocol.Safe.bind
  show (ports computes).Safe i (.create fn now)
    (fun out later => Handed computes i (out.map some) later) (createCompute computes fn now) w
  rw [createCompute]
  dsimp only
  split
  · exact handed_error i _ w
  · apply Protocol.Safe.bind
    apply safe_reading ports_idle list_reading slots
    intro reply later _ kept
    cases reply with
    | error err => exact handed_error i _ later
    | ok existing =>
      refine claimPort_safe ?_ kept
      intro port mem
      have bounds := mem_range'_1.mp mem
      simp only [functionPortRangeLo, functionPortRangeHi] at bounds
      omega

theorem update_commits {old data : Bytes} {uid : String} {res new : Compute}
    (slots : BySlot computes w.state) (found : w.state.value (computes.key uid) = some old)
    (dec : computes.codec.unmarshal old = .ok res)
    (enc : computes.codec.marshal (new.stamp computes.kind) = .ok data)
    (labels : new.metadata.labels = res.metadata.labels) (eq : new.spec.ports = res.spec.ports) :
    Lasts computes w.state (w.state.write (computes.key uid) data) ∧
      BySlot computes (w.state.write (computes.key uid) data) := by
  have has : computes.stored w.state uid = some (res.withVersion (revision old)) :=
    stored_of_entry found dec
  have wrote : computes.stored (w.state.write (computes.key uid) data) uid =
      some ((new.stamp computes.kind).withVersion (revision data)) :=
    stored_of_entry (write_value_self _ _ _) (computes.codec.roundTrip _ data enc)
  have owned : OfFunction ((new.stamp computes.kind).withVersion (revision data)) ↔
      OfFunction (res.withVersion (revision old)) := by
    show label ∈ new.metadata.labels.map Prod.fst ↔ label ∈ res.metadata.labels.map Prod.fst
    rw [labels]
  have held : hostPorts ((new.stamp computes.kind).withVersion (revision data)) =
      hostPorts (res.withVersion (revision old)) := congrArg (List.filterMap hostPort) eq
  constructor
  · apply Lasts.write
    rintro port ⟨cp, stored, ofFunction, mem⟩
    rw [has] at stored
    cases stored
    exact ⟨_, wrote, owned.mpr ofFunction, held ▸ mem⟩
  · apply slots.write wrote
    intro ofFunction
    rw [held]
    exact slots uid _ has (owned.mp ofFunction)

theorem retireAttempts_safe {uid : String} {now time : Int} {name : String} (attempts : Nat)
    (slots : BySlot computes w.state) :
    (ports computes).Safe i (.retire name now) (fun _ later => BySlot computes later.state)
      (retireAttempts computes uid time attempts) w := by
  induction attempts generalizing w with
  | zero => exact slots
  | succ attempts ih =>
    rw [retireAttempts]
    have marks (res : Compute) : (return .ok { res with metadata :=
          { res.metadata with deletionTimestamp := some time }.addFinalizer computeFinalizer } :
        Prog (Except Error Compute)).Uses (fun op => op.reads = true) fun out =>
          ∀ new, out = .ok new →
          new.metadata.labels = res.metadata.labels ∧ new.spec.ports = res.spec.ports := by
      rintro new ⟨⟩
      refine ⟨?_, rfl⟩
      dsimp only
      rw [ObjectMeta.addFinalizer]
      split <;> rfl
    refine safe_tryUpdate ports_idle marks ?_ ?_ ?_
    · intro err later kept
      dsimp only
      split <;> exact kept
    · intro later kept
      exact ih kept
    · intro old res new data later reply dec changes enc kept found _ _
      have commits := update_commits kept found dec enc changes.1 changes.2
      refine ⟨⟨commits.1, ?_⟩, commits.2, ?_⟩
      · rintro _ port ⟨⟩ got
        exact absurd got (not_grants_of_call (fun _ _ eq => PoolCall.noConfusion eq) port)
      · intro _
        exact commits.2

theorem handed_none {α : Type} (i : Nat) (out : Except Error α) (w : StoreWorld PoolCall) :
    Handed computes i (out.map fun _ => none) w := by
  intro cp port returned
  cases out <;> cases returned

theorem ports_delivers : (ports computes).Delivers (fun i _ => Handed computes i)
    (PoolCall.body computes) (fun _ _ => True) where
  safe := by
    intro i call w slots
    cases call with
    | create fn now => exact createCompute_safe slots
    | retire uid now =>
      apply Protocol.Safe.bind
      apply (retireAttempts_safe 16 slots).mono
      intro out later _
      exact handed_none i out later
    | remove uid =>
      refine safe_remove ports_idle ?_ ?_
      · intro out later _
        exact handed_none i out later
      · intro now reply kept _ _
        refine ⟨⟨lasts_erase, ?_⟩, kept.erase⟩
        rintro _ port ⟨⟩ got
        exact absurd got (not_grants_of_call (fun _ _ eq => PoolCall.noConfusion eq) port)
  permitted _ _ _ := trivial
  drift := by
    intro s state slots moved _
    have eq : ∀ uid, computes.stored state uid = computes.stored s.state uid := stored_drift moved
    refine ⟨?_, ?_, ?_⟩
    · intro uid cp has
      rw [eq] at has
      exact slots uid cp has
    · intro uid port holds
      exact .inr ((holds_congr eq).mpr holds)
    · intro event port grown
      exact absurd grown.symm (cons_ne_self event s.past)
  interference _ _ _ _ _ _ _ _ _ _ _ _ := trivial
  lasts := by
    intro s s' i call out _ grown handed cp port returned
    obtain ⟨event, mem, own, got⟩ := handed cp port returned
    rcases grown with eq | ⟨other, -, longer⟩
    · exact ⟨event, eq ▸ mem, own, got⟩
    · exact ⟨event, longer ▸ mem_cons_of_mem _ mem, own, got⟩

end

/-- Whatever the writers do, no two function computes in the store have the same host port, a
compute keeps its port, and a port is handed out only when no function compute has it. -/
theorem function_ports_exclusive {start : Shared} (initially : BySlot computes start)
    {config : Configuration Op Op.Reply Shared PoolCall (Except Error (Option (Compute × Nat)))}
    (reached : Reachable machine (PoolCall.body computes) (fun _ _ => True) start config) :
    (∀ first second port, Holds computes config.state first port →
      Holds computes config.state second port → first = second) ∧
    (∀ next, Step machine (PoolCall.body computes) config next →
      Lasts computes config.state next.state ∧
      ∀ event port, next.past = event :: config.past → Grants computes event port →
        (∀ uid, ¬Holds computes config.state uid port) ∧
          Holds computes next.state (slotUID port) port) ∧
    ∀ i call cp port, config.thread i = some ⟨call, .ret (.ok (some (cp, port)))⟩ →
      ∃ event ∈ config.past, event.thread = i ∧ Grants computes event port := by
  have holds := ports_delivers.holds initially reached
  refine ⟨fun first second port => BySlot.unique holds.1, ?_, ?_⟩
  · intro next moved
    rcases (ports_delivers.step holds moved trivial).2 with same | guaranteed
    · rw [same]
      refine ⟨fun uid port held => .inr held, ?_⟩
      intro event port grown
      exact absurd grown.symm (cons_ne_self event config.past)
    · exact guaranteed
  · intro i call cp port returned
    exact ports_delivers.result initially reached returned cp port rfl

def sampleFunction : Function where
  metadata := { uid := "fn-1" }
  spec := { name := "hello", subnetId := "subnet-1", image := "base", port := 8080 }
  status := {}

def race : List (Move Shared PoolCall) :=
  [.start 0 (.create sampleFunction 0), .start 1 (.create sampleFunction 0), .act 0, .act 1,
    .act 0, .act 1, .act 1]

def returnedPort (thread : Thread Op Op.Reply PoolCall (Except Error (Option (Compute × Nat)))) :
    Option Nat :=
  match thread.rest with
  | .ret (.ok (some (_, port))) => some port
  | _ => none

theorem returnedPort_eq {t : Thread Op Op.Reply PoolCall (Except Error (Option (Compute × Nat)))}
    {port : Nat} (out : returnedPort t = some port) :
    ∃ cp, t = ⟨t.call, .ret (.ok (some (cp, port)))⟩ := by
  obtain ⟨call, rest⟩ := t
  match rest, out with
  | .ret (.ok (some (cp, _))), rfl => exact ⟨cp, rfl⟩

theorem function_ports_exclusive_race : BySlot Cluster.sampleCluster.computes ⟨∅, 0⟩ ∧
    ∃ config : Configuration Op Op.Reply Shared PoolCall (Except Error (Option (Compute × Nat))),
      Reachable machine (PoolCall.body Cluster.sampleCluster.computes) (fun _ _ => True) ⟨∅,
        0⟩ config ∧
      (∃ event ∈ config.past, event.thread = 0 ∧
        Grants Cluster.sampleCluster.computes event 30000) ∧
      ∃ event ∈ config.past, event.thread = 1 ∧
        Grants Cluster.sampleCluster.computes event 30001 := by
  have initially : BySlot Cluster.sampleCluster.computes ⟨∅, 0⟩ := by
    intro uid cp present
    cases present
  have played : ∃ config :
      Configuration Op Op.Reply Shared PoolCall (Except Error (Option (Compute × Nat))),
      Reachable machine (PoolCall.body Cluster.sampleCluster.computes) (fun _ _ => True) ⟨∅,
        0⟩ config ∧
        decide ((config.thread 0).bind returnedPort = some 30000 ∧
          (config.thread 1).bind returnedPort = some 30001) = true :=
    play_freely answer_exec (show ∀ move ∈ race, move.Legal machine by simp [race, Move.Legal])
      (by decide +kernel)
  obtain ⟨config, reached, returned⟩ := played
  have handed {i port : Nat} (got : (config.thread i).bind returnedPort = some port) :
      ∃ event ∈ config.past, event.thread = i ∧
        Grants Cluster.sampleCluster.computes event port := by
    obtain ⟨thread, running, ended⟩ := Option.bind_eq_some_iff.mp got
    obtain ⟨cp, shape⟩ := returnedPort_eq ended
    rw [shape] at running
    exact (function_ports_exclusive Cluster.sampleCluster.computes initially reached).2.2
      i _ cp port running
  obtain ⟨first, second⟩ := of_decide_eq_true returned
  exact ⟨initially, config, reached, handed first, handed second⟩

end Infrastructure.FunctionPool
