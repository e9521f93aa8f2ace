import Infrastructure.Cluster.Formats
import Infrastructure.Concurrency.Recording

/-! Where the workload of a compute is: the agents bring it up only on the node that the record
names when they read it, and a record that moves on leaves the workload behind. -/

namespace Infrastructure

open Concurrency State Domain Controllers Manager List Registry

def starts (node uid : String) (deed : Deed) : Bool :=
  deed.command.take 3 == ["EnsureCompute", node, uid]

def stopped (node uid : String) (deed : Deed) : Bool :=
  deed.command.take 3 == ["DeleteCompute", node, uid] && deed.reply.isOk

/-- The compute may be present on the node: a command that failed may have left it there. -/
def present (node uid : String) : List Deed → Bool
  | [] => false
  | deed :: deeds => starts node uid deed || (!stopped node uid deed && present node uid deeds)

theorem present_cons {node uid : String} {deed : Deed} {deeds : List Deed}
    (hosted : present node uid (deed :: deeds) = true) :
    starts node uid deed = true ∨ present node uid deeds = true := by
  simp only [present, Bool.or_eq_true, Bool.and_eq_true] at hosted
  rcases hosted with started | ⟨-, pre⟩
  · exact .inl started
  · exact .inr pre

namespace Cluster

/-- The workload of a live compute is present on no node other than the one it is placed on. -/
def Realized (cluster : Cluster) (now : Logged) : Prop :=
  ∀ node uid cp, cluster.computes.stored now.shared uid = some cp → cp.metadata.isDeleting = false →
    present node uid now.deeds = true → cp.status.nodeName = node

inductive ComputeCall where
  | schedule
  | agent (node : NodeName)
  | nodes (change : NodeChange)

def ComputeCall.body (cluster : Cluster) : ComputeCall → Prog (Except Error Unit)
  | .schedule => cluster.reconcileComputes
  | .agent node => (cluster.computeReconciler node).agent.reconcileAll
  | .nodes change => cluster.changeNode change

variable (cluster : Cluster)

theorem computes_clear : ClearOfAddresses cluster.computes :=
  clearOfAddresses (show '/' ∉ kindCompute.toList by decide) (show kindCompute ≠ "ipam" by decide)

/-- An agent starts a compute only on its own node, and only one that is placed there. -/
theorem starts_of_acts {node : NodeName} {cp : Compute} {cmd : List String} {store : Shared}
    {reply : Except Error String} (own : (cluster.computeReconciler node).Acts cp cmd)
    {other uid : String} (started : starts other uid ⟨store, cmd, reply⟩ = true) :
    uid = cp.metadata.uid ∧ cp.status.nodeName = other ∧ other = node := by
  cases own with
  | ensure mine live rest =>
    simp only [starts, take_succ_cons, take_zero, beq_iff_eq, List.cons.injEq, and_true,
      true_and] at started
    exact ⟨started.2.symm, (cluster.mine_of_named mine live).trans started.1, started.1.symm⟩
  | delete rest => simp [starts] at started

section

def PlacedOn (uid node : String) (now : Logged) : Prop :=
  ∃ cp, cluster.computes.stored now.shared uid = some cp ∧ cp.status.nodeName = node

def Moved (uid node : String) (log : List (Logged × Logged)) : Prop :=
  ∃ step ∈ log, cluster.PlacedOn uid node step.1 ∧ ¬cluster.PlacedOn uid node step.2

/-- The compute is placed on the node, or was and has been moved. -/
def Settled (uid node : String) (state : Recorded Logged) : Prop :=
  cluster.PlacedOn uid node state.now ∨ cluster.Moved uid node state.log

structure Watched (state : Recorded Logged) : Prop where
  filed : cluster.computes.Filed state.now.shared
  settled : ∀ node uid, present node uid state.now.deeds = true → cluster.Settled uid node state

/-- Operations that write a compute only under its own uid. -/
def Orderly : Op → Prop
  | .cas key _ data => ∀ uid, key = cluster.computes.key uid → ∃ cp : Compute,
      cp.metadata.uid = uid ∧ cluster.computes.codec.marshal (cp.stamp cluster.computes.kind) =
        .ok data
  | .put _ _ => False
  | _ => True

def Quiet (op : Op) : Prop :=
  cluster.Orderly op ∧
    ∀ cmd, op = .host cmd → ∀ store reply node uid, starts node uid ⟨store, cmd, reply⟩ = false

variable {cluster} {uid node : String} {s s' : Recorded Logged} {op : Op} {reply : op.Reply}

theorem Settled.step (done : cluster.Settled uid node s)
    (ran : logged.recorded.exec s op reply s') : cluster.Settled uid node s' := by
  rcases done with put | ⟨step, mem, left⟩
  · by_cases still : cluster.PlacedOn uid node s'.now
    · exact .inl still
    · refine .inr ⟨(s.now, s'.now), ?_, put, still⟩
      rw [ran.2]
      exact .head _
  · refine .inr ⟨step, ?_, left⟩
    rw [ran.2]
    exact .tail _ mem

theorem Settled.drift (done : cluster.Settled uid node s) (moved : logged.recorded.drift s s') :
    cluster.Settled uid node s' := by
  rcases done with ⟨cp, got, put⟩ | ⟨step, mem, left⟩
  · exact .inl ⟨cp, (stored_drift moved.1.1 uid).trans got, put⟩
  · exact .inr ⟨step, moved.2 ▸ mem, left⟩

theorem filed_step (ok : cluster.Orderly op) (filed : cluster.computes.Filed s.now.shared)
    (ran : logged.recorded.exec s op reply s') : cluster.computes.Filed s'.now.shared := by
  have shared := ran.1.1
  cases op with
  | put key data => exact ok.elim
  | delete key =>
    rcases exec_delete shared with ⟨eq, -⟩ | erased
    · exact eq ▸ filed
    · exact erased ▸ filed.erase key
  | cas key old data =>
    rcases exec_cas shared with ⟨eq, -⟩ | ⟨-, wrote, -⟩
    · exact eq ▸ filed
    · rw [wrote]
      by_cases own : ∃ uid, key = cluster.computes.key uid
      · obtain ⟨uid, rfl⟩ := own
        obtain ⟨cp, rfl, enc⟩ := ok uid rfl
        exact filed.write enc
      · apply filed.congr
        intro uid
        exact stored_write_of_ne fun eq => own ⟨uid, eq.symm⟩
  | _ => exact (exec_reads rfl shared).1 ▸ filed

theorem Watched.step (watched : cluster.Watched s) (ok : cluster.Orderly op)
    (settled : ∀ cmd, op = .host cmd → ∀ store reply node uid,
      starts node uid ⟨store, cmd, reply⟩ = true → cluster.Settled uid node s)
    (ran : logged.recorded.exec s op reply s') : cluster.Watched s' where
  filed := filed_step ok watched.filed ran
  settled node uid hosted := by
    apply Settled.step _ ran
    rw [ran.1.2] at hosted
    cases op with
    | host cmd =>
      rcases present_cons hosted with started | pre
      · exact settled cmd rfl _ _ node uid started
      · exact watched.settled node uid pre
    | _ => exact watched.settled node uid hosted

/-- What every thread may count on: what is settled stays so. -/
def watch (cluster : Cluster) : Protocol (logged.recorded) ComputeCall where
  invariant w := cluster.Watched w.state
  permitted _ _ := True
  rely _ _ s s' := ∀ uid node, cluster.Settled uid node s.state → cluster.Settled uid node s'.state
  guarantee s s' := ∀ uid node, cluster.Settled uid node s.state → cluster.Settled uid node s'.state
  rely_refl _ _ _ _ _ settled := settled
  rely_trans _ _ _ _ _ first second uid node settled := second uid node (first uid node settled)

variable {α : Type} {i : Nat} {call : ComputeCall}
variable {post : α → World Op Op.Reply (Recorded Logged) ComputeCall → Prop}
variable {w : World Op Op.Reply (Recorded Logged) ComputeCall}

theorem safe_call {next : op.Reply → Prog α} (ok : cluster.Orderly op)
    (brings : ∀ now cmd, op = .host cmd → cluster.Settled uid node now → ∀ store reply other name,
      starts other name ⟨store, cmd, reply⟩ = true → cluster.Settled name other now)
    (done : cluster.Settled uid node w.state)
    (rest : ∀ reply later, cluster.Watched later.state → cluster.Settled uid node later.state →
      cluster.watch.Safe i call post (next reply) later) :
    cluster.watch.Safe i call post (.call op next) w := by
  intro now kept rely reply state ran _
  have known := rely uid node done
  have later : cluster.Watched state := kept.step ok (fun cmd eq => brings _ cmd eq known) ran
  exact ⟨fun _ _ held => held.step ran, later, rest reply _ later (known.step ran)⟩

theorem safe_quiet {prog : Prog α} {returns : α → Prop} (uses : prog.Uses cluster.Quiet returns)
    (watched : cluster.Watched w.state) (done : cluster.Settled uid node w.state)
    (rest : ∀ val later, returns val → cluster.Watched later.state →
      cluster.Settled uid node later.state →
      post val later) : cluster.watch.Safe i call post prog w := by
  induction prog generalizing w with
  | ret val => exact rest val w uses watched done
  | call op next ih =>
    refine safe_call uses.1.1 ?_ done fun reply later kept known =>
      ih reply (uses.2 reply) kept known
    intro now cmd eq _ store reply other name started
    rw [uses.1.2 cmd eq store reply other name] at started
    cases started

theorem quiet_of_looks (looks : op.looks = true) : cluster.Quiet op := by
  cases op with
  | put key data => cases looks
  | cas key old data => cases looks
  | delete key => cases looks
  | host cmd => cases looks
  | _ => exact ⟨trivial, nofun⟩

theorem put_computes_quiet (cp : Compute) :
    (cluster.computes.put cp).Uses cluster.Quiet fun reply =>
    ∀ held, reply = .ok held → ∃ v, held = (cp.stamp cluster.computes.kind).withVersion v := by
  apply put_swaps (quiet_of_looks rfl)
  intro old data enc
  refine ⟨?_, nofun⟩
  intro uid eq
  exact ⟨cp, cluster.computes.key_inj eq, enc⟩

theorem put_other_quiet {S ST : Type} {r : Registry S ST} (apart : cluster.computes.Disjoint r)
    (res : Resource S ST) : (r.put res).Uses cluster.Quiet fun _ => True := by
  refine (put_swaps (quiet_of_looks rfl) ?_).mono (fun _ => id) fun _ _ => trivial
  intro old data enc
  refine ⟨?_, nofun⟩
  intro uid eq
  exact absurd eq.symm (apart uid res.metadata.uid)

theorem safe_tends (node : NodeName) {copy : Compute} {prog : Prog α}
    (tends : Tends cluster.computes
      (Upkeep computePlacement computeFinalizer ComputeSpec.withDefaults)
      (cluster.computeReconciler node).Acts copy prog) (watched : cluster.Watched w.state)
    (settled : cluster.Settled copy.metadata.uid copy.status.nodeName w.state) :
    cluster.watch.Safe i call (fun _ later => cluster.Watched later.state) prog w := by
  induction tends generalizing w with
  | done copy val => exact watched
  | @look copy op next looks _ ih =>
    refine safe_call (quiet_of_looks looks).1 ?_ settled fun reply later kept known =>
      ih reply kept known
    intro now cmd eq
    subst eq
    cases looks
  | @act copy cmd next own _ ih =>
    have orderly : cluster.Orderly (.host cmd) := trivial
    refine safe_call orderly ?_ settled fun reply later kept known => ih reply kept known
    intro now other eq known store reply node uid started
    cases eq
    obtain ⟨rfl, rfl, -⟩ := cluster.starts_of_acts own started
    exact known
  | @reserve copy subnet ip old new next _ ih =>
    have orderly : cluster.Orderly (.cas (addressKey subnet ip) old new) := by
      intro uid eq
      exact absurd eq.symm (cluster.computes_clear uid subnet ip)
    exact safe_call orderly nofun settled fun reply later kept known => ih reply kept known
  | @release copy subnet ip next _ ih =>
    have orderly : cluster.Orderly (.delete (addressKey subnet ip)) := trivial
    exact safe_call orderly nofun settled fun reply later kept known => ih reply kept known
  | @save copy edited next sameUID edit bad _ ih =>
    apply Protocol.Safe.bind
    apply safe_quiet (put_computes_quiet edited) watched settled
    intro reply later out kept known
    cases reply with
    | error err =>
      obtain ⟨val, ends⟩ := bad err
      rw [ends]
      exact kept
    | ok held =>
      obtain ⟨v, rfl⟩ := out held rfl
      apply ih v kept
      have uid : ((edited.stamp cluster.computes.kind).withVersion v).metadata.uid =
          copy.metadata.uid := sameUID
      have put : ((edited.stamp cluster.computes.kind).withVersion v).status.nodeName =
          copy.status.nodeName :=
        edit.node
      rw [uid, put]
      exact known
  | @remove copy next free rest =>
    apply Protocol.Safe.bind
    have uses : (cluster.computes.delete copy.metadata.uid).Uses cluster.Quiet fun _ => True := by
      refine .perform ⟨trivial, nofun⟩ ?_
      intro reply
      cases reply <;> trivial
    apply safe_quiet uses watched settled
    intro reply later _ kept _
    obtain ⟨val, ends⟩ := rest reply
    rw [ends]
    exact kept

theorem safe_uses {prog : Prog α} (uses : prog.Uses cluster.Quiet fun _ => True)
    (watched : cluster.Watched w.state) :
    cluster.watch.Safe i call (fun _ later => cluster.Watched later.state) prog w := by
  refine Protocol.Safe.of_uses ?_ uses watched fun _ _ _ kept => kept
  intro now op reply state quiet kept ran _
  refine ⟨fun _ _ known => known.step ran, kept.step quiet.1 ?_ ran⟩
  intro cmd eq store reply other name started
  rw [quiet.2 cmd eq store reply other name] at started
  cases started

theorem safe_get {next : Except Error Compute → Prog α}
    (rest : ∀ reply later, cluster.Watched later.state →
      (∀ cp, reply = .ok cp → cp.metadata.uid = uid ∧
        cluster.Settled uid cp.status.nodeName later.state) →
      cluster.watch.Safe i call post (next reply) later) :
    cluster.watch.Safe i call post (cluster.computes.get uid >>= next) w := by
  rw [get_bind]
  intro now kept _ reply state ran _
  have orderly : cluster.Orderly (.get (cluster.computes.key uid)) := trivial
  have later : cluster.Watched state := kept.step orderly nofun ran
  refine ⟨fun _ _ known => known.step ran, later, rest _ _ later ?_⟩
  intro cp received
  cases reply with
  | error err => cases received
  | ok data =>
    have got : cluster.computes.stored now.state.now.shared uid = some cp := by
      rw [Registry.stored, (exec_get ran.1.1).2 data rfl, Option.bind_some]
      exact congrArg Except.toOption received
    have done : cluster.Settled uid cp.status.nodeName now.state := .inl ⟨cp, got, rfl⟩
    exact ⟨kept.filed uid cp got, done.step ran⟩

theorem safe_reconcile (node : NodeName) (uid : String) :
    cluster.watch.Safe i call (fun _ later => cluster.Watched later.state)
      ((cluster.computeReconciler node).agent.reconcile uid) w := by
  apply safe_get
  intro reply later watched read
  cases reply with
  | error err =>
    dsimp only
    split <;> exact watched
  | ok cp =>
    obtain ⟨rfl, done⟩ := read cp rfl
    dsimp only
    split
    · next mine =>
      split
      · have tends := @ComputeReconciler.agent_finalize_tends (cluster.computeReconciler node) cp
        exact safe_tends node tends watched done
      · next live =>
        have tends := ComputeReconciler.ensure_tends cp mine (Bool.not_eq_true _ ▸ live)
        exact safe_tends node tends watched done
    · exact watched

theorem safe_reconcileAll (node : NodeName) (watched : cluster.Watched w.state) :
    cluster.watch.Safe i call (fun _ later => cluster.Watched later.state)
      (cluster.computeReconciler node).agent.reconcileAll w := by
  have each (computes : List Compute) (now : World Op Op.Reply (Recorded Logged) ComputeCall)
      (kept : cluster.Watched now.state) :
      cluster.watch.Safe i call (fun _ later => cluster.Watched later.state)
        ((cluster.computeReconciler node).agent.reconcileEach computes) now := by
    induction computes generalizing now with
    | nil => exact kept
    | cons cp computes ih =>
      apply Protocol.Safe.bind
      refine (safe_reconcile node cp.metadata.uid).mono ?_
      intro out later still
      apply Protocol.Safe.bind
      refine (ih later still).mono ?_
      intro errs final last
      cases out <;> exact last
  have lists : (cluster.computeReconciler node).agent.registry.list.Uses cluster.Quiet fun _ =>
      True :=
    (list_looks _).mono (fun _ => quiet_of_looks) fun _ => id
  apply Protocol.Safe.bind
  refine (safe_uses lists watched).mono ?_
  intro reply later kept
  cases reply with
  | error err => exact kept
  | ok computes =>
    apply Protocol.Safe.bind
    exact (each computes later kept).mono fun _ _ last => last

theorem changeNode_quiet (change : NodeChange) :
    (cluster.changeNode change).Uses cluster.Quiet fun _ => True := by
  cases change with
  | heartbeat node =>
    apply (put_other_quiet cluster.computes_nodes node).bind
    intro reply _
    cases reply <;> trivial
  | retire uid =>
    refine .perform ⟨trivial, nofun⟩ ?_
    intro reply
    cases reply <;> trivial

theorem schedule_quiet : cluster.reconcileComputes.Uses cluster.Quiet fun _ => True := by
  apply Schedulers.reconcileIn_uses "computes" ComputeSpec.withDefaults _ _ fun _ => quiet_of_looks
  · intro cp
    exact (put_computes_quiet cp).mono (fun _ => id) fun _ _ => trivial
  · exact put_other_quiet cluster.computes_nodes
  · exact put_other_quiet cluster.computes_pools

theorem watch_sound (cluster : Cluster) :
    cluster.watch.Sound (ComputeCall.body cluster) fun _ _ => True where
  safe i call w watched := by
    apply Protocol.Safe.mono fun _ _ _ => trivial
    cases call with
    | schedule => exact safe_uses schedule_quiet watched
    | agent node => exact safe_reconcileAll node watched
    | nodes change => exact safe_uses (changeNode_quiet change) watched
  permitted _ _ _ := trivial
  drift s state watched moved _ := by
    refine ⟨⟨?_, ?_⟩, fun _ _ known => known.drift moved⟩
    · exact watched.filed.congr (stored_drift moved.1.1)
    · intro node uid hosted
      rw [moved.1.2] at hosted
      exact (watched.settled node uid hosted).drift moved
  interference _ _ _ _ _ _ _ _ guaranteed _ _ _ := guaranteed

/-- Whatever the interleaving, a compute is present only on the node its record names and on nodes
it was moved away from. -/
theorem present_where_placed_or_moved (cluster : Cluster) {start : Shared}
    (filed : cluster.computes.Filed start)
    {config : Configuration Op Op.Reply (Recorded Logged) ComputeCall (Except Error Unit)}
    (reached : Reachable logged.recorded (ComputeCall.body cluster) (fun _ _ => True) ⟨⟨start, []⟩,
      []⟩ config) :
    ∀ node uid cp, cluster.computes.stored config.state.now.shared uid = some cp →
      present node uid config.state.now.deeds = true →
      cp.status.nodeName = node ∨ cluster.Moved uid node config.state.log := by
  intro node uid cp found hosted
  have initially : cluster.Watched ⟨⟨start, []⟩, []⟩ := ⟨filed, nofun⟩
  have watched := (watch_sound cluster).invariant initially reached
  rcases watched.settled node uid hosted with ⟨cur, same, placed⟩ | moved
  · rw [found] at same
    cases same
    exact .inl placed
  · exact .inr moved

end

def sampleCompute : Compute where
  metadata := { uid := "compute-1" }
  spec := { subnetId := "subnet-1", image := "base" }
  status := {}

def computeStart : Logged :=
  ⟨⟨storeOf (sampleCluster.computes.entry sampleCompute :: sampleSite), 0⟩, []⟩

def nodeA : NodeName := ⟨"node-a", by decide⟩

def nodeB : NodeName := ⟨"node-b", by decide⟩

def computePass (call : ComputeCall) (s : Logged) : Logged := faultless (call.body sampleCluster) s

def heartbeat (node : String) (s : Logged) : Logged :=
  computePass (.nodes (beat sampleCluster node fivePast s)) s

def computeRuns : Logged := computePass (.agent nodeA) (computePass .schedule computeStart)

/-- Five minutes later only `node-b` has been heard from, and the compute moves there. -/
def computeMoves : Logged :=
  computePass .schedule (heartbeat "node-b" (wait fiveMinutes computeRuns))

def nodeReturns : Logged := heartbeat "node-a" computeMoves

def bothAgents : Logged := computePass (.agent nodeB) (computePass (.agent nodeA) nodeReturns)

theorem computeStart_absent (node uid : String) : present node uid computeStart.deeds ≠ true :=
  Bool.false_ne_true

theorem computeStart_realized : sampleCluster.Realized computeStart := by
  intro node uid cp _ _ hosted
  exact absurd hosted (computeStart_absent node uid)

theorem computePass_passes {admits : ComputeCall → Logged → Prop} {s : Logged}
    (hit : Passes logged (ComputeCall.body sampleCluster) admits computeStart s)
    (call : ComputeCall)
    (ok : admits call s) : Passes logged (ComputeCall.body sampleCluster) admits computeStart
    (computePass call s) :=
  faultless_passes hit call ok

/-- Where the compute is meant to be, whether it is on `node-a`, and whether all commands
succeeded. -/
def outcome (now : Logged) : Option (String × Bool) × Bool × Bool :=
  ((sampleCluster.computes.stored now.shared "compute-1").map fun cp =>
      (cp.status.nodeName, cp.metadata.isDeleting),
    present "node-a" "compute-1" now.deeds, now.deeds.all fun deed => deed.reply.isOk)

/-- The compute is moved while `node-a` is silent, and nothing on `node-a` ever takes it down. -/
theorem moved_compute_still_present : sampleCluster.Realized computeStart ∧
    Passes logged (ComputeCall.body sampleCluster) (fun _ _ => True) computeStart nodeReturns ∧
    (∀ deed ∈ bothAgents.deeds, deed.reply.isOk = true) ∧ ¬sampleCluster.Realized bothAgents := by
  have evaluated : outcome bothAgents = (some ("node-b", false), true, true) := by decide +kernel
  simp only [outcome, Prod.mk.injEq, Option.map_eq_some_iff] at evaluated
  obtain ⟨⟨cp, found, placed, live⟩, hosted, succeeded⟩ := evaluated
  refine ⟨computeStart_realized, ?_, all_eq_true.mp succeeded, ?_⟩
  · have runs : Passes logged (ComputeCall.body sampleCluster) (fun _ _ => True)
        computeStart computeRuns :=
      computePass_passes (computePass_passes .start .schedule trivial) (.agent nodeA) trivial
    have silent := runs.drift (wait_drift (show 0 ≤ fiveMinutes by decide) computeRuns)
    have heard := computePass_passes silent
      (.nodes (beat sampleCluster "node-b" fivePast (wait fiveMinutes computeRuns))) trivial
    have moves : Passes logged (ComputeCall.body sampleCluster) (fun _ _ => True)
        computeStart computeMoves :=
      computePass_passes heard .schedule trivial
    exact computePass_passes moves
      (.nodes (beat sampleCluster "node-a" fivePast computeMoves)) trivial
  · intro realized
    have same := realized "node-a" "compute-1" cp found live hosted
    rw [placed] at same
    exact absurd same (by decide)

/-- The pass of the agent on `node-a` up to the command that brings up a compute placed there. -/
def bringUp : List (Move (Recorded Logged) ComputeCall) :=
  .start 0 (.agent nodeA) :: List.replicate 12 (.act 0)

def placedStart : Shared :=
  ⟨storeOf (sampleCluster.computes.entry (computePlacement.move "node-a" sampleCompute) ::
    sampleSite), 0⟩

theorem present_where_placed_or_moved_first_start : sampleCluster.computes.Filed placedStart ∧
    ∃ config : Configuration Op Op.Reply (Recorded Logged) ComputeCall (Except Error Unit),
      present "node-a" "compute-1" config.state.now.deeds = true ∧
      ∀ node uid cp, sampleCluster.computes.stored config.state.now.shared uid = some cp →
        present node uid config.state.now.deeds = true →
        cp.status.nodeName = node ∨ sampleCluster.Moved uid node config.state.log := by
  have filed : sampleCluster.computes.Filed placedStart := filed_of_everyRecord (by decide +kernel)
  have played : ∃ config : Configuration Op Op.Reply (Recorded Logged) ComputeCall
      (Except Error Unit),
      Reachable logged.recorded (ComputeCall.body sampleCluster) (fun _ _ => True)
        ⟨⟨placedStart, []⟩, []⟩ config ∧
        present "node-a" "compute-1" config.state.now.deeds = true :=
    play_freely (recordedAnswer_exec loggedAnswer_exec)
      (show ∀ move ∈ bringUp, move.Legal logged.recorded by simp [bringUp, Move.Legal])
        (by decide +kernel)
  obtain ⟨config, reached, hosted⟩ := played
  exact ⟨filed, config, hosted, present_where_placed_or_moved sampleCluster filed reached⟩

end Cluster

end Infrastructure
