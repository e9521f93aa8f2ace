import Infrastructure.Concurrency.Recording
import Infrastructure.Idp.Indexes
import Infrastructure.State.Rules

/-! Any number of identity providers over one store: a device code is worth one
approved poll, and only after an approval. -/

namespace Infrastructure.Idp

open Concurrency State Crypto List Program Finmap Int

abbrev DeviceWorld := World Op Op.Reply (Recorded Shared) DeviceCall

abbrev DeviceMoment := Moment Op Op.Reply Shared DeviceCall

abbrev DeviceEvent := Event Op Op.Reply DeviceCall

def drawn (event : DeviceEvent) : Option String :=
  match event.op, event.reply with
  | .random count, bytes => if count = 32 then some (hexEncode (List.ofFn bytes)) else none
  | _, _ => none

/-- No device code is drawn a second time. -/
def FreshCodes (past now : List DeviceEvent) : Prop :=
  ∀ event code, now = event :: past → drawn event = some code →
    ∀ other ∈ past, drawn other ≠ some code

namespace DeviceStore

variable (d : DeviceStore)

def stored (shared : Shared) : Grants :=
  match d.grantsOf (shared.value deviceKey) with
  | .ok grants => grants
  | .error _ => ∅

def Approves (moment : DeviceMoment) (code : String) (da : DeviceAuth) : Prop :=
  ∃ orders was, moment.event.call = .approve orders was.userCode da.subject da.roles ∧
    (d.stored moment.before).lookup code = some was ∧ was.status = .pending ∧
    (d.stored moment.after).lookup code = some da ∧
    da = { was with status := .approved, subject := da.subject, roles := da.roles }

def Denies (moment : DeviceMoment) (code : String) : Prop :=
  ∃ orders was da, moment.event.call = .deny orders was.userCode ∧
    (d.stored moment.before).lookup code = some was ∧
    (d.stored moment.after).lookup code = some da ∧ da.status = .denied

def Removes (moment : DeviceMoment) (code : String) (da : DeviceAuth) : Prop :=
  (d.stored moment.before).lookup code = some da ∧ (d.stored moment.after).lookup code = none

/-- The thread's last operation took the grant, which was approved before it expired and not denied
before. -/
def Entitled (i : Nat) (code : String) (da : DeviceAuth) (moments : List DeviceMoment) : Prop :=
  ∃ newer moment older, moments = newer ++ moment :: older ∧
    (∀ later ∈ newer, later.event.thread ≠ i) ∧ moment.event.thread = i ∧
    (∃ orders, moment.event.call = .poll orders code) ∧ d.Removes moment code da ∧
    (∃ approval ∈ older, d.Approves approval code da ∧ approval.before.clock < da.expiresAt) ∧
    ∀ pre ∈ older, ¬d.Denies pre code

def Seen (code : String) (w : DeviceWorld) : Prop :=
  (d.stored w.state.now).lookup code ≠ none ∨
    ∃ moment ∈ w.moments, (d.stored moment.before).lookup code ≠ none ∨
      (d.stored moment.after).lookup code ≠ none

structure GrantsInvariant (w : DeviceWorld) : Prop where
  tidy : Tidy (d.stored w.state.now)
  timely : ∀ moment ∈ w.moments, moment.before.clock ≤ w.state.now.clock
  draws : w.past.Pairwise fun event other => ∀ code, drawn event = some code →
    drawn other ≠ some code
  issued : ∀ code, d.Seen code w → ∃ event ∈ w.past, drawn event = some code
  approved : ∀ code da, (d.stored w.state.now).lookup code = some da → da.status = .approved →
    ∃ moment ∈ w.moments, d.Approves moment code da
  denied : ∀ moment ∈ w.moments, ∀ code, d.Denies moment code →
    ∀ da, (d.stored w.state.now).lookup code = some da → da.status = .denied
  removed : ∀ moment ∈ w.moments, ∀ code da, d.Removes moment code da →
    (d.stored w.state.now).lookup code = none
  once : w.moments.Pairwise fun moment other => ∀ code da, d.Removes moment code da →
    ∀ da', ¬d.Removes other code da'

def Reserved (i : Nat) (code : String) (w : DeviceWorld) : Prop :=
  (∃ event ∈ w.past, event.thread = i ∧ drawn event = some code) ∧ ¬d.Seen code w

def grants : Protocol machine.recorded DeviceCall where
  invariant := d.GrantsInvariant
  permitted s s' := FreshCodes s.past s'.past
  rely i _ s s' := s.state.now.clock ≤ s'.state.now.clock ∧
    (∀ moment ∈ s.moments, moment ∈ s'.moments) ∧
    ∀ code, d.Reserved i code s → d.Reserved i code s'
  guarantee s s' := s.state.now.clock ≤ s'.state.now.clock ∧
    ((s'.past = s.past ∧ s'.moments = s.moments ∧
        d.stored s'.state.now = d.stored s.state.now) ∨
      ∃ moment, s'.past = moment.event :: s.past ∧ s'.moments = moment :: s.moments ∧
        ∀ i code, i ≠ moment.event.thread → d.Reserved i code s →
          d.Reserved i code s')
  rely_refl _ _ _ := ⟨le_refl _, fun _ => id, fun _ => id⟩
  rely_trans _ _ _ _ _ first second :=
    ⟨le_trans first.1 second.1, fun moment mem => second.2.1 moment (first.2.1 moment mem),
      fun code reserved => second.2.2 code (first.2.2 code reserved)⟩

/-- The world after an operation, which may have changed the store. -/
abbrev stepped (w : DeviceWorld) (event : DeviceEvent) (s' : Shared) : DeviceWorld :=
  w.next event ⟨s', (w.state.now, s') :: w.state.log⟩

section

variable {d} {w : DeviceWorld} {event : DeviceEvent} {s' : Shared} {code : String}

theorem seen_stepped (seen : d.Seen code (stepped w event s')) :
    (d.stored s').lookup code ≠ none ∨ d.Seen code w := by
  rcases seen with now | ⟨moment, mem, has⟩
  · exact .inl now
  · rw [moments_next] at mem
    rcases mem_cons.mp mem with rfl | mem
    · rcases has with s | later
      · exact .inr (.inl s)
      · exact .inl later
    · exact .inr (.inr ⟨moment, mem, has⟩)

/-- The operation did to each grant what its call may, and a new grant is filed under a reserved
code. -/
structure Lawful (d : DeviceStore) (w : DeviceWorld) (event : DeviceEvent) (s' : Shared) :
    Prop where
  tidy : Tidy (d.stored s')
  clock : s'.clock = w.state.now.clock
  turn : ∀ code, Turn event.call code ((d.stored w.state.now).lookup code)
    ((d.stored s').lookup code)
  new : ∀ code, (d.stored w.state.now).lookup code = none →
    (d.stored s').lookup code ≠ none → d.Reserved event.thread code w

theorem Lawful.stays {da : DeviceAuth} (lawful : Lawful d w event s')
    (seen : d.Seen code w) (has : (d.stored s').lookup code = some da) :
    (d.stored w.state.now).lookup code ≠ none := by
  intro missing
  exact (lawful.new code missing (by rw [has]; nofun)).2 seen

section

variable (lawful : Lawful d w event s') (kept : d.GrantsInvariant w)

include lawful kept

theorem Lawful.reserved {i : Nat} (other : i ≠ event.thread)
    (free : d.Reserved i code w) : d.Reserved i code (stepped w event s') := by
  obtain ⟨⟨draw, mem, t, drew⟩, unseen⟩ := free
  refine ⟨⟨draw, .tail _ mem, t, drew⟩, ?_⟩
  intro seen
  rcases seen_stepped seen with has | s
  · cases held : (d.stored w.state.now).lookup code with
    | some da => exact unseen (.inl (by rw [held]; nofun))
    | none =>
      -- the code would have been drawn by two threads
      obtain ⟨⟨draw', member', thread', drew'⟩, -⟩ := lawful.new code held has
      have ne : draw ≠ draw' := by
        intro eq
        rw [eq, thread'] at t
        exact other t.symm
      have apart : Std.Symm fun (event other : DeviceEvent) =>
          ∀ code, drawn event = some code → drawn other ≠ some code :=
        ⟨fun _ _ apart code drew drew' => apart code drew' drew⟩
      exact kept.draws.forall mem member' ne code drew drew'
  · exact unseen s

theorem Lawful.invariant (fresh : FreshCodes w.past (event :: w.past)) :
    d.GrantsInvariant (stepped w event s') where
  tidy := lawful.tidy
  timely moment mem := by
    rw [World.next_state, lawful.clock]
    rw [moments_next] at mem
    rcases mem_cons.mp mem with rfl | mem
    · exact le_refl _
    · exact kept.timely moment mem
  draws := by
    rw [World.next_past, pairwise_cons]
    refine ⟨?_, kept.draws⟩
    intro other mem code drew
    exact fresh event code rfl drew other mem
  issued code seen := by
    rcases seen_stepped seen with has | s
    · cases held : (d.stored w.state.now).lookup code with
      | some da =>
        obtain ⟨draw, mem, drew⟩ := kept.issued code (.inl (by rw [held]; nofun))
        exact ⟨draw, .tail _ mem, drew⟩
      | none =>
        obtain ⟨⟨draw, mem, -, drew⟩, -⟩ := lawful.new code held has
        exact ⟨draw, .tail _ mem, drew⟩
    · obtain ⟨draw, mem, drew⟩ := kept.issued code s
      exact ⟨draw, .tail _ mem, drew⟩
  approved code da has done := by
    rw [moments_next]
    have turn := lawful.turn code
    rw [World.next_state] at has
    rw [has] at turn
    cases s : (d.stored w.state.now).lookup code with
    | none =>
      rw [s] at turn
      cases turn with
      | create made pending =>
        rw [pending] at done
        cases done
    | some was =>
      rw [s] at turn
      cases turn with
      | keep =>
        obtain ⟨moment, mem, approves⟩ := kept.approved code da s done
        exact ⟨moment, .tail _ mem, approves⟩
      | @approve orders _ subject roles made pending =>
        exact ⟨_, .head _, orders, was, made, s, pending, has, rfl⟩
      | deny made pending => cases done
      | touch time interval pending =>
        rw [pending] at done
        cases done
  denied moment mem code denies da has := by
    rw [moments_next] at mem
    rw [World.next_state] at has
    rcases mem_cons.mp mem with rfl | mem
    · obtain ⟨orders, was, other, -, -, got, refused⟩ := denies
      rw [has] at got
      cases got
      exact refused
    · have seen : d.Seen code w := by
        obtain ⟨_, was, _, -, got, -⟩ := denies
        exact .inr ⟨moment, mem, .inl (by rw [got]; nofun)⟩
      have turn := lawful.turn code
      rw [has] at turn
      cases s : (d.stored w.state.now).lookup code with
      | none => exact absurd s (lawful.stays seen has)
      | some was =>
        have refused := kept.denied moment mem code denies was s
        rw [s] at turn
        cases turn with
        | keep => exact refused
        | approve made pending => rw [pending] at refused; cases refused
        | deny made pending => rfl
        | touch time interval pending => exact refused
  removed moment mem code da removes := by
    rw [moments_next] at mem
    rw [World.next_state]
    rcases mem_cons.mp mem with rfl | mem
    · exact removes.2
    · cases has : (d.stored s').lookup code with
      | none => rfl
      | some da' =>
        have seen : d.Seen code w := .inr ⟨moment, mem, .inl (by rw [removes.1]; nofun)⟩
        exact absurd (kept.removed moment mem code da removes) (lawful.stays seen has)
  once := by
    rw [moments_next, pairwise_cons]
    refine ⟨?_, kept.once⟩
    intro other mem code da removes da' pre
    have has := removes.1
    rw [kept.removed other mem code da' pre] at has
    cases has

theorem Lawful.step (fresh : FreshCodes w.past (event :: w.past)) :
    d.grants.guarantee w (stepped w event s') ∧
      d.grants.invariant (stepped w event s') := by
  constructor
  · refine ⟨le_of_eq lawful.clock.symm, .inr ⟨⟨event, w.state.now, s'⟩, rfl, rfl, ?_⟩⟩
    intro i code other free
    exact lawful.reserved kept other free
  · exact lawful.invariant kept fresh

end

theorem lawful_idle (kept : d.GrantsInvariant w) : Lawful d w event w.state.now where
  tidy := kept.tidy
  clock := rfl
  turn _ := .keep _
  new _ missing present := absurd missing present

theorem reserved_idle {i : Nat} (free : d.Reserved i code w) :
    d.Reserved i code (stepped w event w.state.now) := by
  obtain ⟨⟨draw, mem, drew⟩, unseen⟩ := free
  refine ⟨⟨draw, .tail _ mem, drew⟩, ?_⟩
  intro seen
  exact unseen ((seen_stepped seen).elim .inl id)

end

/-- What a thread may believe of the grants it read at `since`, meaning to add only under the codes
`new`. -/
structure Grounds (i : Nat) (new : String → Prop) (grants : Grants) (since : Int)
    (w : DeviceWorld) : Prop where
  tidy : Tidy grants
  reached : since ≤ w.state.now.clock
  backed : ∀ code da, grants.lookup code = some da → da.status = .approved →
    ∃ moment ∈ w.moments, d.Approves moment code da ∧ moment.before.clock ≤ since
  reserved : ∀ code, new code → d.Reserved i code w
  unread : ∀ code, new code → grants.lookup code = none

section

variable {d} {i : Nat} {call : DeviceCall} {new : String → Prop} {grants : Grants} {since : Int}
variable {w now : DeviceWorld} {α β : Type} {post : β → DeviceWorld → Prop}

theorem Grounds.relied {op : Op} (grounds : d.Grounds i new grants since w)
    (rely : d.grants.rely i op w now) : d.Grounds i new grants since now where
  tidy := grounds.tidy
  reached := le_trans grounds.reached rely.1
  backed code da got approved := by
    obtain ⟨moment, mem, approves⟩ := grounds.backed code da got approved
    exact ⟨moment, rely.2.1 moment mem, approves⟩
  reserved code added := rely.2.2 code (grounds.reserved code added)
  unread := grounds.unread

variable {event : DeviceEvent}

theorem Grounds.idle (grounds : d.Grounds i new grants since w) :
    d.Grounds i new grants since (stepped w event w.state.now) where
  tidy := grounds.tidy
  reached := grounds.reached
  backed code da got approved := by
    obtain ⟨moment, mem, approves⟩ := grounds.backed code da got approved
    exact ⟨moment, .tail _ mem, approves⟩
  reserved code added := reserved_idle (grounds.reserved code added)
  unread := grounds.unread

theorem grounds_read (kept : d.GrantsInvariant now)
    (reserved : ∀ code, new code → d.Reserved i code now) :
    d.Grounds i new (d.stored now.state.now) now.state.now.clock now where
  tidy := kept.tidy
  reached := le_refl _
  backed code da got approved := by
    obtain ⟨moment, mem, approves⟩ := kept.approved code da got approved
    exact ⟨moment, mem, approves, kept.timely moment mem⟩
  reserved := reserved
  unread code added := by
    by_contra present
    exact (reserved code added).2 (.inl present)

theorem safe_idle {op : Op} {next : op.Reply → Prog β} (reads : op.reads = true)
    (rest : ∀ now reply, d.GrantsInvariant now → d.grants.rely i op w now →
      exec now.state.now op reply now.state.now →
        FreshCodes now.past (⟨i, call, op, reply⟩ :: now.past) →
      d.GrantsInvariant (stepped now ⟨i, call, op, reply⟩ now.state.now) →
      d.grants.Safe i call post (next reply) (stepped now ⟨i, call, op, reply⟩ now.state.now)) :
    d.grants.Safe i call post (.call op next) w := by
  intro now kept rely reply ⟨s', log⟩ ⟨ran, logged⟩ ok
  obtain ⟨eq, -⟩ := exec_reads reads ran
  simp only at eq logged
  subst eq logged
  obtain ⟨got, inv⟩ := (lawful_idle kept).step kept ok
  exact ⟨got, inv, rest now reply kept rely ran ok inv⟩

theorem safe_timed {mid : α → Prop} {prog : Prog α} {k : α → Prog β}
    (timed : Timed since mid prog) (grounds : d.Grounds i new grants since w)
    (rest : ∀ val later, mid val → d.Grounds i new grants since later →
      d.grants.Safe i call post (k val) later) :
    d.grants.Safe i call post (prog >>= k) w := by
  induction prog generalizing w with
  | ret val => exact rest val w timed grounds
  | call op next ih =>
    cases op with
    | now =>
      refine safe_idle rfl ?_
      intro now time kept rely ran _ _
      have cur := grounds.relied rely
      have later : since ≤ time := by
        rw [ran.2]
        exact cur.reached
      exact ih time (timed time later) cur.idle
    | _ => exact timed.elim

/-- A transaction that dropped what had expired of the stored grants and wrote `changed` back. -/
structure Committed (i : Nat) (call : DeviceCall) (new : String → Prop) (since : Int)
    (left changed : Indexes) (now : DeviceWorld) (event : DeviceEvent) (s' : Shared) : Prop where
  thread : event.thread = i
  made : event.call = call
  kept : d.GrantsInvariant now
  grounds : d.Grounds i new (d.stored now.state.now) since now
  purged : ∀ code, left.byDevice.lookup code = (d.stored now.state.now).lookup code ∨
    left.byDevice.lookup code = none
  alive : ∀ code da, left.byDevice.lookup code = some da → since < da.expiresAt
  written : d.stored s' = changed.byDevice

/-- What a change must do to keep the protocol; `done` relates what it captured to the grants. -/
def Fits (call : DeviceCall) (new : String → Prop) (done : α → Indexes → Indexes → Prop)
    (change : Change α) : Prop :=
  ∀ since indexes, Consistent indexes → (∀ code, new code → indexes.byDevice.lookup code = none) →
    Timed since (fun result => ∀ changed, result.1 = .ok changed → Changed call indexes changed ∧
      (∀ code, indexes.byDevice.lookup code = none →
        changed.byDevice.lookup code ≠ none → new code) ∧
      done result.2 indexes changed) (change indexes)

theorem stored_write {data : Bytes} (enc : d.json.marshal grants = .ok data)
    (shared : Shared) : d.stored (shared.write deviceKey data) = grants := by
  have has := d.text grants data enc
  cases data with
  | nil => exact absurd rfl has
  | cons byte bytes => simp [stored, grantsOf, d.json.roundTrip grants _ enc]

theorem stored_of_value {shared : Shared} {old : Option Bytes} (got : shared.value deviceKey = old)
    (dec : d.grantsOf old = .ok grants) : d.stored shared = grants := by
  simp [stored, got, dec]

theorem lawful_swap {left changed : Indexes} {s' : Shared}
    (done : d.Committed i call new since left changed now event s')
    (clock : s'.clock = now.state.now.clock) (fits : Changed call left changed)
    (added : ∀ code, left.byDevice.lookup code = none →
      changed.byDevice.lookup code ≠ none → new code) :
    Lawful d now event s' where
  tidy := by
    rw [done.written]
    exact fits.consistent.tidy
  clock := clock
  turn code := by
    rw [done.written, done.made]
    refine Turn.purged (done.purged code) (fits.turn code) ?_
    intro gone held
    by_contra present
    exact held (done.grounds.unread code (added code gone present))
  new code missing present := by
    rw [done.written] at present
    rw [done.thread]
    refine done.grounds.reserved code (added code ?_ present)
    rcases done.purged code with eq | gone
    · rw [eq, missing]
    · exact gone

variable {done : α → Indexes → Indexes → Prop} {change : Change α}

theorem attempt_safe {finish : α → DeviceWorld → Prop} (fits : Fits call new done change)
    (finishes : ∀ {since left changed now event s' captured},
      d.Committed i call new since left changed now event s' → done captured left changed →
        finish captured (stepped now event s')) {old : Option Bytes}
          (dec : d.grantsOf old = .ok grants)
    (grounds : d.Grounds i new grants since w) (visits : Visits × Visits) (captured : α)
    {k : α × Option (Option Error) → Prog β} (bad : ∀ captured err later,
      d.grants.Safe i call post (k (captured, some (some err))) later)
    (committed : ∀ captured later, finish captured later →
      d.grants.Safe i call post (k (captured, some none)) later)
    (retried : ∀ captured later, (∀ code, new code → d.Reserved i code later) →
      d.grants.Safe i call post (k (captured, none)) later) :
    d.grants.Safe i call post (d.attempt visits change old captured >>= k) w := by
  have visited (code : String) (da : DeviceAuth)
      (got : (load visits.1 grants).byDevice.lookup code = some da) :
      code ∈ visits.2.keys grants ∨ since < da.expiresAt :=
    .inl ((visits.2.complete grants code).mpr (mem_of_lookup_eq_some got))
  simp only [attempt, dec, bind_assoc]
  refine safe_timed (purge_timed _ (load_consistent grounds.tidy visits.1) visited) grounds ?_
  intro left later ⟨consistent, purged, alive⟩ grounds
  have unused (code : String) (added : new code) : left.byDevice.lookup code = none := by
    rcases purged code with eq | gone
    · rw [eq]
      exact grounds.unread code added
    · exact gone
  refine safe_timed (fits since left consistent unused) grounds ?_
  intro out later spec grounds
  obtain ⟨outcome, captured⟩ := out
  cases outcome with
  | error err => exact bad captured err later
  | ok changed =>
    obtain ⟨change, added, finished⟩ := spec changed rfl
    simp only
    split
    · next err _ => exact bad captured err later
    · next data enc =>
      intro now kept rely reply ⟨s', log⟩ ⟨ran, logged⟩ permitted
      have grounds := grounds.relied rely
      simp only at logged
      subst logged
      rcases exec_cas ran with ⟨same, denied⟩ | ⟨got, written, took⟩
      · simp only at same
        subst same
        obtain ⟨guaranteed, inv⟩ := (lawful_idle kept).step kept permitted
        refine ⟨guaranteed, inv, ?_⟩
        cases reply with
        | error err => exact bad captured err _
        | ok swapped =>
          cases swapped with
          | false => exact retried captured _ grounds.idle.reserved
          | true => exact absurd rfl denied
      · simp only at written
        subst written
        have read : d.stored now.state.now = grants := stored_of_value got dec
        have commit : d.Committed i call new since left changed now
            ⟨i, call, .cas deviceKey old data, reply⟩ (now.state.now.write deviceKey data) :=
          { thread := rfl
            made := rfl
            kept := kept
            grounds := read ▸ grounds
            purged := read ▸ purged
            alive := alive
            written := stored_write enc _ }
        obtain ⟨guaranteed, inv⟩ := (lawful_swap commit rfl change added).step kept permitted
        refine ⟨guaranteed, inv, ?_⟩
        have settled := committed captured _ (finishes commit finished)
        cases reply with
        | error err => exact bad captured err _
        | ok swapped =>
          cases swapped with
          | false => exact absurd rfl took
          | true => exact settled

theorem failed_safe {finish : α → DeviceWorld → Prop} {captured : α} {err : Error} :
    d.grants.Safe i call (fun out later => out.2 = none → finish out.1 later)
      (.ret (captured, some err)) w := by
  intro impossible
  cases impossible

section

variable (finish : α → DeviceWorld → Prop) (fits : Fits call new done change)
  (finishes : ∀ {since left changed now event s' captured},
    d.Committed i call new since left changed now event s' → done captured left changed →
    finish captured (stepped now event s'))
  (orders : Orders) (captured : α)

include finish fits finishes orders captured

theorem attempts_safe (left : Nat) (free : ∀ code, new code → d.Reserved i code w) :
    d.grants.Safe i call (fun out later => out.2 = none → finish out.1 later)
      (d.attempts orders change captured left) w := by
  induction left generalizing w captured with
  | zero => exact failed_safe
  | succ left ih =>
    simp only [attempts, perform_bind]
    refine safe_idle rfl ?_
    intro now reply kept rely ran _ _
    have free (code : String) (added : new code) : d.Reserved i code now :=
      rely.2.2 code (free code added)
    -- the attempt on the value found, which may be that there is none
    have tried (old : Option Bytes) (got : now.state.now.value deviceKey = old)
        (event : DeviceEvent)
        (next : α × Option (Option Error) → Prog (α × Option Error))
        (ends : ∀ captured outcome, next (captured, some outcome) = .ret (captured, outcome))
        (retries : ∀ captured, next (captured, none) = d.attempts orders change captured left) :
        d.grants.Safe i call (fun out later => out.2 = none → finish out.1 later)
          (d.attempt (orders left) change old captured >>= next)
            (stepped now event now.state.now) := by
      cases dec : d.grantsOf old with
      | error err =>
        rw [attempt, dec]
        change d.grants.Safe i call _ (next (captured, some (some err))) _
        rw [ends]
        exact failed_safe
      | ok grants =>
        have grounds := grounds_read kept free
        rw [stored_of_value got dec] at grounds
        refine attempt_safe fits finishes dec grounds.idle (orders left) captured ?_ ?_ ?_
        · intro captured err later
          rw [ends]
          exact failed_safe
        · intro captured later finished
          rw [ends]
          exact fun _ => finished
        · intro captured later free
          rw [retries]
          exact ih captured free
    cases reply with
    | error err =>
      simp only
      split
      · next missing => exact tried none (ran.2 missing) _ _ (fun _ _ => rfl) fun _ => rfl
      · exact failed_safe
    | ok data => exact tried (some data) ran.2 _ _ (fun _ _ => rfl) fun _ => rfl

theorem transact_safe (free : ∀ code, new code → d.Reserved i code w) :
    d.grants.Safe i call (fun out later => out.2 = none → finish out.1 later)
      (d.transact orders change captured) w :=
  attempts_safe finish fits finishes orders captured 16 free

end

theorem turn_absent (other : ∀ orders, call ≠ .create orders) {code : String}
    {entry : Option DeviceAuth} (turn : Turn call code none entry) : entry = none := by
  cases turn with
  | keep => rfl
  | create made => exact absurd made (other _)

theorem fits_of_changed (other : ∀ orders, call ≠ .create orders)
    (changes : ∀ since indexes, Consistent indexes → Timed since (fun out => ∀ changed,
      out.1 = .ok changed → Changed call indexes changed ∧
        done out.2 indexes changed) (change indexes)) :
    Fits call (fun _ => False) done change := by
  intro since indexes ok _
  refine (changes since indexes ok).mono ?_
  intro out spec changed succeeded
  obtain ⟨change, finished⟩ := spec changed succeeded
  refine ⟨change, ?_, finished⟩
  intro code missing has
  have turn := change.turn code
  rw [missing] at turn
  exact has (turn_absent other turn)

theorem fits_create (orders : Orders) {da : DeviceAuth} (pending : da.status = .pending) :
    Fits (.create orders) (· = da.deviceCode) (fun _ _ _ => True) (createChange da) := by
  intro since indexes ok unused
  refine (createChange_timed orders ok pending (unused _ rfl)).mono ?_
  intro out spec changed succeeded
  obtain ⟨change, others⟩ := spec changed succeeded
  refine ⟨change, ?_, trivial⟩
  intro code missing has
  by_contra ne
  rw [others code ne] at has
  exact has missing

/-- A poll that got an approved grant took it, and was entitled to it. -/
theorem Committed.entitled {orders : Orders} {code : String} {out : DeviceAuth}
    {left changed : Indexes} {s' : Shared}
    (done : d.Committed i (.poll orders code) new since left changed now event s')
    (consumed : Consumed code out left changed) (approved : out.status = .approved) :
    d.Entitled i code out (stepped now event s').moments := by
  obtain ⟨got, gone⟩ := consumed approved
  have held : (d.stored now.state.now).lookup code = some out := by
    rcases done.purged code with eq | dropped
    · rw [← eq, got]
    · rw [dropped] at got
      cases got
  obtain ⟨approval, mem, approves, early⟩ := done.grounds.backed code out held approved
  have alive := done.alive code out got
  refine ⟨[], ⟨event, now.state.now, s'⟩, now.moments, rfl, forall_mem_nil _, done.thread,
    ⟨orders, done.made⟩, ⟨held, ?_⟩, ⟨approval, mem, approves, by omega⟩, ?_⟩
  · rw [done.written]
    exact gone
  · intro pre seen denies
    rw [done.kept.denied pre seen code denies out held] at approved
    cases approved

end

/-- An approval or a denial that reports success was written into a pending grant. -/
def Written (i : Nat) (call : DeviceCall) (code : String) (resolve : DeviceAuth → DeviceAuth)
    (moments : List DeviceMoment) : Prop :=
  ∃ moment ∈ moments, moment.event.thread = i ∧ moment.event.call = call ∧ ∃ device da,
    da.userCode = code ∧ da.status = .pending ∧ (d.stored moment.before).lookup device = some da ∧
    (d.stored moment.after).lookup device = some (resolve da)

/-- What a finished call leaves behind. -/
structure Outcome (i : Nat) (call : DeviceCall) (result : DeviceResult)
    (moments : List DeviceMoment) : Prop where
  polled : ∀ orders code out, call = .poll orders code → result = .polled out "" none →
    out.status = .approved →
    d.Entitled i code out moments
  approved : ∀ orders code subject roles, call = .approve orders code subject roles →
    result = .approved true →
    d.Written i call code
      (fun da => { da with status := .approved, subject := subject, roles := roles }) moments
  denied : ∀ orders code, call = .deny orders code → result = .denied true →
    d.Written i call code (fun da => { da with status := .denied }) moments

def outcome (i : Nat) (call : DeviceCall) (result : DeviceResult) (w : DeviceWorld) : Prop :=
  d.Outcome i call result w.moments

section

variable {d} {i : Nat} {w : DeviceWorld}

theorem reserved_drawn {now : DeviceWorld} {call : DeviceCall} {bytes : Fin 32 → UInt8}
    (kept : d.GrantsInvariant now)
    (fresh : FreshCodes now.past (⟨i, call, .random 32, bytes⟩ :: now.past)) :
    d.Reserved i (hexEncode (List.ofFn bytes))
      (stepped now ⟨i, call, .random 32, bytes⟩ now.state.now) := by
  refine ⟨⟨_, .head _, rfl, rfl⟩, ?_⟩
  intro seen
  have s : d.Seen (hexEncode (List.ofFn bytes)) now := (seen_stepped seen).elim .inl id
  obtain ⟨draw, mem, drew⟩ := kept.issued _ s
  exact fresh _ _ rfl rfl draw mem drew

theorem create_safe (orders : Orders) :
    d.grants.Safe i (.create orders) (d.outcome i (.create orders))
      (d.run (.create orders)) w := by
  simp only [run, create, generateUserCode, generateDeviceCode, bind_assoc, perform_bind, call_bind,
    pure_eq_ret, ret_bind]
  refine safe_idle rfl ?_
  intro _ user _ _ _ _ _
  refine safe_idle rfl ?_
  intro now bytes kept _ _ fresh _
  have free := reserved_drawn kept fresh
  refine safe_idle rfl ?_
  intro now time _ rely _ _ _
  have free := rely.2.2 _ free
  refine .bind
    (.mono ?_ (transact_safe (fun _ _ => True) (fits_create orders rfl)
      (fun _ _ => trivial) orders () ?_))
  · intro out later _
    exact ⟨nofun, nofun, nofun⟩
  · intro code eq
    subst eq
    exact reserved_idle free

theorem Committed.resolved {call : DeviceCall} {new : String → Prop} {since : Int}
    {left changed : Indexes} {now : DeviceWorld} {event : DeviceEvent} {s' : Shared}
    {resolve : DeviceAuth → DeviceAuth} {code : String} {done : Bool}
    (committed : d.Committed i call new since left changed now event s')
    (resolved : Resolved code resolve done left changed)
    (told : done = true) : d.Written i call code resolve (stepped now event s').moments := by
  obtain ⟨device, da, user, pending, got, made⟩ := resolved told
  refine ⟨⟨event, now.state.now, s'⟩, .head _, committed.thread, committed.made, device, da, user,
    pending, ?_, ?_⟩
  · rcases committed.purged device with eq | dropped
    · rw [← eq, got]
    · rw [dropped] at got
      cases got
  · rw [committed.written]
    exact made

/-- Approving and denying keep the protocol, as every change does that adds no grant. -/
theorem resolve_safe {call : DeviceCall} {change : Change Bool} {wrap : Bool → DeviceResult}
    {code : String} {resolve : DeviceAuth → DeviceAuth}
    (uncreated : ∀ orders, call ≠ .create orders)
    (changes : ∀ since indexes, Consistent indexes → Timed since (fun out => ∀ changed,
      out.1 = .ok changed → Changed call indexes changed ∧
        Resolved code resolve out.2 indexes changed) (change indexes))
    (orders : Orders)
      (leaves : ∀ done moments, (done = true → d.Written i call code resolve moments) →
      d.Outcome i call (wrap done) moments) :
    d.grants.Safe i call (d.outcome i call)
      ((d.transact orders change false >>= fun outcome => .ret (outcome.1 && outcome.2.isNone)) >>=
        fun done =>
        .ret (wrap done)) w := by
  have fits : Fits call (fun _ => False) (Resolved code resolve) change :=
    fits_of_changed uncreated changes
  refine .bind
    (.bind (.mono ?_
      (transact_safe (fun done later => done = true → d.Written i call code resolve later.moments)
    fits (fun committed resolved => committed.resolved resolved) orders false fun _ => False.elim)))
  intro out later written
  apply leaves
  intro told
  rw [Bool.and_eq_true, Option.isNone_iff_eq_none] at told
  exact written told.2 told.1

theorem poll_safe (orders : Orders) (code : String) :
    d.grants.Safe i (.poll orders code) (d.outcome i (.poll orders code))
      (d.run (.poll orders code)) w := by
  have fits : Fits (.poll orders code) (fun _ => False)
      (fun captured left changed => Consumed code captured.1 left changed) (pollChange code) := by
    refine fits_of_changed nofun ?_
    intro since indexes ok
    exact pollChange_timed orders code ok
  rw [run, poll]
  refine .bind
    (.bind (.mono ?_ (transact_safe (fun captured later => captured.1.status = .approved →
    d.Entitled i code captured.1 later.moments) fits
    (fun done consumed => done.entitled consumed) orders ({}, "") fun _ => False.elim)))
  intro result later entitled
  refine ⟨?_, nofun, nofun⟩
  intro orders' code' out made returned approved
  cases made
  obtain ⟨rfl, -, succeeded⟩ := DeviceResult.polled.inj returned
  exact entitled succeeded approved

theorem call_safe (call : DeviceCall) : d.grants.Safe i call (d.outcome i call) (d.run call) w := by
  cases call with
  | create orders => exact create_safe orders
  | approve orders code subject roles =>
    rw [run, approve]
    refine resolve_safe (by nofun) (fun _ _ => approveChange_timed orders code subject roles)
      orders ?_
    intro done moments written
    refine ⟨nofun, ?_, nofun⟩
    rintro _ _ _ _ ⟨⟩ ⟨⟩
    exact written rfl
  | deny orders code =>
    rw [run, deny]
    refine resolve_safe (by nofun) (fun _ _ => denyChange_timed orders code) orders ?_
    intro done moments written
    refine ⟨nofun, nofun, ?_⟩
    rintro _ _ ⟨⟩ ⟨⟩
    exact written rfl
  | poll orders code => exact poll_safe orders code

theorem grants_delivers :
    d.grants.Delivers d.outcome d.run fun s s' => FreshCodes s.past s'.past where
  safe _ call _ _ := call_safe call
  permitted _ _ fresh := fresh
  drift s state kept drifted _ := by
    obtain ⟨s', log⟩ := state
    obtain ⟨⟨same, later⟩, logged⟩ := drifted
    simp only at same later logged
    subst logged
    have eq : d.stored s' = d.stored s.state.now := by
      simp [stored, Shared.value, same]
    refine ⟨?_, later, .inl ⟨rfl, rfl, eq⟩⟩
    exact {
      tidy := eq ▸ kept.tidy
      timely := fun moment mem => le_trans (kept.timely moment mem) later
      draws := kept.draws
      issued := fun code seen => kept.issued code (seen.imp_left (eq ▸ ·))
      approved := fun code da got => kept.approved code da (eq ▸ got)
      denied := fun moment mem code denies da got =>
        kept.denied moment mem code denies da (eq ▸ got)
      removed := fun moment mem code da removes => eq ▸ kept.removed moment mem code da removes
      once := kept.once }
  interference s s' i call op next _ _ guaranteed moved _ _ := by
    obtain ⟨later, ⟨past, moments, eq⟩ | ⟨moment, past, moments, reserves⟩⟩ := guaranteed
    · refine ⟨later, fun moment mem => moments ▸ mem, ?_⟩
      intro code free
      rw [Reserved, Seen] at free ⊢
      rwa [past, moments, eq]
    · refine ⟨later, fun other mem => moments ▸ mem_cons_of_mem moment mem, ?_⟩
      intro code free
      exact reserves i code (Protocol.thread_ne past moved).symm free
  lasts s s' i call val guaranteed moved left := by
    obtain ⟨-, ⟨-, eq, -⟩ | ⟨latest, past, added, -⟩⟩ := guaranteed
    · rw [outcome, eq]
      exact left
    · rw [outcome, added]
      have written {code : String} {resolve : DeviceAuth →
          DeviceAuth} (pre : d.Written i call code resolve s.moments) :
          d.Written i call code resolve (latest :: s.moments) := by
        obtain ⟨moment, mem, rest⟩ := pre
        exact ⟨moment, .tail _ mem, rest⟩
      refine ⟨?_, fun orders code subject roles made returned =>
        written (left.approved orders code subject roles made returned),
        fun orders code made returned => written (left.denied orders code made returned)⟩
      intro orders code out made returned approved
      obtain ⟨newer, moment, older, moments, quiet, rest⟩ :=
        left.polled orders code out made returned approved
      refine ⟨latest :: newer, moment, older, by rw [moments, cons_append], ?_, rest⟩
      intro later mem
      rcases mem_cons.mp mem with rfl | mem
      · exact Protocol.thread_ne past moved
      · exact quiet later mem

theorem initially (start : Shared) (empty : start.value deviceKey = none) :
    d.grants.invariant ⟨⟨start, []⟩, []⟩ := by
  have held : d.stored start = ∅ := by simp [stored, empty, grantsOf]
  exact {
    tidy := held ▸ tidy_empty
    timely := forall_mem_nil _
    draws := .nil
    issued := by
      rintro code (has | ⟨_, impossible, -⟩)
      · rw [held, lookup_empty] at has
        exact absurd rfl has
      · cases impossible
    approved := by
      intro code da got
      rw [held, lookup_empty] at got
      cases got
    denied := forall_mem_nil _
    removed := forall_mem_nil _
    once := .nil }

end

/-- What a transaction that began in this world may hold in memory. -/
inductive InMemory (i : Nat) (w : DeviceWorld) : Indexes → Prop
  | purging {indexes : Indexes} (purging : Purging (d.stored w.state.now) indexes) :
      InMemory i w indexes
  | created {left indexes : Indexes} {da : DeviceAuth} {captured : Unit}
      (purging : Purging (d.stored w.state.now) left) (pending : da.status = .pending)
      (reserved : d.Reserved i da.deviceCode w)
      (returned : (createChange da left).Returns (.ok indexes, captured)) : InMemory i w indexes
  | approved {left indexes : Indexes} {code subject : String} {roles : List String}
      {captured : Bool} (purging : Purging (d.stored w.state.now) left)
      (returned : (approveChange code subject roles left).Returns (.ok indexes, captured)) :
      InMemory i w indexes
  | denied {left indexes : Indexes} {code : String} {captured : Bool}
      (purging : Purging (d.stored w.state.now) left)
      (returned : (denyChange code left).Returns (.ok indexes, captured)) : InMemory i w indexes
  | polled {left indexes : Indexes} {code : String} {captured : DeviceAuth × String}
      (purging : Purging (d.stored w.state.now) left)
      (returned : (pollChange code left).Returns (.ok indexes, captured)) : InMemory i w indexes

theorem InMemory.consistent {d : DeviceStore} {i : Nat} {w : DeviceWorld} {indexes : Indexes}
    (tidy : Tidy (d.stored w.state.now)) (held : d.InMemory i w indexes) :
    Consistent indexes := by
  -- a change does not see the orders of the loops
  let orders : Orders := fun _ => ⟨.sorted, .sorted⟩
  cases held with
  | purging purging => exact purging.consistent tidy
  | created purging pending reserved out =>
    have free := purging.fewer (by_contra fun has => reserved.2 (.inl has))
    exact (Timed.returns
      (fun _ => createChange_timed orders (purging.consistent tidy) pending free) out
      _ rfl).1.consistent
  | approved purging out =>
    exact (Timed.returns (fun _ => approveChange_timed orders _ _ _ (purging.consistent tidy)) out
      _ rfl).1.consistent
  | denied purging out =>
    exact (Timed.returns (fun _ => denyChange_timed orders _ (purging.consistent tidy))
      out _ rfl).1.consistent
  | polled purging out =>
    exact (Timed.returns (fun _ => pollChange_timed orders _ (purging.consistent tidy)) out
      _ rfl).1.consistent

def yielded (code : String) : Thread Op Op.Reply DeviceCall DeviceResult → Option DeviceAuth
  | ⟨.poll _ asked, .ret (.polled out failure none)⟩ =>
    if asked = code ∧ failure = "" ∧ out.status = .approved then some out else none
  | _ => none

/-- A device code yields its grant to at most one poll, which took it out of the store after an
approval that came in time and with no denial before. The store never holds more grants than it may,
and the indexes of every transaction lead back to each other. -/
theorem device_code_single_use (d : DeviceStore) {start : Shared}
    (empty : start.value deviceKey = none)
    {config : Configuration Op Op.Reply (Recorded Shared) DeviceCall DeviceResult}
    (reached : Reachable machine.recorded d.run (fun s s' => FreshCodes s.past s'.past)
      ⟨start, []⟩ config) : (∀ i other thread thread' code out out', config.thread i = some thread →
      config.thread other = some thread' → yielded code thread = some out →
      yielded code thread' = some out' → i = other) ∧
    config.moments.Pairwise (fun moment other => ∀ code da, d.Removes moment code da →
      ∀ da', ¬d.Removes other code da') ∧
    (∀ i thread code out, config.thread i = some thread → yielded code thread = some out →
      d.Entitled i code out config.moments) ∧
        (d.stored config.state.now).keys.card ≤ maxDeviceAuthorizations ∧
    ∀ i indexes, d.InMemory i config.toWorld indexes →
      Inverse indexes ∧ indexes.byDevice.keys.card ≤ maxDeviceAuthorizations := by
  have kept : d.GrantsInvariant config.toWorld :=
    (grants_delivers.holds (initially start empty) reached).1
  have entitled (i : Nat) (thread : Thread Op Op.Reply DeviceCall DeviceResult) (code : String)
      (out : DeviceAuth) (running : config.thread i = some thread)
      (yields : yielded code thread = some out) : d.Entitled i code out config.moments := by
    unfold yielded at yields
    split at yields
    · split at yields
      · next approved =>
        cases yields
        obtain ⟨rfl, rfl, approved⟩ := approved
        have left := grants_delivers.result (initially start empty) reached running
        exact left.polled _ _ _ rfl rfl approved
      · cases yields
    · cases yields
  refine ⟨?_, kept.once, entitled, kept.tidy.bounded, ?_⟩
  · intro i other thread thread' code out out' running running' yields yields'
    obtain ⟨newer, moment, older, split, -, here, -, removes, -⟩ :=
      entitled i thread code out running yields
    obtain ⟨newer', moment', older', split', -, there, -, removes', -⟩ :=
      entitled other thread' code out' running' yields'
    by_contra ne
    have nodup : moment ≠ moment' := by
      intro same
      exact ne (by rw [← here, ← there, same])
    have apart : Std.Symm fun moment other : DeviceMoment => ∀ code da, d.Removes moment code da →
        ∀ da', ¬d.Removes other code da' :=
      ⟨fun _ _ apart code da removes da' removes' => apart code da' removes' da removes⟩
    exact kept.once.forall (split ▸ by simp) (split' ▸ by simp) nodup code out removes out' removes'
  · intro i indexes held
    have consistent := held.consistent kept.tidy
    exact ⟨consistent.inverse, consistent.tidy.bounded⟩

def freshCodes (_ s' : Configuration Op Op.Reply Shared DeviceCall DeviceResult) : Bool :=
  decide (s'.past.filterMap drawn).Nodup

theorem freshCodes_sound (s s' : Configuration Op Op.Reply Shared DeviceCall DeviceResult)
    (ok : freshCodes s s' = true) : FreshCodes s.past s'.past := by
  intro event code added drew other mem drew'
  have nodup := of_decide_eq_true ok
  rw [added, filterMap_cons_some drew, nodup_cons] at nodup
  exact nodup.1 (mem_filterMap.mpr ⟨other, mem, drew'⟩)

def sampleCode : String := "0000000000000000000000000000000000000000000000000000000000000000"

def pendingGrant : DeviceAuth :=
  { deviceCode := sampleCode, userCode := "AAAA-AAAA", expiresAt := 600 * second }

def approvedGrant : DeviceAuth :=
  { pendingGrant with status := .approved, subject := "alice", roles := ["admin"] }

def sampleStore : DeviceStore where
  json := .ofTable [(∅, bytesOf "\x7b\x7d"),
    (Finmap.singleton sampleCode pendingGrant, bytesOf "pending"),
    (Finmap.singleton sampleCode approvedGrant, bytesOf "approved")] (by decide)
  text grants data enc := by
    have listed := Encoding.ofTable_listed enc
    rintro rfl
    exact absurd listed (by decide)
  ttl := 600 * second

def sampleOrders : Orders := fun _ => ⟨.sorted, .sorted⟩

/-- One provider creates a grant, another approves it and a third is polled for it. -/
def approvedRun : List (Move Shared DeviceCall) :=
  [.start 0 (.create sampleOrders), .act 0, .act 0, .act 0, .act 0, .act 0,
    .start 1 (.approve sampleOrders "AAAA-AAAA" "alice" ["admin"]), .act 1, .act 1, .act 1,
    .start 2 (.poll sampleOrders sampleCode), .act 2, .act 2, .act 2]

theorem device_code_single_use_approved :
    ∃ config : Configuration Op Op.Reply (Recorded Shared) DeviceCall DeviceResult,
      (config.thread 2).bind (yielded sampleCode) = some approvedGrant ∧
      sampleStore.Entitled 2 sampleCode approvedGrant config.moments := by
  obtain ⟨config, reached, yields⟩ : ∃ config,
      Reachable machine sampleStore.run (fun s s' => FreshCodes s.past s'.past) ⟨∅, 0⟩ config ∧
        decide ((config.thread 2).bind (yielded sampleCode) = some approvedGrant) = true :=
    play_reaches answer_exec freshCodes_sound
      (show ∀ move ∈ approvedRun, move.Legal machine by simp [approvedRun, Move.Legal])
        (by decide +kernel)
  obtain ⟨kept, rfl, recorded⟩ := reached.recorded
  have yields := of_decide_eq_true yields
  obtain ⟨thread, running, granted⟩ := Option.bind_eq_some_iff.mp yields
  exact ⟨kept, yields,
    (device_code_single_use sampleStore rfl recorded).2.2.1 2 thread sampleCode approvedGrant
      running granted⟩

end DeviceStore

end Infrastructure.Idp
