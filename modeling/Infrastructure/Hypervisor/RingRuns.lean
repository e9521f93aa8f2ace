import Infrastructure.Hypervisor.RingProtocol

/-! Every interleaving of `Pop`, `Push` and the driver.

The lock makes the queue's own fields and the used ring the holder's. What the holder
knows is a record; a read keeps it, and whatever the driver does keeps it too. -/

namespace Infrastructure.Hypervisor

open Concurrency Memory State Boot List Option Program Nat

def own (i : Nat) (moments : List RingMoment) : List RingMoment :=
  moments.filter fun moment => moment.event.thread == i

def turn (now : RingWorld) (i : Nat) (call : RingCall) (op : Bus) : RingWorld :=
  now.next ⟨i, call, op, (Ring.answer op now.state.now).1⟩
    ⟨(Ring.answer op now.state.now).2,
      (now.state.now, (Ring.answer op now.state.now).2) :: now.state.log⟩

def moment (now : RingWorld) (i : Nat) (call : RingCall) (op : Bus) : RingMoment :=
  ⟨⟨i, call, op, (Ring.answer op now.state.now).1⟩, now.state.now, (Ring.answer op now.state.now).2⟩

@[simp] theorem own_turn (now : RingWorld) (i : Nat) (call : RingCall) (op : Bus) :
    own i (turn now i call op).moments = moment now i call op :: own i now.moments :=
  filter_cons_of_pos (beq_self_eq_true i)

def Bus.quiet : Bus → Bool
  | .load _ _ => true
  | .lastAvailIdx _ => true
  | _ => false

namespace VirtQueue

variable (vq : VirtQueue)

/-- What the others leave as it is while a thread has the lock. -/
structure Undisturbed (i : Nat) (s s' : RingWorld) : Prop where
  holder : holder s'.past = some i
  returned : s'.state.now.returned = s.state.now.returned
  published : s.state.now.published <+: s'.state.now.published
  pushed : vq.pushed s'.past = vq.pushed s.past
  begun : begun s'.past = begun s.past
  used : ∀ address, vq.usedIdxAddr ≤ address → address < vq.usedAddr.toNat + 4 + 8 * vq.slots →
    s'.state.now.cells address = s.state.now.cells address

variable {vq} in
theorem Undisturbed.trans {i : Nat} {first snd third : RingWorld}
    (left : vq.Undisturbed i first snd) (right : vq.Undisturbed i snd third) :
    vq.Undisturbed i first third where
  holder := right.holder
  returned := right.returned.trans left.returned
  published := left.published.trans right.published
  pushed := right.pushed.trans left.pushed
  begun := right.begun.trans left.begun
  used addr above below := (right.used addr above below).trans (left.used addr above below)

/-- A step is an operation of the holder, or of a thread that finds the lock free; or it is the
driver's. -/
inductive Turn (s s' : RingWorld) : Prop
  | acts (moment : RingMoment) (past : s'.past = moment.event :: s.past)
      (moments : s'.moments = moment :: s.moments)
      (sole : ∀ i, holder s.past = some i → moment.event.thread = i)
  | drifts (past : s'.past = s.past) (moments : s'.moments = s.moments)
      (undisturbed : ∀ i, holder s.past = some i → vq.Undisturbed i s s')

def protocol : Protocol vq.machine.recorded RingCall where
  invariant := vq.RingInvariant
  permitted _ s' := begun s'.past ≤ s'.state.now.returned.length
  rely i _ s s' := own i s'.moments = own i s.moments ∧
    (holder s.past = some i → vq.Undisturbed i s s')
  guarantee := vq.Turn
  rely_refl _ _ _ := ⟨rfl, fun holding => ⟨holding, rfl, prefix_rfl, rfl, rfl, fun _ _ _ => rfl⟩⟩
  rely_trans _ _ _ _ _ first second := ⟨second.1.trans first.1, fun holding =>
    (first.2 holding).trans (second.2 (first.2 holding).holder)⟩

/-- What the holder of the lock knows. -/
structure Known where
  mine : List RingMoment
  returned : List UInt16
  published : List UInt16
  pushed : List (UInt32 × UInt32)
  begun : Nat

structure Holding (i : Nat) (known : Known) (w : RingWorld) : Prop where
  holder : holder w.past = some i
  mine : own i w.moments = known.mine
  returned : w.state.now.returned = known.returned
  published : known.published <+: w.state.now.published
  pushed : vq.pushed w.past = known.pushed
  begun : begun w.past = known.begun

section

variable {vq} {i : Nat} {call : RingCall} {known : Known} {w : RingWorld} {β : Type}
variable {post : β → RingWorld → Prop}

theorem Holding.relied {op : Bus} {now : RingWorld} (held : vq.Holding i known w)
    (rely : vq.protocol.rely i op w now) : vq.Holding i known now := by
  have calm := rely.2 held.holder
  exact {
    holder := calm.holder
    mine := rely.1.trans held.mine
    returned := calm.returned.trans held.returned
    published := held.published.trans calm.published
    pushed := calm.pushed.trans held.pushed
    begun := calm.begun.trans held.begun }

theorem quiet_state {op : Bus} (quiet : op.quiet = true) (ring : Ring) :
    (Ring.answer op ring).2 = ring := by
  cases op with
  | load addr length => rfl
  | lastAvailIdx queue => rfl
  | _ => cases quiet

variable (vq) in
theorem quiet_past {event : RingEvent} (quiet : event.op.quiet = true) (past : List RingEvent) :
    holder (event :: past) = holder past ∧ vq.pushed (event :: past) = vq.pushed past ∧
      begun (event :: past) = begun past := by
  obtain ⟨t, call, op, reply⟩ := event
  cases op with
  | load addr length | lastAvailIdx queue => cases call <;> exact ⟨rfl, rfl, rfl⟩
  | _ => cases quiet

/-- The rule for an operation of the holder other than taking the lock. -/
theorem safe_holding {op : Bus} {next : op.Reply → Program Bus Bus.Reply β}
    (holding : vq.Holding i known w)
    (rest : ∀ now, vq.RingInvariant now → vq.Holding i known now → vq.Undisturbed i w now →
      vq.RingInvariant (turn now i call op) ∧
        vq.protocol.Safe i call post (next (Ring.answer op now.state.now).1) (turn now i call op)) :
    vq.protocol.Safe i call post (.call op next) w := by
  intro now kept rely reply state ran ok
  obtain ⟨s', log⟩ := state
  obtain ⟨⟨-, answered⟩, logged⟩ := ran
  obtain ⟨rfl, rfl⟩ := Prod.mk.inj answered
  simp only at logged
  subst logged
  have cur := holding.relied rely
  obtain ⟨inv, safe⟩ := rest now kept cur (rely.2 holding.holder)
  refine ⟨.acts (moment now i call op) rfl rfl ?_, inv, safe⟩
  intro other held
  exact Option.some.inj (cur.holder.symm.trans held)

theorem safe_quiet {op : Bus} {next : op.Reply → Program Bus Bus.Reply β} (quiet : op.quiet = true)
    (held : vq.Holding i known w)
    (rest : ∀ now, vq.RingInvariant now → vq.Holding i known now → vq.Undisturbed i w now →
      (turn now i call op).state.now = now.state.now →
      vq.Holding i { known with mine := moment now i call op :: known.mine } (turn now i call op) →
      vq.protocol.Safe i call post (next (Ring.answer op now.state.now).1) (turn now i call op)) :
    vq.protocol.Safe i call post (.call op next) w := by
  refine safe_holding held fun now kept cur calm => ?_
  have ring : (turn now i call op).state.now = now.state.now := quiet_state quiet now.state.now
  have reads : (moment now i call op).event.op.quiet = true := quiet
  obtain ⟨sameHolder, samePushed, sameBegun⟩ := vq.quiet_past reads now.past
  refine ⟨⟨?_, ?_⟩, rest now kept cur calm ring ⟨?_, ?_, ?_, ?_, ?_, ?_⟩⟩
  · rw [ring]
    exact kept.held.trans (congrArg Option.isSome sameHolder.symm)
  · rw [ring]
    change vq.Consistent _ (vq.pushed ((moment now i call op).event :: now.past))
      (begun ((moment now i call op).event :: now.past))
    rw [samePushed, sameBegun]
    exact kept.consistent
  · exact sameHolder.trans cur.holder
  · rw [own_turn, cur.mine]
  · rw [ring, cur.returned]
  · rw [ring]
    exact cur.published
  · exact samePushed.trans cur.pushed
  · exact sameBegun.trans cur.begun

theorem safe_reads {returns : β → Prop} {prog : Program Bus Bus.Reply β}
    (reads : prog.Uses (fun op => op.quiet = true) returns) (held : vq.Holding i known w)
    (rest : ∀ val mine later, returns val → vq.Holding i { known with mine := mine } later →
      post val later) :
    vq.protocol.Safe i call post prog w := by
  induction prog generalizing w known with
  | ret val => exact rest val known.mine w reads held
  | call op next ih =>
    refine safe_quiet reads.1 held fun now _ _ _ _ later => ?_
    exact ih _ (reads.2 _) later fun val mine last => rest val mine last

theorem safe_lock {queue : Nat} {next : Unit → Program Bus Bus.Reply β}
    (rest : ∀ later known, vq.Holding i known later →
      (RingEvent.beginsPush ⟨i, call, .lock queue, ()⟩ = true → known.pushed.length < known.begun) →
      vq.protocol.Safe i call post (next ()) later) :
    vq.protocol.Safe i call post (.call (.lock queue) next) w := by
  intro now kept rely reply state ran ok
  obtain ⟨s', log⟩ := state
  obtain ⟨⟨free, answered⟩, logged⟩ := ran
  obtain ⟨rfl, rfl⟩ := Prod.mk.inj answered
  simp only at logged
  subst logged
  have unheld : holder now.past = none := isSome_eq_false_iff.mp (kept.held.symm.trans free)
    |> isNone_iff_eq_none.mp
  have pushed : vq.pushed (turn now i call (.lock queue)).past = vq.pushed now.past := by
    cases call <;> rfl
  have consistent : vq.Consistent { now.state.now with held := true } (vq.pushed now.past)
      (begun (turn now i call (.lock queue)).past) := by
    cases call with
    | pop => exact kept.consistent.locks true
    | push head written =>
      have begins : RingEvent.beginsPush (moment now i (.push head written) (.lock queue)).event =
          true := rfl
      have counted : begun (turn now i (.push head written) (.lock queue)).past =
          begun now.past + 1 :=
        begun_cons begins now.past
      rw [counted]
      exact (kept.consistent.locks true).begins (counted.symm.trans_le ok)
  refine ⟨.acts (moment now i call (.lock queue)) rfl rfl ?_, ⟨rfl, ?_⟩, ?_⟩
  · intro other held
    rw [unheld] at held
    cases held
  · exact pushed ▸ consistent
  · refine rest _ ⟨_, _, _, _, _⟩ ⟨rfl, rfl, rfl, prefix_rfl, rfl, rfl⟩ ?_
    intro pushes
    have s := kept.consistent.pushed
    change (vq.pushed (turn now i call (.lock queue)).past).length <
      begun (turn now i call (.lock queue)).past
    rw [pushed]
    exact s.trans_lt ((lt_succ_self _).trans_eq (begun_cons pushes now.past).symm)

theorem safe_unlock {queue : Nat} {val : β} (held : vq.Holding i known w)
    (rest : ∀ now, vq.Holding i known now → post val (turn now i call (.unlock queue))) :
    vq.protocol.Safe i call post (.call (.unlock queue) fun _ => .ret val) w := by
  refine safe_holding held fun now kept cur _ => ⟨⟨rfl, ?_⟩, rest now cur⟩
  have pushed : vq.pushed (turn now i call (.unlock queue)).past = vq.pushed now.past := by
    cases call <;> rfl
  have begins : begun (turn now i call (.unlock queue)).past = begun now.past := by
    cases call <;> rfl
  rw [pushed, begins]
  exact kept.consistent.locks false

end

theorem readSegments_uses (memSize : Nat) (head : UInt16) (left : Nat) (idx : UInt16) :
    Uses (fun op : Bus => op.quiet = true) (fun _ => True)
      (vq.readSegments memSize head left idx) := by
  induction left generalizing idx with
  | zero => trivial
  | succ left ih =>
    have halts (halt : Halt) : True := trivial
    have loads (addr width : Nat) : Uses (fun op : Bus => op.quiet = true) (fun _ => True)
        (loadWord addr width) := ⟨rfl, fun _ => trivial⟩
    refine uses_then halts (slice_uses _ _ _ _) fun view => ?_
    cases view with
    | error err => trivial
    | ok view =>
      refine uses_then halts (loads _ _) fun addr => ?_
      refine uses_then halts (loads _ _) fun length => ?_
      refine uses_then halts (loads _ _) fun flags => ?_
      refine uses_then halts (loads _ _) fun next => ?_
      refine uses_then halts (slice_uses _ _ _ _) fun data => ?_
      cases data with
      | error err => trivial
      | ok data =>
        dsimp only
        split
        · trivial
        · refine uses_then halts (ih _) fun rest => ?_
          cases rest with
          | error err => trivial
          | ok rest => trivial

theorem readChain_uses (memSize : Nat) (head : UInt16) : Uses (fun op : Bus => op.quiet = true)
      (fun out => ∀ chain, out = .ok (.ok chain) → chain.headIndex = head)
        (vq.readChain memSize head) := by
  refine uses_then (fun halt chain none => by cases none) (vq.readSegments_uses memSize head _ head)
    fun segments => ?_
  cases segments with
  | error err =>
    intro chain none
    cases none
  | ok segments =>
    intro chain eq
    cases eq
    rfl

/-- What a `Pop` saw and did. Without a chain, every published head had been returned. With one, it
is that of the next head, past which it advanced; a failed walk leaves the head next. -/
def PopResult (memSize : Nat) (known : Known) : Except Halt (Except Error (Option Chain)) → Prop
  | .ok (.ok none) => ∃ last idx older, known.mine = last :: idx :: older ∧
      idx.event.op = .load vq.availIdxAddr 2 ∧ idx.before.returned = idx.before.published
  | .ok (.ok (some chain)) => ∃ step older, known.mine = step :: older ∧
      step.event.op = .advance vq.queue chain.headIndex ∧
      step.before.published[step.before.returned.length]? = some chain.headIndex
  | .ok (.error err) => ∃ head, known.published[known.returned.length]? = some head ∧
      Returns (vq.readChain memSize head) (.ok (.error err))
  | .error halt => ∃ head, known.published[known.returned.length]? = some head ∧
      Returns (vq.readChain memSize head) (.error halt)

section

variable {vq} {memSize i : Nat} {known : Known} {w : RingWorld}

theorem Holding.sees (held : vq.Holding i known w) :
    vq.Holding i { known with published := w.state.now.published } w :=
  { held with published := prefix_rfl }

variable {head : UInt16}

theorem prefix_getElem? {short long : List UInt16} (shorter : short <+: long) {pos : Nat}
    (got : short[pos]? = some head) : long[pos]? = some head := by
  obtain ⟨rest, rfl⟩ := shorter
  obtain ⟨mem, -⟩ := List.getElem?_eq_some_iff.mp got
  rw [List.getElem?_append_left mem, got]

theorem PopResult.later {out : Except Halt (Except Error (Option Chain))}
    {returned published : List UInt16} (facts : vq.PopResult memSize known out)
    (eq : returned = known.returned) (longer : known.published <+: published) :
    vq.PopResult memSize { known with returned := returned, published := published } out := by
  subst eq
  match out, facts with
  | .ok (.ok none), facts => exact facts
  | .ok (.ok (some chain)), facts => exact facts
  | .ok (.error err), ⟨head, got, fails⟩ => exact ⟨head, prefix_getElem? longer got, fails⟩
  | .error halt, ⟨head, got, fails⟩ => exact ⟨head, prefix_getElem? longer got, fails⟩

theorem walk_safe (held : vq.Holding i known w)
    (next : known.published[known.returned.length]? = some head) :
    vq.protocol.Safe i .pop (fun out later => ∃ known, vq.Holding i known later ∧
      vq.PopResult memSize known out) (Program.bind (vq.readChain memSize head) fun
        | .ok (.ok chain) => .call (.advance vq.queue head) fun _ => .ret (.ok (.ok (some chain)))
        | .ok (.error err) => .ret (.ok (.error err))
        | .error halt => .ret (.error halt)) w := by
  refine Protocol.Safe.bind (safe_reads (vq.readChain_uses memSize head).returns held ?_)
  intro out mine later returned walked
  obtain ⟨named, returned⟩ := returned
  match out with
  | .error halt => exact ⟨_, walked, head, next, returned⟩
  | .ok (.error err) => exact ⟨_, walked, head, next, returned⟩
  | .ok (.ok chain) =>
    obtain rfl := named chain rfl
    refine safe_holding walked fun now kept cur _ => ?_
    have got : now.state.now.published[now.state.now.returned.length]? = some chain.headIndex := by
      rw [cur.returned]
      exact prefix_getElem? cur.published next
    refine ⟨⟨kept.held, kept.consistent.advance got⟩, { known with
        mine := moment now i .pop (.advance vq.queue chain.headIndex) :: mine
        returned := known.returned ++ [chain.headIndex] }, ?_,
      moment now i .pop (.advance vq.queue chain.headIndex), mine, rfl, rfl, got⟩
    exact {
      holder := cur.holder
      mine := by rw [own_turn, cur.mine]
      returned := congrArg (· ++ [chain.headIndex]) cur.returned
      published := cur.published
      pushed := cur.pushed
      begun := cur.begun }

theorem popLocked_safe (placed : vq.Placed memSize) (held : vq.Holding i known w) :
    vq.protocol.Safe i .pop (fun out later => ∃ known, vq.Holding i known later ∧
      vq.PopResult memSize known out) (vq.popLocked memSize) w := by
  rw [placed.popLocked_eq]
  refine safe_quiet rfl held fun first kept cur _ same seen => ?_
  have seen := seen.sees
  rw [same] at seen
  refine safe_quiet rfl seen fun snd kept' current' _ _ looked => ?_
  have sameReturned : snd.state.now.returned = first.state.now.returned :=
    current'.returned.trans cur.returned.symm
  have sameLast : snd.state.now.last = first.state.now.last := by
    rw [← UInt16.toNat_inj, kept'.consistent.last, kept.consistent.last, sameReturned]
  change vq.protocol.Safe i .pop _ (if UInt16.ofNat (vq.availIdx first.state.now.cells) =
    snd.state.now.last then _ else _) _
  split
  · next met =>
    rw [sameLast] at met
    exact ⟨_, looked, _, _, _, rfl, rfl, (kept.consistent.index_eq_iff placed).mp met⟩
  · next apart =>
    rw [sameLast] at apart
    have unequal := mt (kept.consistent.index_eq_iff placed).mpr apart
    have ahead : first.state.now.returned.length < first.state.now.published.length := by
      have behind := kept.consistent.returned_le
      have ne : first.state.now.returned.length ≠ first.state.now.published.length :=
        fun eq => unequal (kept.consistent.returned.eq_of_length eq)
      omega
    refine safe_quiet rfl looked fun third kept'' current'' _ _ read => ?_
    have returned : third.state.now.returned = first.state.now.returned :=
      current''.returned.trans cur.returned.symm
    have mem : third.state.now.returned.length < third.state.now.published.length :=
      returned ▸ ahead.trans_le current''.published.length_le
    -- the wrapped index of the device names the slot of the next head
    have slot : vq.availSlot snd.state.now.last.toNat =
        vq.availSlot third.state.now.returned.length := by
      rw [kept'.consistent.last, sameReturned, ← returned, availSlot, availSlot, placed.slot_index]
    have entry : UInt16.ofNat
        (ofLittleEndian (third.state.now.cells.read (vq.availSlot snd.state.now.last.toNat) 2)) =
        third.state.now.published[third.state.now.returned.length] := by
      rw [slot]
      exact kept''.consistent.availEntry _ kept''.consistent.consumed_le_returned mem
    have ok : known.returned = third.state.now.returned := current''.returned.symm
    have next := List.getElem?_eq_getElem mem
    rw [← entry, ← ok] at next
    exact walk_safe read.sees next

theorem pop_safe (placed : vq.Placed memSize) :
    vq.protocol.Safe i .pop
      (fun out later => ∃ unlock known, own i later.moments = unlock :: known.mine ∧
      unlock.event.op = .unlock vq.queue ∧ known.returned = unlock.before.returned ∧
      known.published = unlock.before.published ∧ vq.PopResult memSize known out)
      (vq.pop memSize) w := by
  refine safe_lock fun later known held _ => ?_
  refine Protocol.Safe.bind (Protocol.Safe.mono ?_ (popLocked_safe placed held))
  intro out s' ⟨known, held, facts⟩
  refine safe_unlock held fun now cur => ?_
  refine ⟨moment now i .pop (.unlock vq.queue),
    { known with returned := now.state.now.returned, published := now.state.now.published },
    by rw [own_turn, cur.mine], rfl, rfl, rfl, ?_⟩
  exact facts.later cur.returned cur.published

variable {written : UInt32}

theorem usedEntry_written {s first snd : Cells} {count : Nat}
    (held : first = s.write (vq.usedSlot count) (littleEndian 4 head.toNat))
    (eq : ∀ offset < 8, snd (vq.usedSlot count + offset) = first (vq.usedSlot count + offset)) :
    vq.usedEntry (snd.write (vq.usedSlot count + 4) (littleEndian 4 written.toNat)) count =
      (head.toUInt32, written) := by
  have low : (snd.write (vq.usedSlot count + 4) (littleEndian 4 written.toNat)).read
      (vq.usedSlot count) 4 =
      first.read (vq.usedSlot count) 4 := by
    rw [Cells.read_write_apart snd (.inl le_rfl)]
    refine Cells.read_congr fun addr above below => ?_
    obtain ⟨offset, rfl⟩ := Nat.exists_eq_add_of_le above
    exact eq offset (by omega)
  rw [usedEntry, low, held, read_littleEndian, read_littleEndian]
  refine Prod.ext (UInt32.toNat_inj.mp ?_) (UInt32.toNat_inj.mp ?_)
  · have small := head.toNat_lt
    rw [UInt32.toNat_ofNat', UInt16.toNat_toUInt32]
    omega
  · have small := written.toNat_lt
    change (UInt32.ofNat (written.toNat % 256 ^ 4)).toNat = written.toNat
    rw [UInt32.toNat_ofNat']
    omega

theorem stored_past {event : RingEvent} {addr : Nat} {bytes : Bytes}
    (stores : event.op = .store addr bytes) (past : List RingEvent) :
    holder (event :: past) = holder past ∧ begun (event :: past) = begun past := by
  obtain ⟨t, call, op, reply⟩ := event
  cases stores
  cases call <;> exact ⟨rfl, rfl⟩

theorem safe_store {β : Type} {post : β → RingWorld → Prop} {t : Nat}
    {bytes : Bytes} {next : Unit → Program Bus Bus.Reply β} (placed : vq.Placed memSize)
    (held : vq.Holding i known w) (running : known.pushed.length < known.begun)
    (low : vq.usedSlot known.pushed.length ≤ t)
    (high : t + bytes.length ≤ vq.usedSlot known.pushed.length + 8)
    (rest : ∀ now later mine, vq.Undisturbed i w now →
      vq.Holding i { known with mine := mine } later →
      later.state.now.cells = now.state.now.cells.write t bytes →
      vq.protocol.Safe i (.push head written) post (next ()) later) :
    vq.protocol.Safe i (.push head written) post (.call (.store t bytes) next) w := by
  refine safe_holding held fun now kept cur calm => ?_
  have slot : vq.usedAddr.toNat + 4 ≤ vq.usedSlot known.pushed.length := by
    unfold usedSlot
    omega
  have away : t ≠ vq.usedIdxAddr := by
    unfold usedIdxAddr
    omega
  obtain ⟨sameHolder, sameBegun⟩ := stored_past
    (show (moment now i (.push head written) (.store t bytes)).event.op = .store t bytes from rfl)
      now.past
  have samePushed : vq.pushed (turn now i (.push head written) (.store t bytes)).past =
      vq.pushed now.past := by
    have unpublished :
        vq.publishes (moment now i (.push head written) (.store t bytes)).event = none :=
      if_neg away
    exact congrArg List.reverse (filterMap_cons_none unpublished)
  refine ⟨⟨kept.held.trans (congrArg Option.isSome sameHolder.symm), ?_⟩, ?_⟩
  · rw [samePushed]
    change vq.Consistent
      _ _ (begun ((moment now i (.push head written) (.store t bytes)).event :: now.past))
    rw [sameBegun]
    refine kept.consistent.store placed ?_ ?_ ?_
    · rw [cur.pushed, cur.begun]
      exact running
    · rw [cur.pushed]
      exact low
    · rw [cur.pushed]
      exact high
  · refine rest now _ (moment now i (.push head written) (.store t bytes) :: known.mine) calm ?_ rfl
    exact {
      holder := sameHolder.trans cur.holder
      mine := by rw [own_turn, cur.mine]
      returned := cur.returned
      published := cur.published
      pushed := samePushed.trans cur.pushed
      begun := sameBegun.trans cur.begun }

theorem pushLocked_safe (placed : vq.Placed memSize)
    (held : vq.Holding i known w) (running : known.pushed.length < known.begun) :
    vq.protocol.Safe i (.push head written) (fun out later => out = .ok (.ok ()) ∧
      ∃ known store older, vq.Holding i known later ∧ known.mine = store :: older ∧
        vq.publishes store.event =
          some (head.toUInt32, written)) (vq.pushLocked memSize head written) w := by
  rw [placed.pushLocked_eq]
  refine safe_quiet rfl held fun first kept cur _ _ read => ?_
  have start : UInt16.ofNat (vq.usedIdx first.state.now.cells) =
      UInt16.ofNat known.pushed.length := by
    rw [kept.consistent.usedIdx, cur.pushed, ← UInt16.toNat_inj, UInt16.toNat_ofNat',
      UInt16.toNat_ofNat', mod_mod]
  have slot : vq.usedSlot (UInt16.ofNat known.pushed.length).toNat =
      vq.usedSlot known.pushed.length := by
    rw [UInt16.toNat_ofNat', usedSlot, usedSlot, placed.slot_index]
  have mem := placed.slot_lt known.pushed.length
  change vq.protocol.Safe _ _ _ (Program.call (.store (vq.usedSlot (UInt16.ofNat
    (vq.usedIdx first.state.now.cells)).toNat) _) fun _ =>
      Program.call (.store (vq.usedSlot (UInt16.ofNat
    (vq.usedIdx first.state.now.cells)).toNat + 4) _) fun _ =>
      Program.call (.store _ (littleEndian 2
    (UInt16.ofNat (vq.usedIdx first.state.now.cells) + 1).toNat)) _) _
  rw [start, slot]
  have half : vq.usedSlot known.pushed.length + (littleEndian 4 head.toNat).length ≤
      vq.usedSlot known.pushed.length + 8 := by
    rw [length_littleEndian]
    omega
  refine safe_store placed read running le_rfl half fun _ snd mine _ stored cells => ?_
  refine safe_store placed stored running (le_add_right _ 4) (by rw [length_littleEndian])
    fun third fourth mine' calm stored' cells' => ?_
  have entry : vq.usedEntry fourth.state.now.cells known.pushed.length =
      (head.toUInt32, written) := by
    have used (offset : Nat) (small : offset < 8) :
        third.state.now.cells (vq.usedSlot known.pushed.length + offset) =
        snd.state.now.cells (vq.usedSlot known.pushed.length + offset) := by
      refine calm.used _ ?_ ?_
      · unfold usedIdxAddr usedSlot
        omega
      · unfold usedSlot
        omega
    rw [cells']
    exact usedEntry_written cells used
  refine safe_holding stored' fun last kept' current' undisturbed' => ?_
  let stores : Bus :=
    .store vq.usedIdxAddr (littleEndian 2 (UInt16.ofNat known.pushed.length + 1).toNat)
  have published : vq.publishes (moment last i (.push head written) stores).event =
      some (head.toUInt32, written) :=
    if_pos rfl
  have grown : vq.pushed (turn last i (.push head written) stores).past =
      vq.pushed last.past ++ [(head.toUInt32, written)] :=
    (congrArg List.reverse (filterMap_cons_some published)).trans reverse_cons
  obtain ⟨sameHolder, sameBegun⟩ :=
    stored_past (show (moment last i (.push head written) stores).event.op = _ from rfl) last.past
  have counted : vq.pushed last.past = known.pushed := current'.pushed
  have stands : vq.usedEntry last.state.now.cells (vq.pushed last.past).length =
      (head.toUInt32, written) := by
    rw [counted, ← entry]
    refine usedEntry_congr fun addr above below => undisturbed'.used addr ?_ ?_
    · unfold usedSlot at above
      unfold usedIdxAddr
      omega
    · unfold usedSlot at below
      omega
  have wraps : (UInt16.ofNat known.pushed.length + 1).toNat % 2 ^ 16 =
      ((vq.pushed last.past).length + 1) % 2 ^ 16 := by
    rw [counted, UInt16.toNat_add, UInt16.toNat_ofNat']
    change (known.pushed.length % 2 ^ 16 + 1) % 2 ^ 16 % 2 ^ 16 = (known.pushed.length + 1) % 2 ^ 16
    omega
  have continues : (vq.pushed last.past).length < begun last.past := by
    rw [current'.pushed, current'.begun]
    exact running
  refine ⟨⟨kept'.held.trans (congrArg Option.isSome sameHolder.symm), ?_⟩, rfl, ?_⟩
  · rw [grown]
    change vq.Consistent
      _ _ (begun ((moment last i (.push head written) stores).event :: last.past))
    rw [sameBegun]
    exact kept'.consistent.complete placed continues stands wraps
  · refine ⟨{ known with mine := _, pushed := known.pushed ++ [(head.toUInt32, written)] }, _,
      mine', ?_, rfl, published⟩
    exact {
      holder := sameHolder.trans current'.holder
      mine := by rw [own_turn, current'.mine]
      returned := current'.returned
      published := current'.published
      pushed := grown.trans (congrArg (· ++ [(head.toUInt32, written)]) current'.pushed)
      begun := sameBegun.trans current'.begun }

theorem push_safe (placed : vq.Placed memSize) :
    vq.protocol.Safe i (.push head written) (fun out later => out = .ok (.ok ()) ∧
      ∃ unlock store older, own i later.moments = unlock :: store :: older ∧
        unlock.event.op = .unlock vq.queue ∧
          vq.publishes store.event = some (head.toUInt32, written))
      (vq.push memSize head written) w := by
  refine safe_lock fun later known held running => ?_
  refine Protocol.Safe.bind (Protocol.Safe.mono ?_ (pushLocked_safe placed held (running rfl)))
  intro out s' ⟨succeeds, known, store, older, held, mine, published⟩
  refine safe_unlock held fun now cur => ⟨succeeds, ?_⟩
  refine ⟨moment now i (.push head written) (.unlock vq.queue), store, older, ?_, rfl, published⟩
  rw [own_turn, cur.mine, mine]

end

def outcome (memSize i : Nat) : RingCall → RingResult → RingWorld → Prop
  | .pop, .popped result, w => ∃ unlock known, own i w.moments = unlock :: known.mine ∧
      unlock.event.op = .unlock vq.queue ∧ known.returned = unlock.before.returned ∧
      known.published = unlock.before.published ∧ vq.PopResult memSize known result
  | .push head written, .pushed result, w => result = .ok (.ok ()) ∧
      ∃ unlock store older, own i w.moments = unlock :: store :: older ∧
        unlock.event.op = .unlock vq.queue ∧
          vq.publishes store.event = some (head.toUInt32, written)
  | _, _, _ => False

def Answered (past : List RingEvent) (ring : Ring) : Prop := begun past ≤ ring.returned.length

section

variable {vq} {memSize : Nat}

theorem outcome_congr {i : Nat} {call : RingCall} {out : RingResult} {s s' : RingWorld}
    (eq : own i s'.moments = own i s.moments)
    (left : vq.outcome memSize i call out s) : vq.outcome memSize i call out s' := by
  cases call with
  | pop =>
    cases out with
    | popped out => simpa only [outcome, eq] using left
    | pushed out => exact left
  | push head written =>
    cases out with
    | popped out => exact left
    | pushed out => simpa only [outcome, eq] using left

theorem serve_safe (placed : vq.Placed memSize) {i : Nat} {w : RingWorld} (call : RingCall) :
    vq.protocol.Safe i call (vq.outcome memSize i call) (vq.serve memSize call) w := by
  cases call with
  | pop => exact Protocol.Safe.bind (pop_safe placed)
  | push head written => exact Protocol.Safe.bind (push_safe placed)

theorem DriverStep.undisturbed (placed : vq.Placed memSize) {s s' : Ring}
    (moved : vq.DriverStep s s') :
    s'.held = s.held ∧ s'.returned = s.returned ∧ s.published <+: s'.published ∧
      ∀ addr, vq.usedIdxAddr ≤ addr → addr < vq.usedAddr.toNat + 4 + 8 * vq.slots →
        s'.cells addr = s.cells addr := by
  cases moved with
  | write cells kept =>
    exact ⟨rfl, rfl, prefix_rfl, fun addr above below => kept addr (.inr (.inr ⟨above, below⟩))⟩
  | publish count room =>
    refine ⟨rfl, rfl, prefix_append _ _, fun addr above below => Cells.write_of_not ?_⟩
    have apart := placed.rings_apart
    have pos := placed.slots_pos
    rw [length_littleEndian]
    unfold usedIdxAddr at above
    unfold availIdxAddr
    omega
  | consume pending => exact ⟨rfl, rfl, prefix_rfl, fun _ _ _ => rfl⟩

theorem Turn.own {i : Nat} {s s' : RingWorld} (turned : vq.Turn s s')
    (moved : s'.past = s.past ∨ ∃ event, event.thread ≠ i ∧ s'.past = event :: s.past) :
    own i s'.moments = own i s.moments ∧ (holder s.past = some i → vq.Undisturbed i s s') := by
  cases turned with
  | drifts past moments undisturbed => exact ⟨by rw [moments], undisturbed i⟩
  | acts moment past moments sole =>
    have other := Protocol.thread_ne past moved
    refine ⟨?_, fun held => absurd (sole i held) other⟩
    rw [moments]
    exact filter_cons_of_neg (by simpa using other)

theorem delivers (placed : vq.Placed memSize) :
    vq.protocol.Delivers (vq.outcome memSize) (vq.serve memSize)
      fun _ s' => Answered s'.past s'.state.now where
  safe _ call _ _ := serve_safe placed call
  permitted _ _ answered := answered
  drift s state kept drifted _ := by
    obtain ⟨s', log⟩ := state
    obtain ⟨moved, logged⟩ := drifted
    simp only at moved logged
    subst logged
    obtain ⟨held, out, published, used⟩ := moved.undisturbed placed
    refine ⟨⟨held.trans kept.held, kept.consistent.driver placed moved⟩, .drifts rfl rfl ?_⟩
    intro i holding
    exact ⟨holding, out, published, rfl, rfl, used⟩
  interference _ _ _ _ _ _ _ _ turned moved _ _ := turned.own moved
  lasts _ _ _ _ _ turned moved left := outcome_congr (turned.own moved).1 left

/-- The queue as the driver sets it up, before the device has used it. -/
structure Fresh (vq : VirtQueue) (ring : Ring) : Prop where
  last : ring.last = 0
  held : ring.held = false
  published : ring.published = []
  returned : ring.returned = []
  consumed : ring.consumed = []
  availIdx : vq.availIdx ring.cells = 0
  usedIdx : vq.usedIdx ring.cells = 0

theorem Fresh.invariant {start : Ring} (fresh : vq.Fresh start) :
    vq.protocol.invariant ⟨⟨start, []⟩, []⟩ where
  held := fresh.held
  consistent := {
    last := by rw [fresh.last, fresh.returned]; rfl
    returned := by rw [fresh.returned]; exact nil_prefix
    window := by rw [fresh.published]; exact zero_le _
    availIdx := by rw [fresh.availIdx, fresh.published]; rfl
    availEntry := fun count _ mem => by simp [fresh.published] at mem
    usedIdx := by rw [fresh.usedIdx]; rfl
    usedEntry := fun count _ mem => by cases mem
    consumed := by rw [fresh.consumed]; exact nil_prefix
    pushed := zero_le _
    answered := zero_le _ }

theorem alone_call {α : Type} (op : Bus) (next : op.Reply → Program Bus Bus.Reply (Except Halt α))
    (ring : Ring) :
    Ring.alone (.call op next : Program Bus Bus.Reply (Except Halt α)) ring =
      Ring.alone (next (Ring.answer op ring).1) (Ring.answer op ring).2 := rfl

theorem alone_bind {α β : Type} (prog : Go α)
    (next : Except Halt α → Program Bus Bus.Reply (Except Halt β))
    (ring : Ring) : Ring.alone (Program.bind prog next) ring =
      Ring.alone (next (Ring.alone prog ring).1) (Ring.alone prog ring).2 :=
  run_bind Ring.answer prog next ring

theorem alone_reads {α : Type} {post : Except Halt α → Prop} {prog : Go α}
    (loads : Uses (fun op => op.quiet = true) post prog) (ring : Ring) :
    (Ring.alone prog ring).2 = ring := by
  induction prog with
  | ret val => rfl
  | call op next ih =>
    rw [alone_call, quiet_state loads.1]
    exact ih _ (loads.2 _)

theorem pop_alone_eq (ring : Ring) : Ring.alone (vq.pop memSize) ring =
    ((Ring.alone (vq.popLocked memSize) { ring with held := true }).1,
      { (Ring.alone (vq.popLocked memSize) { ring with held := true }).2 with held := false }) := by
  rw [pop, locked, alone_call, alone_bind]
  rfl

section

variable (placed : vq.Placed memSize) {ring : Ring}

include placed ring

theorem popLocked_alone_none (met : UInt16.ofNat (vq.availIdx ring.cells) = ring.last) :
    Ring.alone (vq.popLocked memSize) ring = (.ok (.ok none), ring) := by
  rw [placed.popLocked_eq, alone_call, alone_call]
  exact congrArg (Ring.alone · ring) (if_pos met)

theorem popLocked_alone_some {head : UInt16} {chain : Chain}
    (apart : UInt16.ofNat (vq.availIdx ring.cells) ≠ ring.last)
    (entry : UInt16.ofNat (ofLittleEndian (ring.cells.read (vq.availSlot ring.last.toNat) 2)) =
      head)
    (walked : (Ring.alone (vq.readChain memSize head) ring).1 = .ok (.ok chain)) :
    Ring.alone (vq.popLocked memSize) ring =
      (.ok (.ok (some chain)),
        { ring with last := ring.last + 1, returned := ring.returned ++ [head] }) := by
  subst entry
  rw [placed.popLocked_eq, alone_call, alone_call]
  refine (congrArg (Ring.alone · ring) (if_neg apart)).trans ?_
  rw [alone_call]
  simp only [Ring.answer_load, Ring.answer_lastAvailIdx]
  refine (alone_bind _ _ ring).trans ?_
  rw [alone_reads (vq.readChain_uses memSize _) ring, walked]
  rfl

/-- A `Pop` that no other call overtakes returns the next head if its chain can be read. -/
theorem pop_alone {pushed : List (UInt32 × UInt32)} {begun : Nat}
    (kept : vq.Consistent ring pushed begun) :
    (ring.returned = ring.published → (Ring.alone (vq.pop memSize) ring).1 = .ok (.ok none)) ∧
    ∀ head chain, ring.published[ring.returned.length]? = some head →
      (Ring.alone (vq.readChain memSize head) { ring with held := true }).1 = .ok (.ok chain) →
      (Ring.alone (vq.pop memSize) ring).1 = .ok (.ok (some chain)) ∧
        (Ring.alone (vq.pop memSize) ring).2.returned = ring.returned ++ [head] := by
  have i := (kept.locks true).index_eq_iff placed
  rw [pop_alone_eq]
  constructor
  · intro all
    rw [popLocked_alone_none placed (i.mpr all)]
  · intro head chain next walked
    obtain ⟨mem, got⟩ := List.getElem?_eq_some_iff.mp next
    have unequal : ring.returned ≠ ring.published := by
      intro all
      rw [all] at mem
      exact lt_irrefl _ mem
    have slot : vq.availSlot ring.last.toNat = vq.availSlot ring.returned.length := by
      rw [kept.last, availSlot, availSlot, placed.slot_index]
    have entry : UInt16.ofNat (ofLittleEndian (ring.cells.read (vq.availSlot ring.last.toNat) 2)) =
        head := by
      rw [slot]
      exact (kept.availEntry _ kept.consumed_le_returned mem).trans got
    rw [popLocked_alone_some placed (mt i.mp unequal) entry walked]
    exact ⟨rfl, rfl⟩

end

/-- In every interleaving, `Pop` returns the published heads in order, none left out and none twice;
without a chain it saw all returned, and where it fails the head stays next; alone, it returns the
next head whose chain it can read; the driver consumes what `Push` appended, in order and as it was
pushed. -/
theorem virtqueue_fifo (placed : vq.Placed memSize) {start : Ring} (fresh : vq.Fresh start)
    {config : Configuration Bus Bus.Reply (Recorded Ring) RingCall RingResult}
    (reached : Reachable vq.machine.recorded (vq.serve memSize)
      (fun _ s' => Answered s'.past s'.state.now) ⟨start, []⟩ config) :
    config.state.now.returned <+: config.state.now.published ∧
    (∀ i call result, config.thread i = some ⟨call, .ret result⟩ →
      vq.outcome memSize i call result config.toWorld) ∧
    (config.state.now.returned = config.state.now.published →
      (Ring.alone (vq.pop memSize) config.state.now).1 = .ok (.ok none)) ∧
    (∀ head chain, config.state.now.published[config.state.now.returned.length]? = some head →
      (Ring.alone (vq.readChain memSize head) { config.state.now with held := true }).1 =
        .ok (.ok chain) →
      (Ring.alone (vq.pop memSize) config.state.now).1 = .ok (.ok (some chain)) ∧
        (Ring.alone (vq.pop memSize) config.state.now).2.returned =
          config.state.now.returned ++ [head]) ∧
    config.state.now.consumed <+: vq.pushed config.past ∧
    vq.usedIdx config.state.now.cells = (vq.pushed config.past).length % 2 ^ 16 ∧
    (vq.pushed config.past).length ≤ config.state.now.consumed.length + vq.slots ∧
    ∀ count, config.state.now.consumed.length ≤ count →
      ∀ inside : count < (vq.pushed config.past).length,
        vq.usedEntry config.state.now.cells count = (vq.pushed config.past)[count] := by
  have holds := (delivers placed).holds fresh.invariant reached
  have kept := holds.1.consistent
  have alone := pop_alone placed kept
  have bounded : (vq.pushed config.past).length ≤ config.state.now.consumed.length + vq.slots :=
    calc (vq.pushed config.past).length
        ≤ begun config.past := kept.pushed
      _ ≤ config.state.now.returned.length := kept.answered
      _ ≤ config.state.now.published.length := kept.returned_le
      _ ≤ config.state.now.consumed.length + vq.slots := kept.window
  refine ⟨kept.returned, ?_, alone.1, alone.2, kept.consumed, kept.usedIdx, bounded, kept.usedEntry⟩
  intro i call result running
  exact (delivers placed).result fresh.invariant reached running

def sampleQueue : VirtQueue := ⟨0, 2, 0x100, 0x200, 0x300⟩

def sampleRing : Ring := ⟨fun _ => 0, 0, false, [], [], []⟩

def publishOne (ring : Ring) : Ring :=
  if ring.published.length + 1 ≤ ring.consumed.length + sampleQueue.slots then
    { ring with
      cells := ring.cells.write sampleQueue.availIdxAddr
        (littleEndian 2 (ring.published.length + 1))
      published := ring.published ++
        (List.range 1).map fun offset =>
          sampleQueue.availEntry ring.cells (ring.published.length + offset) }
  else ring

def consumeOne (ring : Ring) : Ring :=
  if sampleQueue.usedIdx ring.cells ≠ ring.consumed.length % 2 ^ 16 then
    { ring with consumed := ring.consumed ++
      [sampleQueue.usedEntry ring.cells ring.consumed.length] }
  else ring

theorem driver_idle (ring : Ring) : sampleQueue.DriverStep ring ring :=
  .write ring.cells fun _ _ => rfl

theorem publishOne_legal (ring : Ring) : sampleQueue.DriverStep ring (publishOne ring) := by
  unfold publishOne
  split
  · next room => exact .publish 1 room
  · exact driver_idle ring

theorem consumeOne_legal (ring : Ring) : sampleQueue.DriverStep ring (consumeOne ring) := by
  unfold consumeOne
  split
  · next pending => exact .consume pending
  · exact driver_idle ring

instance (ring : Ring) : (op : Bus) → Decidable (ring.Enabled op)
  | .lock _ => inferInstanceAs (Decidable (ring.held = false))
  | .unlock _ | .lastAvailIdx _ | .advance _ _ | .load _ _ | .store _ _ | .readAt _ _
  | .writeAt _ _ | .sync
  | .send _ | .raiseUsedBuffer | .interrupt => isTrue trivial

/-- A step takes no lock that is held, and every `Push` completes a chain. -/
def orderly (s s' : Configuration Bus Bus.Reply Ring RingCall RingResult) : Bool :=
  decide (begun s'.past ≤ s'.state.returned.length) &&
    (s'.past.length == s.past.length ||
      s'.past.head?.all fun event => decide (s.state.Enabled event.op))

theorem orderly_sound (s s' : Configuration Bus Bus.Reply Ring RingCall RingResult)
    (ok : orderly s s' = true) : Answered s'.past s'.state ∧ ∀ event :
    RingEvent, s'.past = event :: s.past →
        sampleQueue.machine.exec s.state event.op (Ring.answer event.op s.state).1
          (Ring.answer event.op s.state).2 := by
  obtain ⟨answered, enabled⟩ := Bool.and_eq_true_iff.mp ok
  have pushes : begun s'.past ≤ s'.state.returned.length := of_decide_eq_true answered
  refine ⟨pushes, fun event added => ⟨?_, rfl⟩⟩
  rw [added] at enabled
  simpa using enabled

def acts (i count : Nat) : List (Move Ring RingCall) := List.replicate count (.act i)

/-- Two heads go round a queue of two, and a third is published once the first is consumed. -/
def sampleRun : List (Move Ring RingCall) :=
  List.flatten [[.drift publishOne, .start 0 .pop], acts 0 10,
    [.finish 0, .drift publishOne, .start 0 (.push 0 7), .start 1 .pop], acts 0 6, acts 1 10,
    [.drift consumeOne, .drift publishOne, .start 2 (.push 0 9)], acts 2 6]

theorem acts_legal {i count : Nat} {move : Move Ring RingCall} (mem : move ∈ acts i count) :
    move.Legal sampleQueue.machine := by
  rw [(mem_replicate.mp mem).2]
  trivial

theorem sampleRun_legal : ∀ move ∈ sampleRun, move.Legal sampleQueue.machine := by
  simp only [sampleRun, flatten_cons, flatten_nil, forall_mem_append, forall_mem_cons]
  exact ⟨⟨publishOne_legal, trivial, forall_mem_nil _⟩, fun _ => acts_legal,
    ⟨trivial, publishOne_legal, trivial, trivial, forall_mem_nil _⟩, fun _ =>
      acts_legal, fun _ => acts_legal,
    ⟨consumeOne_legal, publishOne_legal, trivial, forall_mem_nil _⟩, fun _ =>
      acts_legal, forall_mem_nil _⟩

def sampleReached (config : Configuration Bus Bus.Reply Ring RingCall RingResult) : Bool :=
  decide (config.state.published.length = 3 ∧ config.state.returned.length = 2 ∧
    config.state.consumed = [(0, 7)] ∧ sampleQueue.pushed config.past = [(0, 7), (0, 9)])

theorem sampleQueue_placed : sampleQueue.Placed 0x1000 where
  power := ⟨1, by decide, rfl⟩
  addressable := by decide
  within := by decide
  apart := by decide

theorem sampleRing_fresh : sampleQueue.Fresh sampleRing :=
  ⟨rfl, rfl, rfl, rfl, rfl, by decide, by decide⟩

theorem virtqueue_fifo_two_rounds : ∃ config :
    Configuration Bus Bus.Reply (Recorded Ring) RingCall RingResult,
      sampleReached config.plain = true ∧ config.state.now.returned <+: config.state.now.published ∧
      config.state.now.consumed <+: sampleQueue.pushed config.past := by
  have passed : (play (fun ring op => Ring.answer op ring) (sampleQueue.serve 0x1000) orderly
      (Configuration.initial sampleRing) sampleRun).any sampleReached = true := by decide +kernel
  obtain ⟨config, played, checked⟩ := (any_eq_true _ _).mp passed
  have reached := play_enabled orderly_sound sampleRun_legal .initial played
  obtain ⟨kept, rfl, recorded⟩ := reached.recorded
  have settled := virtqueue_fifo sampleQueue_placed sampleRing_fresh recorded
  exact ⟨kept, checked, settled.1, settled.2.2.2.2.1⟩

end

end VirtQueue

end Infrastructure.Hypervisor
