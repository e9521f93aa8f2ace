import Infrastructure.State.Store

/-! Rules for proving programs over the store safe, one for each operation.

An operation that leaves the store alone and reports no change is of no interest
to most protocols; `Idle` says so once, and the rules then ask only about the
reply of a read and about the swaps and removals that take effect. -/

namespace Infrastructure.State

open Concurrency

variable {Call α β : Type}

abbrev StoreWorld (Call : Type) := World Op Op.Reply Shared Call

abbrev StoreEvent (Call : Type) := Event Op Op.Reply Call

/-- The reply does not report a change of the store. -/
def Quiet : (op : Op) → op.Reply → Prop
  | .put _ _, .ok _ => False
  | .delete _, .ok _ => False
  | .cas _ _ _, .ok true => False
  | _, _ => True

def Idle (p : Protocol machine Call) : Prop :=
  ∀ (now : StoreWorld Call) (event : StoreEvent Call),
    p.invariant now → Quiet event.op event.reply →
    exec now.state event.op event.reply now.state →
    p.permitted now (now.next event now.state) →
    p.guarantee now (now.next event now.state) ∧ p.invariant (now.next event now.state)

variable {p : Protocol machine Call} {i : Nat} {call : Call}
variable {post : α → StoreWorld Call → Prop} {w : StoreWorld Call}

abbrev swapped (now : StoreWorld Call) (i : Nat) (call : Call) (key : String) (old : Option Bytes)
    (new : Bytes) (reply : Except Error Bool) : StoreWorld Call :=
  now.next ⟨i, call, .cas key old new, reply⟩ (now.state.write key new)

abbrev erased (now : StoreWorld Call) (i : Nat) (call : Call) (key : String)
    (reply : Except Error Unit) : StoreWorld Call :=
  now.next ⟨i, call, .delete key, reply⟩ (now.state.erase key)

/-- The protocol bears the step to `later`, where it is permitted, and the rest holds from there. -/
abbrev Lands (p : Protocol machine Call) (now : StoreWorld Call) (rest : StoreWorld Call → Prop)
    (later : StoreWorld Call) : Prop :=
  p.permitted now later → p.guarantee now later ∧ p.invariant later ∧ rest later

/-- Operations that never change the store. -/
def Op.reads : Op → Bool
  | .get _ | .keys _ | .now | .ask _ | .host _ | .random _ => true
  | _ => false

/-- Operations that touch no record: time, permissions, commands on the host, names. -/
def Op.ambient : Op → Bool
  | .keys _ | .now | .ask _ | .host _ | .random _ => true
  | _ => false

theorem Op.reads_of_ambient {op : Op} (ambient : op.ambient = true) : op.reads = true := by
  cases op <;> first | rfl | cases ambient

theorem exec_reads {s s' : Shared} {op : Op} {reply : op.Reply} (reads : op.reads = true)
    (ran : exec s op reply s') : s' = s ∧ Quiet op reply := by
  cases op with
  | get key => exact ⟨(exec_get ran).1, trivial⟩
  | keys dir => exact ⟨exec_keys ran, trivial⟩
  | now => exact ⟨ran.1, trivial⟩
  | ask question => exact ⟨ran, trivial⟩
  | host cmd => exact ⟨ran, trivial⟩
  | random count => exact ⟨ran, trivial⟩
  | put key val => cases reads
  | delete key => cases reads
  | cas key old new => cases reads

theorem safe_read (idle : Idle p) {op : Op} {next : op.Reply → Prog α} (reads : op.reads = true)
    (rest : ∀ now reply, p.invariant now → p.rely i op w now → exec now.state op reply now.state →
      p.permitted now (now.next ⟨i, call, op, reply⟩ now.state) →
      p.invariant (now.next ⟨i, call, op, reply⟩ now.state) →
      p.Safe i call post (next reply) (now.next ⟨i, call, op, reply⟩ now.state)) :
    p.Safe i call post (Program.perform op >>= next) w := by
  intro now kept rely reply state ran ok
  obtain ⟨eq, quiet⟩ := exec_reads reads ran
  subst state
  obtain ⟨got, inv⟩ := idle now ⟨i, call, op, reply⟩ kept quiet ran ok
  exact ⟨got, inv, rest now reply kept rely ran ok inv⟩

theorem safe_cas (idle : Idle p) {key : String} {old : Option Bytes} {new : Bytes}
    {next : Except Error Bool → Prog α}
    (denied : ∀ now reply, p.invariant now → p.rely i (.cas key old new) w now →
      reply ≠ .ok true → p.invariant (now.next ⟨i, call, .cas key old new, reply⟩ now.state) →
      p.Safe i call post (next reply) (now.next ⟨i, call, .cas key old new, reply⟩ now.state))
    (done : ∀ now reply, p.invariant now → p.rely i (.cas key old new) w now →
      now.state.value key = old → reply ≠ .ok false → Lands p now
        (p.Safe i call post (next reply)) (swapped now i call key old new reply)) :
    p.Safe i call post (Program.perform (.cas key old new) >>= next) w := by
  intro now kept rely reply state ran ok
  rcases exec_cas ran with ⟨eq, refusal⟩ | ⟨got, wrote, took⟩
  · subst state
    have quiet : Quiet (.cas key old new) reply := by
      match reply, refusal with
      | .ok true, refusal => exact absurd rfl refusal
      | .ok false, _ => trivial
      | .error err, _ => trivial
    obtain ⟨guaranteed, inv⟩ := idle now ⟨i, call, _, reply⟩ kept quiet ran ok
    exact ⟨guaranteed, inv, denied now reply kept rely refusal inv⟩
  · subst state
    exact done now reply kept rely got took ok

theorem safe_delete (idle : Idle p) {key : String} {next : Except Error Unit → Prog α}
    (denied : ∀ now reply, p.invariant now → p.rely i (.delete key) w now →
      p.invariant (now.next ⟨i, call, .delete key, reply⟩ now.state) →
      p.Safe i call post (next reply) (now.next ⟨i, call, .delete key, reply⟩ now.state))
    (removed : ∀ now reply, p.invariant now → p.rely i (.delete key) w now →
      Lands p now (p.Safe i call post (next reply)) (erased now i call key reply)) :
    p.Safe i call post (Program.perform (.delete key) >>= next) w := by
  intro now kept rely reply state ran ok
  rcases exec_delete ran with ⟨eq, refusal⟩ | erased
  · subst state
    have quiet : Quiet (.delete key) reply := by
      match reply, refusal with
      | .ok (), refusal => exact absurd rfl refusal
      | .error err, _ => trivial
    obtain ⟨got, inv⟩ := idle now ⟨i, call, _, reply⟩ kept quiet ran ok
    exact ⟨got, inv, denied now reply kept rely inv⟩
  · subst state
    exact removed now reply kept rely ok

abbrev Reading (prog : Prog α) : Prop := prog.Uses (fun op => op.reads = true) fun _ => True

section

variable {allowed : Op → Prop} (read : ∀ key, allowed (.get key))

include read

theorem readEach_uses (keys : List String) : (readEach keys).Uses allowed fun _ => True := by
  induction keys with
  | nil => trivial
  | cons key keys ih =>
    refine .perform (read key) ?_
    intro reply
    cases reply with
    | error err => trivial
    | ok data =>
      refine .bind ih ?_
      intro vals _
      cases vals <;> trivial

theorem list_uses (dir : String) (listed : allowed (.keys dir)) :
    (list dir).Uses allowed fun _ => True := by
  refine .perform listed ?_
  intro reply
  cases reply with
  | error err => trivial
  | ok keys => exact readEach_uses read keys

end

theorem safe_reading (idle : Idle p) {prog : Prog α} {returns : α → Prop}
    (reading : prog.Uses (fun op => op.reads = true) returns) (kept : p.invariant w)
    (rest : ∀ val later, returns val → p.invariant later → post val later) :
    p.Safe i call post prog w := by
  induction prog generalizing w with
  | ret val => exact rest val w reading kept
  | call op next ih =>
    refine safe_read idle reading.1 ?_
    intro now reply _ _ _ _ inv
    exact ih reply (reading.2 reply) inv

end Infrastructure.State
