import Infrastructure.Registry
import Infrastructure.State.Rules

/-! Rules for proving programs over a registry safe, one for each of its functions.
They ask about a write only at the moment it commits, and then say what it found. -/

namespace Infrastructure.Registry

open Concurrency State Domain Program Registry

variable {S ST Call α : Type} {r : Registry S ST}
variable {p : Protocol machine Call} {i : Nat} {call : Call}
variable {post : α → StoreWorld Call → Prop} {w : StoreWorld Call}

theorem list_reading : Reading r.list := by
  refine .bind (list_uses (fun _ => rfl) _ rfl) ?_
  intro vals _
  cases vals <;> trivial

theorem put_swaps {allowed : Op → Prop} {res : Resource S ST}
    (read : allowed (.get (r.key res.metadata.uid)))
    (swaps : ∀ old data, r.codec.marshal (res.stamp r.kind) = .ok data →
      allowed (.cas (r.key res.metadata.uid) old data)) :
    (r.put res).Uses allowed fun reply =>
    ∀ held, reply = .ok held → ∃ v, held = (res.stamp r.kind).withVersion v := by
  rw [put]
  split
  · nofun
  · split
    · nofun
    · next data enc =>
      have expects : (r.expected res).Uses allowed fun _ => True := by
        rw [expected]
        split
        · trivial
        · refine .perform read ?_
          intro reply
          cases reply with
          | error err => trivial
          | ok old =>
            dsimp only
            split <;> trivial
      refine expects.tries (fun _ => nofun) ?_
      intro old
      refine .perform (swaps old data enc) ?_
      intro reply
      match reply with
      | .error err => nofun
      | .ok false => nofun
      | .ok true =>
        intro held eq
        cases eq
        exact ⟨revision data, rfl⟩

section

variable {ok : Op → Prop} {uid : String}

theorem delete_uses (removed : ok (.delete (r.key uid))) :
    (r.delete uid).Uses ok fun _ => True := by
  refine Uses.perform removed ?_
  rintro (err | ⟨⟩) <;> trivial

theorem tryUpdate_uses {mutate : Resource S ST → Prog (Except Error (Resource S ST))}
    (read : ok (.get (r.key uid))) (swapped : ∀ old new, ok (.cas (r.key uid) old new))
    (mutates : ∀ res, (mutate res).Uses ok fun _ => True) :
    (r.tryUpdate uid mutate).Uses ok fun _ => True := by
  refine Uses.perform read ?_
  rintro (err | data)
  · trivial
  dsimp only
  split
  · trivial
  · next res dec =>
    refine (mutates res).tries (fun _ => trivial) ?_
    intro new
    dsimp only
    split
    · trivial
    · refine Uses.perform (swapped _ _) ?_
      rintro (err | committed) <;> trivial

end

/-- What the version of a resource expects to find under its key. -/
def Matches (v : String) (found : Option Bytes) : Prop :=
  if v = "" then found = none else ∃ old, found = some old ∧ revision old = v

variable {next : Except Error (Resource S ST) → Prog α}

section

variable (idle : Idle p)

include idle

theorem safe_get {uid : String} (bad : ∀ err later, p.invariant later →
      p.Safe i call post (next (.error err)) later) (got : ∀ data res now, p.invariant now →
      p.rely i (.get (r.key uid)) w now → now.state.value (r.key uid) = some data →
        r.codec.unmarshal data = .ok res →
      p.permitted now (now.next ⟨i, call, .get (r.key uid), .ok data⟩ now.state) →
      p.invariant (now.next ⟨i, call, .get (r.key uid), .ok data⟩ now.state) →
      p.Safe i call post (next (.ok (res.withVersion (revision data))))
        (now.next ⟨i, call, .get (r.key uid), .ok data⟩ now.state)) :
    p.Safe i call post (r.get uid >>= next) w := by
  unfold get
  rw [bind_assoc]
  refine safe_read idle rfl ?_
  intro now reply kept rely ran permitted inv
  cases reply with
  | error err => exact bad err _ inv
  | ok data =>
    simp only [decode, pure_eq_ret, ret_bind]
    cases dec : r.codec.unmarshal data with
    | error err => exact bad _ _ inv
    | ok res =>
      have held := (exec_get ran).2 data rfl
      exact got data res now kept rely held dec permitted inv

theorem safe_swap {res : Resource S ST} {old : Option Bytes} {data : Bytes}
    (bad : ∀ err later, p.invariant later →
      p.Safe i call post (next (.error err)) later) (commit : ∀ now reply, p.invariant now →
      now.state.value (r.key res.metadata.uid) = old → reply ≠ .ok false →
      Lands p now (fun later => reply = .ok true → p.Safe i call post
          (next (.ok ((res.stamp r.kind).withVersion (revision data)))) later)
        (swapped now i call (r.key res.metadata.uid) old data reply)) :
    p.Safe i call post (r.swap res old data >>= next) w := by
  unfold swap
  rw [bind_assoc]
  refine safe_cas idle ?_ ?_
  · intro now reply _ _ refusal inv
    match reply, refusal with
    | .error err, _ => exact bad _ _ inv
    | .ok false, _ => exact bad _ _ inv
    | .ok true, refusal => exact absurd rfl refusal
  · intro now reply kept _ got took ok
    obtain ⟨guaranteed, inv, rest⟩ := commit now reply kept got took ok
    refine ⟨guaranteed, inv, ?_⟩
    match reply, took with
    | .error err, _ => exact bad _ _ inv
    | .ok true, _ => exact rest rfl
    | .ok false, took => exact absurd rfl took

theorem safe_put {res : Resource S ST} (kept : p.invariant w)
    (bad : ∀ err later, p.invariant later →
      p.Safe i call post (next (.error err)) later) (commit : ∀ old data now reply,
      r.codec.marshal (res.stamp r.kind) = .ok data → p.invariant now →
      now.state.value (r.key res.metadata.uid) = old → Matches res.metadata.resourceVersion old →
        reply ≠ .ok false →
      Lands p now (fun later => reply = .ok true → p.Safe i call post
          (next (.ok ((res.stamp r.kind).withVersion (revision data)))) later)
        (swapped now i call (r.key res.metadata.uid) old data reply)) :
    p.Safe i call post (r.put res >>= next) w := by
  unfold put
  split
  · exact bad _ _ kept
  · split
    · exact bad _ _ kept
    · next data enc =>
      rw [bind_assoc]
      unfold expected
      split
      · next bare =>
        refine safe_swap idle bad ?_
        intro now reply inv got
        exact commit none data now reply enc inv got (by simp [Matches, bare])
      · next versioned =>
        rw [bind_assoc]
        refine safe_read idle rfl ?_
        intro now reply _ _ _ _ inv
        cases reply with
        | error err => exact bad _ _ inv
        | ok old =>
          dsimp only
          split
          · next eq =>
            refine safe_swap idle bad ?_
            intro later reply inv got
            exact commit (some old) data later reply enc inv got (by simp [Matches, versioned, eq])
          · exact bad _ _ inv

theorem safe_tryUpdate {uid : String} {mutate : Resource S ST → Prog (Except Error (Resource S ST))}
    {next : Except Error Bool → Prog α} {changes : Resource S ST → Resource S ST → Prop}
    (reading : ∀ res, (mutate res).Uses (fun op => op.reads = true) fun out => ∀ new,
      out = .ok new → changes res new)
    (bad : ∀ err later, p.invariant later → p.Safe i call post (next (.error err)) later)
    (lost : ∀ later, p.invariant later → p.Safe i call post (next (.ok false)) later)
    (commit : ∀ old res new data now reply, r.codec.unmarshal old = .ok res →
      changes (res.withVersion (revision old)) new → r.codec.marshal (new.stamp r.kind) = .ok data →
        p.invariant now →
      now.state.value (r.key uid) = some old → reply ≠ .ok false →
      Lands p now (fun later => reply = .ok true → p.Safe i call post (next (.ok true)) later)
        (swapped now i call (r.key uid) (some old) data reply)) :
    p.Safe i call post (r.tryUpdate uid mutate >>= next) w := by
  unfold tryUpdate
  rw [bind_assoc]
  refine safe_read idle rfl ?_
  intro now reply _ _ _ _ kept
  cases reply with
  | error err => exact bad _ _ kept
  | ok old =>
    simp only [decode]
    cases dec : r.codec.unmarshal old with
    | error err => exact bad _ _ kept
    | ok res =>
      simp only [bind_assoc]
      refine Protocol.Safe.bind (safe_reading idle (reading _) kept ?_)
      intro out later changed inv
      cases out with
      | error err => exact bad _ _ inv
      | ok new =>
        simp only []
        split
        · exact bad _ _ inv
        · next data enc =>
          rw [bind_assoc]
          refine safe_cas idle ?_ ?_
          · intro swapping reply _ _ refusal eq
            match reply, refusal with
            | .error err, _ => exact bad _ _ eq
            | .ok false, _ => exact lost _ eq
            | .ok true, refusal => exact absurd rfl refusal
          · intro swapping reply inv _ got took permitted
            have done := commit old res new data swapping reply dec (changed new rfl) enc inv
              got took permitted
            refine ⟨done.1, done.2.1, ?_⟩
            match reply, took with
            | .error err, _ => exact bad _ _ done.2.1
            | .ok true, _ => exact done.2.2 rfl
            | .ok false, took => exact absurd rfl took

theorem safe_remove {uid : String} {next : Except Error Unit → Prog α}
    (rest : ∀ reply later, p.invariant later → p.Safe i call post (next reply) later)
    (removed : ∀ now reply, p.invariant now → p.rely i (.delete (r.key uid)) w now →
      p.permitted now (erased now i call (r.key uid) reply) →
        p.guarantee now (erased now i call (r.key uid) reply) ∧
        p.invariant (erased now i call (r.key uid) reply)) :
    p.Safe i call post (r.delete uid >>= next) w := by
  unfold delete
  rw [bind_assoc]
  refine safe_delete idle ?_ ?_
  · intro now reply _ _ inv
    cases reply <;> exact rest _ _ inv
  · intro now reply kept rely ok
    obtain ⟨got, inv⟩ := removed now reply kept rely ok
    refine ⟨got, inv, ?_⟩
    cases reply <;> exact rest _ _ inv

end

end Infrastructure.Registry
