import Infrastructure.Concurrency.Passes
import Infrastructure.State.Rules

/-! The store together with the commands that agents have run on their hosts, and what one
operation may do to both. -/

namespace Infrastructure.State

open Concurrency

/-- A command run on a host, with the store as it was then. -/
structure Deed where
  store : Shared
  command : List String
  reply : Except Error String

@[ext] structure Logged where
  shared : Shared
  deeds : List Deed := []

def deedsOf (store : Shared) : (op : Op) → op.Reply → List Deed
  | .host command, reply => [⟨store, command, reply⟩]
  | _, _ => []

/-- Operations that change neither the store nor a host. -/
def Op.looks : Op → Bool
  | .get _ | .keys _ | .now | .ask _ | .random _ => true
  | _ => false

abbrev Op.Looking (op : Op) : Prop := op.looks = true

theorem Op.reads_of_looks {op : Op} (looks : op.looks = true) : op.reads = true := by
  cases op <;> first | rfl | cases looks

theorem deedsOf_looks {store : Shared} {op : Op} (looks : op.looks = true) (reply : op.Reply) :
    deedsOf store op reply = [] := by
  cases op <;> first | rfl | cases looks

def logged : Machine Op Op.Reply Logged where
  exec s op reply s' :=
    exec s.shared op reply s'.shared ∧ s'.deeds = deedsOf s.shared op reply ++ s.deeds
  drift s s' := drift s.shared s'.shared ∧ s'.deeds = s.deeds

/-- The answers of a store and of hosts without faults. -/
def loggedAnswer (s : Logged) (op : Op) : op.Reply × Logged :=
  ((answer s.shared op).1,
    ⟨(answer s.shared op).2, deedsOf s.shared op (answer s.shared op).1 ++ s.deeds⟩)

theorem loggedAnswer_exec (s : Logged) (op : Op) :
    logged.exec s op (loggedAnswer s op).1 (loggedAnswer s op).2 :=
  ⟨answer_exec s.shared op, rfl⟩

theorem runs_of_ok {α : Type} {prog : Prog (Except Error α)} {now : Logged} {val : α}
    (ok : (prog.run (fun op now => loggedAnswer now op) now).1.toOption = some val) :
    prog.Runs logged now (.ret (.ok val)) (prog.outcome loggedAnswer now) := by
  have runs := Program.Runs.answered loggedAnswer_exec prog now
  cases reply : (prog.run (fun op now => loggedAnswer now op) now).1 with
  | error err =>
    rw [reply] at ok
    cases ok
  | ok got =>
    rw [reply] at ok runs
    cases ok
    exact runs

/-- The same log over another store. -/
def Logged.over (s : Logged) (shared : Shared) : Logged := { s with shared := shared }

@[simp] theorem Logged.over_self (s : Logged) : s.over s.shared = s := rfl

section

variable {α : Type} {inv : Logged → Prop} {post : α → Logged → Prop} {s : Logged}

theorem logged_looks {op : Op} {reply : op.Reply} {s' : Logged} (looks : op.looks = true)
    (ran : logged.exec s op reply s') : s' = s := by
  apply Logged.ext (exec_reads (Op.reads_of_looks looks) ran.1).1
  rw [ran.2, deedsOf_looks looks reply, List.nil_append]

theorem keeps_look {op : Op} {next : op.Reply → Prog α} (looks : op.looks = true) (holds : inv s)
    (rest : ∀ reply, exec s.shared op reply s.shared → (next reply).Keeps logged inv post s) :
    (Program.call op next).Keeps logged inv post s := by
  intro reply s' ran
  obtain rfl := logged_looks looks ran
  exact ⟨holds, rest reply ran.1⟩

theorem keeps_cas {key : String} {old : Option Bytes} {new : Bytes}
    {next : Except Error Bool → Prog α} (holds : inv s)
    (kept : s.shared.value key = old → inv (s.over (s.shared.write key new)))
    (left : ∀ reply, reply ≠ .ok true → (next reply).Keeps logged inv post s)
    (swapped : ∀ reply, s.shared.value key = old → reply ≠ .ok false →
      (next reply).Keeps logged inv post (s.over (s.shared.write key new))) :
    (Program.call (.cas key old new) next).Keeps logged inv post s := by
  intro reply s' ran
  have shape : s' = s.over s'.shared := Logged.ext rfl ran.2
  rcases exec_cas ran.1 with ⟨eq, denied⟩ | ⟨got, wrote, ok⟩
  · rw [shape, eq, Logged.over_self]
    exact ⟨holds, left reply denied⟩
  · rw [shape, wrote]
    exact ⟨kept got, swapped reply got ok⟩

theorem keeps_delete {key : String} {next : Except Error Unit → Prog α} (holds : inv s)
    (kept : inv (s.over (s.shared.erase key)))
    (left : ∀ reply, reply ≠ .ok () → (next reply).Keeps logged inv post s)
    (removed : ∀ reply, (next reply).Keeps logged inv post (s.over (s.shared.erase key))) :
    (Program.call (.delete key) next).Keeps logged inv post s := by
  intro reply s' ran
  have shape : s' = s.over s'.shared := Logged.ext rfl ran.2
  rcases exec_delete ran.1 with ⟨eq, denied⟩ | gone
  · rw [shape, eq, Logged.over_self]
    exact ⟨holds, left reply denied⟩
  · rw [shape, gone]
    exact ⟨kept, removed reply⟩

theorem keeps_looking {prog : Prog α} {post : α → Prop} (uses : prog.Uses Op.Looking post)
    (holds : inv s) :
    prog.Keeps logged inv (fun val s' => post val ∧ s' = s) s := by
  induction prog with
  | ret val => exact ⟨uses, rfl⟩
  | call op next ih =>
    apply keeps_look uses.1 holds
    intro reply _
    exact ih reply (uses.2 reply)

end

end Infrastructure.State
