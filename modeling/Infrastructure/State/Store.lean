import Mathlib.Algebra.Group.Int.Defs
import Mathlib.Algebra.Group.Nat.Defs
import Mathlib.Data.List.AList
import Infrastructure.Concurrency.Protocol

/-! The byte-oriented key-value store behind the declarative resource model, and
the other things a control-plane program can ask for.

Each constructor of `Op` is one atomic exchange with the store or with the host.
`exec` says what the exchange may do; a call that reports an error may still
have taken effect, as with a reply lost on the network. -/

namespace Infrastructure.State

open Concurrency AList

abbrev Bytes := List UInt8

def bytesOf (text : String) : Bytes := text.toByteArray.data.toList

theorem bytesOf_inj {first snd : String} (eq : bytesOf first = bytesOf snd) : first = snd := by
  apply String.toByteArray_inj.mp
  apply ByteArray.ext
  exact Array.toList_inj.mp eq

/-- `new` is an error told apart by its text, `wrap` is `fmt.Errorf("context: %w", cause)`. -/
inductive Error where
  | new (text : String)
  | wrap (context : String) (cause : Error)
  | join (first second : Error)
  deriving DecidableEq, Repr

def Error.text : Error → String
  | .new text => text
  | .wrap context cause => context ++ ": " ++ cause.text
  | .join first second => first.text ++ "\n" ++ second.text

/-- `errors.Is`. -/
def Error.is : Error → Error → Bool
  | .new text, t => t == .new text
  | .wrap context cause, t => t == .wrap context cause || cause.is t
  | .join first second, t => t == .join first second || first.is t || second.is t

/-- `errors.Join`. -/
def Error.joinAll : List Error → Except Error Unit
  | [] => .ok ()
  | first :: rest => .error (rest.foldl .join first)

/-- `fmt`'s `%q` on text that needs no escapes. -/
def quoted (text : String) : String := "\"" ++ text ++ "\""

def errNotFound : Error := .new "state: key not found"
def errConflict : Error := .new "state: resource version conflict"

inductive Permission where
  | read
  | write
  | delete
  | admin
  deriving DecidableEq, Repr

/-- What the authorizer is asked: whether the subject holds a permission, or may refer to the
records its spec names. -/
inductive Question where
  | allowed (subject : String) (admin : Bool) (owner project : String) (permission : Permission)
  | references (subject : String) (admin : Bool) (project : String)
      (targets : List (String × String))
  deriving DecidableEq, Repr

inductive Op where
  | get (key : String)
  | put (key : String) (val : Bytes)
  | delete (key : String)
  | keys (dir : String)
  | cas (key : String) (old : Option Bytes) (new : Bytes)
  | now
  | ask (question : Question)
  | host (cmd : List String)
  | random (count : Nat)
  deriving DecidableEq, Repr

@[reducible] def Op.Reply : Op → Type
  | .get _ => Except Error Bytes
  | .put _ _ => Except Error Unit
  | .delete _ => Except Error Unit
  | .keys _ => Except Error (List String)
  | .cas _ _ _ => Except Error Bool
  | .now => Int
  | .ask _ => Bool
  | .host _ => Except Error String
  | .random count => Fin count → UInt8

abbrev Prog (α : Type) := Program Op Op.Reply α

abbrev Store := AList fun _ : String => Bytes

/-- The store and the clock, in nanoseconds, that every process shares. -/
structure Shared where
  store : Store
  clock : Int

def Shared.value (shared : Shared) (key : String) : Option Bytes := shared.store.lookup key

def Shared.write (shared : Shared) (key : String) (val : Bytes) : Shared :=
  { shared with store := shared.store.insert key val }

def Shared.erase (shared : Shared) (key : String) : Shared :=
  { shared with store := shared.store.erase key }

@[simp] theorem write_value_self (shared : Shared) (key : String) (val : Bytes) :
    (shared.write key val).value key = some val := by
  simp [Shared.value, Shared.write]

theorem write_value_of_ne (shared : Shared) {key other : String} (val : Bytes)
    (ne : other ≠ key) : (shared.write key val).value other = shared.value other := by
  simp [Shared.value, Shared.write, lookup_insert_ne ne]

@[simp] theorem erase_value_self (shared : Shared) (key : String) :
    (shared.erase key).value key = none := by
  simp [Shared.value, Shared.erase]

theorem erase_value_of_ne (shared : Shared) {key other : String} (ne : other ≠ key) :
    (shared.erase key).value other = shared.value other := by
  simp [Shared.value, Shared.erase, lookup_erase_ne ne]

@[simp] theorem write_clock (shared : Shared) (key : String) (val : Bytes) :
    (shared.write key val).clock = shared.clock := rfl

/-- `key` is `dir`, a slash and a name without a further slash. -/
def directChild (dir key : String) : Bool :=
  (dir ++ "/").toList.isPrefixOf key.toList && !(key.toList.drop (dir ++ "/").length).contains '/'

/-- Names the file store gives to files it is still writing. -/
def temporary (dir key : String) : Bool :=
  (dir ++ "/.tmp-").toList.isPrefixOf key.toList

def exec (s : Shared) (op : Op) (reply : op.Reply) (s' : Shared) : Prop :=
  match op, reply with
  | .get key, .ok val => s' = s ∧ s.value key = some val
  | .get key, .error error =>
    s' = s ∧ (error.is errNotFound = true → s.value key = none)
  | .put key val, .ok () => s' = s.write key val
  | .put key val, .error _ => s' = s ∨ s' = s.write key val
  | .delete key, .ok () => s' = s.erase key
  | .delete key, .error _ => s' = s ∨ s' = s.erase key
  | .keys dir, .ok found =>
    s' = s ∧
      (∀ key ∈ found, (s.value key).isSome ∧ directChild dir key = true) ∧
      ∀ key, (s.value key).isSome → directChild dir key = true →
        temporary dir key = false → key ∈ found
  | .keys _, .error _ => s' = s
  | .cas key old new, .ok true => s.value key = old ∧ s' = s.write key new
  | .cas key old _, .ok false => s.value key ≠ old ∧ s' = s
  | .cas key old new, .error _ =>
    s' = s ∨ (s.value key = old ∧ s' = s.write key new)
  | .now, time => s' = s ∧ time = s.clock
  | .ask _, _ => s' = s
  | .host _, _ => s' = s
  | .random _, _ => s' = s

/-- Time passes; the store changes through operations only. -/
def drift (s s' : Shared) : Prop :=
  s'.store = s.store ∧ s.clock ≤ s'.clock

def machine : Machine Op Op.Reply Shared := ⟨exec, drift⟩

/-- The answers of a store without faults: permission is granted, commands succeed. -/
def answer (s : Shared) : (op : Op) → op.Reply × Shared
  | .get key =>
    match s.value key with
    | some val => (.ok val, s)
    | none => (.error errNotFound, s)
  | .put key val => (.ok (), s.write key val)
  | .delete key => (.ok (), s.erase key)
  | .keys dir => (.ok (s.store.keys.filter (directChild dir)), s)
  | .cas key old new =>
    if s.value key = old then (.ok true, s.write key new) else (.ok false, s)
  | .now => (s.clock, s)
  | .ask _ => (true, s)
  | .host _ => (.ok "", s)
  | .random _ => (fun _ => 0, s)

theorem value_isSome (shared : Shared) (key : String) : (shared.value key).isSome ↔
    key ∈ shared.store.keys := by
  rw [Shared.value, lookup_isSome, mem_keys]

theorem answer_exec (s : Shared) (op : Op) : exec s op (answer s op).1 (answer s op).2 := by
  cases op with
  | get key =>
    simp only [answer]
    split
    · next val got => exact ⟨rfl, got⟩
    · next missing => exact ⟨rfl, fun _ => missing⟩
  | put key val => exact rfl
  | delete key => exact rfl
  | keys dir =>
    refine ⟨rfl, ?_, ?_⟩
    · intro key mem
      obtain ⟨held, child⟩ := List.mem_filter.mp mem
      exact ⟨(value_isSome s key).mpr held, child⟩
    · intro key held child _
      exact List.mem_filter.mpr ⟨(value_isSome s key).mp held, child⟩
  | cas key old new =>
    simp only [answer]
    split
    · next got => exact ⟨got, rfl⟩
    · next ne => exact ⟨ne, rfl⟩
  | now => exact ⟨rfl, rfl⟩
  | ask question => exact rfl
  | host cmd => exact rfl
  | random count => exact rfl

section

variable {s s' : Shared}

theorem exec_get {key : String} {reply : Except Error Bytes} (ran : exec s (.get key) reply s') :
    s' = s ∧ ∀ data, reply = .ok data → s.value key = some data := by
  cases reply with
  | error cause =>
    refine ⟨ran.1, ?_⟩
    intro data impossible
    cases impossible
  | ok val =>
    refine ⟨ran.1, ?_⟩
    rintro data ⟨⟩
    exact ran.2

theorem exec_keys {dir : String} {reply : Except Error (List String)}
    (ran : exec s (.keys dir) reply s') : s' = s := by
  cases reply with
  | error cause => exact ran
  | ok got => exact ran.1

/-- A swap either leaves the store alone or replaces exactly the value it expected. -/
theorem exec_cas {key : String} {old : Option Bytes} {new : Bytes} {reply : Except Error Bool}
    (ran : exec s (.cas key old new) reply s') : (s' = s ∧ reply ≠ .ok true) ∨
      (s.value key = old ∧ s' = s.write key new ∧ reply ≠ .ok false) := by
  match reply, ran with
  | .error cause, .inl eq => exact .inl ⟨eq, nofun⟩
  | .error cause, .inr ⟨got, written⟩ => exact .inr ⟨got, written, nofun⟩
  | .ok false, ⟨_, eq⟩ => exact .inl ⟨eq, nofun⟩
  | .ok true, ⟨got, written⟩ => exact .inr ⟨got, written, nofun⟩

theorem exec_delete {key : String} {reply : Except Error Unit}
    (ran : exec s (.delete key) reply s') :
    (s' = s ∧ reply ≠ .ok ()) ∨ s' = s.erase key := by
  match reply, ran with
  | .error cause, .inl eq => exact .inl ⟨eq, nofun⟩
  | .error cause, .inr erased => exact .inr erased
  | .ok (), erased => exact .inr erased

def Refused : (op : Op) → op.Reply → Prop
  | .cas _ _ _, .ok false => True
  | _, _ => False

/-- All that an operation can do to one key. -/
theorem exec_value {op : Op} {reply : op.Reply} (ran : exec s op reply s') (key : String) :
    s'.value key = s.value key ∨
      (∃ old new, op = .cas key old new ∧ ¬Refused op reply ∧ s.value key = old ∧
        s'.value key = some new) ∨
      (∃ val, op = .put key val ∧ s'.value key = some val) ∨
      (op = .delete key ∧ s'.value key = none) := by
  cases op with
  | get t =>
    rw [(exec_get ran).1]
    exact .inl rfl
  | put t val =>
    have wrote : s' = s ∨ s' = s.write t val := by
      cases reply with
      | error cause => exact ran
      | ok done => exact .inr ran
    rcases wrote with rfl | rfl
    · exact .inl rfl
    · by_cases eq : key = t
      · subst eq
        exact .inr (.inr (.inl ⟨val, rfl, write_value_self s key val⟩))
      · exact .inl (write_value_of_ne s val eq)
  | delete t =>
    rcases exec_delete ran with ⟨rfl, -⟩ | rfl
    · exact .inl rfl
    · by_cases eq : key = t
      · subst eq
        exact .inr (.inr (.inr ⟨rfl, erase_value_self s key⟩))
      · exact .inl (erase_value_of_ne s eq)
  | keys dir =>
    rw [exec_keys ran]
    exact .inl rfl
  | cas t old new =>
    rcases exec_cas ran with ⟨rfl, -⟩ | ⟨got, rfl, took⟩
    · exact .inl rfl
    · by_cases eq : key = t
      · subst eq
        refine .inr (.inl ⟨old, new, rfl, ?_, got, write_value_self s key new⟩)
        match reply, took with
        | .ok false, took => exact absurd rfl took
        | .ok true, _ => exact nofun
        | .error cause, _ => exact nofun
      · exact .inl (write_value_of_ne s new eq)
  | now =>
    rw [ran.1]
    exact .inl rfl
  | ask question | host cmd | random count => exact .inl (congrArg (Shared.value · key) ran)

end

/-- The swap took effect, whether or not its caller was told. -/
def Commits (s s' : Shared) : (op : Op) → op.Reply → Prop
  | .cas _ _ _, .ok true => True
  | .cas key _ _, _ => s'.value key ≠ s.value key
  | _, _ => False

def readEach : List String → Prog (Except Error (List (String × Bytes)))
  | [] => return .ok []
  | key :: keys => do
      match ← Program.perform (Op.get key) with
      | .error cause => return .error (.new ("state: list read " ++ key ++ ": " ++ cause.text))
      | .ok data =>
        match ← readEach keys with
        | .error cause => return .error cause
        | .ok values => return .ok ((key, data) :: values)

/-- The file store lists names first and reads each file after; that the others answer at once is
the run with nothing in between. -/
def list (dir : String) : Prog (Except Error (List (String × Bytes))) := do
  match ← Program.perform (Op.keys dir) with
  | .error cause => return .error cause
  | .ok keys => readEach keys

end Infrastructure.State
