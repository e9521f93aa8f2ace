import Infrastructure.Concurrency.Program

/-! Any number of threads, each running a program, over one shared state.

A configuration keeps the operations performed so far, newest first, so that
ownership, grants and other facts about a run are functions of its past and no
program carries bookkeeping of its own. -/

namespace Infrastructure.Concurrency

structure Event (Op : Type) (Reply : Op → Type) (Call : Type) where
  thread : Nat
  call : Call
  op : Op
  reply : Reply op

/-- What an operation may do to the shared state, and how the state may change in between. -/
structure Machine (Op : Type) (Reply : Op → Type) (State : Type) where
  exec : State → (op : Op) → Reply op → State → Prop
  drift : State → State → Prop

structure World (Op : Type) (Reply : Op → Type) (State Call : Type) where
  state : State
  past : List (Event Op Reply Call)

structure Thread (Op : Type) (Reply : Op → Type) (Call Out : Type) where
  call : Call
  rest : Program Op Reply Out

structure Configuration (Op : Type) (Reply : Op → Type) (State Call Out : Type) extends
    World Op Reply State Call where
  thread : Nat → Option (Thread Op Reply Call Out)

variable {Op : Type} {Reply : Op → Type} {State Call Out : Type}

def Configuration.initial (state : State) : Configuration Op Reply State Call Out :=
  ⟨⟨state, []⟩, fun _ => none⟩

def World.next (w : World Op Reply State Call) (event : Event Op Reply Call) (state : State) :
    World Op Reply State Call :=
  ⟨state, event :: w.past⟩

@[simp] theorem World.next_state (w : World Op Reply State Call)
    (event : Event Op Reply Call) (state : State) : (w.next event state).state = state := rfl

@[simp] theorem World.next_past (w : World Op Reply State Call) (event : Event Op Reply Call)
    (state : State) :
    (w.next event state).past = event :: w.past := rfl

def Configuration.put (s : Configuration Op Reply State Call Out) (i : Nat)
    (thread : Option (Thread Op Reply Call Out)) : Nat → Option (Thread Op Reply Call Out) :=
  Function.update s.thread i thread

@[simp] theorem Configuration.put_self (s : Configuration Op Reply State Call Out) (i : Nat)
    (t : Option (Thread Op Reply Call Out)) : s.put i t i = t := by
  rw [Configuration.put, Function.update_self]

theorem Configuration.put_of_ne (s : Configuration Op Reply State Call Out) {i other : Nat}
    (ne : other ≠ i) (t : Option (Thread Op Reply Call Out)) :
    s.put i t other = s.thread other := by
  rw [Configuration.put, Function.update_of_ne ne]

inductive Step (m : Machine Op Reply State) (body : Call → Program Op Reply Out) :
    Configuration Op Reply State Call Out → Configuration Op Reply State Call Out → Prop
  | start (s : Configuration Op Reply State Call Out) (i : Nat) (call : Call)
      (free : s.thread i = none) :
      Step m body s ⟨s.toWorld, s.put i (some ⟨call, body call⟩)⟩
  | act (s : Configuration Op Reply State Call Out) (i : Nat) (call : Call) (op : Op)
      (next : Reply op → Program Op Reply Out) (reply : Reply op) (state : State)
      (running : s.thread i = some ⟨call, .call op next⟩)
      (ran : m.exec s.state op reply state) :
      Step m body s
        ⟨s.toWorld.next ⟨i, call, op, reply⟩ state,
          s.put i (some ⟨call, next reply⟩)⟩
  | finish (s : Configuration Op Reply State Call Out) (i : Nat) (call : Call) (val : Out)
      (running : s.thread i = some ⟨call, .ret val⟩) :
      Step m body s ⟨s.toWorld, s.put i none⟩
  | drift (s : Configuration Op Reply State Call Out) (state : State)
      (moved : m.drift s.state state) :
      Step m body s ⟨⟨state, s.past⟩, s.thread⟩

/-- The configurations of the runs all of whose steps satisfy `allow`. -/
inductive Reachable (m : Machine Op Reply State) (body : Call → Program Op Reply Out)
    (allow : Configuration Op Reply State Call Out → Configuration Op Reply State Call Out → Prop)
    (start : State) : Configuration Op Reply State Call Out → Prop
  | initial : Reachable m body allow start (Configuration.initial start)
  | step {s s' : Configuration Op Reply State Call Out}
      (reached : Reachable m body allow start s)
      (moved : Step m body s s') (ok : allow s s') :
      Reachable m body allow start s'

theorem Reachable.preserves {m : Machine Op Reply State} {body : Call → Program Op Reply Out}
    {allow : Configuration Op Reply State Call Out → Configuration Op Reply State Call Out → Prop}
    {start : State} (property : Configuration Op Reply State Call Out → Prop)
    (holds : property (Configuration.initial start))
    (kept : ∀ s s', property s → Step m body s s' → allow s s' → property s')
    {config : Configuration Op Reply State Call Out}
    (hit : Reachable m body allow start config) : property config := by
  induction hit with
  | initial => exact holds
  | step _ moved ok ih => exact kept _ _ ih moved ok

section

/-- One move of a scheduler that answers operations with a function of the state. -/
inductive Move (State Call : Type) where
  | start (i : Nat) (call : Call)
  | act (i : Nat)
  | finish (i : Nat)
  | drift (change : State → State)

variable (perform : State → (op : Op) → Reply op × State) (body : Call → Program Op Reply Out)

def playOne (s : Configuration Op Reply State Call Out) :
    Move State Call → Option (Configuration Op Reply State Call Out)
  | .start i call =>
    match s.thread i with
    | none => some ⟨s.toWorld, s.put i (some ⟨call, body call⟩)⟩
    | some _ => none
  | .act i =>
    match s.thread i with
    | some ⟨call, .call op next⟩ =>
      let outcome := perform s.state op
      some ⟨s.toWorld.next ⟨i, call, op, outcome.1⟩ outcome.2,
        s.put i (some ⟨call, next outcome.1⟩)⟩
    | _ => none
  | .finish i =>
    match s.thread i with
    | some ⟨_, .ret _⟩ => some ⟨s.toWorld, s.put i none⟩
    | _ => none
  | .drift change => some ⟨⟨change s.state, s.past⟩, s.thread⟩

/-- Plays a list of moves, as long as each step passes the guard. -/
def play (guard : Configuration Op Reply State Call Out →
      Configuration Op Reply State Call Out → Bool)
    (s : Configuration Op Reply State Call Out) :
    List (Move State Call) → Option (Configuration Op Reply State Call Out)
  | [] => some s
  | move :: moves =>
    match playOne perform body s move with
    | some s' => if guard s s' then play guard s' moves else none
    | none => none

variable {perform body} {m : Machine Op Reply State}

def Move.Legal (m : Machine Op Reply State) : Move State Call → Prop
  | .drift change => ∀ state, m.drift state (change state)
  | _ => True

variable {s s' : Configuration Op Reply State Call Out}

theorem playOne_step {move : Move State Call}
    (faithful : ∀ event : Event Op Reply Call, s'.past = event :: s.past →
      m.exec s.state event.op (perform s.state event.op).1 (perform s.state event.op).2)
    (legal : move.Legal m) (played : playOne perform body s move = some s') :
    Step m body s s' := by
  cases move with
  | start i call =>
    simp only [playOne] at played
    split at played
    · next free =>
      cases played
      exact .start s i call free
    · cases played
  | act i =>
    simp only [playOne] at played
    split at played
    · next call op next running =>
      cases played
      exact .act s i call op next _ _ running (faithful _ rfl)
    · cases played
  | finish i =>
    simp only [playOne] at played
    split at played
    · next call val running =>
      cases played
      exact .finish s i call val running
    · cases played
  | drift change =>
    cases played
    exact .drift s _ (legal s.state)

variable {allow : Configuration Op Reply State Call Out →
      Configuration Op Reply State Call Out → Prop}
variable {guard : Configuration Op Reply State Call Out →
      Configuration Op Reply State Call Out → Bool}
variable {moves : List (Move State Call)} {start : State}

theorem play_enabled (guarded : ∀ s s', guard s s' = true → allow s s' ∧
      ∀ event : Event Op Reply Call, s'.past = event :: s.past →
        m.exec s.state event.op (perform s.state event.op).1 (perform s.state event.op).2)
    (legal : ∀ move ∈ moves, move.Legal m) (hit : Reachable m body allow start s)
    (played : play perform body guard s moves = some s') : Reachable m body allow start s' := by
  induction moves generalizing s with
  | nil =>
    cases played
    exact hit
  | cons move moves ih =>
    simp only [play] at played
    split at played
    · next mid first =>
      split at played
      · next passed =>
        obtain ⟨ok, faithful⟩ := guarded _ _ passed
        have moved := playOne_step faithful (legal move (.head _)) first
        exact ih (fun item mem => legal item (.tail _ mem)) (.step hit moved ok) played
      · cases played
    · cases played

section

variable (faithful : ∀ state op, m.exec state op (perform state op).1 (perform state op).2)
include faithful

theorem play_reachable (guarded : ∀ s s', guard s s' = true → allow s s')
    (legal : ∀ move ∈ moves, move.Legal m) (hit : Reachable m body allow start s)
    (played : play perform body guard s moves = some s') : Reachable m body allow start s' :=
  play_enabled (fun _ _ ok => ⟨guarded _ _ ok, fun _ _ => faithful _ _⟩) legal hit played

theorem play_reaches {check : Configuration Op Reply State Call Out → Bool}
    (guarded : ∀ s s', guard s s' = true → allow s s') (legal : ∀ item ∈ moves, item.Legal m)
    (passed : (play perform body guard (Configuration.initial start) moves).any check = true) :
    ∃ config, Reachable m body allow start config ∧ check config = true := by
  obtain ⟨config, played, ok⟩ := (Option.any_eq_true _ _).mp passed
  exact ⟨config, play_reachable faithful guarded legal .initial played, ok⟩

theorem play_freely {check : Configuration Op Reply State Call Out → Bool}
    (legal : ∀ item ∈ moves, item.Legal m)
    (ok : (play perform body (fun _ _ => true) (Configuration.initial start) moves).any check =
      true) :
    ∃ config, Reachable m body (fun _ _ => True) start config ∧ check config = true :=
  play_reaches faithful (fun _ _ _ => trivial) legal ok

theorem play_step {move : Move State Call}
    {check : Configuration Op Reply State Call Out → Configuration Op Reply State Call Out → Bool}
    (guarded : ∀ s s', guard s s' = true → allow s s')
    (legal : ∀ item ∈ move :: moves, item.Legal m)
    (passed : (play perform body guard (Configuration.initial start) moves).any
      (fun s => (playOne perform body s move).any (check s)) = true) : ∃ s s',
        Reachable m body allow start s ∧
      Step m body s s' ∧ check s s' = true := by
  obtain ⟨s, played, rest⟩ := (Option.any_eq_true _ _).mp passed
  obtain ⟨s', last, ok⟩ := (Option.any_eq_true _ _).mp rest
  have hit := play_reachable faithful guarded
    (fun item mem => legal item (.tail _ mem)) .initial played
  exact ⟨s, s', hit, playOne_step (fun _ _ => faithful _ _) (legal move (.head _)) last, ok⟩

end

end

end Infrastructure.Concurrency
