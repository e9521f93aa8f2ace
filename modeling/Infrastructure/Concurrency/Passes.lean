import Infrastructure.Concurrency.Interleaving
import Infrastructure.Concurrency.Sequential

/-! Programs that run one after the other, each as far as it gets, on a machine that may answer in
many ways. -/

namespace Infrastructure.Concurrency

variable {Op : Type} {Reply : Op → Type} {State Call Out α β : Type}

namespace Program

variable (m : Machine Op Reply State)

/-- How far a program may get. -/
inductive Runs : Program Op Reply α → State → Program Op Reply α → State → Prop
  | refl (prog : Program Op Reply α) (state : State) : Runs prog state prog state
  | step {op : Op} {next : Reply op →
      Program Op Reply α} {reply : Reply op} {rest : Program Op Reply α}
      {s middle s' : State} (ran : m.exec s op reply middle)
      (later : Runs (next reply) middle rest s') : Runs (.call op next) s rest s'

/-- The invariant holds all along, and the postcondition at the end. -/
def Keeps (inv : State → Prop) (post : α → State → Prop) : Program Op Reply α → State → Prop
  | .ret val, state => post val state
  | .call op next, state => ∀ reply s', m.exec state op reply s' →
      inv s' ∧ (next reply).Keeps inv post s'

abbrev Ends (post : α → State → Prop) (prog : Program Op Reply α) (state : State) : Prop :=
  prog.Keeps m (fun _ => True) post state

variable {m} {inv : State → Prop} {prog : Program Op Reply α} {state : State}

theorem Keeps.mono {strong weak : α → State → Prop} (keeps : prog.Keeps m inv strong state)
    (weaker : ∀ val state, strong val state → weak val state) : prog.Keeps m inv weak state := by
  induction prog generalizing state with
  | ret val => exact weaker val state keeps
  | call op next ih =>
    intro reply s' ran
    have step := keeps reply s' ran
    exact ⟨step.1, ih reply step.2⟩

variable {post : α → State → Prop}

theorem Keeps.weaken {weak : State → Prop} (weaker : ∀ state, inv state → weak state)
    (keeps : prog.Keeps m inv post state) : prog.Keeps m weak post state := by
  induction prog generalizing state with
  | ret val => exact keeps
  | call op next ih =>
    intro reply s' ran
    have step := keeps reply s' ran
    exact ⟨weaker s' step.1, ih reply step.2⟩

theorem Keeps.bind {mid : α → State → Prop} {post : β → State → Prop}
    {k : α → Program Op Reply β} (keeps : prog.Keeps m inv mid state)
    (rest : ∀ val state, mid val state → (k val).Keeps m inv post state) :
    (prog >>= k).Keeps m inv post state := by
  induction prog generalizing state with
  | ret val => exact rest val state keeps
  | call op next ih =>
    intro reply s' ran
    have step := keeps reply s' ran
    exact ⟨step.1, ih reply step.2⟩

theorem Keeps.refine {fewer : Machine Op Reply State}
    (incl : ∀ s op reply s', fewer.exec s op reply s' → m.exec s op reply s')
    (keeps : prog.Keeps m inv post state) : prog.Keeps fewer inv post state := by
  induction prog generalizing state with
  | ret val => exact keeps
  | call op next ih =>
    intro reply s' ran
    have step := keeps reply s' (incl _ _ _ _ ran)
    exact ⟨step.1, ih reply step.2⟩

theorem Keeps.and {first snd : α → State → Prop}
    (left : prog.Keeps m inv first state) (right : prog.Keeps m inv snd state) :
    prog.Keeps m inv (fun val state => first val state ∧ snd val state) state := by
  induction prog generalizing state with
  | ret val => exact ⟨left, right⟩
  | call op next ih =>
    intro reply s' ran
    have step := left reply s' ran
    exact ⟨step.1, ih reply step.2 (right reply s' ran).2⟩

def Only (m : Machine Op Reply State) (allowed : Op → Prop) : Program Op Reply α → State → Prop
  | .ret _, _ => True
  | .call op next, state => allowed op ∧ ∀ reply s', m.exec state op reply s' →
      (next reply).Only m allowed s'

variable {allowed : Op → Prop}

theorem Uses.only (uses : prog.Uses allowed fun _ => True) : prog.Only m allowed state := by
  induction prog generalizing state with
  | ret val => trivial
  | call op next ih => exact ⟨uses.1, fun reply s' _ => ih reply (uses.2 reply)⟩

theorem Only.bind {mid : α → State → Prop} {k : α → Program Op Reply β}
    (only : prog.Only m allowed state) (keeps : prog.Keeps m inv mid state)
    (rest : ∀ val state, mid val state → (k val).Only m allowed state) :
    (prog >>= k).Only m allowed state := by
  induction prog generalizing state with
  | ret val => exact rest val state keeps
  | call op next ih =>
    refine ⟨only.1, ?_⟩
    intro reply s' ran
    exact ih reply (only.2 reply s' ran) (keeps reply s' ran).2

theorem Uses.keeps {post : α → Prop}
    (uses : prog.Uses (fun op => ∀ s reply s', m.exec s op reply s' → inv s →
      inv s') post) (holds : inv state) :
    prog.Keeps m inv (fun val s' => post val ∧ inv s') state := by
  induction prog generalizing state with
  | ret val => exact ⟨uses, holds⟩
  | call op next ih =>
    intro reply s' ran
    have kept := uses.1 state reply s' ran holds
    exact ⟨kept, ih reply (uses.2 reply) kept⟩

variable {s s' : State}

theorem Runs.only {prog rest : Program Op Reply α} (runs : prog.Runs m s rest s')
    (only : prog.Only m allowed s) :
    rest.Only m allowed s' := by
  induction runs with
  | refl => exact only
  | step ran _ ih => exact ih (only.2 _ _ ran)

def Comes (m : Machine Op Reply State) (op : Op) (prog : Program Op Reply α)
    (state : State) : Prop :=
  ∃ next s', prog.Runs m state (.call op next) s'

theorem comes_call (op : Op) (next : Reply op → Program Op Reply α) (state : State) :
    (Program.call op next).Comes m op state :=
  ⟨next, state, .refl _ _⟩

theorem Comes.step {first op : Op} {next : Reply first → Program Op Reply α} {reply : Reply first}
    {s mid : State} (ran : m.exec s first reply mid) (later : (next reply).Comes m op mid) :
    (Program.call first next).Comes m op s := by
  obtain ⟨rest, s', runs⟩ := later
  exact ⟨rest, s', .step ran runs⟩

theorem Comes.only {op : Op} (comes : prog.Comes m op s) (only : prog.Only m allowed s) :
    allowed op := by
  obtain ⟨next, s', runs⟩ := comes
  exact (runs.only only).1

theorem Runs.keeps {prog rest : Program Op Reply α} (runs : prog.Runs m s rest s')
    (keeps : prog.Keeps m inv post s) (holds : inv s) : inv s' := by
  induction runs with
  | refl => exact holds
  | step ran _ ih =>
    have step := keeps _ _ ran
    exact ih step.2 step.1

theorem Runs.trans {prog rest final : Program Op Reply α} {s mid s' : State}
    (runs : prog.Runs m s rest mid) (later : rest.Runs m mid final s') :
    prog.Runs m s final s' := by
  induction runs with
  | refl => exact later
  | step ran _ ih => exact .step ran (ih later)

theorem Runs.ends {val : α} (runs : prog.Runs m s (.ret val) s') (keeps : prog.Keeps m inv post s) :
    post val s' := by
  have kept {prog rest : Program Op Reply α} {s s' : State} (runs : prog.Runs m s rest s')
      (keeps : prog.Keeps m inv post s) : rest.Keeps m inv post s' := by
    induction runs with
    | refl => exact keeps
    | step ran _ ih => exact ih (keeps _ _ ran).2
  exact kept runs keeps

variable {answer : State → (op : Op) → Reply op × State}

theorem Runs.answered
    (answers : ∀ state op, m.exec state op (answer state op).1 (answer state op).2)
    (prog : Program Op Reply α) (state : State) :
    prog.Runs m state (.ret (prog.run (fun op state => answer state op) state).1)
      (prog.run (fun op state => answer state op) state).2 := by
  induction prog generalizing state with
  | ret val => exact .refl _ _
  | call op next ih => exact .step (answers state op) (ih _ _)

/-- Where a program ends that gets the answers of a deterministic machine. -/
def outcome (answer : State → (op : Op) → Reply op × State) (prog : Program Op Reply α)
    (state : State) : State :=
  (prog.run (fun op state => answer state op) state).2

/-- The answers of a deterministic machine all pass a check on the way. -/
def Meets (answer : State → (op : Op) → Reply op × State) (ok : (op : Op) → Reply op → Bool) :
    Program Op Reply α → State → Bool
  | .ret _, _ => true
  | .call op next, state =>
    ok op (answer state op).1 && (next (answer state op).1).Meets answer ok (answer state op).2

theorem meets_any (answer : State → (op : Op) → Reply op × State) (prog : Program Op Reply α)
    (state : State) :
    prog.Meets answer (fun _ _ => true) state = true := by
  induction prog generalizing state with
  | ret val => rfl
  | call op next ih => exact ih _ _

theorem Runs.checked {ok : (op : Op) → Reply op → Bool}
    (answers : ∀ state op, ok op (answer state op).1 = true →
      m.exec state op (answer state op).1 (answer state op).2)
    (meets : prog.Meets answer ok state = true) :
    prog.Runs m state (.ret (prog.run (fun op state => answer state op) state).1)
      (prog.outcome answer state) := by
  induction prog generalizing state with
  | ret val => exact .refl _ _
  | call op next ih =>
    rw [Meets, Bool.and_eq_true] at meets
    exact .step (answers state op meets.1) (ih _ meets.2)

theorem Keeps.answered
    (answers : ∀ state op, m.exec state op (answer state op).1 (answer state op).2)
    (keeps : prog.Keeps m inv post state) :
    post (prog.run (fun op state => answer state op) state).1
      (prog.run (fun op state => answer state op) state).2 := by
  induction prog generalizing state with
  | ret val => exact keeps
  | call op next ih => exact ih _ (keeps _ _ (answers state op)).2

end Program

/-- The states that calls lead to one at a time, each admitted where it starts, and run to its end
or part of the way. -/
inductive Passes (m : Machine Op Reply State) (body : Call → Program Op Reply Out)
    (admits : Call → State → Prop) (start : State) : State → Prop
  | start : Passes m body admits start start
  | run {s s' : State} {call : Call} {rest : Program Op Reply Out}
      (reached : Passes m body admits start s) (admitted : admits call s)
      (runs : (body call).Runs m s rest s') : Passes m body admits start s'
  | drift {s s' : State} (reached : Passes m body admits start s)
      (moved : m.drift s s') : Passes m body admits start s'

variable {body : Call → Program Op Reply Out} {m : Machine Op Reply State}
    {admits : Call → State → Prop}

theorem Passes.answered {start s : State} {answer : State → (op : Op) → Reply op × State}
    (answers : ∀ state op, m.exec state op (answer state op).1 (answer state op).2)
    (hit : Passes m body admits start s) (call : Call) (ok : admits call s) :
    Passes m body admits start ((body call).run (fun op state => answer state op) s).2 :=
  .run hit ok (Program.Runs.answered answers (body call) s)

/-- A call whose operations get the answers of a deterministic machine. -/
theorem Passes.outcome {start s : State} {answer : State → (op : Op) → Reply op × State}
    {ok : (op : Op) → Reply op → Bool}
    (answers : ∀ state op, ok op (answer state op).1 = true →
      m.exec state op (answer state op).1 (answer state op).2)
    (hit : Passes m body admits start s) (call : Call) (admitted : admits call s)
    (meets : (body call).Meets answer ok s = true) :
    Passes m body admits start ((body call).outcome answer s) :=
  .run hit admitted (Program.Runs.checked answers meets)

theorem Passes.invariant {start state : State} {inv : State → Prop} (holds : inv start)
    (kept : ∀ call state, admits call state → inv state →
      (body call).Keeps m inv (fun _ _ => True) state)
    (drifts : ∀ s s', m.drift s s' → inv s → inv s')
    (hit : Passes m body admits start state) : inv state := by
  induction hit with
  | start => exact holds
  | run _ admitted runs ih => exact runs.keeps (kept _ _ admitted ih) ih
  | drift _ moved ih => exact drifts _ _ moved ih

/-- The states that calls lead to when they run one at a time, each to its end. -/
inductive Calls (m : Machine Op Reply State) (body : Call → Program Op Reply Out)
    (start : State) : State → Prop
  | start : Calls m body start start
  | call {s s' : State} {val : Out} (reached : Calls m body start s) (call : Call)
      (runs : (body call).Runs m s (.ret val) s') : Calls m body start s'

theorem Calls.invariant {start state : State} {inv : State → Prop} (holds : inv start)
    (kept : ∀ call state, inv state →
      (body call).Ends m (fun _ s' => inv s') state)
    (hit : Calls m body start state) : inv state := by
  induction hit with
  | start => exact holds
  | call _ _ runs ih => exact runs.ends (kept _ _ ih)

end Infrastructure.Concurrency
