import Infrastructure.Concurrency.Protocol

/-! A machine that keeps a record of the states it has been in, for properties that
speak of earlier steps of a run. -/

namespace Infrastructure.Concurrency

variable {Op : Type} {Reply : Op → Type} {State Call Out : Type}

/-- The state, and the states before and after each operation so far, newest first. -/
structure Recorded (State : Type) where
  now : State
  log : List (State × State)

def Machine.recorded (m : Machine Op Reply State) : Machine Op Reply (Recorded State) where
  exec before op reply after :=
    m.exec before.now op reply after.now ∧ after.log = (before.now, after.now) :: before.log
  drift before after := m.drift before.now after.now ∧ after.log = before.log

def recordedAnswer (answer : State → (op : Op) → Reply op × State) (before : Recorded State)
    (op : Op) :
    Reply op × Recorded State :=
  ((answer before.now op).1,
    ⟨(answer before.now op).2, (before.now, (answer before.now op).2) :: before.log⟩)

theorem recordedAnswer_exec {m : Machine Op Reply State}
    {answer : State → (op : Op) → Reply op × State}
    (answers : ∀ state op, m.exec state op (answer state op).1 (answer state op).2)
    (pre : Recorded State)
    (op : Op) : m.recorded.exec pre op (recordedAnswer answer pre op).1
    (recordedAnswer answer pre op).2 :=
  ⟨answers pre.now op, rfl⟩

/-- An operation of a run with the states around it. -/
structure Moment (Op : Type) (Reply : Op → Type) (State Call : Type) where
  event : Event Op Reply Call
  before : State
  after : State

def moments (past : List (Event Op Reply Call)) (log : List (State × State)) :
    List (Moment Op Reply State Call) :=
  List.zipWith (fun event states => ⟨event, states.1, states.2⟩) past log

def World.moments (w : World Op Reply (Recorded State) Call) : List (Moment Op Reply State Call) :=
  Concurrency.moments w.past w.state.log

@[simp] theorem moments_next (w : World Op Reply (Recorded State) Call)
    (event : Event Op Reply Call) (state : State) :
    (w.next event ⟨state, (w.state.now, state) :: w.state.log⟩).moments = ⟨event, w.state.now,
      state⟩ :: w.moments := rfl

def Configuration.plain (configuration : Configuration Op Reply (Recorded State) Call Out) :
    Configuration Op Reply State Call Out :=
  ⟨⟨configuration.state.now, configuration.past⟩, configuration.thread⟩

theorem Reachable.recorded {m : Machine Op Reply State} {body : Call → Program Op Reply Out}
    {allow : Configuration Op Reply State Call Out → Configuration Op Reply State Call Out → Prop}
    {start : State} {configuration : Configuration Op Reply State Call Out}
    (hit : Reachable m body allow start configuration) :
    ∃ kept : Configuration Op Reply (Recorded State) Call Out, kept.plain = configuration ∧
      Reachable m.recorded body (fun pre after => allow pre.plain after.plain) ⟨start,
        []⟩ kept := by
  induction hit with
  | initial => exact ⟨_, rfl, .initial⟩
  | @step pre after _ moved ok ih =>
    obtain ⟨kept, rfl, hit⟩ := ih
    cases moved with
    | start index call free =>
      exact ⟨_, rfl, .step hit (.start kept index call free) ok⟩
    | act index call op next reply state running ran =>
      exact ⟨_, rfl, .step hit
        (.act kept index call op next reply ⟨state,
          (kept.state.now, state) :: kept.state.log⟩ running ⟨ran, rfl⟩) ok⟩
    | finish index call val running =>
      exact ⟨_, rfl, .step hit (.finish kept index call val running) ok⟩
    | drift state drifted =>
      exact ⟨_, rfl, .step hit (.drift kept ⟨state, kept.state.log⟩ ⟨drifted, rfl⟩) ok⟩

end Infrastructure.Concurrency
