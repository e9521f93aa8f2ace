import Mathlib.Data.List.Basic

/-! Services that answer calls, and contracts that say what they may answer.

A contract has a state of its own. Which answers it allows depends on that state only, so services
built in different ways can be held to one contract, each for the calls that it admits. -/

namespace Infrastructure.Refinement

structure Service (Call Answer : Type) where
  State : Type
  start : State
  step : State → Call → Answer × State

structure Contract (Call Answer : Type) where
  State : Type
  start : State
  after : State → Call → State
  allows : State → Call → Answer → Prop

variable {Call Answer : Type}

namespace Service

def answersFrom (service : Service Call Answer) : service.State → List Call → List Answer
  | _, [] => []
  | state, call :: calls =>
    (service.step state call).1 :: service.answersFrom (service.step state call).2 calls

def answers (service : Service Call Answer) (calls : List Call) : List Answer :=
  service.answersFrom service.start calls

end Service

namespace Contract

variable (contract : Contract Call Answer)

/-- The answers are allowed, each in the state that the calls before it lead to. -/
def FollowsFrom : contract.State → List Call → List Answer → Prop
  | _, [], answers => answers = []
  | _, _ :: _, [] => False
  | state, call :: calls, answer :: answers =>
    contract.allows state call answer ∧ FollowsFrom (contract.after state call) calls answers

/-- Every call is admitted in the state that the calls before it lead to. -/
def AdmitsFrom (admits : contract.State → Call → Prop) : contract.State → List Call → Prop
  | _, [] => True
  | state, call :: calls => admits state call ∧ AdmitsFrom admits (contract.after state call) calls

def Follows (calls : List Call) (answers : List Answer) : Prop :=
  contract.FollowsFrom contract.start calls answers

def Admits (admits : contract.State → Call → Prop) (calls : List Call) : Prop :=
  contract.AdmitsFrom admits contract.start calls

variable {contract}

theorem admits_of_forall {admits : Call → Prop} {calls : List Call}
    (all : ∀ call ∈ calls, admits call) :
    contract.Admits (fun _ => admits) calls := by
  have from_any (calls : List Call) (all : ∀ call ∈ calls, admits call) (state : contract.State) :
      contract.AdmitsFrom (fun _ => admits) state calls := by
    induction calls generalizing state with
    | nil => trivial
    | cons call calls ih =>
      exact ⟨all call (.head _), ih (fun later mem => all later (.tail _ mem)) _⟩
  exact from_any calls all contract.start

end Contract

/-- A relation between the states that every admitted call keeps, with an answer that is allowed. -/
structure Simulation (service : Service Call Answer) (contract : Contract Call Answer)
    (admits : contract.State → Call → Prop) where
  relation : service.State → contract.State → Prop
  start : relation service.start contract.start
  step : ∀ concrete abstract call, relation concrete abstract → admits abstract call →
    contract.allows abstract call (service.step concrete call).1 ∧
      relation (service.step concrete call).2 (contract.after abstract call)

variable {service : Service Call Answer} {contract : Contract Call Answer}
    {admits : contract.State → Call → Prop}

theorem Simulation.follows (simulation : Simulation service contract admits) {calls : List Call}
    (admitted : contract.Admits admits calls) : contract.Follows calls (service.answers calls) := by
  have from_related (calls : List Call) : ∀ concrete abstract,
      simulation.relation concrete abstract →
      contract.AdmitsFrom admits abstract calls →
        contract.FollowsFrom abstract calls (service.answersFrom concrete calls) := by
    induction calls with
    | nil =>
      intro _ _ _ _
      rfl
    | cons call calls ih =>
      intro concrete abstract rel admitted
      obtain ⟨ok, kept⟩ := simulation.step concrete abstract call rel admitted.1
      exact ⟨ok, ih _ _ kept admitted.2⟩
  exact from_related calls _ _ simulation.start admitted

/-- Answers that follow the same contract agree wherever two allowed answers have to. -/
theorem Contract.FollowsFrom.agree {agree : Answer → Answer → Prop}
    (determined : ∀ state call first snd, contract.allows state call first →
      contract.allows state call snd →
      agree first snd) {state : contract.State} {calls : List Call} {first snd : List Answer}
    (one : contract.FollowsFrom state calls first) (other : contract.FollowsFrom state calls snd) :
    List.Forall₂ agree first snd := by
  induction calls generalizing state first snd with
  | nil =>
    cases one
    cases other
    exact .nil
  | cons call calls ih =>
    cases first with
    | nil => exact one.elim
    | cons answer first =>
      cases snd with
      | nil => exact other.elim
      | cons answer' snd => exact .cons (determined _ _ _ _ one.1 other.1) (ih one.2 other.2)

end Infrastructure.Refinement
