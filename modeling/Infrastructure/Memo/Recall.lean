import Mathlib.Logic.Function.Basic

/-! Stateful computations that answer as a pure function does.

A computation agrees with a value when it returns that value from every state that satisfies an
invariant, and leaves a state that does. Agreement passes through sequencing, and remembering
the answers of a computation keeps it. -/

namespace Infrastructure.Memo

variable {σ α β κ ν : Type}

def Agrees (inv : σ → Prop) (prog : StateM σ α) (val : α) : Prop :=
  ∀ state, inv state → (prog.run state).1 = val ∧ inv (prog.run state).2

variable {inv : σ → Prop}

theorem agrees_pure (val : α) : Agrees inv (pure val) val := by
  intro state holds
  exact ⟨rfl, holds⟩

theorem Agrees.bind {prog : StateM σ α} {val : α} {next : α → StateM σ β} {out : β}
    (first : Agrees inv prog val) (snd : Agrees inv (next val) out) :
    Agrees inv (prog >>= next) out := by
  intro state holds
  obtain ⟨eq, kept⟩ := first state holds
  rw [← eq] at snd
  exact snd _ kept

theorem agrees_mapM {prog : α → StateM σ β} {function : α → β}
    (agrees : ∀ item, Agrees inv (prog item) (function item)) (items : List α) :
    Agrees inv (items.mapM prog) (items.map function) := by
  induction items with
  | nil => exact agrees_pure []
  | cons item items ih =>
    rw [List.mapM_cons]
    exact (agrees item).bind (ih.bind (agrees_pure _))

/-- A table of answers kept in a part of the state. -/
structure Table (σ κ ν : Type) where
  find : σ → κ → Option ν
  insert : σ → κ → ν → σ

/-- The remembered answer, or one that is computed and remembered. -/
def memoized (table : Table σ κ ν) (compute : StateM σ ν) (key : κ) : StateM σ ν := do
  match table.find (← get) key with
  | some val => return val
  | none =>
    let val ← compute
    modify fun state => table.insert state key val
    return val

theorem agrees_recall {table : Table σ κ ν} {compute : StateM σ ν} {key : κ} {val : ν}
    (remembered : ∀ state, inv state → ∀ got, table.find state key = some got → got = val)
    (computed : Agrees inv compute val)
    (inserted : ∀ state, inv state → inv (table.insert state key val)) :
    Agrees inv (memoized table compute key) val := by
  intro state holds
  cases got : table.find state key with
  | some old =>
    have eq : (memoized table compute key).run state = (old, state) := by
      simp [memoized, got]
      rfl
    rw [eq]
    exact ⟨remembered state holds old got, holds⟩
  | none =>
    have ran : (memoized table compute key).run state =
        ((compute.run state).1, table.insert (compute.run state).2 key (compute.run state).1) := by
      simp [memoized, got]
      rfl
    obtain ⟨eq, kept⟩ := computed state holds
    rw [ran, eq]
    exact ⟨rfl, inserted _ kept⟩

end Infrastructure.Memo
