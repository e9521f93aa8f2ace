import Infrastructure.Concurrency.Program

/-! A program that runs alone, to its end, on a state that its operations change. -/

namespace Infrastructure.Concurrency.Program

variable {State Op : Type} {Reply : Op → Type} {α β : Type}
variable (exec : (op : Op) → State → Reply op × State)

def run : Program Op Reply α → State → α × State
  | .ret val, state => (val, state)
  | .call op next, state => (next (exec op state).1).run (exec op state).2

theorem run_bind (prog : Program Op Reply α) (k : α → Program Op Reply β) (state : State) :
    (prog.bind k).run exec state = (k (prog.run exec state).1).run exec
    (prog.run exec state).2 := by
  induction prog generalizing state with
  | ret val => rfl
  | call op next ih => exact ih (exec op state).1 (exec op state).2

theorem run_then (prog : Program Op Reply α) (k : α → Program Op Reply β) (state : State) :
    (prog >>= k).run exec state = (k (prog.run exec state).1).run exec (prog.run exec state).2 :=
  run_bind exec prog k state

end Infrastructure.Concurrency.Program
