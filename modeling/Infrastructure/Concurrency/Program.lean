import Mathlib.Logic.Function.Basic

/-! Sequential programs whose only effects are atomic operations.

A program is a tree: each node names one operation and continues with its
reply. What an operation does to the shared state is left to the reader of the
tree, so one program serves every interleaving and every failure pattern. -/

namespace Infrastructure.Concurrency

inductive Program (Op : Type) (Reply : Op → Type) (α : Type) where
  | ret (val : α)
  | call (op : Op) (next : Reply op → Program Op Reply α)

namespace Program

variable {Op : Type} {Reply : Op → Type} {α β γ : Type}

def bind : Program Op Reply α → (α → Program Op Reply β) → Program Op Reply β
  | .ret val, k => k val
  | .call op next, k => .call op fun reply => (next reply).bind k

def perform (op : Op) : Program Op Reply (Reply op) := .call op .ret

instance : Monad (Program Op Reply) where
  pure := .ret
  bind := .bind

@[simp] theorem pure_eq_ret (val : α) : (pure val : Program Op Reply α) = .ret val := rfl

@[simp] theorem ret_bind (val : α) (k : α → Program Op Reply β) :
    (Program.ret val >>= k) = k val := rfl

@[simp] theorem call_bind (op : Op) (next : Reply op → Program Op Reply α)
    (k : α → Program Op Reply β) :
    (Program.call op next >>= k) = .call op fun reply => next reply >>= k := rfl

@[simp] theorem perform_bind (op : Op) (k : Reply op → Program Op Reply β) :
    (perform op >>= k) = .call op k := rfl

@[simp] theorem bind_assoc (prog : Program Op Reply α) (first : α → Program Op Reply β)
    (snd : β → Program Op Reply γ) :
    ((prog >>= first) >>= snd) = prog >>= fun val => first val >>= snd := by
  induction prog with
  | ret val => rfl
  | call op next ih =>
    simp only [call_bind, Program.call.injEq, heq_eq_eq, true_and]
    funext reply
    exact ih reply

/-- Whatever the replies, every operation is allowed and every value returned satisfies `post`. -/
def Uses (allowed : Op → Prop) (post : α → Prop) : Program Op Reply α → Prop
  | .ret val => post val
  | .call op next => allowed op ∧ ∀ reply, (next reply).Uses allowed post

variable {allowed : Op → Prop} {post : β → Prop}

theorem Uses.bind {mid : α → Prop} {prog : Program Op Reply α} {k : α → Program Op Reply β}
    (uses : prog.Uses allowed mid) (rest : ∀ val, mid val → (k val).Uses allowed post) :
    (prog >>= k).Uses allowed post := by
  induction prog with
  | ret val => exact rest val uses
  | call op next ih => exact ⟨uses.1, fun reply => ih reply (uses.2 reply)⟩

/-- The rule for a program that may fail: one goal for its error, one for its value. -/
theorem Uses.tries {ε : Type} {mid : Except ε α → Prop} {prog : Program Op Reply (Except ε α)}
    {k : Except ε α → Program Op Reply β} (uses : prog.Uses allowed mid)
    (fails : ∀ err, (k (.error err)).Uses allowed post)
    (goes : ∀ val, (k (.ok val)).Uses allowed post) : (prog >>= k).Uses allowed post := by
  apply uses.bind
  intro reply _
  cases reply with
  | error err => exact fails err
  | ok val => exact goes val

theorem Uses.perform {op : Op} {k : Reply op → Program Op Reply β} (uses : allowed op)
    (rest : ∀ reply, (k reply).Uses allowed post) : (Program.perform op >>= k).Uses allowed post :=
  ⟨uses, rest⟩

theorem Uses.first {prog : Program Op Reply α} {k : α → Program Op Reply β}
    (uses : (prog >>= k).Uses allowed post) : prog.Uses allowed fun _ => True := by
  induction prog with
  | ret val => trivial
  | call op next ih => exact ⟨uses.1, fun reply => ih reply (uses.2 reply)⟩

theorem Uses.mono {strong weak : Op → Prop} {strongPost weakPost : β → Prop}
    (weaker : ∀ op, strong op → weak op) (weakerPost : ∀ val, strongPost val → weakPost val)
    {prog : Program Op Reply β} (uses : prog.Uses strong strongPost) :
    prog.Uses weak weakPost := by
  induction prog with
  | ret val => exact weakerPost val uses
  | call op next ih => exact ⟨weaker op uses.1, fun reply => ih reply (uses.2 reply)⟩

def Returns : Program Op Reply α → α → Prop
  | .ret val, result => val = result
  | .call _ next, result => ∃ reply, (next reply).Returns result

theorem Uses.returns {prog : Program Op Reply β} (uses : prog.Uses allowed post) :
    prog.Uses allowed fun val => post val ∧ prog.Returns val := by
  induction prog with
  | ret val => exact ⟨uses, rfl⟩
  | call op next ih =>
    refine ⟨uses.1, fun reply => ?_⟩
    exact (ih reply (uses.2 reply)).mono (fun _ => id) fun val out => ⟨out.1, reply, out.2⟩

theorem uses_returns (prog : Program Op Reply β) : prog.Uses (fun _ => True) prog.Returns := by
  induction prog with
  | ret val => exact rfl
  | call op next ih =>
    refine ⟨trivial, fun reply => ?_⟩
    exact (ih reply).mono (fun _ => id) fun val out => ⟨reply, out⟩

variable {Op : Type} {Reply : Op → Type} {α β : Type}

/-- The operations performed so far and their replies, newest first. -/
abbrev Trace (Op : Type) (Reply : Op → Type) := List (Sigma Reply)

/-- Every operation is good after those before it, and the program returns as `post` says. -/
def Always (good : Trace Op Reply → Op → Prop) (post : Trace Op Reply → α → Prop) :
    Trace Op Reply → Program Op Reply α → Prop
  | past, .ret val => post past val
  | past, .call op next =>
    good past op ∧ ∀ reply, (next reply).Always good post (⟨op, reply⟩ :: past)

variable {good : Trace Op Reply → Op → Prop} {past : Trace Op Reply}

theorem Always.bind {mid : Trace Op Reply → α → Prop} {post : Trace Op Reply → β → Prop}
    {prog : Program Op Reply α} {k : α → Program Op Reply β} (always : prog.Always good mid past)
    (rest : ∀ later val, mid later val → (k val).Always good post later) :
    (prog >>= k).Always good post past := by
  induction prog generalizing past with
  | ret val => exact rest past val always
  | call op next ih => exact ⟨always.1, fun reply => ih reply (always.2 reply)⟩

theorem always_of_lasting {done : Trace Op Reply → Prop}
    (lasts : ∀ event past, done past → done (event :: past))
    (enough : ∀ past op, done past → good past op) (holds : done past) (prog : Program Op Reply α) :
    prog.Always good (fun _ _ => True) past := by
  induction prog generalizing past with
  | ret val => trivial
  | call op next ih => exact ⟨enough past op holds, fun reply => ih reply (lasts _ _ holds)⟩

/-- What is good as long as only allowed operations came since is good in a program of such
operations. -/
theorem always_of_uses {allowed : Op → Prop} {post : α → Prop}
    (enough : ∀ newer op, (∀ event ∈ newer, allowed event.1) → allowed op → good (newer ++ past) op)
    {prog : Program Op Reply α} (uses : prog.Uses allowed post) :
    prog.Always good (fun _ _ => True) past := by
  suffices later : ∀ newer : Trace Op Reply, (∀ event ∈ newer, allowed event.1) →
      prog.Always good (fun _ _ => True) (newer ++ past) from later [] nofun
  induction prog with
  | ret val => exact fun _ _ => trivial
  | call op next ih =>
    intro newer came
    refine ⟨enough newer op came uses.1, fun reply => ?_⟩
    exact ih reply (uses.2 reply) (⟨op, reply⟩ :: newer) (List.forall_mem_cons.mpr ⟨uses.1, came⟩)

end Program

end Infrastructure.Concurrency
