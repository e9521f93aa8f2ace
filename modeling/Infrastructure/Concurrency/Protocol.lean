import Infrastructure.Concurrency.Interleaving

/-! Rely and guarantee for interleaved programs.

A protocol names an invariant of the world, what a thread may rely on while one
of its operations is pending, and what every operation guarantees. A program is
safe when each of its operations, performed in any world the others may have
brought about, keeps the invariant and gives the guarantee. -/

namespace Infrastructure.Concurrency

variable {Op : Type} {Reply : Op → Type} {State Call Out α β : Type}

structure Protocol (m : Machine Op Reply State) (Call : Type) where
  invariant : World Op Reply State Call → Prop
  /-- What is assumed of each operation that takes effect. -/
  permitted : World Op Reply State Call → World Op Reply State Call → Prop
  /-- What the others may do while the thread waits to perform the operation. -/
  rely : Nat → Op → World Op Reply State Call → World Op Reply State Call → Prop
  guarantee : World Op Reply State Call → World Op Reply State Call → Prop
  rely_refl : ∀ i op w, rely i op w w
  rely_trans : ∀ i op first second third,
    rely i op first second → rely i op second third → rely i op first third

namespace Protocol

variable {m : Machine Op Reply State} (p : Protocol m Call)

def Safe (i : Nat) (call : Call) (post : α → World Op Reply State Call → Prop) :
    Program Op Reply α → World Op Reply State Call → Prop
  | .ret val, w => post val w
  | .call op next, w =>
    ∀ now, p.invariant now → p.rely i op w now →
      ∀ reply state, m.exec now.state op reply state →
        p.permitted now (now.next ⟨i, call, op, reply⟩ state) →
        p.guarantee now (now.next ⟨i, call, op, reply⟩ state) ∧
          p.invariant (now.next ⟨i, call, op, reply⟩ state) ∧
          Safe i call post (next reply) (now.next ⟨i, call, op, reply⟩ state)

variable {p} {w : World Op Reply State Call} {prog : Program Op Reply α} {i : Nat} {call : Call}

theorem Safe.mono {strong weak : α → World Op Reply State Call → Prop}
    (weaker : ∀ val w, strong val w → weak val w)
    (safe : p.Safe i call strong prog w) : p.Safe i call weak prog w := by
  induction prog generalizing w with
  | ret val => exact weaker val w safe
  | call op next ih =>
    intro now kept rely reply state ran ok
    obtain ⟨got, invariant, rest⟩ := safe now kept rely reply state ran ok
    exact ⟨got, invariant, ih reply rest⟩

theorem Safe.bind {post : β → World Op Reply State Call → Prop} {k : α → Program Op Reply β}
    (safe : p.Safe i call
      (fun val later => p.Safe i call post (k val) later) prog w) :
    p.Safe i call post (prog >>= k) w := by
  induction prog generalizing w with
  | ret val => exact safe
  | call op next ih =>
    intro now kept rely reply state ran ok
    obtain ⟨got, invariant, rest⟩ := safe now kept rely reply state ran ok
    exact ⟨got, invariant, ih reply rest⟩

theorem Safe.stable {op : Op} {next : Reply op → Program Op Reply α}
    {post : α → World Op Reply State Call → Prop} {s s' : World Op Reply State Call}
    (safe : p.Safe i call post (.call op next) s) (rely : p.rely i op s s') :
    p.Safe i call post (.call op next) s' := by
  intro now kept later
  exact safe now kept (p.rely_trans i op s s' now rely later)

/-- A program is safe when every operation it may issue keeps the protocol, whatever the
thread knows. -/
theorem Safe.of_uses {ok : Op → Prop} {returns : α → Prop}
    {post : α → World Op Reply State Call → Prop}
    (keeps : ∀ now op reply state, ok op → p.invariant now →
      m.exec now.state op reply state → p.permitted now (now.next ⟨i, call, op, reply⟩ state) →
      p.guarantee now (now.next ⟨i, call, op, reply⟩ state) ∧
        p.invariant (now.next ⟨i, call, op, reply⟩ state))
    (uses : prog.Uses ok returns) (kept : p.invariant w)
    (rest : ∀ val later, returns val → p.invariant later → post val later) :
    p.Safe i call post prog w := by
  induction prog generalizing w with
  | ret val => exact rest val w uses kept
  | call op next ih =>
    intro now invariant _ reply state ran permitted
    have step := keeps now op reply state uses.1 invariant ran permitted
    exact ⟨step.1, step.2, ih reply (uses.2 reply) step.2⟩

variable (p)

/-- What a family of calls must satisfy for the protocol to hold in all their runs. -/
structure Sound (body : Call → Program Op Reply Out)
    (allow : Configuration Op Reply State Call Out → Configuration Op Reply State Call Out → Prop) :
    Prop where
  safe : ∀ i call w, p.invariant w →
    p.Safe i call (fun _ _ => True) (body call) w
  permitted : ∀ s s', allow s s' → p.permitted s.toWorld s'.toWorld
  drift : ∀ (s : Configuration Op Reply State Call Out) state,
    p.invariant s.toWorld → m.drift s.state state →
    allow s ⟨⟨state, s.past⟩, s.thread⟩ →
    p.invariant ⟨state, s.past⟩ ∧ p.guarantee s.toWorld ⟨state, s.past⟩
  interference : ∀ (s s' : Configuration Op Reply State Call Out) i call op next,
    p.invariant s.toWorld →
    allow s s' → p.guarantee s.toWorld s'.toWorld →
    s'.past = s.past ∨ (∃ event, event.thread ≠ i ∧ s'.past = event :: s.past) →
    s.thread i = some ⟨call, .call op next⟩ →
    s'.thread i = some ⟨call, .call op next⟩ →
    p.rely i op s.toWorld s'.toWorld

/-- The same with what each call leaves behind: a fact about its result that lasts. -/
structure Delivers (post : Nat → Call → Out → World Op Reply State Call → Prop)
    (body : Call → Program Op Reply Out)
    (allow : Configuration Op Reply State Call Out → Configuration Op Reply State Call Out → Prop) :
    Prop where
  safe : ∀ i call w, p.invariant w →
    p.Safe i call (post i call) (body call) w
  permitted : ∀ s s', allow s s' → p.permitted s.toWorld s'.toWorld
  drift : ∀ (s : Configuration Op Reply State Call Out) state,
    p.invariant s.toWorld → m.drift s.state state →
    allow s ⟨⟨state, s.past⟩, s.thread⟩ →
    p.invariant ⟨state, s.past⟩ ∧ p.guarantee s.toWorld ⟨state, s.past⟩
  interference : ∀ (s s' : Configuration Op Reply State Call Out) i call op next,
    p.invariant s.toWorld →
    allow s s' → p.guarantee s.toWorld s'.toWorld →
    s'.past = s.past ∨ (∃ event, event.thread ≠ i ∧ s'.past = event :: s.past) →
    s.thread i = some ⟨call, .call op next⟩ →
    s'.thread i = some ⟨call, .call op next⟩ →
    p.rely i op s.toWorld s'.toWorld
  lasts : ∀ (s s' : Configuration Op Reply State Call Out) i call val,
    p.guarantee s.toWorld s'.toWorld →
    s'.past = s.past ∨ (∃ event, event.thread ≠ i ∧ s'.past = event :: s.past) →
    post i call val s.toWorld → post i call val s'.toWorld

def HoldsWith (post : Nat → Call → Out → World Op Reply State Call → Prop)
    (config : Configuration Op Reply State Call Out) : Prop :=
  p.invariant config.toWorld ∧
    ∀ i thread, config.thread i = some thread →
      p.Safe i thread.call (post i thread.call) thread.rest config.toWorld

def Holds (config : Configuration Op Reply State Call Out) : Prop :=
  p.invariant config.toWorld ∧
    ∀ i thread, config.thread i = some thread →
      p.Safe i thread.call (fun _ _ => True) thread.rest config.toWorld

variable {p}
variable {body : Call → Program Op Reply Out}
variable {allow : Configuration Op Reply State Call Out →
      Configuration Op Reply State Call Out → Prop}
variable {post : Nat → Call → Out → World Op Reply State Call → Prop}
variable {s s' : Configuration Op Reply State Call Out}

theorem thread_ne {newest : Event Op Reply Call} {past older : List (Event Op Reply Call)}
    (eq : past = newest :: older)
    (moved : past = older ∨ ∃ event, event.thread ≠ i ∧ past = event :: older) :
    newest.thread ≠ i := by
  rw [eq] at moved
  rcases moved with still | ⟨event, other, added⟩
  · exact absurd still (List.cons_ne_self _ _)
  · rw [(List.cons.inj added).1]
    exact other

/-- A step from where the protocol holds gives the guarantee and keeps the protocol. -/
theorem Delivers.step (delivers : p.Delivers post body allow) (holds : p.HoldsWith post s)
    (moved : Step m body s s') (ok : allow s s') : p.HoldsWith post s' ∧
      (s'.toWorld = s.toWorld ∨ p.guarantee s.toWorld s'.toWorld) := by
  obtain ⟨invariant, safe⟩ := holds
  -- a thread that does not move stays safe across a step of another
  have carried (got : p.guarantee s.toWorld s'.toWorld) (other : Nat)
      (t : Thread Op Reply Call Out) (has : s.thread other = some t)
      (same : s'.thread other = some t)
      (quiet : s'.past = s.past ∨ ∃ event, event.thread ≠ other ∧ s'.past = event :: s.past) :
      p.Safe other t.call (post other t.call) t.rest s'.toWorld := by
    have safe := safe other t has
    obtain ⟨call, rest⟩ := t
    cases rest with
    | ret val => exact delivers.lasts s s' other call val got quiet safe
    | call op next =>
      exact safe.stable
        (delivers.interference s s' other call op next invariant ok got quiet has same)
  cases moved with
  | start i call free =>
    refine ⟨⟨invariant, ?_⟩, .inl rfl⟩
    intro other t has
    by_cases eq : other = i
    · subst other
      simp only [Configuration.put_self, Option.some.injEq] at has
      subst t
      exact delivers.safe i call _ invariant
    · simp only [Configuration.put_of_ne _ eq] at has
      exact safe other t has
  | act i call op next reply state running ran =>
    have cur := safe i _ running s.toWorld invariant (p.rely_refl i op _) reply state ran
      (delivers.permitted _ _ ok)
    obtain ⟨got, kept, rest⟩ := cur
    refine ⟨⟨kept, ?_⟩, .inr got⟩
    intro other t has
    by_cases eq : other = i
    · subst other
      simp only [Configuration.put_self, Option.some.injEq] at has
      subst t
      exact rest
    · have same := has
      simp only [Configuration.put_of_ne _ eq] at has
      exact carried got other t has same (.inr ⟨_, Ne.symm eq, rfl⟩)
  | finish i call val running =>
    refine ⟨⟨invariant, ?_⟩, .inl rfl⟩
    intro other t has
    by_cases eq : other = i
    · subst other
      simp at has
    · simp only [Configuration.put_of_ne _ eq] at has
      exact safe other t has
  | drift state moved =>
    obtain ⟨kept, got⟩ := delivers.drift s state invariant moved ok
    refine ⟨⟨kept, ?_⟩, .inr got⟩
    intro other t has
    exact carried got other t has has (.inl rfl)

variable {config : Configuration Op Reply State Call Out} {start : State}

section

variable (delivers : p.Delivers post body allow) (initially : p.invariant ⟨start, []⟩)
  (reached : Reachable m body allow start config)

include delivers initially reached

theorem Delivers.holds : p.HoldsWith post config := by
  refine reached.preserves (p.HoldsWith post) ⟨initially, ?_⟩ ?_
  · intro i t has
    cases has
  · intro s s' holds moved ok
    exact (delivers.step holds moved ok).1

theorem Delivers.result {val : Out} (out : config.thread i = some ⟨call, .ret val⟩) :
    post i call val config.toWorld :=
  (delivers.holds initially reached).2 i ⟨call, .ret val⟩ out

end

section

variable (sound : p.Sound body allow)

include sound

theorem Sound.delivers : p.Delivers (fun _ _ _ _ => True) body allow where
  safe := sound.safe
  permitted := sound.permitted
  drift := sound.drift
  interference := sound.interference
  lasts _ _ _ _ _ _ _ _ := trivial

theorem Sound.step (holds : p.Holds s) (moved : Step m body s s') (ok : allow s s') : p.Holds s' ∧
      (s'.toWorld = s.toWorld ∨ p.guarantee s.toWorld s'.toWorld) :=
  sound.delivers.step holds moved ok

section

variable (initially : p.invariant ⟨start, []⟩) (reached : Reachable m body allow start config)

include initially reached

theorem Sound.holds : p.Holds config := sound.delivers.holds initially reached

theorem Sound.invariant : p.invariant config.toWorld :=
  (sound.holds initially reached).1

end

theorem Sound.guarantee (initially : p.invariant ⟨start, []⟩)
    (reached : Reachable m body allow start s) (moved : Step m body s s') (ok : allow s s') :
    s'.toWorld = s.toWorld ∨ p.guarantee s.toWorld s'.toWorld :=
  (sound.step (sound.holds initially reached) moved ok).2

end

end Protocol

end Infrastructure.Concurrency
