import Infrastructure.Concurrency.Passes
import Infrastructure.State.Store

/-! A part of a host that commands change, apart from the store: what each command does when it
succeeds, and what one that fails may have done. -/

namespace Infrastructure.State

open Concurrency

structure Gear (E : Type) where
  perform : E → List String → Option (String × E)
  fails : E → List String → Error → E → Prop

variable {E α : Type}

/-- What may come of a command. -/
def Gear.Gives (gear : Gear E) (s : E) (words : List String) : Except Error String → E → Prop
  | .ok text, s' => gear.perform s words = some (text, s')
  | .error err, s' => gear.fails s words err s'

def geared (gear : Gear E) : Machine Op Op.Reply E where
  exec s op reply s' :=
    match op, reply with
    | .host words, reply => gear.Gives s words reply s'
    | _, _ => s' = s
  drift s s' := s' = s

/-- The gear without the failures that the condition excludes. -/
def Gear.sparing (gear : Gear E) (spared : E → List String → E → Prop) : Gear E where
  perform := gear.perform
  fails s words err s' := gear.fails s words err s' ∧ spared s words s'

variable {gear : Gear E} {s : E} {words : List String} {next : Except Error String → Prog α}
    {post : α → E → Prop}

theorem keeps_words {inv : E → Prop} (served : ∀ text s', gear.perform s words = some (text, s') →
      inv s' ∧ (next (.ok text)).Keeps (geared gear) inv post s')
        (bad : ∀ err s', gear.fails s words err s' →
      inv s' ∧ (next (.error err)).Keeps (geared gear) inv post s') :
    (Program.call (.host words) next).Keeps (geared gear) inv post s := by
  intro reply s' given
  cases reply with
  | ok text => exact served text s' given
  | error err => exact bad err s' given

theorem keeps_command (served : ∀ text s', gear.perform s words = some (text, s') →
      (next (.ok text)).Ends (geared gear) post s') (bad : ∀ err s', gear.fails s words err s' →
      (next (.error err)).Ends (geared gear) post s') :
        (Program.call (.host words) next).Ends (geared gear) post s :=
  keeps_words (fun text s' done => ⟨trivial, served text s' done⟩) fun err s' wrong =>
    ⟨trivial, bad err s' wrong⟩

/-- Answers of a host on which commands succeed where they can, but for those that are refused. -/
def gearAnswer (perform : E → List String → Option (String × E)) (report : E → List String → Error)
    (refused : List String → Bool) (s : E) (op : Op) : op.Reply × E :=
  match op with
  | .host words =>
    match refused words, perform s words with
    | false, some (text, s') => (.ok text, s')
    | _, _ => (.error (report s words), s)
  | op => ((answer ⟨∅, 0⟩ op).1, s)

/-- The answer is no failure but of a command that may fail. -/
def mayAnswer (fallible : List String → Bool) (op : Op) (reply : op.Reply) : Bool :=
  match op, reply with
  | .host words, .error _ => fallible words
  | _, _ => true

theorem gearAnswer_exec {report : E → List String → Error} {denied fallible : List String → Bool}
    (failing : ∀ s words, fallible words = true → gear.fails s words (report s words) s) (s : E)
    (op : Op) (may : mayAnswer fallible op (gearAnswer gear.perform report denied s op).1 = true) :
    (geared gear).exec s op (gearAnswer gear.perform report denied s op).1
    (gearAnswer gear.perform report denied s op).2 := by
  cases op with
  | host words =>
    unfold gearAnswer at may ⊢
    dsimp only at may ⊢
    split at may
    · next done => exact done
    · exact failing s words may
  | _ => rfl

end Infrastructure.State
