import Infrastructure.Refinement.Simulation
import Infrastructure.State.FileStore

/-! What the stores are for: a map from keys to values that answers every call at once. -/

namespace Infrastructure.State

open Text Refinement

/-- A call of the store interface. A key is a string of bytes, each the code of a character; a slice
of bytes that is nil is `none`. -/
inductive Call where
  | get (key : String)
  | put (key : String) (val : Option Bytes)
  | delete (key : String)
  | list (dir : String)
  | compareAndSwap (key : String) (old new : Option Bytes)
  deriving DecidableEq, Repr

inductive Answer where
  | found (val : Bytes)
  | missing
  | done
  | swapped (applied : Bool)
  | listed (pairs : List (String × Bytes))
  | failed (err : Error)
  deriving DecidableEq, Repr

/-- The map, and the keys that were ever written to it. -/
structure Contents where
  map : String → Option Bytes
  used : List String

namespace Contents

def after (contents : Contents) : Call → Contents
  | .get _ | .list _ => contents
  | .put key val => ⟨Function.update contents.map key (some (val.getD [])), key :: contents.used⟩
  | .delete key => ⟨Function.update contents.map key none, contents.used⟩
  | .compareAndSwap key old new =>
    if contents.map key = old then
      ⟨Function.update contents.map key (some (new.getD [])), key :: contents.used⟩
    else contents

/-- The pairs come in any order, each key once. -/
def Lists (contents : Contents) (dir : String) (pairs : List (String × Bytes)) : Prop :=
  (pairs.map Prod.fst).Nodup ∧
    ∀ key val, (key, val) ∈ pairs ↔ contents.map key = some val ∧ directChild dir key = true

def Allows (contents : Contents) : Call → Answer → Prop
  | .get key, answer => answer = ((contents.map key).elim .missing .found)
  | .put _ _, answer => answer = .done
  | .delete _, answer => answer = .done
  | .list dir, answer => ∃ pairs, answer = .listed pairs ∧ contents.Lists dir pairs
  | .compareAndSwap key old _, answer => answer = .swapped (contents.map key = old)

end Contents

/-- Every key that the call names is one; what is listed need not be a key. -/
def Call.Keyed : Call → Prop
  | .get key | .put key _ | .delete key | .compareAndSwap key _ _ => key ≠ ""
  | .list _ => True

instance : DecidablePred Call.Keyed
  | .get _ | .put _ _ | .delete _ | .compareAndSwap _ _ _ => inferInstanceAs (Decidable (_ ≠ _))
  | .list _ => isTrue trivial

theorem directChild_iff (dir key : String) :
    directChild dir key = true ↔ ∃ rest, key.toList = dir.toList ++ '/' :: rest ∧ '/' ∉ rest := by
  have scan : (dir ++ "/").toList = dir.toList ++ ['/'] := by simp
  have length : (dir ++ "/").length = (dir.toList ++ ['/']).length := by
    rw [← scan, String.length_toList]
  have drop (rest : List Char) : (dir.toList ++ '/' :: rest).drop (dir ++ "/").length = rest := by
    have joined : dir.toList ++ '/' :: rest = (dir.toList ++ ['/']) ++ rest := by simp
    rw [length, joined, List.drop_left]
  rw [directChild, Bool.and_eq_true, List.isPrefixOf_iff_prefix, scan]
  constructor
  · intro ⟨⟨rest, split⟩, flat⟩
    have parts : key.toList = dir.toList ++ '/' :: rest := by simp [← split]
    rw [parts, drop] at flat
    exact ⟨rest, parts, by simpa using flat⟩
  · intro ⟨rest, parts, flat⟩
    rw [parts, drop]
    exact ⟨⟨rest, by simp⟩, by simpa using flat⟩

def mapContract : Contract Call Answer where
  State := Contents
  start := ⟨fun _ => none, []⟩
  after := Contents.after
  allows := Contents.Allows

end Infrastructure.State
