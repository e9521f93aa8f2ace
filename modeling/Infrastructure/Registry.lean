import Mathlib.Data.Set.Function
import Infrastructure.Crypto.Sha256
import Infrastructure.Domain.Resource

/-! The typed layer over the byte-oriented store: resources of one kind, keyed by
uid, each write checked against the version its resource was read at. -/

namespace Infrastructure

open Concurrency State Domain Crypto Program

structure Registry (S ST : Type) where
  kind : String
  codec : Codec S ST

namespace Registry

/-- The version of a stored encoding. -/
def revision (data : Bytes) : String := hexEncode (sha256 data)

theorem revision_ne_empty (data : Bytes) : revision data ≠ "" := by
  apply hexEncode_ne_empty
  intro empty
  have length := sha256_length data
  simp [empty] at length

theorem revision_inj {encodings : Set Bytes} (free : Set.InjOn sha256 encodings)
    {first snd : Bytes} (left : first ∈ encodings) (right : snd ∈ encodings)
    (eq : revision first = revision snd) : first = snd :=
  free left right (hexEncode_inj eq)

variable {S ST : Type} (r : Registry S ST)

def key (uid : String) : String := r.kind ++ "/" ++ uid

theorem key_inj {first snd : String} (eq : r.key first = r.key snd) : first = snd :=
  (String.append_right_inj (r.kind ++ "/")).mp eq

def wrap (action uid : String) (err : Error) : Error :=
  .wrap ("registry: " ++ action ++ " " ++ r.kind ++ "/" ++ uid) err

/-- A stored encoding as the resource it holds, versioned by the bytes themselves. -/
def decode (uid : String) (data : Bytes) : Except Error (Resource S ST) :=
  match r.codec.unmarshal data with
  | .error err => .error (r.wrap "unmarshal" uid err)
  | .ok res => .ok (res.withVersion (revision data))

def get (uid : String) : Prog (Except Error (Resource S ST)) := do
  match ← perform (Op.get (r.key uid)) with
  | .error err => return .error err
  | .ok data => return r.decode uid data

/-- What a read makes of the reply of the store. -/
def received (uid : String) : Except Error Bytes → Except Error (Resource S ST)
  | .error err => .error err
  | .ok data => r.decode uid data

theorem get_bind {α : Type} (uid : String) (next : Except Error (Resource S ST) → Prog α) :
    r.get uid >>= next = .call (.get (r.key uid)) fun reply => next (r.received uid reply) := by
  rw [get, bind_assoc, perform_bind]
  congr 1
  funext reply
  cases reply with
  | error err => rfl
  | ok data => rfl

/-- The bytes the swap of `put` expects to replace; an empty version expects none. -/
def expected (res : Resource S ST) : Prog (Except Error (Option Bytes)) := do
  if res.metadata.resourceVersion = "" then
    return .ok none
  else
    match ← perform (Op.get (r.key res.metadata.uid)) with
    | .error err => return .error (if err.is errNotFound then errConflict else err)
    | .ok old =>
      if revision old = res.metadata.resourceVersion then return .ok (some old)
      else return .error errConflict

def swap (res : Resource S ST) (old : Option Bytes) (data : Bytes) :
    Prog (Except Error (Resource S ST)) := do
  match ← perform (Op.cas (r.key res.metadata.uid) old data) with
  | .error err => return .error (r.wrap "put" res.metadata.uid err)
  | .ok false => return .error errConflict
  | .ok true => return .ok ((res.stamp r.kind).withVersion (revision data))

def put (res : Resource S ST) : Prog (Except Error (Resource S ST)) := do
  if res.metadata.uid = "" then
    return .error (.new "registry: resource has empty UID")
  else
    match r.codec.marshal (res.stamp r.kind) with
    | .error err => return .error (r.wrap "marshal" res.metadata.uid err)
    | .ok data =>
      match ← r.expected res with
      | .error err => return .error err
      | .ok old => r.swap res old data

def delete (uid : String) : Prog (Except Error Unit) := do
  match ← perform (Op.delete (r.key uid)) with
  | .error err => return .error (r.wrap "delete" uid err)
  | .ok () => return .ok ()

/-- `mutate` may itself read, as the closures that stamp the current time do. -/
def tryUpdate (uid : String)
    (mutate : Resource S ST → Prog (Except Error (Resource S ST))) : Prog (Except Error Bool) := do
  match ← perform (Op.get (r.key uid)) with
  | .error err => return .error (r.wrap "get" uid err)
  | .ok oldData =>
    match r.decode uid oldData with
    | .error err => return .error err
    | .ok res =>
      match ← mutate res with
      | .error err => return .error err
      | .ok new =>
        match r.codec.marshal (new.stamp r.kind) with
        | .error err => return .error (r.wrap "marshal" uid err)
        | .ok newData =>
          match ← perform (Op.cas (r.key uid) (some oldData) newData) with
          | .error err => return .error (r.wrap "swap" uid err)
          | .ok swapped => return .ok swapped

def decodeEach : List (String × Bytes) → Except Error (List (Resource S ST))
  | [] => .ok []
  | (key, data) :: rest =>
    match r.codec.unmarshal data with
    | .error err => .error (.wrap ("registry: unmarshal " ++ key) err)
    | .ok res =>
      match decodeEach rest with
      | .error err => .error err
      | .ok resources => .ok (res.withVersion (revision data) :: resources)

def list : Prog (Except Error (List (Resource S ST))) := do
  match ← State.list r.kind with
  | .error err => return .error (.wrap ("registry: list " ++ r.kind) err)
  | .ok values => return r.decodeEach values

end Registry

end Infrastructure
