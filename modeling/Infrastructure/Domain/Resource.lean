import Infrastructure.State.Encoding

/-! The envelope every declarative object is stored in: metadata, desired state
and observed state. -/

namespace Infrastructure.Domain

open State

def apiVersion : String := "infra/v1"

structure OwnerReference where
  apiVersion : String
  kind : String
  uid : String
  name : String
  deriving DecidableEq, Repr, Inhabited

/-- Times are in nanoseconds. `generation` wraps around as Go's `int64` does. -/
structure ObjectMeta where
  uid : String := ""
  name : String := ""
  organizationID : String := ""
  projectID : String := ""
  ownerUID : String := ""
  labels : List (String × String) := []
  annotations : List (String × String) := []
  ownerRefs : List OwnerReference := []
  finalizers : List String := []
  generation : Int64 := 0
  resourceVersion : String := ""
  deletionTimestamp : Option Int := none
  createdAt : Int := 0
  deriving DecidableEq, Repr, Inhabited

def ObjectMeta.isDeleting (metadata : ObjectMeta) : Bool := metadata.deletionTimestamp.isSome

def ObjectMeta.hasFinalizer (metadata : ObjectMeta) (name : String) : Bool :=
  metadata.finalizers.contains name

def ObjectMeta.addFinalizer (metadata : ObjectMeta) (name : String) : ObjectMeta :=
  if metadata.hasFinalizer name then metadata
  else { metadata with finalizers := metadata.finalizers ++ [name] }

def ObjectMeta.removeFinalizer (metadata : ObjectMeta) (name : String) : ObjectMeta :=
  { metadata with finalizers := metadata.finalizers.filter (· != name) }

structure Resource (S ST : Type) where
  apiVersion : String := ""
  kind : String := ""
  metadata : ObjectMeta
  spec : S
  status : ST
  deriving DecidableEq, Repr

variable {S ST : Type}

def Resource.withVersion (res : Resource S ST) (v : String) : Resource S ST :=
  { res with metadata := { res.metadata with resourceVersion := v } }

/-- The envelope as it is encoded: stamped, and without the version of its encoding. -/
def Resource.stamp (res : Resource S ST) (kind : String) : Resource S ST :=
  { res.withVersion "" with apiVersion := Domain.apiVersion, kind := kind }

section

variable (res : Resource S ST) (text : String)

@[simp] theorem Resource.withVersion_spec : (res.withVersion text).spec = res.spec := rfl

@[simp] theorem Resource.withVersion_status : (res.withVersion text).status = res.status := rfl

end

/-- `encoding/json` on the envelopes of one kind: what it writes it reads back. -/
structure Codec (S ST : Type) where
  marshal : Resource S ST → Except Error Bytes
  unmarshal : Bytes → Except Error (Resource S ST)
  roundTrip : ∀ res data, marshal res = .ok data → unmarshal data = .ok res

def Codec.ofTable [DecidableEq S] [DecidableEq ST] (table : List (Resource S ST × Bytes))
    (nodup : (table.map Prod.snd).Nodup) : Codec S ST where
  marshal res :=
    match table.find? fun entry => entry.1 = res with
    | some entry => .ok entry.2
    | none => .error (.new "json: unsupported value")
  unmarshal data :=
    match table.find? fun entry => entry.2 = data with
    | some entry => .ok entry.1
    | none => .error (.new "json: invalid input")
  roundTrip res data enc := by
    split at enc
    · next entry found =>
      cases enc
      simp only [find_second nodup found]
    · cases enc

end Infrastructure.Domain
