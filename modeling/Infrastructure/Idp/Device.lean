import Mathlib.Data.Finmap
import Mathlib.Data.Finset.Sort
import Mathlib.Data.String.Basic
import Infrastructure.Crypto.Sha256
import Infrastructure.State.Encoding

/-! Device authorizations of the identity provider: the pending grants of all its
instances are one value of the shared store, changed by read and compare-and-swap. -/

namespace Infrastructure.Idp

open Concurrency State Crypto Program

def deviceKey : String := "idp/device-authorizations"

def second : Int := 10 ^ 9

def devicePollInterval : Int := 5 * second

def maxDeviceAuthorizations : Nat := 1024

def errDeviceCapacity : Error := .new "too many pending device authorizations"

inductive DeviceStatus where
  | pending
  | approved
  | denied
  deriving DecidableEq, Repr

structure DeviceAuth where
  deviceCode : String := ""
  userCode : String := ""
  status : DeviceStatus := .pending
  subject : String := ""
  roles : List String := []
  expiresAt : Int := zeroTime
  lastPoll : Int := zeroTime
  pollInterval : Int := 0
  deriving DecidableEq, Repr

abbrev Grants := Finmap fun _ : String => DeviceAuth

/-- The maps of a transaction; `byUser` has the device code of the same grant. -/
structure Indexes where
  byDevice : Grants
  byUser : Finmap fun _ : String => String

/-- The order in which `range` visits the entries of a map. -/
structure Visits where
  keys : Grants → List String
  complete : ∀ grants code, code ∈ keys grants ↔ code ∈ grants

def Visits.sorted : Visits where
  keys grants := grants.keys.sort
  complete grants code := by rw [Finset.mem_sort, Finmap.mem_keys]

def removeLocked (indexes : Indexes) (da : DeviceAuth) : Indexes :=
  ⟨indexes.byDevice.erase da.deviceCode, indexes.byUser.erase da.userCode⟩

def indexUsers (grants : Grants) : List String → (Finmap fun _ : String => String) →
    Finmap fun _ : String => String
  | [], users => users
  | code :: codes, users =>
    match grants.lookup code with
    | none => indexUsers grants codes users
    | some da => indexUsers grants codes (users.insert da.userCode code)

def load (visits : Visits) (grants : Grants) : Indexes :=
  ⟨grants, indexUsers grants (visits.keys grants) ∅⟩

/-- Drops the expired grants. One dropped before its turn is not visited. -/
def purge : List String → Indexes → Prog Indexes
  | [], indexes => return indexes
  | code :: codes, indexes =>
    match indexes.byDevice.lookup code with
    | none => purge codes indexes
    | some da => do
        let now ← perform Op.now
        purge codes (if da.expiresAt ≤ now then removeLocked indexes da else indexes)

/-- What a transaction does to the maps and to the variables it captured. -/
abbrev Change (α : Type) := Indexes → Prog (Except Error Indexes × α)

abbrev Orders := Nat → Visits × Visits

/-- `text`: a JSON text is never empty. -/
structure DeviceStore where
  json : Encoding Grants
  text : ∀ grants data, json.marshal grants = .ok data → data ≠ []
  ttl : Int

namespace DeviceStore

variable (d : DeviceStore) {α : Type}

def grantsOf : Option Bytes → Except Error Grants
  | none => .ok ∅
  | some [] => .ok ∅
  | some data => d.json.unmarshal data

/-- One attempt on the value read; `none` asks for another. -/
def attempt (visits : Visits × Visits) (change : Change α) (old : Option Bytes) (captured : α) :
    Prog (α × Option (Option Error)) :=
  match d.grantsOf old with
  | .error err => return (captured, some (some err))
  | .ok grants => do
      let indexes ← purge (visits.2.keys grants) (load visits.1 grants)
      match ← change indexes with
      | (.error err, captured) => return (captured, some (some err))
      | (.ok changed, captured) =>
        match d.json.marshal changed.byDevice with
        | .error err => return (captured, some (some err))
        | .ok data =>
          match ← perform (Op.cas deviceKey old data) with
          | .error err => return (captured, some (some err))
          | .ok true => return (captured, some none)
          | .ok false => return (captured, none)

def attempts (orders : Orders) (change : Change α) (captured : α) : Nat → Prog (α × Option Error)
  | 0 => return (captured, some (.new "device authorizations: concurrent update limit exceeded"))
  | left + 1 => do
      match ← perform (Op.get deviceKey) with
      | .error err =>
        if err.is errNotFound then
          match ← d.attempt (orders left) change none captured with
          | (captured, some outcome) => return (captured, outcome)
          | (captured, none) => attempts orders change captured left
        else return (captured, some err)
      | .ok old =>
        match ← d.attempt (orders left) change (some old) captured with
        | (captured, some outcome) => return (captured, outcome)
        | (captured, none) => attempts orders change captured left

def transact (orders : Orders) (change : Change α) (captured : α) : Prog (α × Option Error) :=
  d.attempts orders change captured 16

end DeviceStore

def deviceCodeAlphabet : List Char := "ABCDEFGHJKLMNPQRSTUVWXYZ23456789".toList

def userCodeOf (bytes : List UInt8) : String :=
  let chars :=
    bytes.map fun byte => deviceCodeAlphabet.getD (byte.toNat % deviceCodeAlphabet.length) ' '
  String.ofList (chars.take 4) ++ "-" ++ String.ofList (chars.drop 4)

def generateUserCode : Prog String := do
  let bytes ← perform (Op.random 8)
  return userCodeOf (List.ofFn bytes)

def generateDeviceCode : Prog String := do
  let bytes ← perform (Op.random 32)
  return hexEncode (List.ofFn bytes)

def createChange (da : DeviceAuth) : Change Unit := fun indexes =>
  if maxDeviceAuthorizations ≤ indexes.byDevice.keys.card then return (.error errDeviceCapacity, ())
  else if da.userCode ∈ indexes.byUser then
    return (.error (.new "device user code collision; retry authorization"), ())
  else return (.ok ⟨indexes.byDevice.insert da.deviceCode da,
    indexes.byUser.insert da.userCode da.deviceCode⟩, ())

/-- Approving and denying differ in what they write into a pending grant. -/
def resolveChange (code : String) (resolve : DeviceAuth → DeviceAuth) :
    Change Bool := fun indexes =>
  match indexes.byUser.lookup code with
  | none => return (.ok indexes, false)
  | some device =>
    match indexes.byDevice.lookup device with
    | none => return (.ok indexes, false)
    | some da =>
      if da.status = .pending then
        return (.ok { indexes with byDevice := indexes.byDevice.insert device (resolve da) }, true)
      else return (.ok indexes, false)

def approveChange (code subject : String) (roles : List String) : Change Bool :=
  resolveChange code fun da => { da with status := .approved, subject := subject, roles := roles }

def denyChange (code : String) : Change Bool :=
  resolveChange code fun da => { da with status := .denied }

/-- A pending grant polled before the interval has passed. -/
def polledTooSoon (da : DeviceAuth) : Prog Bool :=
  if da.lastPoll = zeroTime then return false
  else do
    let now ← perform Op.now
    return now - da.lastPoll < da.pollInterval

def pollPending (code : String) (da : DeviceAuth) : Change (DeviceAuth × String) :=
  fun indexes => do
  let da := if da.pollInterval = 0 then { da with pollInterval := devicePollInterval } else da
  if ← polledTooSoon da then
    let now ← perform Op.now
    let da := { da with pollInterval := da.pollInterval + 5 * second, lastPoll := now }
    return (.ok { indexes with byDevice := indexes.byDevice.insert code da }, ({}, "slow_down"))
  else
    let now ← perform Op.now
    let da := { da with lastPoll := now }
    return (.ok { indexes with byDevice := indexes.byDevice.insert code da }, (da, ""))

/-- Consumes a grant that was approved or denied. -/
def pollChange (code : String) : Change (DeviceAuth × String) := fun indexes =>
  match indexes.byDevice.lookup code with
  | none => return (.ok indexes, ({}, "expired_token"))
  | some da =>
    if da.status = .pending then pollPending code da indexes
    else return (.ok (removeLocked indexes da), (da, ""))

inductive DeviceCall where
  | create (orders : Orders)
  | approve (orders : Orders) (code subject : String) (roles : List String)
  | deny (orders : Orders) (code : String)
  | poll (orders : Orders) (code : String)

inductive DeviceResult where
  | created (da : DeviceAuth) (failure : Option Error)
  | approved (done : Bool)
  | denied (done : Bool)
  | polled (out : DeviceAuth) (failure : String) (error : Option Error)

namespace DeviceStore

variable (d : DeviceStore)

def create (orders : Orders) : Prog (DeviceAuth × Option Error) := do
  let userCode ← generateUserCode
  let deviceCode ← generateDeviceCode
  let now ← perform Op.now
  let da : DeviceAuth :=
    { deviceCode := deviceCode, userCode := userCode, expiresAt := now + d.ttl }
  let result ← d.transact orders (createChange da) ()
  return (da, result.2)

def approve (orders : Orders) (code subject : String) (roles : List String) : Prog Bool := do
  let result ← d.transact orders (approveChange code subject roles) false
  return result.1 && result.2.isNone

def deny (orders : Orders) (code : String) : Prog Bool := do
  let result ← d.transact orders (denyChange code) false
  return result.1 && result.2.isNone

def poll (orders : Orders) (code : String) : Prog (DeviceAuth × String × Option Error) := do
  let result ← d.transact orders (pollChange code) ({}, "")
  return (result.1.1, result.1.2, result.2)

def run : DeviceCall → Prog DeviceResult
  | .create orders => do
      let result ← d.create orders
      return .created result.1 result.2
  | .approve orders code subject roles => return .approved (← d.approve orders code subject roles)
  | .deny orders code => return .denied (← d.deny orders code)
  | .poll orders code => do
      let result ← d.poll orders code
      return .polled result.1 result.2.1 result.2.2

end DeviceStore

end Infrastructure.Idp
