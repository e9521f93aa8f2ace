import Infrastructure.Domain.Status
import Infrastructure.Net.Classes

/-! Internet gateways, and the filter that one may put on what leaves its VPC. -/

namespace Infrastructure.Domain

open State Net

/-- A destination that is allowed out of the gateway. -/
structure EgressAddress where
  /-- An address or a block. -/
  cidr : String
  /-- `tcp`, `udp` or `any`, which is the default. -/
  protocol : String := ""
  /-- Restricts `tcp` or `udp` to one port; zero allows them all. -/
  port : Int := 0
  deriving DecidableEq, Repr

structure EgressProxySpec where
  enabled : Bool
  /-- The names that the proxy lets through. -/
  allowedDomains : List String := []
  /-- Destinations that are reached past the proxy, and through it by their address. -/
  allowedAddresses : List EgressAddress := []
  deriving DecidableEq, Repr

structure EgressProxyStatus where
  address : String := ""
  deriving DecidableEq, Repr

section

-- `net.ParseIP`, `net.ParseCIDR` without the address it also returns, and `strings.ToLower`
variable (parseIP : String → Option Address) (parseCIDR : String → Option IPNet)
    (toLower : List Char → List Char)

/-- A lone address is a block of one. -/
def EgressAddress.network (a : EgressAddress) : Except Error IPNet :=
  match parseIP a.cidr with
  | some ip => .ok (if (to4 ip.1).isNone then ⟨ip.1, 128, 128⟩ else ⟨ip.1, 32, 32⟩)
  | none =>
    match parseCIDR a.cidr with
    | some network => .ok network
    | none => .error (.new (quoted a.cidr ++ " is neither an address nor a CIDR"))

def utf8Length (text : List Char) : Nat := (String.ofList text).utf8ByteSize

def validLabel (label : List Char) : Bool :=
  !(label == [] || 63 < utf8Length label || label.head? == some '-' ||
    label.getLast? == some '-') &&
    label.all fun char => ('a' ≤ char && char ≤ 'z') || ('0' ≤ char && char ≤ '9') || char == '-'

/-- A lowercase DNS name, possibly behind a star. -/
def validDomainPattern (pattern : String) : Except Error Unit :=
  let name := if ['*', '.'].isPrefixOf pattern.toList then pattern.toList.drop 2 else pattern.toList
  if name = [] ∨ 253 < utf8Length name ∨ name ≠ toLower name ∨ name.getLast? = some '.' then
    .error (.new
      (quoted pattern ++ " is not a lowercase domain such as example.com or *.example.com"))
  else if (name.splitOn '.').all validLabel then .ok ()
  else .error (.new (quoted pattern ++ " is not a valid domain"))

def validDomains : List String → Except Error Unit
  | [] => .ok ()
  | pattern :: patterns =>
    match validDomainPattern toLower pattern with
    | .error err => .error (.wrap "igw: egressProxy.allowedDomains" err)
    | .ok () => validDomains patterns

/-- `index` is the position of the next address. -/
def validAddresses : Nat → List EgressAddress → Except Error Unit
  | _, [] => .ok ()
  | i, a :: addresses =>
    let field := "igw: egressProxy.allowedAddresses[" ++ toString i ++ "]"
    match a.network parseIP parseCIDR with
    | .error err => .error (.wrap field err)
    | .ok _ =>
      if (a.protocol = "" ∨ a.protocol = "any") ∧ a.port ≠ 0 then
        .error (.new (field ++ ": a port needs protocol tcp or udp"))
      else if a.protocol ≠ "" ∧ a.protocol ≠ "any" ∧ a.protocol ≠ "tcp" ∧ a.protocol ≠ "udp" then
        .error (.new (field ++ ": protocol must be tcp, udp or any"))
      else if a.port < 0 ∨ 65535 < a.port then .error (.new (field ++ ": port out of range"))
      else validAddresses (i + 1) addresses

def EgressProxySpec.validate (spec : EgressProxySpec) : Except Error Unit :=
  match validDomains toLower spec.allowedDomains with
  | .error err => .error err
  | .ok () => validAddresses parseIP parseCIDR 0 spec.allowedAddresses

end

def kindIGW : String := "igw"

structure IGWSpec where
  vpcId : String
  egressProxy : Option EgressProxySpec := none
  deriving DecidableEq, Repr

def IGWSpec.validate (parseIP : String → Option Address) (parseCIDR : String → Option IPNet)
    (toLower : List Char → List Char) (spec : IGWSpec) : Except Error Unit :=
  if spec.vpcId = "" then .error (.new "igw: vpcId is required")
  else
    match spec.egressProxy with
    | some proxy => proxy.validate parseIP parseCIDR toLower
    | none => .ok ()

structure IGWStatus extends StatusBase where
  hostIface : String := ""
  /-- Set while the egress proxy is enabled. -/
  egressProxy : Option EgressProxyStatus := none
  deriving DecidableEq, Repr

abbrev IGW := Resource IGWSpec IGWStatus

section

variable {parseIP : String → Option Address} {parseCIDR : String → Option IPNet}

/-- What is checked of each allowed address. -/
structure EgressAddress.Valid (parseIP : String → Option Address)
    (parseCIDR : String → Option IPNet) (a : EgressAddress) : Prop where
  network : ∃ network, a.network parseIP parseCIDR = .ok network
  protocol : a.protocol = "" ∨ a.protocol = "any" ∨ a.protocol = "tcp" ∨ a.protocol = "udp"
  portless : a.protocol = "" ∨ a.protocol = "any" → a.port = 0
  low : 0 ≤ a.port
  high : a.port ≤ 65535

theorem valid_of_validAddresses {addresses : List EgressAddress} {i : Nat}
    (valid : validAddresses parseIP parseCIDR i addresses = .ok ()) :
    ∀ a ∈ addresses, a.Valid parseIP parseCIDR := by
  induction addresses generalizing i with
  | nil => exact List.forall_mem_nil _
  | cons a addresses ih =>
    rw [validAddresses] at valid
    split at valid
    · cases valid
    · next network got =>
      split at valid
      · cases valid
      split at valid
      · cases valid
      split at valid
      · cases valid
      next portless protocol range =>
        rw [List.forall_mem_cons]
        constructor
        · exact ⟨⟨network, got⟩, by tauto, by tauto, by omega, by omega⟩
        · exact ih valid

theorem EgressProxySpec.valid_addresses {toLower : List Char → List Char} {spec : EgressProxySpec}
    (valid : spec.validate parseIP parseCIDR toLower = .ok ()) :
    ∀ a ∈ spec.allowedAddresses, a.Valid parseIP parseCIDR := by
  rw [validate] at valid
  split at valid
  · cases valid
  · exact valid_of_validAddresses valid

end

end Infrastructure.Domain
