import Infrastructure.Concurrency.Program
import Infrastructure.Net.Classes

/-! The forward proxy of egress listeners: what a client may reach through it. -/

namespace Infrastructure.Lbproxy

open Concurrency Net Program

/-- The functions of the standard library that the proxy works with. -/
structure Library where
  parseIP : String → Option Address
  parseCIDR : String → Option IPNet
  toLower : List Char → List Char
  splitHostPort : String → Option (String × String)
  urlHostname : String → String
  urlPort : String → String
  atoi : String → Option Int
  ipString : Address → String
  joinHostPort : String → String → String
  /-- The address that dialing a text connects to, if it connects to any. -/
  dialed : String → Option IP
  /-- The text of an address is dialed as that address and not resolved. -/
  dialed_text : ∀ (ip : Address) port t,
    dialed (joinHostPort (ipString ip) port) = some t → t = canonical ip.1

inductive ListenerProtocol where
  | egressHTTP
  | egressTLS
  | egressProxy
  deriving DecidableEq, Repr

structure EgressPolicy where
  allowedDomains : List String := []
  allowedCIDRs : List String := []
  deriving DecidableEq, Repr

/-- An egress policy ready to use. -/
structure Policy where
  domains : List String
  nets : List IPNet
  deriving DecidableEq, Repr

inductive Cause where
  | denied (reason : String)
  | failed (reason : String)
  deriving DecidableEq, Repr

/-- A destination that was not reached has at least one cause. -/
abbrev DialError := List Cause

def DialError.isDenied (err : DialError) : Bool :=
  List.any err fun
    | .denied _ => true
    | .failed _ => false

/-- What the proxy does outside itself. -/
inductive Wire where
  /-- The protocol in the listener's present configuration. -/
  | loadConfig
  /-- The listener's present policy. -/
  | loadPolicy
  /-- Ask the resolver for the addresses of a name. -/
  | lookup (host : String)
  /-- Connect to the address that a text names. -/
  | connect (address : String)
  /-- Let the HTTP transport forward a request, for which it dials any number of times. -/
  | forward

abbrev Wire.Reply : Wire → Type
  | .loadConfig => ListenerProtocol
  | .loadPolicy => Option Policy
  | .lookup _ => Except String (List Address)
  | .connect _ => Option String
  | .forward => Nat

abbrev Serve := Program Wire Wire.Reply

def loadConfig : Serve ListenerProtocol := perform Wire.loadConfig

def loadPolicy : Serve (Option Policy) := perform Wire.loadPolicy

def lookupIPAddr (host : String) : Serve (Except String (List Address)) :=
  perform (Wire.lookup host)

def connect (address : String) : Serve (Option String) := perform (Wire.connect address)

def forwardRequest : Serve Nat := perform Wire.forward

section

variable (lib : Library)

def trim (cutset text : List Char) : List Char :=
  ((text.dropWhile (· ∈ cutset)).reverse.dropWhile (· ∈ cutset)).reverse

def trimBrackets (host : String) : String := String.ofList (trim ['[', ']'] host.toList)

/-- Whether a host is the pattern, or lies below the suffix of one with a star. -/
def matchHost (pattern host : List Char) : Bool :=
  match lib.toLower pattern with
  | '*' :: '.' :: suffix =>
    ('.' :: suffix).length < (lib.toLower host).length &&
      ('.' :: suffix).isSuffixOf (lib.toLower host)
  | pattern => pattern == lib.toLower host

def hostOnly (hostport : String) : String :=
  match lib.splitHostPort hostport with
  | some (host, _) => host
  | none => trimBrackets hostport

def parseCIDR (c : String) : Except String IPNet :=
  match lib.parseIP c with
  | some ip => .ok (if (to4 ip.1).isNone then ⟨ip.1, 128, 128⟩ else ⟨ip.1, 32, 32⟩)
  | none =>
    match lib.parseCIDR c with
    | some net => .ok net
    | none => .error s!"allowed cidr {c.quote} is neither an address nor a CIDR"

def compilePolicy (p : EgressPolicy) : Except String Policy := do
  return ⟨p.allowedDomains, ← p.allowedCIDRs.mapM (parseCIDR lib)⟩

def trimDot (host : List Char) : List Char :=
  if ['.'].isSuffixOf host then host.dropLast else host

def Policy.allowsDomain (p : Policy) (host : String) : Bool :=
  p.domains.any fun d => matchHost lib d.toList (trimDot (lib.toLower host.toList))

def Policy.allowsIP (p : Policy) (ip : Address) : Bool := p.nets.any fun n => n.contains ip.1

def isPublic (ip : Address) : Bool := !isInternal ip.1

/-- Tries the addresses of a name in turn, but for those neither public nor allowed. -/
def Policy.dialEach (p : Policy) (host port : String) : List Address → DialError →
    Serve (Except DialError Unit)
  | [], [] => return .error [.failed s!"resolve {host}: no address"]
  | [], errs => return .error errs
  | ip :: addrs, errs =>
    if !isPublic ip && !p.allowsIP ip then
      p.dialEach host port addrs
        (errs ++ [.denied s!"egress denied: {host} resolves to {lib.ipString ip}, not public"])
    else do
      match ← connect (lib.joinHostPort (lib.ipString ip) port) with
      | none => return .ok ()
      | some err => p.dialEach host port addrs (errs ++ [.failed err])

def Policy.dial (p : Policy) (host port : String) : Serve (Except DialError Unit) :=
  match lib.parseIP (trimBrackets host) with
  | some ip =>
    if !p.allowsIP ip then return .error [.denied s!"egress denied: address {lib.ipString ip}"]
    else do
      match ← connect (lib.joinHostPort (lib.ipString ip) port) with
      | none => return .ok ()
      | some err => return .error [.failed err]
  | none =>
    if !p.allowsDomain lib host then return .error [.denied s!"egress denied: {host}"]
    else do
      match ← lookupIPAddr host with
      | .error err => return .error [.failed s!"resolve {host}: {err}"]
      | .ok addrs => p.dialEach lib host port addrs []

/-- The parts of a request to an egress listener that decide where it goes. -/
structure HTTPRequest where
  connects : Bool
  host : String
  urlScheme : String
  urlHost : String
  deriving DecidableEq, Repr

inductive Response where
  | answered (status : Nat) (body : String)
  /-- The connections are spliced, or the upstream's answer is passed on. -/
  | passed
  /-- The connection is closed without an answer. -/
  | dropped
  /-- There is no policy to ask. -/
  | crashed
  deriving DecidableEq, Repr

def denyOrFail (host : String) (err : DialError) : Response :=
  if err.isDenied then .answered 403 s!"egress to {host} is not allowed"
  else .answered 502 s!"cannot reach {host}"

/-- A CONNECT request: dial the destination, say so and splice. -/
def tunnel (r : HTTPRequest) (p : Policy) : Serve Response :=
  match lib.splitHostPort r.host with
  | none => return .answered 400 "CONNECT needs host:port"
  | some (host, port) =>
    if (lib.atoi port).isNone then return .answered 400 "CONNECT needs a numeric port"
    else do
      match ← p.dial lib host port with
      | .error err => return denyOrFail host err
      | .ok _ => return .passed

/-- Dial for the transport until it is content; the last dial decides. -/
def Policy.dialAgain (p : Policy) (host port : String) : Nat → Serve Response
  | 0 => return .passed
  | attempts + 1 => do
      match ← p.dial lib host port with
      | .error err => return denyOrFail host err
      | .ok _ => p.dialAgain host port attempts

def forward (p : Policy) (host port : String) : Serve Response := do
  let attempts ← forwardRequest
  p.dialAgain lib host port attempts

/-- Where a request that is not a CONNECT goes, or why it is refused. -/
def destination (protocol : ListenerProtocol) (r : HTTPRequest) :
    Except Response (String × String) :=
  let port := ((lib.splitHostPort r.host).map Prod.snd).getD "80"
  if protocol = .egressProxy then
    if r.urlScheme ≠ "http" ∨ r.urlHost = "" then
      .error (.answered 400 "the egress proxy takes CONNECT or absolute http:// URLs")
    else
      let port := if lib.urlPort r.urlHost ≠ "" then lib.urlPort r.urlHost else port
      let host := lib.urlHostname r.urlHost
      if host = "" then .error (.answered 400 "no host to send the request to")
      else .ok (host, port)
  else
    let host := hostOnly lib r.host
    if host = "" then .error (.answered 400 "no host to send the request to") else .ok (host, port)

def serveHTTP (r : HTTPRequest) : Serve Response := do
  let protocol ← loadConfig
  match ← loadPolicy with
  | none => return .crashed
  | some p =>
    if r.connects then
      if protocol ≠ .egressProxy then return .answered 405 "CONNECT is only for the explicit proxy"
      else tunnel lib r p
    else
      match destination lib protocol r with
      | .error response => return response
      | .ok (host, port) => forward lib p host port

/-- Redirected TLS goes to the host that its first message names. -/
def serveEgressTLS (tlsPort : String) (sni : Except String String) : Serve Response :=
  match sni with
  | .error _ => return .dropped
  | .ok "" => return .dropped
  | .ok host => do
      match ← loadPolicy with
      | none => return .crashed
      | some p =>
        match ← p.dial lib host tlsPort with
        | .error _ => return .dropped
        | .ok _ => return .passed

inductive Client where
  | http (r : HTTPRequest)
  | tls (sni : Except String String)

def serveEgress (tlsPort : String) : Client → Serve Response
  | .http r => serveHTTP lib r
  | .tls sni => serveEgressTLS lib tlsPort sni

end

namespace Config

structure Listener where
  name : String
  address : String
  port : Nat
  protocol : String
  defaultTargetGroup : String := ""
  egress : Option EgressPolicy := none
  deriving DecidableEq, Repr

structure HealthCheck where
  protocol : String
  intervalSeconds : Nat
  timeoutSeconds : Nat
  healthyThreshold : Nat
  unhealthyThreshold : Nat
  deriving DecidableEq, Repr

structure Target where
  id : String
  address : String
  port : Nat
  weight : Nat
  deriving DecidableEq, Repr

structure TargetGroup where
  name : String
  protocol : String
  healthCheck : HealthCheck
  targets : List Target
  deriving DecidableEq, Repr

end Config

structure Config where
  listeners : List Config.Listener := []
  targetGroups : List Config.TargetGroup := []
  deriving DecidableEq, Repr

def protocolTCP : String := "tcp"
def protocolEgressHTTP : String := "egress-http"
def protocolEgressTLS : String := "egress-tls"
def protocolEgressProxy : String := "egress-proxy"

end Infrastructure.Lbproxy
