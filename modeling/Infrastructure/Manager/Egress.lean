import Mathlib.Data.String.Basic
import Infrastructure.Domain.Gateway
import Infrastructure.Domain.Network
import Infrastructure.Domain.Placement
import Infrastructure.Lbproxy.Egress
import Infrastructure.Manager.AddressBook
import Infrastructure.Manager.Commands
import Infrastructure.Manager.VPC

/-! The egress pass of an agent: for each gateway whose egress proxy is enabled it runs a proxy,
redirects the VPC's web traffic to it and refuses other new connections out of the gateway unless
their destination is allowed. -/

namespace Infrastructure.Manager

open Concurrency State Domain Net Iptables Crypto Text

def egressPortHTTP : Nat := 80
def egressPortTLS : Nat := 443
def egressPortExplicit : Nat := 3128
def egressBackendHTTP : Nat := 18080
def egressBackendTLS : Nat := 18443
def egressBackendExplicit : Nat := 13128

/-- Left out of the redirection: the filter decides whether traffic to them may leave. -/
def privateBlocks : List String :=
  ["10.0.0.0/8", "172.16.0.0/12", "192.168.0.0/16", "100.64.0.0/10", "169.254.0.0/16",
    "127.0.0.0/8"]

/-- How addresses and blocks are written and read, by the standard library and by iptables. -/
structure EgressTexts extends Lbproxy.Library where
  /-- The address that `net.ParseCIDR` returns beside the network. -/
  cidrAddress : String → Option IP
  addressText : IP → String
  networkText : IPNet → String
  iptables : String → Option IPNet
  /-- What iptables reads of a network's text holds the same addresses. -/
  agree : ∀ net read, iptables (networkText net) = some read →
    ∀ ip, read.contains ip = net.contains ip
  solid : ∀ net, Solid (networkText net).toList

structure EgressSetup where
  vpcId : String
  bridge : String
  /-- The proxy address. -/
  vip : String
  /-- The host interface of the internet gateway. -/
  uplink : String
  allowed : List EgressAddress
  deriving DecidableEq, Repr

/-- The chain of a VPC's redirection, and that of its filter. -/
def egressChains (vpcId : String) : String × String :=
  let s := hexEncode (wordBytes (fnv32a (bytesOf vpcId)))
  ("INFRA-EGR-" ++ s, "INFRA-EGF-" ++ s)

section

variable (texts : EgressTexts)

def parseNetwork (cidr : String) : Except Error IPNet :=
  match texts.parseCIDR cidr with
  | some net => .ok net
  | none => .error (.new ("invalid CIDR address: " ++ cidr))

/-- The address with one added to its last byte. -/
def nextAddress (ip : IP) : IP := ip.dropLast ++ (ip.getLast?.map (· + 1)).toList

def gatewayCIDR (cidr : String) : Except Error String :=
  match parseNetwork texts cidr with
  | .error err => .error (.wrap ("invalid cidr " ++ quoted cidr) err)
  | .ok ipnet => .ok (texts.addressText (nextAddress ipnet.ip) ++ "/" ++ toString ipnet.ones)

/-- The address portion of an address with a prefix length. -/
def hostOf (addrCIDR : String) : String :=
  match texts.cidrAddress addrCIDR with
  | some ip => texts.addressText ip
  | none => addrCIDR

def firstHostOf (cidr : String) : String :=
  match gatewayCIDR texts cidr with
  | .error _ => ""
  | .ok gateway => hostOf texts gateway

/-- The first is the VPC's resolver. -/
def secondHostOf (cidr : String) : String :=
  match (texts.parseIP (firstHostOf texts cidr)).bind fun ip => to4 ip.1 with
  | none => ""
  | some ip => texts.addressText (nextAddress ip)

def nodeAddress (cidr : String) (rank : Nat) : Except Error String :=
  if maxNodePorts.toNat ≤ rank then
    .error (.new ("manager: node rank " ++ toString rank ++ " has no address: only " ++
      toString maxNodePorts.toNat ++
      " hosts get one per subnet"))
  else
    match lastHost (parseNetwork texts) cidr with
    | .error err => .error err
    | .ok (last, ipnet) =>
      let addr := last - UInt32.ofNat rank
      let bytes := [(addr >>> 24).toUInt8, (addr >>> 16).toUInt8, (addr >>> 8).toUInt8,
        addr.toUInt8]
      if ipnet.contains (v4InV6 ++ bytes) then .ok (dotted bytes)
      else .error (.new ("manager: subnet " ++ cidr ++ " is too small for node addresses"))

end

/-- The registered nodes, numbered in the order of their uids. -/
def nodeRanks (nodes : List Node) : List (String × Nat) :=
  ((nodes.map fun node => node.metadata.uid).mergeSort fun first second => !(second < first)).zipIdx

/-- The uid and block of the first live subnet of the VPC so far. -/
def earlierSubnet (vpcId : String) (best : String × String) (subnet : Subnet) : String × String :=
  if subnet.metadata.isDeleting || subnet.spec.vpcId != vpcId then best
  else if best.1 == "" || subnet.metadata.uid < best.1 then (subnet.metadata.uid, subnet.spec.cidr)
  else best

/-- The block of the VPC's first live subnet. -/
def firstSubnetOf (subnets : List Subnet) (vpcId : String) : String :=
  (subnets.foldl (earlierSubnet vpcId) ("", "")).2

section

variable (texts : EgressTexts)

/-- What the load balancer serves: each port is spliced to the proxies of every host. -/
def balancing (vpcId vip subnet : String) (ranks : List (String × Nat)) : Lbproxy.Config :=
  let ports := [("http", egressPortHTTP, egressBackendHTTP),
    ("tls", egressPortTLS, egressBackendTLS), ("proxy", egressPortExplicit, egressBackendExplicit)]
  let group (name : String) := "egress-" ++ name ++ "@" ++ vpcId
  { targetGroups := ports.map fun (name, _, behind) =>
      { name := group name
        protocol := Lbproxy.protocolTCP
        healthCheck := ⟨Lbproxy.protocolTCP, 2, 1, 2, 2⟩
        targets := ranks.filterMap fun (node, rank) =>
          (nodeAddress texts subnet rank).toOption.map fun addr => ⟨node, addr, behind, 1⟩ }
    listeners := ports.map fun (name, front, _) =>
      { name := group name
        address := vip
        port := front
        protocol := Lbproxy.protocolTCP
        defaultTargetGroup := group name } }

/-- What this host's egress proxy lets out. -/
def egressPolicy (p : EgressProxySpec) : Lbproxy.EgressPolicy where
  allowedDomains := p.allowedDomains
  allowedCIDRs := p.allowedAddresses.map fun a => a.cidr

/-- This host's egress proxy: its three listeners are on its node-port address. -/
def proxies (address : String) (p : EgressProxySpec) : Lbproxy.Config :=
  let listener (protocol : String) (port : Nat) : Lbproxy.Config.Listener :=
    { name := protocol, address := address, port := port, protocol := protocol, egress :=
      some (egressPolicy p) }
  { listeners := [listener Lbproxy.protocolEgressHTTP egressBackendHTTP,
      listener Lbproxy.protocolEgressTLS egressBackendTLS,
        listener Lbproxy.protocolEgressProxy egressBackendExplicit]
    targetGroups := [] }

end

section

variable (texts : EgressTexts)

/-- Private blocks and allowed destinations are not redirected. -/
def redirectRules (e : EgressSetup) (allowed : List String) : List Spec :=
  (privateBlocks ++ allowed).map (fun block => ["-d", block, "-j", "RETURN"]) ++
    [egressPortHTTP, egressPortTLS].map fun port =>
      ["-p", "tcp", "-m", "tcp", "--dport", toString port, "-j", "DNAT", "--to-destination",
        texts.joinHostPort e.vip (toString port)]

def filterRule (a : EgressAddress) (block : String) : Spec :=
  ["-d", block] ++
    (if a.protocol = "tcp" ∨ a.protocol = "udp" then
      ["-p", a.protocol] ++
        (if a.port ≠ 0 then ["-m", a.protocol, "--dport", toString a.port] else [])
    else []) ++ ["-j", "ACCEPT"]

def rejectRule : Spec := ["-j", "REJECT", "--reject-with", "icmp-admin-prohibited"]

/-- What is not allowed is rejected. -/
def filterRules (e : EgressSetup) (allowed : List String) : List Spec :=
  List.zipWith filterRule e.allowed allowed ++ [rejectRule]

/-- The new connections of the VPC that leave by the uplink. -/
def egressLink (vpcId uplink : String) : Spec :=
  ["-o", uplink, "-m", "connmark", "--mark", hex32 (vrfMark vpcId), "-m", "conntrack",
    "--ctstate", "NEW", "-j", (egressChains vpcId).2]

def appendRules (table chain : String) : List Spec → Prog (Except Error Unit)
  | [] => return .ok ()
  | rule :: rules => do
      match ← iptables ("-t" :: table :: "-A" :: chain :: rule) with
      | .error err => return .error (.wrap ("manager: " ++ chain ++ " " ++ listed rule) err)
      | .ok _ => appendRules table chain rules

/-- Makes the chain hold exactly the rules; it is rewritten only when it differs. -/
def syncChain (table chain : String) (rules : List Spec) : Prog (Except Error Unit) := do
  let _ ← iptables ["-t", table, "-N", chain]
  let want := ("-N " ++ chain) :: rules.map fun rule =>
    "-A " ++ chain ++ " " ++ " ".intercalate rule
  let out ← iptables ["-t", table, "-S", chain]
  if out.toOption.map (fun text => (trimSpace text.toList).splitOn '\n') =
    some (want.map String.toList) then
    return .ok ()
  else
    match ← iptables ["-t", table, "-F", chain] with
    | .error err => return .error (.wrap ("manager: flush " ++ chain) err)
    | .ok _ => appendRules table chain rules

/-- Puts the link first, ahead of anything that accepts the connection. -/
def ensureLink (vpcId uplink : String) : Prog (Except Error Unit) := do
  match ← iptables ("-C" :: "FORWARD" :: egressLink vpcId uplink) with
  | .ok _ => return .ok ()
  | .error _ =>
    match ← iptables ("-I" :: "FORWARD" :: "1" :: egressLink vpcId uplink) with
    | .error err => return .error (.wrap ("manager: link " ++ (egressChains vpcId).2) err)
    | .ok _ => return .ok ()

def ensureChains (e : EgressSetup) (allowed : List String) : Prog (Except Error Unit) :=
  let (natChain, filterChain) := egressChains e.vpcId
  andThen (syncChain "nat" natChain (redirectRules texts e allowed)) fun _ =>
    andThen (iptablesEnsure "nat" ["PREROUTING", "-i", e.bridge, "-j", natChain]) fun _ =>
      andThen (syncChain "filter" filterChain (filterRules e allowed)) fun _ =>
        ensureLink e.vpcId e.uplink

def ensureEgress (e : EgressSetup) : Prog (Except Error Unit) :=
  andThen (pid e.vpcId true) fun pid =>
    andThen (ensureVIP pid e.vpcId e.bridge e.vip) fun _ =>
      andThen (ensureHostLeg pid e.vpcId) fun _ =>
        -- every namespace's leg has the same address, so one rule covers them all
        andThen (iptablesEnsure "nat" ["POSTROUTING", "-s", lbPublicNS ++ "/32", "-o", e.uplink,
          "-j", "MASQUERADE"]) fun _ =>
          match e.allowed.mapM fun a => a.network texts.parseIP texts.parseCIDR with
          | .error err => return .error err
          | .ok networks => ensureChains texts e (networks.map texts.networkText)

/-- The chain that a line of a listing declares, if it is an egress chain that is not kept. -/
def staleChain (lead : String) (kept : List String) (line : List Char) : Option (List Char) :=
  match trimSpace line with
  | '-' :: 'N' :: ' ' :: chain =>
    if lead.toList.isPrefixOf chain && !kept.contains (String.ofList chain) then some chain
    else none
  | _ => none

/-- Removes the rules of a listing that jump to the chain. -/
def unlinkChain (table src : String) (chain : List Char) : List (List Char) → Prog Unit
  | [] => return ()
  | line :: lines => do
      match fields line with
      | first :: second :: third :: rest =>
        if first = "-A".toList ∧ second = src.toList ∧ ("-j ".toList ++ chain).isSuffixOf line then
          let _ ← iptables ("-t" :: table :: "-D" :: (second :: third :: rest).map String.ofList)
      | _ => pure ()
      unlinkChain table src chain lines

def removeChain (table src : String) (lines : List (List Char)) (chain : List Char) :
    Prog (List Error) := do
  unlinkChain table src chain lines
  let _ ← iptables ["-t", table, "-F", String.ofList chain]
  match ← iptables ["-t", table, "-X", String.ofList chain] with
  | .error err => return [.wrap ("manager: delete " ++ String.ofList chain) err]
  | .ok _ => return []

def removeChains (table src : String) (lines : List (List Char)) : List (List Char) →
    Prog (List Error)
  | [] => return []
  | chain :: chains => do
      let errs ← removeChain table src lines chain
      let later ← removeChains table src lines chains
      return errs ++ later

/-- Finds the egress chains of a table by name and removes those that are not kept. -/
def pruneTable (kept : List String) (table lead src : String) : Prog (List Error) := do
  match ← iptables ["-t", table, "-S"] with
  | .error err => return [.wrap ("manager: list " ++ table ++ " rules") err]
  | .ok out =>
    let lines := out.toList.splitOn '\n'
    removeChains table src lines (lines.filterMap (staleChain lead kept))

def prune (keep : List String) : Prog (Except Error Unit) := do
  let kept := keep.flatMap fun id => [(egressChains id).1, (egressChains id).2]
  let nat ← pruneTable kept "nat" "INFRA-EGR-" "PREROUTING"
  let filter ← pruneTable kept "filter" "INFRA-EGF-" "FORWARD"
  return Error.joinAll (nat ++ filter)

end

structure EgressReconciler where
  igws : Registry IGWSpec IGWStatus
  vpcs : Registry VPCSpec VPCStatus
  subnets : Registry SubnetSpec SubnetStatus
  nodes : Registry NodeSpec NodeStatus
  nodeName : String
  texts : EgressTexts
  /-- A configuration as the proxy's process is given it. -/
  encode : Lbproxy.Config → String

namespace EgressReconciler

variable (r : EgressReconciler)

/-- What a pass has gathered. -/
structure Progress where
  errs : List Error := []
  keep : List String := []
  served : List String := []
  /-- The listeners and target groups of each VPC's proxy address. -/
  extra : List (String × Lbproxy.Config) := []

/-- Records the status of the gateway's proxy when it changes; the result is ignored. -/
def setStatus (igw : IGW) (status : Option EgressProxyStatus) : Prog Unit := do
  if igw.status.egressProxy = status then return ()
  else
    let _ ← r.igws.put { igw with status := { igw.status with egressProxy := status } }
    return ()

/-- Runs this host's proxy, if the host has an address for it. -/
def serveProxy (igw : IGW) (p : EgressProxySpec) (vpc : VPC) (subnet : String)
    (ranks : List (String × Nat)) (progress : Progress) : Prog Progress := do
  match (ranks.lookup r.nodeName).map (nodeAddress r.texts subnet) with
  | some (.ok address) =>
    let ns := lbNamespaceName vpc.metadata.uid
    match ← run ["DataPlane.Apply", ns, r.encode (proxies address p)] with
    | .error err =>
      return { progress with errs := progress.errs ++
        [.wrap ("igw " ++ igw.metadata.uid ++ " egress proxy") err] }
    | .ok _ => return { progress with served := progress.served ++ [ns] }
  | _ => return progress

def serveGateway (igw : IGW) (p : EgressProxySpec) (vpc : VPC) (vip subnet : String)
    (ranks : List (String × Nat)) (progress : Progress) : Prog Progress := do
  let progress := { progress with keep := progress.keep ++ [vpc.metadata.uid] }
  match ← ensureEgress r.texts
      ⟨vpc.metadata.uid, vpc.status.bridgeName, vip, igw.status.hostIface, p.allowedAddresses⟩ with
  | .error err =>
    return { progress with errs := progress.errs ++
      [.wrap ("igw " ++ igw.metadata.uid ++ " egress") err] }
  | .ok () =>
    let config := balancing r.texts vpc.metadata.uid vip subnet ranks
    let progress := { progress with extra := progress.extra ++ [(vpc.metadata.uid, config)] }
    let progress ← r.serveProxy igw p vpc subnet ranks progress
    r.setStatus igw (some ⟨vip⟩)
    return progress

/-- A gateway that is not up yet, or whose VPC is not, is passed over. -/
def reconcileGateway (subnets : List Subnet) (ranks : List (String × Nat)) (igw : IGW)
    (progress : Progress) :
    Prog Progress := do
  match igw.spec.egressProxy with
  | none =>
    r.setStatus igw none
    return progress
  | some p =>
    if igw.metadata.isDeleting || !p.enabled then
      r.setStatus igw none
      return progress
    else
      match ← r.vpcs.get igw.spec.vpcId with
      | .error _ => return progress
      | .ok vpc =>
        let vip := secondHostOf r.texts vpc.spec.cidr
        let subnet := firstSubnetOf subnets vpc.metadata.uid
        if vpc.status.bridgeName = "" ∨ igw.status.hostIface = "" ∨ vip = "" ∨ subnet = "" then
          return progress
        else r.serveGateway igw p vpc vip subnet ranks progress

def reconcileGateways (subnets : List Subnet) (ranks : List (String × Nat)) : List IGW →
    Progress → Prog Progress
  | [], progress => return progress
  | igw :: igws, progress => do
      let progress ← r.reconcileGateway subnets ranks igw progress
      reconcileGateways subnets ranks igws progress

/-- Stops the proxies that nothing is served by. -/
def stopOthers (served : List String) : List String → Prog (List Error)
  | [] => return []
  | ns :: namespaces => do
      if served.contains ns then stopOthers served namespaces
      else
        let stopped ← run ["DataPlane.Stop", ns]
        let later ← stopOthers served namespaces
        match stopped with
        | .error err => return err :: later
        | .ok _ => return later

/-- The namespaces that have a configuration, one a line; none when they cannot be read. -/
def serving : Prog (List String) := do
  match ← run ["DataPlane.Serving"] with
  | .error _ => return []
  | .ok out => return (out.toList.splitOn '\n').map String.ofList

/-- Puts each enabled egress proxy in place and removes the others; returns the configurations it
put. -/
def reconcileAll : Prog (Option (List (String × Lbproxy.Config)) × Except Error Unit) := do
  match ← r.igws.list with
  | .error err => return (none, .error (.wrap "manager: list igws" err))
  | .ok igws =>
    match ← r.subnets.list with
    | .error err => return (none, .error (.wrap "manager: list subnets" err))
    | .ok subnets =>
      match ← r.nodes.list with
      | .error err => return (none, .error (.wrap "manager: list nodes" err))
      | .ok nodes =>
        let progress ← r.reconcileGateways subnets (nodeRanks nodes) igws {}
        let pruned ← prune progress.keep
        let namespaces ← serving
        let stopped ← stopOthers progress.served namespaces
        let pruneErrs := match pruned with
          | .error err => [err]
          | .ok () => []
        return (some progress.extra, Error.joinAll (progress.errs ++ pruneErrs ++ stopped))

end EgressReconciler

end Infrastructure.Manager
