import Infrastructure.Manager.HostNames
import Infrastructure.Net.Blocks

/-! The packet-filter rules of instances: those of every compute and micro-VM stand side by side in
the built-in chains of the host. -/

namespace Infrastructure.Manager

open Concurrency State Domain Net Iptables List

structure PortMapping where
  host : String
  container : String
  proto : String
  deriving DecidableEq, Repr

/-- Reads `hostPort:containerPort`, with a protocol after the last slash if there is one. -/
def parsePortMapping (spec : String) : Except Error PortMapping :=
  let text := spec.toList
  let named := text.contains '/'
  let proto := if named then String.ofList (text.rtakeWhile (· != '/')) else "tcp"
  let portPart := if named then (text.rdropWhile (· != '/')).dropLast else text
  let host := Text.trimSpace (portPart.takeWhile (· != ':'))
  let container := Text.trimSpace (portPart.dropWhile (· != ':')).tail
  if ¬portPart.contains ':' then
    .error (.new ("manager: port mapping " ++ quoted spec ++ ": want hostPort:containerPort"))
  else if (Text.atoi host).isNone then
    .error (.new ("manager: port mapping " ++ quoted spec ++ ": invalid host port"))
  else if (Text.atoi container).isNone then
    .error (.new ("manager: port mapping " ++ quoted spec ++ ": invalid container port"))
  else if proto ≠ "tcp" ∧ proto ≠ "udp" then
    .error (.new ("manager: port mapping " ++ quoted spec ++ ": protocol must be tcp or udp"))
  else .ok ⟨String.ofList host, String.ofList container, proto⟩

example :
    (parsePortMapping "8080:80/udp").toOption = some ⟨"8080", "80", "udp"⟩ := by decide +kernel

/-- The agent translates a host port that is kept for functions. -/
def bindsReserved (mapping : String) : Bool :=
  match parsePortMapping mapping with
  | .error _ => false
  | .ok read => ComputeSpec.isReservedPort read.host.toList

def hostText (mapping : String) : List Char := mapping.toList.takeWhile (· != ':')

/-- What stands after the last slash is no part of a port, so a slash before the colon leaves
none. -/
theorem parsePortMapping_host {mapping : String} {read : PortMapping}
    (got : parsePortMapping mapping = .ok read) :
    read.host.toList = Text.trimSpace (hostText mapping) := by
  unfold parsePortMapping at got
  extract_lets text named proto portPart host container at got
  have leads : portPart <+: text := by
    simp only [portPart]
    split
    · exact (List.dropLast_prefix _).trans (List.rdropWhile_prefix _ _)
    · exact prefix_rfl
  split at got
  · cases got
  · next colon =>
    obtain ⟨rest, whole⟩ := leads
    have eq : hostText mapping = portPart.takeWhile (· != ':') := by
      show text.takeWhile _ = _
      rw [← whole, takeWhile_append, if_neg]
      intro all
      have plain := takeWhile_eq_self_iff.mp ((List.takeWhile_prefix _).eq_of_length all)
      simpa using plain ':' (by simpa using colon)
    split_ifs at got
    cases got
    rw [eq, String.toList_ofList]

theorem validate_ports {spec : ComputeSpec} (ok : spec.validate = .ok ()) :
    spec.ports.any (fun mapping => ComputeSpec.isReservedPort (hostText mapping)) = false := by
  rw [← Bool.not_eq_true]
  intro free
  unfold ComputeSpec.validate at ok
  simp only [hostText] at free
  simp only [free, if_true] at ok
  repeat' split at ok
  all_goals cases ok

/-- Of the mappings of an accepted spec, the agent binds a reserved port for those that have blanks
around it. -/
theorem reserved_port_bound_iff {spec : ComputeSpec} (ok : spec.validate = .ok ())
    {mapping : String} (listed : mapping ∈ spec.ports) :
    bindsReserved mapping = true ↔ Text.trimSpace (hostText mapping) ≠ hostText mapping ∧
      ComputeSpec.isReservedPort (Text.trimSpace (hostText mapping)) = true ∧
        (parsePortMapping mapping).isOk = true := by
  have free := any_eq_false.mp (validate_ports ok) mapping listed
  unfold bindsReserved
  split
  · next parsed => simp [parsed, Except.isOk, Except.toBool]
  · next read parsed =>
    rw [parsePortMapping_host parsed]
    constructor
    · intro reserved
      refine ⟨fun same => free (same ▸ reserved), reserved, ?_⟩
      rw [parsed]
      rfl
    · exact fun padded => padded.2.1

def paddedSpec : ComputeSpec :=
  { subnetId := "subnet-1", image := "base", ports := [" 30000:80", "8080:80"] }

theorem padded_port_bound : paddedSpec.validate = .ok () ∧ bindsReserved " 30000:80" = true := by
  decide +kernel

theorem reserved_port_bound_unpadded :
    paddedSpec.validate = .ok () ∧ ¬bindsReserved "8080:80" = true := by
  have ok : paddedSpec.validate = .ok () := by decide +kernel
  refine ⟨ok, ?_⟩
  rw [reserved_port_bound_iff ok (.tail _ (.head _))]
  decide +kernel

/-- A rule with its place: the source has the table, the chain and the arguments in one slice. -/
structure TableRule where
  table : String
  chain : String
  spec : Spec
  deriving DecidableEq, Repr

def TableRule.words (rule : TableRule) (flag : String) : List String :=
  "-t" :: rule.table :: flag :: rule.chain :: rule.spec

def portRules (vpcId bridge ip : String) (mapping : PortMapping) : List TableRule :=
  let dest := ip ++ ":" ++ mapping.container
  [⟨"mangle", "PREROUTING", ["!", "-i", bridge, "-p", mapping.proto, "--dport", mapping.host,
      "-m", "conntrack", "--ctstate", "NEW", "-j", "CONNMARK", "--set-mark",
        hex32 (vrfMainMark vpcId)]⟩,
    ⟨"mangle", "PREROUTING", ["!", "-i", bridge, "-p", mapping.proto, "--dport", mapping.host,
      "-j", "MARK", "--set-mark", hex32 (vrfMark vpcId)]⟩,
    ⟨"nat", "PREROUTING", ["-p", mapping.proto, "--dport", mapping.host, "-j", "DNAT",
      "--to-destination", dest]⟩,
    ⟨"nat", "OUTPUT", ["-p", mapping.proto, "--dport", mapping.host, "-j", "DNAT",
      "--to-destination", dest]⟩,
    ⟨"filter", "FORWARD", ["-o", bridge, "-p", mapping.proto, "-d", ip, "--dport",
      mapping.container, "-j", "ACCEPT"]⟩]

/-- The rules of a compute: its security group's chain, and for each port it maps the translation,
its acceptance and the marks. A mapping that cannot be read has none. -/
def computeRules (vpcId bridge ip sgChain : String) (ports : List String) : List TableRule :=
  (if sgChain ≠ "" then
    [⟨"filter", "FORWARD", ["-o", bridge, "-d", ip, "-j", sgChain]⟩,
      ⟨"filter", "OUTPUT", ["-o", bridge, "-d", ip, "-j", sgChain]⟩]
  else []) ++ ports.flatMap fun port =>
    match parsePortMapping port with
    | .error _ => []
    | .ok mapping => portRules vpcId bridge ip mapping

/-- The rules that an agent before the VPC's VRF wrote, which match by address alone. -/
def legacyComputeRules (ip sgChain : String) (ports : List String) : List TableRule :=
  (if sgChain ≠ "" then
    [⟨"filter", "FORWARD", ["-d", ip, "-j", sgChain]⟩,
      ⟨"filter", "OUTPUT", ["-d", ip, "-j", sgChain]⟩]
  else []) ++ ports.flatMap fun port =>
    match parsePortMapping port with
    | .error _ => []
    | .ok mapping =>
      [⟨"filter", "FORWARD", ["-p", mapping.proto, "-d", ip, "--dport", mapping.container,
        "-j", "ACCEPT"]⟩]

/-- How many copies of a rule a delete removes. -/
def maxDuplicates : Nat := 4

def deleteCopies (rule : TableRule) : Nat → Prog Unit
  | 0 => return ()
  | count + 1 => do
      match ← iptables (rule.words "-D") with
      | .error _ => return ()
      | .ok _ => deleteCopies rule count

def iptablesDelete (rule : TableRule) : Prog Unit := deleteCopies rule maxDuplicates

def deleteRules : List TableRule → Prog Unit
  | [] => return ()
  | rule :: rules => do
      iptablesDelete rule
      deleteRules rules

def ensureRules : List TableRule → Prog (Except Error Unit)
  | [] => return .ok ()
  | rule :: rules => do
      match ← iptablesEnsure rule.table (rule.chain :: rule.spec) with
      | .error err => return .error err
      | .ok () => ensureRules rules

/-- Puts the rules of a compute in place and removes those of an older agent. -/
def ensureFirewall (vpcId bridge ip sgChain : String) (ports : List String) :
    Prog (Except Error Unit) := do
  deleteRules (legacyComputeRules ip sgChain ports)
  ensureRules (computeRules vpcId bridge ip sgChain ports)

/-- The backend of micro-VMs adds a rule without naming its table. -/
def ensureArgs (rule : List String) : Prog (Except Error Unit) := do
  match ← iptables ("-C" :: rule) with
  | .ok _ => return .ok ()
  | .error _ =>
    match ← iptables ("-A" :: rule) with
    | .error err => return .error (.wrap ("manager: iptables " ++ listed ("-A" :: rule)) err)
    | .ok _ => return .ok ()

/-- The part of `EnsureMicroVM` that installs the chain of the security group. -/
def ensureMicroVMRules (ip sgChain : String) : Prog (Except Error Unit) := do
  if sgChain = "" then return .ok ()
  else
    match ← ensureArgs ("FORWARD" :: ["-d", ip, "-j", sgChain]) with
    | .error err => return .error err
    | .ok () => ensureArgs ("OUTPUT" :: ["-d", ip, "-j", sgChain])

inductive InstanceKind where
  | compute
  | microVM
  deriving DecidableEq, Repr

/-- An instance on the bridge of its VPC, with the chain of its security group if it has one. -/
structure PlacedInstance where
  kind : InstanceKind
  vpcId : String
  address : List UInt8
  four : address.length = 4
  group : Option String := none
  ports : List String := []

namespace PlacedInstance

variable (placed : PlacedInstance)

def bridge : String := bridgeName placed.vpcId

def ip : String := dotted placed.address

def chain : String := (placed.group.map sgChainName).getD ""

/-- The match by which packets are sent to the chain of the security group. -/
def groupSpec : Spec :=
  match placed.kind with
  | .compute => ["-o", placed.bridge, "-d", placed.ip, "-j", placed.chain]
  | .microVM => ["-d", placed.ip, "-j", placed.chain]

def rules : List TableRule :=
  match placed.kind with
  | .compute => computeRules placed.vpcId placed.bridge placed.ip placed.chain placed.ports
  | .microVM =>
    if placed.chain = "" then []
    else [⟨"filter", "FORWARD", placed.groupSpec⟩, ⟨"filter", "OUTPUT", placed.groupSpec⟩]

/-- What the backend does to the packet filter for the instance. -/
def ensure : Prog (Except Error Unit) :=
  match placed.kind with
  | .compute => ensureFirewall placed.vpcId placed.bridge placed.ip placed.chain placed.ports
  | .microVM => ensureMicroVMRules placed.ip placed.chain

/-- The packet goes to the instance, over the bridge of its VPC. -/
def Receives (pkt : Packet) : Prop :=
  pkt.destination = placed.address ∧ pkt.outward = placed.bridge

/-- A rule of the host for the instance sends the forwarded packet to its group's chain. -/
def Directs (block : String → Option IPNet) (tables : Tables) (pkt : Packet) : Prop :=
  ∃ specs spec conditions, tables.rules "filter" "FORWARD" = some specs ∧ spec ∈ specs ∧
    ⟨"filter", "FORWARD", spec⟩ ∈ placed.rules ∧
      parse block [] spec = some ⟨conditions, .jump placed.chain⟩ ∧
    conditions.all (·.holds pkt) = true

/-- What the host forwards to the instance over the bridge matches the rules for the other one. -/
def Clashes (one other : PlacedInstance) : Prop :=
  other.group ≠ none ∧ one.address = other.address ∧
    (other.kind = .compute → one.bridge = other.bridge)

instance (one other : PlacedInstance) : Decidable (Clashes one other) :=
  inferInstanceAs (Decidable (_ ∧ _ ∧ _))

end PlacedInstance

section

variable {block : String → Option IPNet} {pkt : Packet} {placed : PlacedInstance}

theorem targetOf_sgChainName (uid : String) :
    sgChainName uid ≠ "" ∧ targetOf [sgChainName uid] = some (.jump (sgChainName uid)) := by
  have other (name : String) (plain : ¬"INFRA-SG-".toList <+: name.toList) :
      sgChainName uid ≠ name := by
    rintro rfl
    apply plain
    rw [sgChainName_eq, policyChain]
    split <;> rw [String.toList_append] <;> exact prefix_append _ _
  refine ⟨other "" (by decide), ?_⟩
  simp [targetOf, other "ACCEPT" (by decide), other "DROP" (by decide), other "RETURN" (by decide),
    other "MASQUERADE" (by decide)]

theorem chain_ne_empty (placed : PlacedInstance) : placed.chain ≠ "" ↔ placed.group ≠ none := by
  rw [PlacedInstance.chain]
  cases placed.group with
  | none => simp
  | some uid => simpa using (targetOf_sgChainName uid).1

theorem parse_rest {pre : List Iptables.Condition} {flag val : String} {rest : List String}
    {rule : Rule} (other : Plain flag) (got : parse block pre (flag :: val :: rest) = some rule) :
    ∃ pre, parse block pre rest = some rule := by
  rw [parse_cons, if_neg other.1, if_neg other.2] at got
  split at got
  · cases got
  · exact ⟨_, got⟩

theorem accepts_mapped {bridge proto ip container : String} {rule : Rule}
    (got : parse block [] ["-o", bridge, "-p", proto, "-d", ip, "--dport", container, "-j",
      "ACCEPT"] = some rule) :
    rule.target = .accept := by
  obtain ⟨_, got⟩ := parse_rest (by decide) got
  obtain ⟨_, got⟩ := parse_rest (by decide) got
  obtain ⟨_, got⟩ := parse_rest (by decide) got
  obtain ⟨_, got⟩ := parse_rest (by decide) got
  rw [parse_target block (show targetOf ["ACCEPT"] = some .accept from rfl)] at got
  cases got
  rfl

theorem forward_rule {spec : Spec} (mem : ⟨"filter", "FORWARD", spec⟩ ∈ placed.rules) :
    (placed.chain ≠ "" ∧ spec = placed.groupSpec) ∨
      ∃ bridge proto ip container, spec = ["-o", bridge, "-p", proto, "-d", ip, "--dport",
        container, "-j", "ACCEPT"] := by
  rw [PlacedInstance.rules] at mem
  cases kind : placed.kind with
  | microVM =>
    rw [kind] at mem
    dsimp only at mem
    split at mem
    · cases mem
    · next named => exact .inl ⟨named, by simpa using mem⟩
  | compute =>
    rw [kind] at mem
    rcases mem_append.mp mem with grouped | mapped
    · split at grouped
      · next named => exact .inl ⟨named, by simpa [PlacedInstance.groupSpec, kind] using grouped⟩
      · cases grouped
    · obtain ⟨port, -, seen⟩ := mem_flatMap.mp mapped
      split at seen
      · cases seen
      · exact .inr ⟨_, _, _, _, by simpa [portRules] using seen⟩

theorem groupSpec_listed (named : placed.chain ≠ "") :
    ⟨"filter", "FORWARD", placed.groupSpec⟩ ∈ placed.rules := by
  cases kind : placed.kind <;> simp [PlacedInstance.rules, PlacedInstance.groupSpec, computeRules,
    kind, named]

/-- Addresses are read as blocks of one address. -/
def ReadsAddresses (block : String → Option IPNet) : Prop :=
  ∀ bytes : List UInt8, bytes.length = 4 → block (dotted bytes) = some ⟨bytes, 32, 32⟩

def groupConditions (placed : PlacedInstance) : List Iptables.Condition :=
  match placed.kind with
  | .compute => [.outward placed.bridge, .destination ⟨placed.address, 32, 32⟩]
  | .microVM => [.destination ⟨placed.address, 32, 32⟩]

theorem parse_groupSpec (reads : ReadsAddresses block) (grouped : placed.group ≠ none) :
    parse block [] placed.groupSpec = some ⟨groupConditions placed, .jump placed.chain⟩ := by
  obtain ⟨uid, has⟩ := Option.ne_none_iff_exists'.mp grouped
  have named : placed.chain = sgChainName uid := by simp [PlacedInstance.chain, has]
  have jumps : targetOf [placed.chain] = some (.jump placed.chain) := by
    rw [named]
    exact (targetOf_sgChainName uid).2
  have addr (pre : List Iptables.Condition) :
      conditionsOf block pre "-d" placed.ip = some [.destination ⟨placed.address, 32, 32⟩] := by
    simp [conditionsOf, PlacedInstance.ip, reads placed.address placed.four]
  cases kind : placed.kind with
  | microVM =>
    rw [PlacedInstance.groupSpec, groupConditions, kind]
    dsimp only
    rw [parse_option block (by decide) (addr _), parse_target block jumps]
    rfl
  | compute =>
    rw [PlacedInstance.groupSpec, groupConditions, kind]
    dsimp only
    rw [parse_option block (by decide)
      (show conditionsOf block _ "-o" placed.bridge = some [.outward placed.bridge] from rfl),
      parse_option block (by decide) (addr _), parse_target block jumps]
    rfl

theorem contains_single {bytes addr : List UInt8} (four : bytes.length = 4)
    (arrives : addr.length = 4) :
    (IPNet.mk bytes 32 32).contains addr = true ↔ addr = bytes := by
  have v4 : (IPNet.mk bytes 32 32).V4 := ⟨four, rfl, Nat.le_refl 32, by simp⟩
  rw [v4.contains_iff arrives]
  constructor
  · intro range
    refine value_inj (arrives.trans four.symm) ?_
    simp at range
    omega
  · rintro rfl
    simp

theorem holds_groupConditions (arrives : pkt.destination.length = 4) :
    (groupConditions placed).all (·.holds pkt) = true ↔
      pkt.destination = placed.address ∧
        (placed.kind = .compute → pkt.outward = placed.bridge) := by
  cases kind : placed.kind with
  | microVM => simp [groupConditions, kind, Condition.holds, contains_single placed.four arrives]
  | compute =>
    simp [groupConditions, kind, Condition.holds, contains_single placed.four arrives, and_comm]

theorem Directs.conditions {tabs : Tables} (reads : ReadsAddresses block)
    (arrives : pkt.destination.length = 4) (directs : placed.Directs block tabs pkt) :
    placed.group ≠ none ∧ pkt.destination = placed.address ∧
      (placed.kind = .compute → pkt.outward = placed.bridge) := by
  obtain ⟨specs, spec, conditions, -, -, seen, got, holds⟩ := directs
  rcases forward_rule seen with ⟨named, rfl⟩ | ⟨_, _, _, _, rfl⟩
  · have grouped := (chain_ne_empty placed).mp named
    rw [parse_groupSpec reads grouped] at got
    cases got
    exact ⟨grouped, (holds_groupConditions arrives).mp holds⟩
  · cases accepts_mapped got

theorem exec_reached {s : Host} {words : List String} {reply : Except Error String} {tabs : Tables}
    (performs : Performs block s.tables words reply tabs) :
    ∃ s', (filtered block).exec s (.host ("iptables" :: words)) reply s' ∧ s'.tables = tabs :=
  ⟨⟨⟨s.shared, deedsOf s.shared (.host ("iptables" :: words)) reply ++ s.logged.deeds⟩, tabs⟩,
    ⟨⟨rfl, rfl⟩, performs⟩, rfl⟩

theorem exec_refused (block : String → Option IPNet) (s : Host) (words : List String) : ∃ s',
    (filtered block).exec s (.host ("iptables" :: words))
    (.error (.new "exit status 1")) s' ∧ s'.tables = s.tables :=
  exec_reached (.inl rfl)

theorem exec_appended {s : Host} (words : List String) {table chain : String} {spec : Spec}
    {tabs : Tables}
    (appends : (Command.append chain spec).perform block s.tables table = some ("", tabs))
    (about : tableOf words = (table, "-A" :: chain :: spec)) :
    ∃ s', (filtered block).exec s (.host ("iptables" :: words)) (.ok "") s' ∧ s'.tables = tabs := by
  apply exec_reached
  rw [Performs, perform_of block about rfl]
  exact appends

theorem deleteRules_refused {α : Type} (block : String → Option IPNet) (rules : List TableRule)
    (next : Prog α) (s : Host) : ∃ s', (deleteRules rules >>= fun _ => next).Runs
    (filtered block) s next s' ∧ s'.tables = s.tables := by
  induction rules generalizing s with
  | nil => exact ⟨s, .refl _ _, rfl⟩
  | cons rule rules ih =>
    obtain ⟨denied, bad, eq⟩ := exec_refused block s (rule.words "-D")
    obtain ⟨s', runs, kept⟩ := ih denied
    exact ⟨s', .step bad runs, kept.trans eq⟩

theorem installs_group {start : Host} {specs : List Spec} (reads : ReadsAddresses block)
    (grouped : placed.group ≠ none) (forward : start.tables.rules "filter" "FORWARD" = some specs)
    (chained : (start.tables.rules "filter" placed.chain).isSome = true) :
    ∃ rest s', placed.ensure.Runs (filtered block) start rest s' ∧
      s'.tables.rules "filter" "FORWARD" = some (specs ++ [placed.groupSpec]) := by
  have named := (chain_ne_empty placed).mpr grouped
  have good : acceptable block (start.tables.chains "filter") placed.groupSpec = true := by
    rw [acceptable, parse_groupSpec reads grouped]
    exact chained
  have appends : (Command.append "FORWARD" placed.groupSpec).perform block start.tables "filter" =
      some ("", start.tables.set "filter" "FORWARD" (specs ++ [placed.groupSpec])) := by
    rw [Command.perform, forward]
    exact if_pos good
  cases kind : placed.kind with
  | microVM =>
    have prog : placed.ensure = ensureMicroVMRules placed.ip placed.chain := by
      rw [PlacedInstance.ensure, kind]
    have spec : placed.groupSpec = ["-d", placed.ip, "-j", placed.chain] := by
      rw [PlacedInstance.groupSpec, kind]
    rw [spec] at appends ⊢
    obtain ⟨ok, denied, eq⟩ :=
      exec_refused block start ("-C" :: "FORWARD" :: ["-d", placed.ip, "-j", placed.chain])
    obtain ⟨s', done, has⟩ := exec_appended
      ("-A" :: "FORWARD" :: ["-d", placed.ip, "-j", placed.chain]) (by rw [eq]; exact appends) rfl
    obtain ⟨rest, runs⟩ : ∃ rest, placed.ensure.Runs (filtered block) start rest s' := by
      rw [prog, ensureMicroVMRules, if_neg named]
      exact ⟨_, .step denied (.step done (.refl _ _))⟩
    exact ⟨rest, s', runs, by rw [has, Tables.rules_set_self]⟩
  | compute =>
    have prog : placed.ensure =
        ensureFirewall placed.vpcId placed.bridge placed.ip placed.chain placed.ports := by
      rw [PlacedInstance.ensure, kind]
    have spec : placed.groupSpec = ["-o", placed.bridge, "-d", placed.ip, "-j", placed.chain] := by
      rw [PlacedInstance.groupSpec, kind]
    rw [spec] at appends ⊢
    obtain ⟨cleared, clears, eq⟩ :=
      deleteRules_refused block (legacyComputeRules placed.ip placed.chain placed.ports)
      (ensureRules (computeRules placed.vpcId placed.bridge placed.ip placed.chain placed.ports))
        start
    obtain ⟨ok, denied, same'⟩ := exec_refused block cleared
      ("-t" :: "filter" :: "-C" :: "FORWARD" :: ["-o", placed.bridge, "-d", placed.ip, "-j",
        placed.chain])
    obtain ⟨s', done, has⟩ := exec_appended
      ("-t" :: "filter" :: "-A" :: "FORWARD" :: ["-o", placed.bridge, "-d", placed.ip, "-j",
        placed.chain])
      (by rw [same', eq]; exact appends) rfl
    obtain ⟨rest, runs⟩ : ∃ rest, placed.ensure.Runs (filtered block) start rest s' := by
      have begins : ∃ rest,
          (ensureRules (computeRules placed.vpcId placed.bridge placed.ip placed.chain
          placed.ports)).Runs (filtered block) cleared rest s' := by
        rw [computeRules, if_pos named]
        exact ⟨_, .step denied (.step done (.refl _ _))⟩
      obtain ⟨rest, begins⟩ := begins
      rw [prog]
      exact ⟨rest, clears.trans begins⟩
    exact ⟨rest, s', runs, by rw [has, Tables.rules_set_self]⟩

end

/-- Whatever instances are ensured, in any order and with any failures, what is forwarded to one is
not sent to the group of the other by the other's rules just when the two do not clash. -/
theorem group_rules_apart_iff (block : String → Option IPNet) (reads : ReadsAddresses block)
    (one other : PlacedInstance) :
    (∀ start host pkt, start.tables.rules "filter" "FORWARD" = some [] →
      Passes (filtered block) PlacedInstance.ensure (fun _ _ => True) start host →
        one.Receives pkt →
      ¬other.Directs block host.tables pkt) ↔ ¬one.Clashes other := by
  constructor
  · rintro apart ⟨grouped, address, bridge⟩
    let chained : Tables := (⟨fun _ => ∅⟩ : Tables).set "filter" other.chain []
    let start : Host := ⟨⟨⟨∅, 0⟩, []⟩, chained.set "filter" "FORWARD" []⟩
    have forward : start.tables.rules "filter" "FORWARD" = some [] := Tables.rules_set_self _ _ _ _
    have present : (start.tables.rules "filter" other.chain).isSome = true := by
      by_cases same : other.chain = "FORWARD"
      · rw [same, forward]
        rfl
      · rw [Tables.rules_set_of_ne _ _ fun _ => same, Tables.rules_set_self]
        rfl
    obtain ⟨rest, s', runs, installed⟩ := installs_group reads grouped forward present
    let pkt : Packet := ⟨[], one.address, .tcp, none, "", one.bridge, .new, 0, "", []⟩
    refine apart start s' pkt forward (.run .start trivial runs) ⟨rfl, rfl⟩ ?_
    have named := (chain_ne_empty other).mpr grouped
    refine ⟨_, _, _, installed, by simp, groupSpec_listed named, parse_groupSpec reads grouped, ?_⟩
    exact (holds_groupConditions one.four).mpr ⟨address, bridge⟩
  · intro apart start host pkt _ _ receives directs
    have arrives : pkt.destination.length = 4 := receives.1 ▸ one.four
    obtain ⟨grouped, address, bridge⟩ := Directs.conditions reads arrives directs
    exact apart ⟨grouped, receives.1.symm.trans address,
      fun kind => receives.2.symm.trans (bridge kind)⟩

def singleBlock (text : String) : Option IPNet :=
  if (readDotted text.toList).length = 4 then some ⟨readDotted text.toList, 32, 32⟩ else none

theorem singleBlock_reads : ReadsAddresses singleBlock := by
  intro bytes four
  have read : readDotted (dotted bytes).toList = bytes :=
    readDotted_dotted (ne_nil_of_length_pos (show 0 < bytes.length by omega))
  rw [singleBlock, read, if_pos four]

def webCompute : PlacedInstance where
  kind := .compute
  vpcId := "vpc-a"
  address := [10, 0, 0, 10]
  four := rfl
  group := some "sg-1"

def closedMachine : PlacedInstance where
  kind := .microVM
  vpcId := "vpc-b"
  address := [10, 0, 0, 10]
  four := rfl
  group := some "sg-2"

/-- The one group lets everything in, and the other nothing. -/
def twoGroups : Host where
  logged := ⟨⟨∅, 0⟩, []⟩
  tables := ⟨fun _ => List.toAList [⟨"FORWARD", []⟩, ⟨"OUTPUT", []⟩,
    ⟨"INFRA-SG-SG1", [["-j", "ACCEPT"]]⟩, ⟨"INFRA-SG-SG2", [["-j", "DROP"]]⟩]⟩

/-- The micro-VM of one VPC and then the compute of another are ensured on the host. -/
def bothEnsured : Host :=
  webCompute.ensure.outcome (hostAnswer singleBlock)
    (closedMachine.ensure.outcome (hostAnswer singleBlock) twoGroups)

def toWeb : Packet where
  source := [192, 0, 2, 7]
  destination := [10, 0, 0, 10]
  transport := .tcp
  port := some 80
  inward := "eth0"
  outward := "br-vpc-a"

/-- What goes to the compute is dropped by the group of the micro-VM. -/
theorem machine_rule_takes_compute_packet :
    webCompute.vpcId ≠ closedMachine.vpcId ∧ webCompute.bridge ≠ closedMachine.bridge ∧
      webCompute.Receives toWeb ∧
      Passes (filtered singleBlock) PlacedInstance.ensure (fun _ _ => True) twoGroups bothEnsured ∧
      closedMachine.Directs singleBlock bothEnsured.tables toWeb ∧
      bothEnsured.tables.treat singleBlock "filter" "FORWARD" toWeb = some .drop ∧
      bothEnsured.tables.treat singleBlock "filter" webCompute.chain toWeb = some .accept := by
  have first : Passes (filtered singleBlock) PlacedInstance.ensure (fun _ _ => True) twoGroups
      (closedMachine.ensure.outcome (hostAnswer singleBlock) twoGroups) :=
    Passes.start.answered (hostAnswer_exec singleBlock) closedMachine trivial
  have reached : Passes (filtered singleBlock) PlacedInstance.ensure (fun _ _ => True)
      twoGroups bothEnsured :=
    first.answered (hostAnswer_exec singleBlock) webCompute trivial
  refine ⟨by decide, by decide +kernel, ⟨rfl, by decide +kernel⟩, reached, ?_, by decide +kernel,
    by decide +kernel⟩
  refine ⟨_, ["-d", "10.0.0.10", "-j", "INFRA-SG-SG2"], [.destination ⟨[10, 0, 0, 10], 32, 32⟩],
    show _ = some [["-d", "10.0.0.10", "-j", "INFRA-SG-SG2"],
      ["-o", "br-vpc-a", "-d", "10.0.0.10", "-j", "INFRA-SG-SG1"]] by decide +kernel, ?_⟩
  decide +kernel

/-- Two computes with one address are told apart by their bridges. -/
theorem group_rules_apart_computes : ¬webCompute.Clashes { closedMachine with kind := .compute } ∧
    ∀ start host pkt, start.tables.rules "filter" "FORWARD" = some [] →
      Passes (filtered singleBlock) PlacedInstance.ensure (fun _ _ => True) start host →
        webCompute.Receives pkt →
      ¬{ closedMachine with kind := .compute }.Directs singleBlock host.tables pkt := by
  have apart : ¬webCompute.Clashes { closedMachine with kind := .compute } := by decide +kernel
  exact ⟨apart, (group_rules_apart_iff singleBlock singleBlock_reads _ _).mpr apart⟩

end Infrastructure.Manager
