import Infrastructure.Cluster.Formats
import Infrastructure.Manager.Commands
import Infrastructure.State.Steady

/-! Security groups: the agent builds for each group a chain that accepts what its rules let in and
drops the rest. -/

namespace Infrastructure.Manager

open Concurrency State Domain Net Iptables Crypto List Option Registry

/-- The iptables chain name length limit. -/
def maxChainName : Nat := 28

/-- Uppercases what a chain name keeps of a uid. -/
def chainText (text : String) : String :=
  String.ofList
    ((text.toList.filter fun char => char.isLower || char.isDigit || char.isUpper).map Char.toUpper)

def sgChainName (uid : String) : String :=
  let name := "INFRA-SG-" ++ chainText uid
  if name.utf8ByteSize ≤ maxChainName then name
  else "INFRA-SG-" ++ chainText (hexEncode (wordBytes (fnv32a (bytesOf uid))))

example : sgChainName "sg-web_1" = "INFRA-SG-SGWEB1" := by decide +kernel

/-- The arguments of the rule that accepts what a security-group rule lets in. -/
def sgRuleArgs (rule : SecurityGroupRuleSpec) : List String :=
  let cidr := if rule.cidr = "" then "0.0.0.0/0" else rule.cidr
  ["-s", cidr] ++ (if rule.protocol ≠ "all" then ["-p", rule.protocol] else []) ++
    (if rule.port ≠ 0 ∧ rule.protocol ≠ "icmp" ∧
      rule.protocol ≠ "all" then ["--dport", toString rule.port] else []) ++
    ["-j", "ACCEPT"]

def establishedArgs : List String :=
  ["-m", "conntrack", "--ctstate", "ESTABLISHED,RELATED", "-j", "ACCEPT"]

/-- Adds the rules in order; `index` is the position of the next one. -/
def applyRules (chain : String) : Nat → List SecurityGroupRuleSpec → Prog (Except Error Unit)
  | _, [] => return .ok ()
  | i, rule :: rules => do
      match ← iptables ("-A" :: chain :: sgRuleArgs rule) with
      | .error err =>
        return .error
          (.wrap ("manager: apply sg rule " ++ toString i ++ " to " ++ quoted chain) err)
      | .ok _ => applyRules chain (i + 1) rules

/-- Rebuilds the chain from the desired rules on every call. -/
def ensureChain (chain : String) (rules : List SecurityGroupRuleSpec) :
    Prog (Except Error Unit) := do
  let _ ← iptables ["-N", chain]
  match ← iptables ["-F", chain] with
  | .error err => return .error (.wrap ("manager: flush sg chain " ++ quoted chain) err)
  | .ok _ =>
    match ← iptables ("-A" :: chain :: establishedArgs) with
    | .error err => return .error (.wrap ("manager: sg conntrack rule " ++ quoted chain) err)
    | .ok _ =>
      match ← applyRules chain 0 rules with
      | .error err => return .error err
      | .ok () =>
        match ← iptables ["-A", chain, "-j", "DROP"] with
        | .error err => return .error (.wrap ("manager: sg default drop " ++ quoted chain) err)
        | .ok _ => return .ok ()

/-- Best effort. -/
def deleteChain (chain : String) : Prog (Except Error Unit) := do
  let _ ← iptables ["-F", chain]
  let _ ← iptables ["-X", chain]
  return .ok ()

structure SecurityGroupReconciler where
  registry : Registry SecurityGroupSpec SecurityGroupStatus
  rules : Registry SecurityGroupRuleSpec SecurityGroupRuleStatus

namespace SecurityGroupReconciler

variable (r : SecurityGroupReconciler)

def setPhase (group : SecurityGroup) (phase : Phase) (reason msg : String) :
    Prog SecurityGroup := do
  let base ← group.status.toStatusBase.setPhase phase reason msg
  return { group with status := { group.status with toStatusBase := base } }

/-- The live rules that reference the security group. -/
def rulesFor (uid : String) : Prog (Except Error (List SecurityGroupRuleSpec)) := do
  match ← r.rules.list with
  | .error err => return .error (.wrap "manager: list security-group rules" err)
  | .ok all =>
    return .ok ((all.filter fun rule => !rule.metadata.isDeleting &&
      rule.spec.securityGroupId == uid).map (·.spec))

/-- Records a failed step; the result of the write is ignored. -/
def fail (group : SecurityGroup) (reason : String) (err : Error) : Prog (Except Error Unit) := do
  let group ← setPhase group .error reason err.text
  let _ ← r.registry.put group
  return .error err

def ensure (group : SecurityGroup) : Prog (Except Error Unit) := do
  let group := { group with metadata := group.metadata.addFinalizer securityGroupFinalizer }
  let group ← setPhase group .reconciling "Reconciling" "building chain"
  match ← r.rulesFor group.metadata.uid with
  | .error err => r.fail group "RuleError" err
  | .ok rules =>
    let chain := sgChainName group.metadata.uid
    match ← ensureChain chain rules with
    | .error err => r.fail group "FirewallError" err
    | .ok () =>
      let base := group.status.toStatusBase.markReconciled group.metadata.generation
      let group := { group with status := { toStatusBase := base, chain := chain } }
      let group ← setPhase group .ready "Applied" "chain built"
      match ← r.registry.put group with
      | .error err =>
        return .error (.wrap ("manager: save security group " ++ quoted group.metadata.uid) err)
      | .ok _ => return .ok ()

/-- Once no finalizers remain, the record can leave the store. -/
def removeIfFree (group : SecurityGroup) : Prog (Except Error Unit) := do
  if group.metadata.finalizers = [] then
    match ← r.registry.delete group.metadata.uid with
    | .error err =>
      return .error (.wrap ("manager: delete security group " ++ quoted group.metadata.uid) err)
    | .ok () => return .ok ()
  else return .ok ()

def finalize (group : SecurityGroup) : Prog (Except Error Unit) := do
  if group.metadata.hasFinalizer securityGroupFinalizer then
    match ← deleteChain (sgChainName group.metadata.uid) with
    | .error err => r.fail group "FirewallError" err
    | .ok () =>
      let group := { group with metadata := group.metadata.removeFinalizer securityGroupFinalizer }
      let group ← setPhase group .deleting "Deleting" "chain removed"
      match ← r.registry.put group with
      | .error err =>
        return .error (.wrap ("manager: save security group " ++ quoted group.metadata.uid) err)
      | .ok stored => r.removeIfFree stored
  else r.removeIfFree group

def reconcile (uid : String) : Prog (Except Error Unit) := do
  match ← r.registry.get uid with
  | .error err =>
    if err.is errNotFound then return .ok ()
    else return .error (.wrap ("manager: load security group " ++ quoted uid) err)
  | .ok group => if group.metadata.isDeleting then r.finalize group else r.ensure group

end SecurityGroupReconciler

section

/-- How texts of address blocks are read; a block that Go and iptables read holds the same IPv4
addresses. -/
structure BlockTexts where
  parseCIDR : String → Option IPNet
  iptables : String → Option IPNet
  agree : ∀ text declared read, parseCIDR text = some declared → iptables text = some read →
    ∀ ip : IP, ip.length = 4 → read.contains ip = declared.contains ip
  everywhere : ∀ read, iptables "0.0.0.0/0" = some read → ∀ ip : IP, ip.length = 4 →
    read.contains ip = true

variable (texts : BlockTexts)

/-- The rule names a block that the packet comes from. -/
def Covers (rule : SecurityGroupRuleSpec) (pkt : Packet) : Prop :=
  rule.cidr = "" ∨ ∃ declared, texts.parseCIDR rule.cidr = some declared ∧
    declared.contains pkt.source = true

def NamesProtocol (rule : SecurityGroupRuleSpec) (pkt : Packet) : Prop :=
  rule.protocol = "all" ∨ transportOf rule.protocol = some pkt.transport

def NamesPort (rule : SecurityGroupRuleSpec) (pkt : Packet) : Prop :=
  rule.port = 0 ∨ pkt.port = some rule.port.toNat

/-- The rule matches the packet's source address, protocol and destination port. -/
def Matches (rule : SecurityGroupRuleSpec) (pkt : Packet) : Prop :=
  Covers texts rule pkt ∧ NamesProtocol rule pkt ∧ NamesPort rule pkt

/-- The rule names a port for a protocol without ports, or for all protocols. -/
def Portless (rule : SecurityGroupRuleSpec) : Prop :=
  rule.port ≠ 0 ∧ (rule.protocol = "icmp" ∨ rule.protocol = "all")

/-- What the chain makes of the rule. -/
def Admits (rule : SecurityGroupRuleSpec) (pkt : Packet) : Prop :=
  Covers texts rule pkt ∧ NamesProtocol rule pkt ∧ (NamesPort rule pkt ∨ Portless rule)

variable {texts} {rule : SecurityGroupRuleSpec} {pkt : Packet}

theorem valid_parts (valid : rule.validate texts.parseCIDR = .ok ()) :
    (rule.direction = "ingress" ∨ rule.direction = "egress") ∧
    (rule.protocol = "tcp" ∨ rule.protocol = "udp" ∨ rule.protocol = "icmp" ∨
      rule.protocol = "all") ∧
    0 ≤ rule.port ∧ rule.port ≤ 65535 ∧
      (rule.cidr = "" ∨ ∃ declared, texts.parseCIDR rule.cidr = some declared) := by
  unfold SecurityGroupRuleSpec.validate at valid
  split at valid
  · cases valid
  split at valid
  · cases valid
  split at valid
  · cases valid
  split at valid
  · cases valid
  split at valid
  · cases valid
  next direction protocol port cidr =>
    refine ⟨by tauto, by tauto, by omega, by omega, ?_⟩
    rw [← ne_none_iff_exists']
    tauto

theorem parse_source {cidr : String} {rest : List String} :
    parse texts.iptables [] ("-s" :: cidr :: rest) =
      (texts.iptables cidr).bind fun read => parse texts.iptables [.source read] rest := by
  cases found : texts.iptables cidr with
  | none => exact parse_option_none _ (by decide) (by simp [conditionsOf, found])
  | some read => exact parse_option _ (by decide) (by simp [conditionsOf, found])

section

variable (valid : rule.validate texts.parseCIDR = .ok ()) {read : IPNet}
  (found : texts.iptables (if rule.cidr = "" then "0.0.0.0/0" else rule.cidr) = some read)

include valid read found

/-- The rule that the arguments make, for a block that iptables can read. -/
theorem parse_sgRuleArgs : parse texts.iptables [] (sgRuleArgs rule) = some
      ⟨[.source read] ++ (transportOf rule.protocol).toList.map .transport ++
        (if rule.port ≠ 0 ∧ rule.protocol ≠ "icmp" ∧
          rule.protocol ≠ "all" then [.port rule.port.toNat] else []), .accept⟩ := by
  obtain ⟨-, protocol, low, high, -⟩ := valid_parts valid
  have accepts (pre : List Iptables.Condition) :
      parse texts.iptables pre ["-j", "ACCEPT"] = some ⟨pre, .accept⟩ := parse_target _ rfl
  have rest (tail : List String) : parse texts.iptables []
      ("-s" :: (if rule.cidr = "" then "0.0.0.0/0" else rule.cidr) :: tail) =
        parse texts.iptables [.source read] tail := by
    rw [parse_source, found, bind_some]
  -- the options that follow depend on the protocol and on whether there is a port
  by_cases all : rule.protocol = "all"
  · have unnamed : transportOf rule.protocol = none := by
      rw [all]
      rfl
    have unported : ¬(rule.port ≠ 0 ∧ rule.protocol ≠ "icmp" ∧ rule.protocol ≠ "all") :=
      fun named => named.2.2 all
    simp only [sgRuleArgs, if_neg (not_not.mpr all), if_neg unported, unnamed]
    exact (rest _).trans (accepts _)
  · obtain ⟨transport, named⟩ : ∃ transport, transportOf rule.protocol = some transport := by
      rcases protocol with eq | eq | eq | eq
      · exact ⟨.tcp, by rw [eq]; rfl⟩
      · exact ⟨.udp, by rw [eq]; rfl⟩
      · exact ⟨.icmp, by rw [eq]; rfl⟩
      · exact absurd eq all
    by_cases numbered : rule.port ≠ 0 ∧ rule.protocol ≠ "icmp" ∧ rule.protocol ≠ "all"
    · have ported : transport = .tcp ∨ transport = .udp := by
        rcases protocol with eq | eq | eq | eq
        · left
          rw [eq] at named
          cases named
          rfl
        · right
          rw [eq] at named
          cases named
          rfl
        · exact absurd eq numbered.2.1
        · exact absurd eq all
      simp only [sgRuleArgs, if_pos all, named, if_pos numbered]
      refine (rest _).trans
        ((parse_transport _ named).trans
          ((parse_port _ ?_ (portOf_toString low high)).trans (accepts _)))
      rcases ported with rfl | rfl <;> simp
    · simp only [sgRuleArgs, if_pos all, named, if_neg numbered]
      exact (rest _).trans ((parse_transport _ named).trans (accepts _))

theorem covers_iff (four : pkt.source.length = 4) : read.contains pkt.source = true ↔
    Covers texts rule pkt := by
  by_cases anywhere : rule.cidr = ""
  · rw [if_pos anywhere] at found
    simp [Covers, anywhere, texts.everywhere read found pkt.source four]
  · obtain ⟨-, -, -, -, cidr⟩ := valid_parts valid
    obtain ⟨declared, known⟩ := cidr.resolve_left anywhere
    rw [if_neg anywhere] at found
    simp [Covers, anywhere, known, texts.agree _ declared read known found pkt.source four]

end

theorem admits_sgRuleArgs (valid : rule.validate texts.parseCIDR = .ok ()) {got : Rule}
    (good : parse texts.iptables [] (sgRuleArgs rule) = some got) (four : pkt.source.length = 4) :
    got.target = .accept ∧
      (admits texts.iptables pkt (sgRuleArgs rule) = true ↔ Admits texts rule pkt) := by
  obtain ⟨read, found⟩ : ∃ read,
    texts.iptables (if rule.cidr = "" then "0.0.0.0/0" else rule.cidr) = some read := by
    rw [sgRuleArgs, append_assoc, append_assoc] at good
    obtain ⟨read, found, -⟩ := bind_eq_some_iff.mp (parse_source.symm.trans good)
    exact ⟨read, found⟩
  have made := parse_sgRuleArgs valid found
  rw [good] at made
  cases made
  obtain ⟨-, protocol, low, -, -⟩ := valid_parts valid
  have kinds : ((transportOf rule.protocol).toList.map Condition.transport).all
      (·.holds pkt) = true ↔
      NamesProtocol rule pkt := by
    rcases protocol with eq | eq | eq | eq <;>
      simp [NamesProtocol, eq, transportOf, Condition.holds, @eq_comm _ pkt.transport]
  have ports : ((if rule.port ≠ 0 ∧ rule.protocol ≠ "icmp" ∧ rule.protocol ≠ "all" then
      [Condition.port rule.port.toNat] else []).all (·.holds pkt)) = true ↔
        NamesPort rule pkt ∨ Portless rule := by
    split
    · next num =>
      simp [Condition.holds, NamesPort, Portless, num]
    · next unnumbered =>
      simp only [all_nil, true_iff, NamesPort, Portless]
      tauto
  have sources : [Condition.source read].all (·.holds pkt) = true ↔ Covers texts rule pkt := by
    rw [← covers_iff valid found four]
    simp [Condition.holds]
  refine ⟨rfl, ?_⟩
  rw [admits, good]
  simp only [Rule.matches, all_append, Bool.and_eq_true, sources, kinds, ports, Admits, and_assoc]

/-- What a chain that is built of the rules holds. -/
def chainSpecs (rules : List SecurityGroupRuleSpec) : List Spec :=
  establishedArgs :: (rules.map sgRuleArgs ++ [["-j", "DROP"]])

/-- The packet belongs to no established connection, and is not related to one either. -/
def Unconnected (pkt : Packet) : Prop := pkt.tracking ≠ .established ∧ pkt.tracking ≠ .related

theorem verdict_chainSpecs {jump : String → Option Target} {rules : List SecurityGroupRuleSpec}
    (valid : ∀ rule ∈ rules, rule.validate texts.parseCIDR = .ok ())
    (good : ∀ rule ∈ rules, ∃ got, parse texts.iptables [] (sgRuleArgs rule) = some got)
    (four : pkt.source.length = 4) (fresh : Unconnected pkt) :
    ((∃ rule ∈ rules, Admits texts rule pkt) →
        verdict texts.iptables jump pkt (chainSpecs rules) = some .accept) ∧
          ((∀ rule ∈ rules, ¬Admits texts rule pkt) →
        verdict texts.iptables jump pkt (chainSpecs rules) = some .drop) := by
  have skips : admits texts.iptables pkt establishedArgs = false := by
    have got : parse texts.iptables [] establishedArgs =
        some ⟨[.tracking [.established, .related]], .accept⟩ := rfl
    simp [admits, got, Rule.matches, Condition.holds, fresh.1, fresh.2]
  have accepts (spec : Spec) (mem : spec ∈ rules.map sgRuleArgs) :
      ∃ got, parse texts.iptables [] spec = some got ∧ got.target = .accept := by
    obtain ⟨rule, inside, rfl⟩ := List.mem_map.mp mem
    obtain ⟨got, known⟩ := good rule inside
    exact ⟨got, known, (admits_sgRuleArgs (valid rule inside) known four).1⟩
  have drops : verdict texts.iptables jump pkt [["-j", "DROP"]] = some .drop :=
    verdict_match (show parse texts.iptables [] ["-j", "DROP"] = some ⟨[], .drop⟩ from rfl) rfl rfl
  have some' : (rules.map sgRuleArgs).any (admits texts.iptables pkt) = true ↔
      ∃ rule ∈ rules, Admits texts rule pkt := by
    simp only [List.any_map, List.any_eq_true, Function.comp_apply]
    refine exists_congr fun rule => and_congr_right fun mem => ?_
    obtain ⟨got, known⟩ := good rule mem
    exact (admits_sgRuleArgs (valid rule mem) known four).2
  rw [chainSpecs, verdict_skip skips, verdict_accepts accepts, drops]
  constructor
  · intro ok
    rw [if_pos (some'.mpr ok)]
  · intro denied
    rw [if_neg]
    intro ok
    obtain ⟨rule, mem, admits⟩ := some'.mp ok
    exact denied rule mem admits

theorem treat_chainSpecs {tabs : Tables} {chain : String} {rules : List SecurityGroupRuleSpec}
    (built : tabs.rules "filter" chain = some (chainSpecs rules))
    (valid : ∀ rule ∈ rules, rule.validate texts.parseCIDR = .ok ())
    (good : ∀ rule ∈ rules, ∃ parsed, parse texts.iptables [] (sgRuleArgs rule) = some parsed)
    (four : pkt.source.length = 4) (fresh : Unconnected pkt) :
    ((∃ rule ∈ rules, Admits texts rule pkt) →
      tabs.treat texts.iptables "filter" chain pkt = some .accept) ∧
      ((∀ rule ∈ rules, ¬Admits texts rule pkt) →
        tabs.treat texts.iptables "filter" chain pkt = some .drop) := by
  obtain ⟨jump, walked⟩ := walk_eq_verdict texts.iptables pkt (tabs.chains "filter")
    (tabs.chains "filter").entries.length (chainSpecs rules)
  rw [Tables.treat, built, getD_some, walked]
  exact verdict_chainSpecs valid good four fresh

end

section

variable {texts : BlockTexts} {s : Host}

theorem appended {words : List String} {chain : String} {spec : Spec} {specs : List Spec}
    {text : String} {tabs : Tables} (eq : words = "-A" :: chain :: spec)
    (known : s.tables.rules "filter" chain = some specs)
    (ran : Performs texts.iptables s.tables words (.ok text : Except Error String) tabs) :
    (∃ parsed, parse texts.iptables [] spec = some parsed) ∧ tabs.rules "filter"
    chain = some (specs ++ [spec]) := by
  subst eq
  have done : (Command.append chain spec).perform texts.iptables s.tables "filter" =
      some (text, tabs) := ran
  obtain ⟨good, rfl⟩ := perform_append _ done known
  exact ⟨parse_of_acceptable _ good, Tables.rules_set_self _ _ _ _⟩

theorem applyRules_builds {chain : String} {specs : List Spec} (rules : List SecurityGroupRuleSpec)
    (i : Nat) (known : s.tables.rules "filter" chain = some specs) :
    (applyRules chain i rules).Ends (filtered texts.iptables) (fun reply s' => reply = .ok () →
      (∀ rule ∈ rules, ∃ parsed, parse texts.iptables [] (sgRuleArgs rule) = some parsed) ∧
        s'.tables.rules "filter" chain = some (specs ++ rules.map sgRuleArgs)) s := by
  induction rules generalizing s specs i with
  | nil =>
    intro _
    exact ⟨forall_mem_nil _, by rw [known, map_nil, append_nil]⟩
  | cons rule rules ih =>
    refine tries_iptables (fun _ _ wrong => by cases wrong) ?_
    intro text s' ran
    obtain ⟨good, added⟩ := appended rfl known ran
    apply (ih (i + 1) added).mono
    intro reply final built done
    obtain ⟨rest, seen⟩ := built done
    refine ⟨forall_mem_cons.mpr ⟨good, rest⟩, ?_⟩
    rw [seen, map_cons, append_assoc, singleton_append]

theorem ensureChain_builds (chain : String) (rules : List SecurityGroupRuleSpec) :
    (ensureChain chain rules).Ends (filtered texts.iptables) (fun reply s' => reply = .ok () →
      (∀ rule ∈ rules, ∃ parsed, parse texts.iptables [] (sgRuleArgs rule) = some parsed) ∧
        s'.tables.rules "filter" chain = some (chainSpecs rules)) s := by
  apply ends_iptables
  intro _ created _
  refine tries_iptables (fun _ _ wrong => by cases wrong) ?_
  intro text flushed ran
  have empty : flushed.tables.rules "filter" chain = some [] := by
    have done : (Command.flush chain).perform texts.iptables created.tables "filter" =
        some (text, flushed.tables) := ran
    rw [perform_flush _ done, Tables.rules_set_self]
  refine tries_iptables (fun _ _ wrong => by cases wrong) ?_
  intro text mark ran
  obtain ⟨-, first⟩ := appended rfl empty ran
  apply (applyRules_builds rules 0 first).bind
  intro reply added built
  cases reply with
  | error err => exact fun wrong => by cases wrong
  | ok done =>
    obtain ⟨good, seen⟩ := built rfl
    refine tries_iptables (fun _ _ wrong => by cases wrong) ?_
    intro text final ran _
    obtain ⟨-, last⟩ := appended rfl seen ran
    exact ⟨good, last⟩

end

namespace SecurityGroupReconciler

variable (r : SecurityGroupReconciler)

def Live (now : Shared) (uid : String) (spec : SecurityGroupRuleSpec) : Prop :=
  ∃ name rule, r.rules.stored now name = some rule ∧ rule.metadata.isDeleting = false ∧
    rule.spec.securityGroupId = uid ∧ rule.spec = spec

/-- Some live ingress rule of the group matches the packet. -/
def Declared (texts : BlockTexts) (now : Shared) (uid : String) (pkt : Packet) : Prop :=
  ∃ spec, r.Live now uid spec ∧ spec.direction = "ingress" ∧ Matches texts spec pkt

/-- The group is stored and not being deleted, and all rules are such as the API accepts. -/
structure Standing (texts : BlockTexts) (now : Shared) (uid : String) : Prop where
  group : ∃ group, r.registry.stored now uid = some group ∧ group.metadata.uid = uid ∧
    group.metadata.isDeleting = false
  listable : ∀ name rule, r.rules.stored now name = some rule → r.rules.Listable name
  accepted : ∀ name rule, r.rules.stored now name = some rule →
    rule.spec.validate texts.parseCIDR = .ok ()

variable {r} {texts : BlockTexts} {s : Host} {uid : String}

theorem setPhase_looks (group : SecurityGroup) (phase : Phase) (why msg : String) :
    (setPhase group phase why msg).Uses Op.Looking fun later =>
    later.metadata = group.metadata := by
  apply (StatusBase.setPhase_looks _ _ _ _).bind
  intro base _
  rfl

theorem setPhase_keeps (group : SecurityGroup) (phase : Phase) (why msg : String) :
    (setPhase group phase why msg).Ends (filtered texts.iptables)
      (fun later s' => s' = s ∧ later.metadata = group.metadata) s := by
  have looks := setPhase_looks group phase why msg
  apply keeps_seeing trivial (looks.mono (fun _ => id) fun _ _ => trivial)
  apply (keeps_looking looks trivial).mono
  rintro later s' ⟨eq, same⟩
  exact ⟨same, eq⟩

theorem put_tables (group : SecurityGroup) : (r.registry.put group).Ends (filtered texts.iptables)
      (fun _ s' => s'.tables = s.tables) s := by
  have swaps : (r.registry.put group).Uses (fun op => op.filters = false) _ :=
    Registry.put_swaps rfl fun _ _ _ => rfl
  have apart : (r.registry.put group).Uses (fun op => op.filters = false) fun _ => True :=
    swaps.mono (fun _ => id) fun _ _ => trivial
  have runs : (r.registry.put group).Ends logged (fun _ _ => True) s.logged :=
    (put_written trivial fun _ _ => trivial).mono fun _ _ _ => trivial
  exact ((keeps_filtered apart runs).weaken fun _ _ => trivial).mono fun _ _ ended => ended.2

theorem fail_errs (group : SecurityGroup) (why : String) (err : Error)
    {post : Except Error Unit → Host → Prop} (fails : ∀ s', post (.error err) s') :
    (r.fail group why err).Ends (filtered texts.iptables) post s := by
  apply (setPhase_keeps _ _ _ _).bind
  rintro later _ ⟨rfl, -⟩
  apply (put_tables _).bind
  intro _ s' _
  exact fails s'

theorem rulesFor_keeps
    (listable : ∀ name rule, r.rules.stored s.shared name = some rule → r.rules.Listable name) :
    (r.rulesFor uid).Ends (filtered texts.iptables) (fun reply s' => s' = s ∧
      ∀ rules, reply = .ok rules → ∀ spec, spec ∈ rules ↔ r.Live s.shared uid spec) s := by
  apply (keeps_seeing trivial r.rules.list_looks (list_keeps trivial)).bind
  rintro reply _ ⟨rfl, seen⟩
  cases reply with
  | error err => exact ⟨rfl, fun _ wrong => by cases wrong⟩
  | ok all =>
    refine ⟨rfl, ?_⟩
    rintro rules ⟨⟩ spec
    have listing := seen all rfl
    simp only [List.mem_map, List.mem_filter, Bool.and_eq_true, Bool.not_eq_true', beq_iff_eq, Live]
    constructor
    · rintro ⟨rule, ⟨mem, kept, own⟩, rfl⟩
      obtain ⟨name, held⟩ := listing.sound rule mem
      exact ⟨name, rule, held, kept, own, rfl⟩
    · rintro ⟨name, rule, held, kept, own, rfl⟩
      exact ⟨rule, ⟨listing.complete name rule held (listable name rule held), kept, own⟩, rfl⟩

/-- The chain that a pass builds for a group that is stored. -/
theorem reconcile_builds {group : SecurityGroup} (has : r.registry.stored s.shared uid = some group)
    (own : group.metadata.uid = uid) (kept : group.metadata.isDeleting = false)
    (listable : ∀ name rule, r.rules.stored s.shared name = some rule → r.rules.Listable name) :
    (r.reconcile uid).Ends (filtered texts.iptables) (fun reply s' => reply = .ok () →
      ∃ rules, (∀ spec, spec ∈ rules ↔ r.Live s.shared uid spec) ∧
        (∀ rule ∈ rules, ∃ parsed, parse texts.iptables [] (sgRuleArgs rule) = some parsed) ∧
        s'.tables.rules "filter" (sgChainName uid) = some (chainSpecs rules)) s := by
  apply (keeps_seeing trivial (r.registry.get_looks uid) (get_keeps trivial has)).bind
  rintro reply _ ⟨rfl, rfl | ⟨err, rfl, other⟩⟩
  · dsimp only
    rw [if_neg (by simp [kept]), ensure]
    have named : (group.metadata.addFinalizer securityGroupFinalizer).uid = uid := by
      rw [ObjectMeta.addFinalizer]
      split <;> exact own
    apply (setPhase_keeps _ _ _ _).bind
    rintro later _ ⟨rfl, metadata⟩
    have eq : later.metadata.uid = uid := by rw [metadata, named]
    rw [eq]
    apply (rulesFor_keeps listable).bind
    rintro reply _ ⟨rfl, rules⟩
    cases reply with
    | error err => exact fail_errs _ _ _ fun _ wrong => by cases wrong
    | ok found =>
      apply (ensureChain_builds _ found).bind
      intro reply s' built
      cases reply with
      | error err => exact fail_errs _ _ _ fun _ wrong => by cases wrong
      | ok done =>
        obtain ⟨good, seen⟩ := built rfl
        apply (setPhase_keeps _ _ _ _).bind
        rintro ready _ ⟨rfl, -⟩
        apply (put_tables _).bind
        intro reply final tabs
        cases reply with
        | error err => exact fun wrong => by cases wrong
        | ok stored =>
          intro _
          rw [tabs]
          exact ⟨found, rules found rfl, good, seen⟩
  · dsimp only
    rw [if_neg (by simp [other])]
    exact fun wrong => by cases wrong

/-- A chain accepts a new packet exactly where live ingress rules match it, if and only if no live
egress rule, and no live rule with a port and no protocol that has ports, admits it on its own. -/
theorem group_chain_declared_iff (standing : r.Standing texts s.shared uid) :
    (r.reconcile uid).Keeps (filtered texts.iptables) (fun _ => True)
    (fun reply s' => reply = .ok () →
      ∀ pkt, pkt.source.length = 4 → pkt.tracking = .new →
        ((s'.tables.treat texts.iptables "filter" (sgChainName uid) pkt = some .accept ↔
            r.Declared texts s.shared uid pkt) ↔
          ∀ spec, r.Live s.shared uid spec → spec.direction = "egress" ∨ Portless spec →
            Admits texts spec pkt → r.Declared texts s.shared uid pkt)) s := by
  obtain ⟨group, present, own, kept⟩ := standing.group
  apply (reconcile_builds present own kept standing.listable).mono
  intro reply s' built done pkt four fresh
  obtain ⟨rules, live, good, listed⟩ := built done
  have valid (spec : SecurityGroupRuleSpec) (mem : spec ∈ rules) :
      spec.validate texts.parseCIDR = .ok () := by
    obtain ⟨name, rule, stored, -, -, rfl⟩ := (live spec).mp mem
    exact standing.accepted name rule stored
  have treated : s'.tables.treat texts.iptables "filter" (sgChainName uid) pkt = some .accept ↔
      ∃ spec, r.Live s.shared uid spec ∧ Admits texts spec pkt := by
    have treats := treat_chainSpecs listed valid good four ⟨by simp [fresh], by simp [fresh]⟩
    constructor
    · intro accepted
      by_contra none
      have dropped := treats.2 fun rule mem admitted => none ⟨rule, (live rule).mp mem, admitted⟩
      rw [accepted] at dropped
      cases dropped
    · rintro ⟨spec, mem, admitted⟩
      exact treats.1 ⟨spec, (live spec).mpr mem, admitted⟩
  rw [treated]
  constructor
  · intro same spec mem _ admitted
    exact same.mp ⟨spec, mem, admitted⟩
  · intro spared
    constructor
    · rintro ⟨spec, mem, admitted⟩
      rcases (valid_parts (valid spec ((live spec).mpr mem))).1 with ingress | egress
      · rcases admitted.2.2 with named | portless
        · exact ⟨spec, mem, ingress, admitted.1, admitted.2.1, named⟩
        · exact spared spec mem (.inr portless) admitted
      · exact spared spec mem (.inl egress) admitted
    · rintro ⟨spec, mem, -, covers, protocol, named⟩
      exact ⟨spec, mem, covers, protocol, .inl named⟩

end SecurityGroupReconciler

def sampleBlock (text : String) : Option IPNet :=
  if text = "0.0.0.0/0" then some ⟨[0, 0, 0, 0], 0, 32⟩
  else if text = "10.0.0.0/8" then some ⟨[10, 0, 0, 0], 8, 32⟩
  else none

def sampleTexts : BlockTexts where
  parseCIDR := sampleBlock
  iptables := sampleBlock
  agree text declared read known found ip _ := by
    rw [known] at found
    cases found
    rfl
  everywhere read found ip four := by
    cases found
    obtain ⟨a, b, c, d, rfl⟩ := length_eq_four.mp four
    have parts : (IPNet.mk [0, 0, 0, 0] 0 32).numberAndMask =
        some ([0, 0, 0, 0], [0, 0, 0, 0]) := by decide
    simp [IPNet.contains, parts, to4]

def ruleCodec : Codec SecurityGroupRuleSpec SecurityGroupRuleStatus := .ofFormat
  ((Text.Format.string.pair
    (Text.Format.string.pair
      (Text.Format.string.pair (Text.Format.int.pair Text.Format.string)))).via
    (fun value => (value.securityGroupId, value.direction, value.protocol, value.port, value.cidr))
    (fun (group, direction, protocol, port, cidr) => ⟨group, direction, protocol, port, cidr⟩)
      (fun _ => rfl))
  (statusBaseFormat.via (·.toStatusBase) (fun base => ⟨base⟩) (fun _ => rfl))

def sampleGroups : SecurityGroupReconciler :=
  ⟨⟨kindSecurityGroup, securityGroupCodec⟩, ⟨kindSecurityGroupRule, ruleCodec⟩⟩

def webGroup : SecurityGroup where
  metadata := { uid := "sg-1" }
  spec := {}
  status := {}

/-- A host with an empty filter, and a group with one rule. -/
def hostWith (rule : SecurityGroupRuleSpec) : Host where
  logged := ⟨⟨storeOf [sampleGroups.registry.entry webGroup,
    sampleGroups.rules.entry { metadata := { uid := "rule-1" }, spec := rule, status :=
      ⟨{}⟩ }], 0⟩, []⟩
  tables := ⟨fun _ => ∅⟩

def outbound : SecurityGroupRuleSpec where
  securityGroupId := "sg-1"
  direction := "egress"
  protocol := "tcp"
  port := 443

def fromOutside : Packet where
  source := [203, 0, 113, 9]
  destination := [10, 0, 0, 5]
  transport := .tcp
  port := some 443

def builtFrom (start : Host) : Except Error Unit × Host :=
  (sampleGroups.reconcile "sg-1").run (fun op now => hostAnswer sampleBlock now op) start

theorem builtFrom_keeps {start : Host} {post : Except Error Unit → Host → Prop}
    (keeps : (sampleGroups.reconcile "sg-1").Ends (filtered sampleBlock) post start) :
    post (builtFrom start).1 (builtFrom start).2 :=
  keeps.answered (hostAnswer_exec sampleBlock)

theorem outbound_built : ((builtFrom (hostWith outbound)).1.isOk,
    (builtFrom (hostWith outbound)).2.tables.treat sampleBlock "filter"
    (sgChainName "sg-1") fromOutside) =
      (true, some .accept) := by
  decide +kernel

/-- A check that the group and the one rule stand as they should. -/
def stands (start : Host) (rule : SecurityGroupRuleSpec) : Bool :=
  ((sampleGroups.registry.stored start.shared "sg-1").map fun group =>
    (group.metadata.uid, group.metadata.isDeleting)) ==
      some ("sg-1", false) &&
    sampleGroups.rules.wellKept start.shared &&
      sampleGroups.rules.everyRecord (fun _ read => read.spec == rule) start.shared

theorem specs_of_stands {start : Host} {rule : SecurityGroupRuleSpec}
    (ok : stands start rule = true) {name : String} {found : SecurityGroupRule}
    (held : sampleGroups.rules.stored start.shared name = some found) :
    found.spec = rule := by
  simp only [stands, Bool.and_eq_true] at ok
  obtain ⟨read, v, rfl, eq⟩ := check_of_everyRecord ok.2 held
  exact beq_iff_eq.mp eq

theorem standing_of_stands {start : Host} {rule : SecurityGroupRuleSpec}
    (ok : stands start rule = true) (valid : rule.validate sampleBlock = .ok ()) :
    sampleGroups.Standing sampleTexts start.shared "sg-1" := by
  have specs {name : String} {found : SecurityGroupRule} :=
    @specs_of_stands start rule ok name found
  simp only [stands, Bool.and_eq_true, beq_iff_eq, map_eq_some_iff, Prod.mk.injEq] at ok
  refine ⟨ok.1.1, (coherent_of_wellKept ok.1.2).listable, ?_⟩
  intro name found held
  rw [specs held]
  exact valid

/-- A rule for outbound traffic lets in a packet that no rule for inbound traffic names. -/
theorem egress_rule_admits_inbound :
    sampleGroups.Standing sampleTexts (hostWith outbound).shared "sg-1" ∧
    ¬(sampleGroups.reconcile "sg-1").Keeps (filtered sampleTexts.iptables) (fun _ => True)
      (fun reply s' =>
      reply = .ok () → ∀ pkt, pkt.source.length = 4 → pkt.tracking = .new →
        (s'.tables.treat sampleTexts.iptables "filter" (sgChainName "sg-1") pkt = some .accept ↔
          sampleGroups.Declared sampleTexts (hostWith outbound).shared "sg-1" pkt))
            (hostWith outbound) := by
  have checked : stands (hostWith outbound) outbound = true := by decide +kernel
  refine ⟨standing_of_stands checked (by decide), ?_⟩
  intro keeps
  obtain ⟨ok, accepted⟩ := Prod.mk.inj outbound_built
  have done : (builtFrom (hostWith outbound)).1 = .ok () := by
    cases result : (builtFrom (hostWith outbound)).1 with
    | error err =>
      rw [result] at ok
      cases ok
    | ok value => rfl
  obtain ⟨spec, ⟨name, rule, stored, -, -, rfl⟩, ingress, -⟩ :=
    (builtFrom_keeps keeps done fromOutside rfl rfl).mp accepted
  rw [specs_of_stands checked stored] at ingress
  exact absurd ingress (by decide)

def inbound : SecurityGroupRuleSpec where
  securityGroupId := "sg-1"
  direction := "ingress"
  protocol := "tcp"
  port := 80
  cidr := "10.0.0.0/8"

theorem group_chain_declared_inbound :
    sampleGroups.Standing sampleTexts (hostWith inbound).shared "sg-1" ∧
    (sampleGroups.reconcile "sg-1").Keeps (filtered sampleTexts.iptables) (fun _ => True)
    (fun reply s' =>
      reply = .ok () → ∀ pkt, pkt.source.length = 4 → pkt.tracking = .new →
        (s'.tables.treat sampleTexts.iptables "filter" (sgChainName "sg-1") pkt = some .accept ↔
          sampleGroups.Declared sampleTexts (hostWith inbound).shared "sg-1" pkt))
            (hostWith inbound) := by
  have checked : stands (hostWith inbound) inbound = true := by decide +kernel
  have standing := standing_of_stands checked (by decide)
  refine ⟨standing, (SecurityGroupReconciler.group_chain_declared_iff standing).mono ?_⟩
  intro reply s' built done pkt four fresh
  rw [built done pkt four fresh]
  rintro spec ⟨name, rule, stored, -, -, rfl⟩ wide
  rw [specs_of_stands checked stored] at wide
  exact absurd wide (by unfold Portless; decide)

end Infrastructure.Manager
