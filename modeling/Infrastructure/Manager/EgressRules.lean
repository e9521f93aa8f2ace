import Infrastructure.Lbproxy.Literals
import Infrastructure.Manager.Egress

/-! What the filter of a VPC's egress lets out, and what its proxy does: both are made of the same
allowed addresses. -/

namespace Infrastructure.Manager

open Concurrency State Domain Net Iptables Crypto Text List Option

variable {texts : EgressTexts}

/-- The entry names a block that holds the address. -/
def Reaches (texts : EgressTexts) (a : EgressAddress) (ip : IP) : Prop :=
  ∃ net, a.network texts.parseIP texts.parseCIDR = .ok net ∧ net.contains ip = true

/-- The protocol and port of the entry admit the packet. -/
def Lets (a : EgressAddress) (pkt : Packet) : Prop :=
  a.protocol = "" ∨ a.protocol = "any" ∨
    transportOf a.protocol = some pkt.transport ∧ (a.port = 0 ∨ pkt.port = some a.port.toNat)

def AdmitsTCP (a : EgressAddress) (n : Nat) : Prop :=
  a.protocol = "" ∨ a.protocol = "any" ∨ a.protocol = "tcp" ∧ (a.port = 0 ∨ a.port = n)

section

variable {a : EgressAddress} {pkt : Packet}

theorem parse_destination {cidr : String} {rest : List String} :
    parse texts.iptables [] ("-d" :: cidr :: rest) =
      (texts.iptables cidr).bind fun read => parse texts.iptables [.destination read] rest := by
  cases got : texts.iptables cidr with
  | none => exact parse_option_none _ (by decide) (by simp [conditionsOf, got])
  | some read => exact parse_option _ (by decide) (by simp [conditionsOf, got])

def filterConditions (a : EgressAddress) (read : IPNet) : List Iptables.Condition :=
  .destination read :: ((transportOf a.protocol).toList.map .transport ++
    if a.port ≠ 0 then [.port a.port.toNat] else [])

theorem parse_filterRule (valid : a.Valid texts.parseIP texts.parseCIDR) {block : String}
    {read : IPNet} (got : texts.iptables block = some read) :
    parse texts.iptables [] (filterRule a block) = some ⟨filterConditions a read, .accept⟩ := by
  have accepts (pre : List Iptables.Condition) :
      parse texts.iptables pre ["-j", "ACCEPT"] = some ⟨pre, .accept⟩ := parse_target _ rfl
  have start (rest : List String) : parse texts.iptables [] ("-d" :: block :: rest) =
      parse texts.iptables [.destination read] rest := by
    rw [parse_destination, got, bind_some]
  -- the options that follow depend on the protocol and on whether there is a port
  have ported {kind : Transport} (named : transportOf a.protocol = some kind)
      (either : kind = .tcp ∨ kind = .udp) (seen : a.protocol = "tcp" ∨ a.protocol = "udp") :
      parse texts.iptables [] (filterRule a block) = some ⟨filterConditions a read, .accept⟩ := by
    rw [filterRule, if_pos seen, filterConditions, named]
    refine (start _).trans ((parse_transport _ named).trans ?_)
    by_cases free : a.port = 0
    · simp only [free, ne_eq, not_true_eq_false, if_false]
      exact accepts _
    · simp only [free, ne_eq, not_false_eq_true, if_true]
      refine (parse_module _).trans
        ((parse_port _ ?_ (portOf_toString valid.low valid.high)).trans (accepts _))
      rcases either with rfl | rfl <;> simp
  rcases valid.protocol with eq | eq | eq | eq
  · have free := valid.portless (.inl eq)
    rw [filterRule, filterConditions, eq, free]
    exact (start _).trans (accepts _)
  · have free := valid.portless (.inr eq)
    rw [filterRule, filterConditions, eq, free]
    exact (start _).trans (accepts _)
  · exact ported (by rw [eq]; rfl) (.inl rfl) (.inl eq)
  · exact ported (by rw [eq]; rfl) (.inr rfl) (.inr eq)

variable (pkt) in
theorem admits_filterRule (valid : a.Valid texts.parseIP texts.parseCIDR) {net : IPNet}
    (named : a.network texts.parseIP texts.parseCIDR = .ok net)
    (good : ∃ rule, parse texts.iptables [] (filterRule a (texts.networkText net)) = some rule) :
    (∃ rule, parse texts.iptables [] (filterRule a (texts.networkText net)) = some rule ∧
      rule.target = .accept) ∧
      (admits texts.iptables pkt (filterRule a (texts.networkText net)) = true ↔
        Reaches texts a pkt.destination ∧ Lets a pkt) := by
  obtain ⟨rule, parsed⟩ := good
  obtain ⟨read, got⟩ : ∃ read, texts.iptables (texts.networkText net) = some read := by
    obtain ⟨read, got, -⟩ := bind_eq_some_iff.mp (parse_destination.symm.trans parsed)
    exact ⟨read, got⟩
  have made := parse_filterRule valid got
  have reaches : Reaches texts a pkt.destination ↔ read.contains pkt.destination = true := by
    rw [texts.agree net read got]
    constructor
    · rintro ⟨other, eq, mem⟩
      rw [named] at eq
      cases eq
      exact mem
    · exact fun mem => ⟨net, named, mem⟩
  refine ⟨⟨_, made, rfl⟩, ?_⟩
  rw [admits, made, reaches]
  simp only [Rule.matches, filterConditions, all_cons, all_append, Bool.and_eq_true]
  refine and_congr_right fun _ => ?_
  rcases valid.protocol with eq | eq | eq | eq
  · have free := valid.portless (.inl eq)
    simp [Lets, eq, free, transportOf]
  · have free := valid.portless (.inr eq)
    simp [Lets, eq, free, transportOf]
  · by_cases free : a.port = 0 <;> simp [Lets, eq, free, transportOf, Condition.holds,
      @eq_comm _ pkt.transport]
  · by_cases free : a.port = 0 <;> simp [Lets, eq, free, transportOf, Condition.holds,
      @eq_comm _ pkt.transport]

theorem lets_iff (valid : a.Valid texts.parseIP texts.parseCIDR) (tcp : pkt.transport = .tcp)
    {n : Nat}
    (ported : pkt.port = some n) : Lets a pkt ↔ AdmitsTCP a n := by
  have low := valid.low
  have port : n = a.port.toNat ↔ a.port = n := by omega
  rw [Lets, AdmitsTCP, tcp, ported, Option.some.injEq, port]
  rcases valid.protocol with eq | eq | eq | eq <;> simp [eq, transportOf]

/-- The entries with the networks that they name. -/
abbrev Named (texts : EgressTexts) : List EgressAddress → List IPNet → Prop :=
  List.Forall₂ fun a net => a.network texts.parseIP texts.parseCIDR = .ok net

/-- The rules of the entries, before the one that rejects. -/
def entryRules (texts : EgressTexts) (allowed : List EgressAddress)
    (networks : List IPNet) : List Spec :=
  List.zipWith (fun a net => filterRule a (texts.networkText net)) allowed networks

theorem filterRules_eq (e : EgressSetup) (networks : List IPNet) :
    filterRules e (networks.map texts.networkText) = entryRules texts e.allowed networks ++
      [rejectRule] := by
  rw [filterRules, entryRules, zipWith_map_right]

variable {allowed : List EgressAddress} {networks : List IPNet}

variable (pkt) in
theorem entryRules_spec (named : Named texts allowed networks)
    (valid : ∀ a ∈ allowed, a.Valid texts.parseIP texts.parseCIDR)
    (good : ∀ spec ∈ entryRules texts allowed networks, ∃ rule,
      parse texts.iptables [] spec = some rule) :
    (∀ spec ∈ entryRules texts allowed networks, ∃ rule, parse texts.iptables [] spec = some rule ∧
      rule.target = .accept) ∧
    ((entryRules texts allowed networks).any (admits texts.iptables pkt) = true ↔
      ∃ a ∈ allowed, Reaches texts a pkt.destination ∧ Lets a pkt) := by
  induction named with
  | nil => exact ⟨forall_mem_nil _, by simp [entryRules]⟩
  | cons got _ ih =>
    rw [entryRules, zipWith_cons_cons] at good ⊢
    rw [forall_mem_cons] at valid good
    have rest := ih valid.2 good.2
    have first := admits_filterRule pkt valid.1 got good.1
    refine ⟨forall_mem_cons.mpr ⟨first.1, rest.1⟩, ?_⟩
    rw [any_cons, Bool.or_eq_true, first.2, exists_mem_cons_iff]
    exact or_congr_right rest.2

theorem parse_rejectRule (pre : List Iptables.Condition) :
    parse texts.iptables pre rejectRule = some ⟨pre, .reject "icmp-admin-prohibited"⟩ :=
  parse_target _ rfl

theorem verdict_filterRules {jump : String → Option Target} (named : Named texts allowed networks)
    (valid : ∀ a ∈ allowed, a.Valid texts.parseIP texts.parseCIDR)
    (good : ∀ spec ∈ entryRules texts allowed networks, ∃ rule,
      parse texts.iptables [] spec = some rule) :
    verdict texts.iptables jump pkt (entryRules texts allowed networks ++ [rejectRule]) =
      some .accept ∧
        (∃ a ∈ allowed, Reaches texts a pkt.destination ∧ Lets a pkt) ∨
      verdict texts.iptables jump pkt (entryRules texts allowed networks ++ [rejectRule]) =
          some (.reject "icmp-admin-prohibited") ∧
        ¬∃ a ∈ allowed, Reaches texts a pkt.destination ∧ Lets a pkt := by
  obtain ⟨accepts, any⟩ := entryRules_spec pkt named valid good
  rw [← any, verdict_accepts accepts]
  by_cases taken : (entryRules texts allowed networks).any (admits texts.iptables pkt) = true
  · rw [if_pos taken]
    exact .inl ⟨rfl, taken⟩
  · rw [if_neg taken]
    exact .inr ⟨verdict_match (parse_rejectRule []) rfl rfl, taken⟩

theorem worded_filterRule {block : String} (solid : Solid block.toList) :
    Worded (filterRule a block) := by
  refine ⟨by simp [filterRule], ?_⟩
  intro word mem
  have cases : word = block ∨ word = toString a.port ∨
      word ∈ ["-d", "-p", "tcp", "udp", "-m", "--dport", "-j", "ACCEPT"] := by
    rw [filterRule] at mem
    split at mem
    · next seen =>
      split at mem <;> rcases seen with eq | eq <;> simp [eq] at mem ⊢ <;> tauto
    · simp at mem ⊢
      tauto
  rcases cases with rfl | rfl | mem
  · exact solid
  · exact solid_toString_int a.port
  · have all : ∀ word ∈ ["-d", "-p", "tcp", "udp", "-m", "--dport", "-j", "ACCEPT"],
        Solid word.toList := by decide
    exact all word mem

theorem worded_entryRules (named : Named texts allowed networks) :
    ∀ rule ∈ entryRules texts allowed networks ++ [rejectRule], Worded rule := by
  have rejects : Worded rejectRule := by decide
  rw [forall_mem_append, forall_mem_singleton]
  refine ⟨?_, rejects⟩
  induction named with
  | nil => exact forall_mem_nil _
  | cons _ _ ih =>
    rw [entryRules, zipWith_cons_cons, forall_mem_cons]
    exact ⟨worded_filterRule (texts.solid _), ih⟩

end

section

variable {block : String → Option IPNet} {table chain : String} {s : Host}

theorem appendRules_keeps {specs rules : List Spec}
    (has : s.tables.rules table chain = some specs) :
    (appendRules table chain rules).Ends (filtered block) (fun reply s' => reply = .ok () →
      s'.tables.rules table chain = some (specs ++ rules) ∧
        ∀ rule ∈ rules, ∃ parsed, parse block [] rule = some parsed)
      s := by
  induction rules generalizing specs s with
  | nil => exact fun _ => ⟨by rw [has, append_nil], forall_mem_nil _⟩
  | cons rule rules ih =>
    refine tries_iptables (fun _ _ wrong => by cases wrong) ?_
    intro text s' performs
    rw [Performs, perform_of block (show tableOf _ = (table, "-A" :: chain :: rule) from rfl)
      (show commandOf _ = some (.append chain rule) from rfl)] at performs
    obtain ⟨good, eq⟩ := perform_append block performs has
    have now : s'.tables.rules table chain = some (specs ++ [rule]) := by
      rw [eq, Tables.rules_set_self]
    apply (ih now).mono
    intro reply last finished ok
    obtain ⟨whole, read⟩ := finished ok
    rw [append_assoc] at whole
    exact ⟨whole, forall_mem_cons.mpr ⟨parse_of_acceptable block good, read⟩⟩

/-- A chain that could be synchronized holds the rules, and iptables has read them. -/
theorem syncChain_keeps {rules : List Spec} (named : Solid chain.toList)
    (worded : ∀ rule ∈ rules, Worded rule)
    (held : ∀ specs, s.tables.rules table chain = some specs → ∀ spec ∈ specs, Held block spec) :
    (syncChain table chain rules).Ends (filtered block) (fun reply s' => reply = .ok () →
      s'.tables.rules table chain = some rules ∧
        ∀ rule ∈ rules, ∃ parsed, parse block [] rule = some parsed)
      s := by
  rw [syncChain]
  apply ends_iptables
  intro _ created creates
  have still : ∀ specs, created.tables.rules table chain = some specs →
      ∀ spec ∈ specs, Held block spec := by
    intro specs has
    rcases creates.cases with eq | ⟨text, done⟩
    · rw [eq] at has
      exact held specs has
    · rw [perform_of block (show tableOf _ = (table, ["-N", chain]) from rfl)
        (show commandOf _ = some (.create chain) from rfl)] at done
      rw [(perform_create block done).2, Tables.rules_set_self] at has
      cases has
      exact forall_mem_nil _
  apply ends_iptables
  intro printed seen prints
  have eq : seen.tables.rules table chain = created.tables.rules table chain :=
    prints.frame (show tableOf _ = (table, ["-S", chain]) from rfl)
      (show commandOf _ = some (.print chain) from rfl)
      fun _ => rfl
  dsimp only [Program.bind]
  split
  · next fit =>
    intro _
    cases printed with
    | error err => cases fit
    | ok text =>
      rw [Performs, perform_of block (show tableOf _ = (table, ["-S", chain]) from rfl)
        (show commandOf _ = some (.print chain) from rfl)] at prints
      obtain ⟨specs, has, shown, -⟩ := perform_print block prints
      have lines := splitOn_print named fun spec mem => (still specs has spec mem).worded
      rw [← shown] at lines
      have equal := lines.symm.trans (Option.some.inj fit)
      have alike := map_injective_iff.mpr (fun _ _ => String.toList_inj.mp) equal
      have rulesSame : specs = rules :=
        lines_inj named (fun spec mem => (still specs has spec mem).worded) worded
          (List.cons.inj alike).2
      rw [eq, has, rulesSame]
      exact ⟨rfl, fun rule mem => (still specs has rule (rulesSame ▸ mem)).read⟩
  · refine tries_iptables (fun _ _ wrong => by cases wrong) ?_
    intro text flushed flushes
    rw [Performs, perform_of block (show tableOf _ = (table, ["-F", chain]) from rfl)
      (show commandOf _ = some (.flush chain) from rfl)] at flushes
    have empty : flushed.tables.rules table chain = some [] := by
      rw [perform_flush block flushes, Tables.rules_set_self]
    exact appendRules_keeps empty

theorem syncChain_about (table chain : String) (rules : List Spec) :
    (syncChain table chain rules).Uses (Op.About table chain) fun _ => True := by
  have appends : (appendRules table chain rules).Uses (Op.About table chain) fun _ => True := by
    induction rules with
    | nil => trivial
    | cons rule rules ih =>
      refine uses_run (chainCommand rfl (show commandOf _ = some (.append chain rule) from rfl)
        fun _ other => beq_false_of_ne other.symm) ?_
      intro reply
      cases reply with
      | error err => trivial
      | ok _ => exact ih
  refine uses_run (chainCommand rfl (show commandOf _ = some (.create chain) from rfl)
    fun _ other => beq_false_of_ne other.symm) ?_
  intro _
  refine uses_run
    (chainCommand rfl (show commandOf _ = some (.print chain) from rfl) fun _ _ => rfl) ?_
  intro out
  split
  · trivial
  · refine uses_run (chainCommand rfl (show commandOf _ = some (.flush chain) from rfl)
      fun _ other => beq_false_of_ne other.symm) ?_
    intro reply
    cases reply with
    | error err => trivial
    | ok _ => exact appends

theorem ensureLink_about (vpcId uplink : String) :
    (ensureLink vpcId uplink).Uses (Op.About "filter" "FORWARD") fun _ => True := by
  refine uses_run
    (chainCommand rfl (show commandOf _ =
      some (.check "FORWARD" (egressLink vpcId uplink)) from rfl)
    fun _ _ => rfl) ?_
  intro reply
  cases reply with
  | ok _ => trivial
  | error _ =>
    refine uses_run
      (chainCommand rfl (show commandOf _ =
        some (.insert "FORWARD" (egressLink vpcId uplink)) from rfl)
      fun _ other => beq_false_of_ne other.symm) ?_
    intro reply
    cases reply <;> trivial

end

section

theorem toList_filterChain (vpcId : String) :
    (egressChains vpcId).2.toList = "INFRA-EGF-".toList ++ (hexEncode
      (wordBytes (fnv32a (bytesOf vpcId)))).toList :=
  String.toList_append

theorem solid_filterChain (vpcId : String) : Solid (egressChains vpcId).2.toList := by
  rw [toList_filterChain]
  refine ⟨by simp, ?_⟩
  intro char mem
  rcases mem_append.mp mem with lead | digit
  · have solid : Solid "INFRA-EGF-".toList := by decide
    exact solid.2 char lead
  · exact isSpace_hexEncode digit

theorem filterChain_ne_forward (vpcId : String) : (egressChains vpcId).2 ≠ "FORWARD" := by
  intro eq
  have first := congrArg (fun text : String => text.toList.head?) eq
  simp only [toList_filterChain] at first
  cases first

variable {e : EgressSetup} {s : Host}

theorem ensureEgress_keeps
    (held : ∀ specs, s.tables.rules "filter" (egressChains e.vpcId).2 = some specs →
      ∀ spec ∈ specs, Held texts.iptables spec) :
    (ensureEgress texts e).Ends (filtered texts.iptables) (fun reply s' => reply = .ok () →
      ∃ networks, Named texts e.allowed networks ∧
        s'.tables.rules "filter" (egressChains e.vpcId).2 =
          some (entryRules texts e.allowed networks ++ [rejectRule]) ∧
        ∀ spec ∈ entryRules texts e.allowed networks, ∃ rule, parse texts.iptables [] spec =
          some rule) s := by
  let chain := (egressChains e.vpcId).2
  let specs := s.tables.rules "filter" chain
  have nat {other : String} : "filter" = "nat" → chain ≠ other := fun eq => absurd eq (by decide)
  -- up to the filter's own chain, its rules stay as they were
  apply keeps_andThen (keeps_apart (pid_apart _ _) rfl) (fun _ _ _ wrong => by cases wrong)
  intro pid state eq
  apply keeps_andThen (keeps_apart (ensureVIP_apart _ _ _ _) eq) (fun _ _ _ wrong => by cases wrong)
  intro _ state eq
  apply keeps_andThen (keeps_apart (ensureHostLeg_apart _ _) eq) (fun _ _ _ wrong => by cases wrong)
  intro _ state eq
  apply keeps_andThen (keeps_about (iptablesEnsure_about _ _ _) nat eq)
    (fun _ _ _ wrong => by cases wrong)
  intro _ state eq
  split
  · exact fun wrong => by cases wrong
  · next networks mapped =>
    have named : Named texts e.allowed networks := Lbproxy.forall₂_of_mapM mapped
    apply keeps_andThen (keeps_about (syncChain_about _ _ _) nat eq)
      (fun _ _ _ wrong => by cases wrong)
    intro _ state eq
    apply keeps_andThen (keeps_about (iptablesEnsure_about _ _ _) nat eq)
      (fun _ _ _ wrong => by cases wrong)
    intro _ state eq
    rw [filterRules_eq]
    apply keeps_andThen (syncChain_keeps (solid_filterChain _) ?_ ?_)
      (fun _ _ _ wrong => by cases wrong)
    · intro _ state synced
      obtain ⟨now, good⟩ := synced rfl
      apply (keeps_about (ensureLink_about _ _) (fun _ => filterChain_ne_forward e.vpcId) now).mono
      intro _ s' kept _
      exact ⟨networks, named, kept, fun spec mem => good spec (mem_append_left _ mem)⟩
    · exact worded_entryRules named
    · intro got has
      exact held got (eq ▸ has)

end

section

variable {spec : EgressProxySpec} {compiled : Lbproxy.Policy}

theorem parseCIDR_iff {a : EgressAddress} {net : IPNet} :
    Lbproxy.parseCIDR texts.toLibrary a.cidr = .ok net ↔
      a.network texts.parseIP texts.parseCIDR = .ok net := by
  rw [Lbproxy.parseCIDR, EgressAddress.network]
  cases texts.parseIP a.cidr with
  | some ip => simp
  | none =>
    cases texts.parseCIDR a.cidr with
    | some net => simp
    | none => simp

theorem allowsIP_iff
    (compiles : Lbproxy.compilePolicy texts.toLibrary (egressPolicy spec) = .ok compiled)
    {ip : Address} :
    compiled.allowsIP ip = true ↔ ∃ a ∈ spec.allowedAddresses, Reaches texts a ip.1 := by
  constructor
  · intro allowed
    obtain ⟨c, seen, net, got, inside⟩ := Lbproxy.inAllowedCIDR compiles allowed
    obtain ⟨a, mem, rfl⟩ := mem_map.mp seen
    exact ⟨a, mem, net, parseCIDR_iff.mp got, inside⟩
  · rintro ⟨a, mem, net, named, inside⟩
    have seen : a.cidr ∈ (egressPolicy spec).allowedCIDRs := mem_map_of_mem mem
    obtain ⟨other, within, got⟩ :=
      Lbproxy.exists_of_mapM_ok (Lbproxy.compiled_parts compiles).2 seen
    rw [parseCIDR_iff.mpr named] at got
    cases got
    exact any_eq_true.mpr ⟨net, within, inside⟩

/-- A literal address and port are dialed by the proxy exactly when the filter accepts the direct
connection, unless the address is only in entries for other protocols or ports. -/
theorem proxy_agrees_with_filter_iff (texts : EgressTexts) (spec : EgressProxySpec)
    (valid : spec.validate texts.parseIP texts.parseCIDR texts.toLower = .ok ()) (e : EgressSetup)
    (same : e.allowed = spec.allowedAddresses) (s s' : Host)
    (held : ∀ specs, s.tables.rules "filter" (egressChains e.vpcId).2 = some specs →
      ∀ rule ∈ specs, Held texts.iptables rule)
    (runs : (ensureEgress texts e).Runs (filtered texts.iptables) s (.ret (.ok ())) s')
      (address : String)
    (listener : Lbproxy.Config.Listener) (served : listener ∈ (proxies address spec).listeners)
    (policy : Lbproxy.EgressPolicy) (told : listener.egress = some policy)
      (compiled : Lbproxy.Policy)
    (compiles : Lbproxy.compilePolicy texts.toLibrary policy = .ok compiled)
      (r : Lbproxy.HTTPRequest) (host port : String)
    (asks : Lbproxy.Asks texts.toLibrary r host port) (ip : Address)
    (literal : texts.parseIP (Lbproxy.trimBrackets host) = some ip) (n : Nat)
      (numbered : texts.atoi port = some n)
    (pkt : Packet) (sent : pkt.destination = ip.1) (tcp : pkt.transport = .tcp)
      (ported : pkt.port = some n) :
    ((Lbproxy.Connects texts.toLibrary compiled r (texts.joinHostPort (texts.ipString ip) port) ↔
        s'.tables.treat texts.iptables "filter" (egressChains e.vpcId).2 pkt = some .accept) ↔
      ((∃ a ∈ spec.allowedAddresses, Reaches texts a ip.1) →
        ∃ a ∈ spec.allowedAddresses, Reaches texts a ip.1 ∧ AdmitsTCP a n)) := by
  have entries := spec.valid_addresses valid
  rw [← same] at entries
  have policySame : policy = egressPolicy spec := by
    simp only [proxies, mem_cons, not_mem_nil, or_false] at served
    rcases served with rfl | rfl | rfl <;> exact (Option.some.inj told).symm
  subst policySame
  obtain ⟨networks, named, chain, good⟩ := (runs.ends (ensureEgress_keeps held)) rfl
  have proxy :
      Lbproxy.Connects texts.toLibrary compiled r (texts.joinHostPort (texts.ipString ip) port) ↔
      compiled.allowsIP ip = true := Lbproxy.connects_iff asks literal (by simp [numbered])
  have treated : s'.tables.treat texts.iptables "filter" (egressChains e.vpcId).2 pkt =
      some .accept ↔
      ∃ a ∈ spec.allowedAddresses, Reaches texts a ip.1 ∧ AdmitsTCP a n := by
    have lets : (∃ a ∈ e.allowed, Reaches texts a pkt.destination ∧ Lets a pkt) ↔
        ∃ a ∈ e.allowed, Reaches texts a pkt.destination ∧ AdmitsTCP a n :=
      exists_congr fun a => and_congr_right fun mem => and_congr_right fun _ =>
        lets_iff (entries a mem) tcp ported
    obtain ⟨jump, walked⟩ := walk_eq_verdict texts.iptables pkt (s'.tables.chains "filter")
      (s'.tables.chains "filter").entries.length
        (entryRules texts e.allowed networks ++ [rejectRule])
    rw [Tables.treat, chain, getD_some, walked, ← same, ← sent, ← lets]
    rcases verdict_filterRules named entries good with ⟨accepted, allowed⟩ | ⟨rejected, denied⟩
    · exact iff_of_true accepted allowed
    · exact iff_of_false (by rw [rejected]; nofun) denied
  rw [proxy, allowsIP_iff compiles, treated]
  constructor
  · exact fun agree covered => agree.mp covered
  · intro covered
    exact ⟨covered, fun ⟨a, mem, reaches, _⟩ => ⟨a, mem, reaches⟩⟩

/-- The answers of a host on which every unit has a process. -/
def runningAnswer (block : String → Option IPNet) (s : Host) (op : Op) : op.Reply × Host :=
  match op with
  | .host ("systemctl" :: words) =>
    (.ok "1", ⟨⟨s.shared, ⟨s.shared, "systemctl" :: words, .ok "1"⟩ :: s.logged.deeds⟩, s.tables⟩)
  | op => hostAnswer block s op

theorem runningAnswer_exec (block : String → Option IPNet) (s : Host) (op : Op) :
    (filtered block).exec s op (runningAnswer block s op).1 (runningAnswer block s op).2 := by
  unfold runningAnswer
  split
  · exact ⟨⟨rfl, rfl⟩, rfl⟩
  · exact hostAnswer_exec block s _

/-- The texts of the blocks that the sample rules name. -/
def sampleBlocks : List (String × IPNet) :=
  [("203.0.113.7/32", ⟨[203, 0, 113, 7], 32, 32⟩), ("10.0.0.0/8", ⟨[10, 0, 0, 0], 8, 32⟩),
    ("172.16.0.0/12", ⟨[172, 16, 0, 0], 12, 32⟩), ("192.168.0.0/16", ⟨[192, 168, 0, 0], 16, 32⟩),
    ("100.64.0.0/10", ⟨[100, 64, 0, 0], 10, 32⟩), ("169.254.0.0/16", ⟨[169, 254, 0, 0], 16, 32⟩),
    ("127.0.0.0/8", ⟨[127, 0, 0, 0], 8, 32⟩), ("169.254.0.2/32", ⟨[169, 254, 0, 2], 32, 32⟩)]

def sampleAddress : Address := ⟨[203, 0, 113, 7], .inl rfl⟩

def sampleEgressTexts : EgressTexts where
  toLibrary := { Lbproxy.plainLibrary with
    parseIP := fun text => [("203.0.113.7", sampleAddress),
      ("10.0.0.1", ⟨[10, 0, 0, 1], .inl rfl⟩)].lookup text
    parseCIDR := fun text => [("10.0.0.0/16", ⟨[10, 0, 0, 0], 16, 32⟩)].lookup text
    splitHostPort := fun text => [("203.0.113.7:22", ("203.0.113.7", "22")),
      ("203.0.113.7:443", ("203.0.113.7", "443"))].lookup text
    atoi := fun text => atoi text.toList }
  cidrAddress text := [("10.0.0.1/16", [10, 0, 0, 1])].lookup text
  addressText := dotted
  networkText net := if net = ⟨[203, 0, 113, 7], 32, 32⟩ then "203.0.113.7/32" else "?"
  iptables text := sampleBlocks.lookup text
  agree net read found ip := by
    split at found
    · next same =>
      rw [same, show read = ⟨[203, 0, 113, 7], 32, 32⟩ from (Option.some.inj found).symm]
    · cases found
  solid net := by
    split <;> decide

/-- Direct connections and proxied ones to one port of one address. -/
def sampleProxy : EgressProxySpec :=
  { enabled := true, allowedAddresses := [⟨"203.0.113.7", "tcp", 443⟩] }

def sampleSetup : EgressSetup :=
  ⟨"vpc-1", "br-vpc-1", "10.0.0.2", "eth0", sampleProxy.allowedAddresses⟩

/-- A host whose packet filter is as the kernel starts with it. -/
def freshHost : Host where
  logged := { shared := { store := ∅, clock := 0 } }
  tables := ⟨fun table =>
    if table = "nat" then List.toAList [⟨"PREROUTING", []⟩, ⟨"POSTROUTING", []⟩]
    else List.toAList [⟨"FORWARD", []⟩]⟩

def sampleRun : Except Error Unit × Host :=
  (ensureEgress sampleEgressTexts sampleSetup).run
    (fun op state => runningAnswer sampleEgressTexts.iptables state op) freshHost

theorem sampleRun_ok : sampleRun.1 = .ok () := by
  decide +kernel

theorem sampleRun_runs : (ensureEgress sampleEgressTexts sampleSetup).Runs
    (filtered sampleEgressTexts.iptables) freshHost
    (.ret (.ok ())) sampleRun.2 := by
  have runs := Program.Runs.answered (runningAnswer_exec sampleEgressTexts.iptables)
    (ensureEgress sampleEgressTexts sampleSetup) freshHost
  rw [← sampleRun_ok]
  exact runs

def samplePolicy : Lbproxy.Policy := ⟨[], [⟨[203, 0, 113, 7], 32, 32⟩]⟩

def sampleTunnel (port : String) : Lbproxy.HTTPRequest := ⟨true, "203.0.113.7:" ++ port, "", ""⟩

def samplePacket (n : Nat) : Packet :=
  { source := [10, 0, 0, 10], destination := [203, 0, 113, 7], transport := .tcp, port := some n }

/-- The filter rejects a connection to port 22 that the proxy makes for an entry for port 443. -/
theorem proxy_connects_past_the_port :
    sampleProxy.validate sampleEgressTexts.parseIP sampleEgressTexts.parseCIDR
      sampleEgressTexts.toLower = .ok () ∧
    (ensureEgress sampleEgressTexts sampleSetup).Runs
    (filtered sampleEgressTexts.iptables) freshHost
      (.ret (.ok ())) sampleRun.2 ∧
    Lbproxy.compilePolicy sampleEgressTexts.toLibrary (egressPolicy sampleProxy) =
      .ok samplePolicy ∧
    Lbproxy.Connects sampleEgressTexts.toLibrary samplePolicy (sampleTunnel "22")
      (sampleEgressTexts.joinHostPort (sampleEgressTexts.ipString sampleAddress) "22") ∧
    sampleRun.2.tables.treat sampleEgressTexts.iptables "filter" (egressChains sampleSetup.vpcId).2
      (samplePacket 22) =
      some (.reject "icmp-admin-prohibited") := by
  refine ⟨by decide +kernel, sampleRun_runs, by decide +kernel, ?_, by decide +kernel⟩
  have asks : Lbproxy.Asks sampleEgressTexts.toLibrary (sampleTunnel "22") "203.0.113.7" "22" :=
    .tunnel rfl (by decide +kernel)
  exact Lbproxy.serveHTTP_allowed asks (by decide +kernel) (by decide +kernel) (by decide +kernel)

theorem proxy_agrees_with_filter_declared_port :
    Lbproxy.Connects sampleEgressTexts.toLibrary samplePolicy (sampleTunnel "443")
        (sampleEgressTexts.joinHostPort (sampleEgressTexts.ipString sampleAddress) "443") ↔
      sampleRun.2.tables.treat sampleEgressTexts.iptables "filter"
        (egressChains sampleSetup.vpcId).2 (samplePacket 443) =
        some .accept := by
  refine (proxy_agrees_with_filter_iff sampleEgressTexts sampleProxy (by decide +kernel) sampleSetup
    rfl freshHost sampleRun.2
    ?_ sampleRun_runs "10.0.0.254" _ (.head _) _ rfl samplePolicy (by decide +kernel)
      (sampleTunnel "443") "203.0.113.7" "443"
    (.tunnel rfl (by decide +kernel)) sampleAddress (by decide +kernel) 443 (by decide +kernel)
      (samplePacket 443) rfl rfl
    rfl).mpr ?_
  · intro specs present
    have absent : freshHost.tables.rules "filter" (egressChains sampleSetup.vpcId).2 = none := by
      decide +kernel
    rw [absent] at present
    cases present
  · rintro ⟨a, mem, reaches⟩
    refine ⟨a, mem, reaches, ?_⟩
    rw [mem_singleton.mp mem]
    exact .inr (.inr ⟨rfl, .inr rfl⟩)

end

end Infrastructure.Manager
