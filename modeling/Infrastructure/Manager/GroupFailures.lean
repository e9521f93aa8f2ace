import Infrastructure.Manager.SecurityGroups

/-! What the chain of a security group lets through when the commands that build it may fail: it is
flushed first, and the rule that drops the rest comes last. -/

namespace Infrastructure.Manager

open Concurrency State Domain Net Iptables

/-- The command was done, or was to create a chain, which may be there already. -/
def Heeded : (op : Op) → op.Reply → Prop
  | .host ("iptables" :: "-N" :: _), _ => True
  | .host ("iptables" :: _), reply => ∃ text, reply = .ok text
  | _, _ => True

/-- No iptables command fails but those that create chains. -/
def heeded (block : String → Option IPNet) : Machine Op Op.Reply Host where
  exec s op reply s' := (filtered block).exec s op reply s' ∧ Heeded op reply
  drift := (filtered block).drift

section

variable {texts : BlockTexts} {s : Host}

theorem applyRules_heeded (chain : String) (rules : List SecurityGroupRuleSpec) (i : Nat) :
    (applyRules chain i rules).Ends (heeded texts.iptables) (fun reply _ => reply = .ok ()) s := by
  induction rules generalizing s i with
  | nil => rfl
  | cons rule rules ih =>
    rintro _ s' ⟨-, text, rfl⟩
    exact ⟨trivial, ih (i + 1)⟩

theorem ensureChain_heeded (chain : String) (rules : List SecurityGroupRuleSpec) :
    (ensureChain chain rules).Ends (heeded texts.iptables) (fun reply _ => reply = .ok ()) s := by
  rintro _ created -
  refine ⟨trivial, ?_⟩
  rintro _ flushed ⟨-, text, rfl⟩
  refine ⟨trivial, ?_⟩
  rintro _ mark ⟨-, text, rfl⟩
  refine ⟨trivial, ?_⟩
  apply (applyRules_heeded chain rules 0).bind
  rintro _ added rfl
  rintro _ final ⟨-, text, rfl⟩
  exact ⟨trivial, rfl⟩

end

/-- What is unconnected and matches none of the rules is dropped. -/
def DropsRest (texts : BlockTexts) (chain : String) (rules : List SecurityGroupRuleSpec)
    (tables : Tables) : Prop :=
  ∀ pkt, pkt.source.length = 4 → Unconnected pkt → (∀ rule ∈ rules, ¬Matches texts rule pkt) →
    tables.treat texts.iptables "filter" chain pkt = some .drop

/-- A chain whose rules name ports only with protocols that have them is closed, unless a command
fails. -/
theorem group_chain_stays_closed (texts : BlockTexts) (chain : String)
    (rules : List SecurityGroupRuleSpec)
    (accepted : ∀ rule ∈ rules, rule.validate texts.parseCIDR = .ok ())
    (ported : ∀ rule ∈ rules, ¬Portless rule)
    (s : Host) : (ensureChain chain rules).Keeps (heeded texts.iptables) (fun _ => True)
      (fun _ s' => DropsRest texts chain rules s'.tables) s := by
  have included : ∀ s op reply s', (heeded texts.iptables).exec s op reply s' →
      (filtered texts.iptables).exec s op reply s' := fun _ _ _ _ ran => ran.1
  apply (((ensureChain_builds chain rules).refine included).and
    (ensureChain_heeded chain rules)).mono
  rintro reply s' ⟨built, done⟩ pkt four apart unmatched
  obtain ⟨good, listed⟩ := built done
  refine (treat_chainSpecs listed accepted good four apart).2 ?_
  rintro rule mem ⟨covers, protocol, named | portless⟩
  · exact unmatched rule mem ⟨covers, protocol, named⟩
  · exact ported rule mem portless

/-- `net.ParseCIDR` reads IPv6 blocks as well, and iptables does not. -/
def mixedTexts : BlockTexts where
  parseCIDR text := if text = "::/0" then some ⟨List.replicate 16 0, 0, 128⟩ else sampleBlock text
  iptables := sampleBlock
  agree text declared read known found := by
    have other : text ≠ "::/0" := by
      rintro rfl
      cases found
    rw [if_neg other] at known
    exact sampleTexts.agree text declared read known found
  everywhere := sampleTexts.everywhere

def fromAnywhere6 : SecurityGroupRuleSpec where
  securityGroupId := "sg-1"
  direction := "ingress"
  protocol := "tcp"
  port := 22
  cidr := "::/0"

/-- Its chain holds what an earlier build made of it. -/
def closedGroup : Host where
  logged := ⟨⟨∅, 0⟩, []⟩
  tables := ⟨fun _ => List.toAList [⟨"INFRA-SG-SG1", chainSpecs []⟩]⟩

/-- The chain was closed until the API accepted a rule that iptables refuses. -/
theorem refused_rule_opens_group : fromAnywhere6.validate mixedTexts.parseCIDR = .ok () ∧
      closedGroup.tables.treat sampleBlock "filter" "INFRA-SG-SG1" fromOutside = some .drop ∧
      ¬Matches mixedTexts fromAnywhere6 fromOutside ∧
      ¬(ensureChain "INFRA-SG-SG1" [fromAnywhere6]).Keeps
        (filtered mixedTexts.iptables) (fun _ => True)
        (fun _ s' => DropsRest mixedTexts "INFRA-SG-SG1" [fromAnywhere6] s'.tables)
          closedGroup := by
  have unmatched : ¬Matches mixedTexts fromAnywhere6 fromOutside := by
    rintro ⟨-, -, named⟩
    exact absurd named (by unfold NamesPort; decide)
  refine ⟨by decide +kernel, by decide +kernel, unmatched, ?_⟩
  intro keeps
  have dropped :=
    keeps.answered (hostAnswer_exec sampleBlock) fromOutside rfl (by unfold Unconnected; decide)
    (List.forall_mem_singleton.mpr unmatched)
  exact absurd dropped (by decide +kernel)

/-- What the machine whose commands are heeded asks of an answer. -/
def heeds (op : Op) (reply : op.Reply) : Bool :=
  match op, reply with
  | .host cmd, .error _ => cmd.take 2 == ["iptables", "-N"]
  | _, _ => true

theorem heeded_of_heeds {op : Op} {reply : op.Reply} (checked : heeds op reply = true) :
    Heeded op reply := by
  unfold Heeded
  split
  · trivial
  · next words reply other =>
    cases reply with
    | ok text => exact ⟨text, rfl⟩
    | error err =>
      cases words with
      | nil => cases checked
      | cons flag words =>
        rw [heeds, beq_iff_eq] at checked
        obtain ⟨rfl, -⟩ := List.cons.inj (List.cons.inj checked).2
        exact (other words rfl).elim
  · trivial

theorem group_chain_stays_closed_inbound :
    ((ensureChain "INFRA-SG-SG1" [inbound]).outcome (hostAnswer sampleBlock)
      closedGroup).tables.treat sampleBlock
      "filter" "INFRA-SG-SG1" fromOutside = some .drop := by
  have answers (s : Host) (op : Op) (checked : heeds op (hostAnswer sampleBlock s op).1 = true) :
      (heeded sampleBlock).exec s op (hostAnswer sampleBlock s op).1
        (hostAnswer sampleBlock s op).2 :=
    ⟨hostAnswer_exec sampleBlock s op, heeded_of_heeds checked⟩
  have meets : (ensureChain "INFRA-SG-SG1" [inbound]).Meets (hostAnswer sampleBlock) heeds
      closedGroup = true := by
    decide +kernel
  have closed := (Program.Runs.checked answers meets).ends
    (group_chain_stays_closed sampleTexts "INFRA-SG-SG1" [inbound]
    (List.forall_mem_singleton.mpr (by decide))
      (List.forall_mem_singleton.mpr (by unfold Portless; decide)) closedGroup)
  refine closed fromOutside rfl (by unfold Unconnected; decide) (List.forall_mem_singleton.mpr ?_)
  rintro ⟨-, -, named⟩
  exact absurd named (by unfold NamesPort; decide)

end Infrastructure.Manager
