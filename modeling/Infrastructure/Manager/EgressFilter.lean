import Infrastructure.Cluster.Formats
import Infrastructure.Manager.EgressRules

/-! The filter of a VPC's egress over whole sequences of passes: what keeps it in place, whatever
else fails. -/

namespace Infrastructure.Manager

open Concurrency State Domain Net Iptables Crypto Text List Option Program Registry

section

variable (texts : EgressTexts) (vpcId uplink : String)

/-- The rule leaves alone the connections of the VPC, or sends them to its filter. -/
def Passable (spec : Spec) : Prop :=
  (∀ pkt, pkt.mark = vrfMark vpcId → admits texts.iptables pkt spec = false) ∨
    ∃ uplink, spec = egressLink vpcId uplink

/-- The filter holds the rules, and the VPC's new connections out of the uplink come to it first. -/
structure InPlace (wanted : List Spec) (tables : Tables) : Prop where
  chain : tables.rules "filter" (egressChains vpcId).2 = some wanted
  linked : ∃ front rest, tables.rules "filter" "FORWARD" =
    some (front ++ egressLink vpcId uplink :: rest) ∧
    ∀ spec ∈ front, Passable texts vpcId spec

end

section

variable {texts : EgressTexts} {vpcId uplink : String} {pkt : Packet}

theorem targetOf_filterChain (vpcId : String) :
    targetOf [(egressChains vpcId).2] = some (.jump (egressChains vpcId).2) := by
  have other (name : String) (ne : name.toList.head? ≠ some 'I') :
      (egressChains vpcId).2 ≠ name := by
    intro eq
    apply ne
    rw [← eq, toList_filterChain]
    rfl
  simp [targetOf, other "ACCEPT" (by decide), other "DROP" (by decide), other "RETURN" (by decide),
    other "MASQUERADE" (by decide)]

theorem parse_egressLink (vpcId uplink : String) :
    parse texts.iptables [] (egressLink vpcId uplink) =
    some ⟨[.outward uplink, .mark (vrfMark vpcId), .tracking [.new]],
      .jump (egressChains vpcId).2⟩ := by
  have marks : conditionsOf texts.iptables [.outward uplink] "--mark" (hex32 (vrfMark vpcId)) =
      some [.mark (vrfMark vpcId)] := by
    have read : markOf (hex32 (vrfMark vpcId)) = some (vrfMark vpcId) := markOf_hex _
    simp [conditionsOf, read]
  rw [egressLink, parse_option _ (by decide)
    (show conditionsOf _ _ _ _ = some [.outward uplink] from rfl), parse_module, nil_append,
    parse_option _ (by decide) marks, parse_module,
    parse_option _ (by decide) (show conditionsOf _ _ _ _ = some [.tracking [.new]] from rfl),
    parse_target _ (targetOf_filterChain vpcId)]
  rfl

theorem passable_egressLink {other : String} (ne : other = vpcId ∨ vrfMark other ≠ vrfMark vpcId)
    (uplink : String) :
    Passable texts vpcId (egressLink other uplink) := by
  rcases ne with rfl | ne
  · exact .inr ⟨uplink, rfl⟩
  · left
    intro pkt mark
    rw [admits, parse_egressLink]
    simp [Rule.matches, Condition.holds, mark, ne.symm]

variable {allowed : List EgressAddress} {networks : List IPNet}

theorem admits_outside {a : EgressAddress} {net : IPNet}
    (named : a.network texts.parseIP texts.parseCIDR = .ok net)
    (out : ¬Reaches texts a pkt.destination) :
    admits texts.iptables pkt (filterRule a (texts.networkText net)) = false := by
  rw [admits]
  split
  · next rule parsed =>
    obtain ⟨read, got, later⟩ := bind_eq_some_iff.mp (parse_destination.symm.trans parsed)
    have asked := parse_earlier _ later (.destination read) (.head _)
    rw [Rule.matches, List.all_eq_false]
    refine ⟨_, asked, ?_⟩
    rw [Condition.holds, texts.agree net read got]
    exact fun mem => out ⟨net, named, mem⟩
  · rfl

theorem named_unique {others : List IPNet} (first : Named texts allowed networks)
    (snd : Named texts allowed others) :
    networks = others := by
  induction first generalizing others with
  | nil => exact (forall₂_nil_left_iff.mp snd).symm
  | cons got _ ih =>
    cases snd with
    | cons also rest => rw [ih rest, Except.ok.inj (got.symm.trans also)]

/-- The filter rejects what no entry covers. -/
theorem verdict_outside {jump : String → Option Target} (named : Named texts allowed networks)
    (out : ∀ a ∈ allowed, ¬Reaches texts a pkt.destination) :
    verdict texts.iptables jump pkt (entryRules texts allowed networks ++ [rejectRule]) =
      some (.reject "icmp-admin-prohibited") := by
  induction named with
  | nil => exact verdict_match (parse_rejectRule []) rfl rfl
  | cons got _ ih =>
    rw [forall_mem_cons] at out
    rw [entryRules, zipWith_cons_cons, cons_append, verdict_skip (admits_outside got out.1)]
    exact ih out.2

theorem verdict_linked {jump : String → Option Target} {t : Target} {front rest : List Spec}
    (mark : pkt.mark = vrfMark vpcId) (new : pkt.tracking = .new) (out : pkt.outward = uplink)
    (passable : ∀ spec ∈ front, Passable texts vpcId spec)
    (decides : jump (egressChains vpcId).2 = some t) :
    verdict texts.iptables jump pkt (front ++ egressLink vpcId uplink :: rest) = some t := by
  induction front with
  | nil =>
    apply verdict_jump (parse_egressLink vpcId uplink) _ decides
    simp [Condition.holds, mark, new, out]
  | cons spec front ih =>
    rw [forall_mem_cons] at passable
    rw [cons_append]
    rcases passable.1 with skipped | ⟨other, rfl⟩
    · rw [verdict_skip (skipped pkt mark)]
      exact ih passable.2
    · by_cases eq : pkt.outward = other
      · apply verdict_jump (parse_egressLink vpcId other) _ decides
        simp [Condition.holds, mark, new, eq]
      · rw [verdict_skip]
        · exact ih passable.2
        · rw [admits, parse_egressLink]
          simp [Rule.matches, Condition.holds, eq]

theorem InPlace.rejects {tabs : Tables}
    (place : InPlace texts vpcId uplink (entryRules texts allowed networks ++ [rejectRule]) tabs)
    (named : Named texts allowed networks) (mark : pkt.mark = vrfMark vpcId)
    (new : pkt.tracking = .new) (out : pkt.outward = uplink)
    (outside : ∀ a ∈ allowed, ¬Reaches texts a pkt.destination) :
    tabs.treat texts.iptables "filter" "FORWARD" pkt = some (.reject "icmp-admin-prohibited") := by
  obtain ⟨front, rest, linked, passable⟩ := place.linked
  obtain ⟨depth, entries⟩ : ∃ depth, (tabs.chains "filter").entries.length = depth + 1 := by
    cases chains : (tabs.chains "filter").entries with
    | nil =>
      have got := place.chain
      rw [Tables.rules, AList.lookup, chains] at got
      cases got
    | cons entry others => exact ⟨others.length, rfl⟩
  rw [Tables.treat, linked, getD_some, entries, walk]
  apply verdict_linked mark new out passable
  obtain ⟨jump, walked⟩ := walk_eq_verdict texts.iptables pkt (tabs.chains "filter") depth
    (entryRules texts allowed networks ++ [rejectRule])
  have has : (tabs.chains "filter").lookup (egressChains vpcId).2 = some _ := place.chain
  rw [has, getD_some, walked]
  exact verdict_outside named outside

end

/-- The operation is a command, and whatever comes of it, the filter stays in place. -/
def Leaves (texts : EgressTexts) (vpcId uplink : String) (wanted : List Spec) (op : Op) : Prop :=
  (∃ cmd, op = .host cmd) ∧ op.Sustains texts.iptables (InPlace texts vpcId uplink wanted)

section

variable {texts : EgressTexts} {vpcId uplink : String} {wanted : List Spec}

theorem about_inPlace {op : Op} {table chain : String} (about : op.About table chain)
    (apart : table = "filter" → chain ≠ "FORWARD" ∧ chain ≠ (egressChains vpcId).2) :
    Leaves texts vpcId uplink wanted op := by
  constructor
  · obtain ⟨_, _, _, cmd, _⟩ := about
    exact ⟨_, cmd⟩
  intro words eq tabs s' reply place performs
  have kept {other : String} (ne : table = "filter" → other ≠ chain) :
      s'.rules "filter" other = tabs.rules "filter" other :=
    about.sustains (fun eq => ne eq.symm) _ words eq tabs s' reply rfl performs
  constructor
  · rw [kept fun eq => (apart eq).2.symm]
    exact place.chain
  · rw [kept fun eq => (apart eq).1.symm]
    exact place.linked

theorem leaves_of {words rest : List String} {cmd : Command}
    (about : tableOf words = ("filter", rest)) (names : commandOf rest = some cmd)
    (keeps : ∀ tabs text s', InPlace texts vpcId uplink wanted tabs →
      cmd.perform texts.iptables tabs "filter" = some (text, s') →
        InPlace texts vpcId uplink wanted s') :
    Leaves texts vpcId uplink wanted (.host ("iptables" :: words)) := by
  refine ⟨⟨_, rfl⟩, ?_⟩
  rintro _ eq tabs s' reply place performs
  cases eq
  rcases performs.cases with same | ⟨text, done⟩
  · rw [same]
    exact place
  · rw [perform_of _ about names] at done
    exact keeps tabs text s' place done

theorem insert_inPlace {spec : Spec} (passable : Passable texts vpcId spec) :
    Leaves texts vpcId uplink wanted (.host ("iptables" :: "-I" :: "FORWARD" :: "1" :: spec)) := by
  refine leaves_of rfl (show commandOf _ = some (.insert "FORWARD" spec) from rfl) ?_
  intro tabs text s' place done
  obtain ⟨front, rest, linked, others⟩ := place.linked
  rw [perform_insert _ done linked]
  constructor
  · rw [Tables.rules_set_of_ne _ _ fun _ => filterChain_ne_forward vpcId]
    exact place.chain
  · refine ⟨spec :: front, rest, ?_, forall_mem_cons.mpr ⟨passable, others⟩⟩
    rw [Tables.rules_set_self, cons_append]

theorem delete_inPlace {spec : Spec} (other : spec ≠ egressLink vpcId uplink) :
    Leaves texts vpcId uplink wanted
      (.host ("iptables" :: "-t" :: "filter" :: "-D" :: "FORWARD" :: spec)) := by
  refine leaves_of rfl (show commandOf _ = some (.delete "FORWARD" spec) from rfl) ?_
  intro tabs text s' place done
  obtain ⟨front, rest, linked, others⟩ := place.linked
  rw [perform_delete _ done linked]
  constructor
  · rw [Tables.rules_set_of_ne _ _ fun _ => filterChain_ne_forward vpcId]
    exact place.chain
  · rw [Tables.rules_set_self]
    by_cases early : spec ∈ front
    · refine ⟨front.erase spec, rest, ?_, fun rule mem => others rule (mem_of_mem_erase mem)⟩
      rw [erase_append_left _ early]
    · refine ⟨front, rest.erase spec, ?_, others⟩
      rw [erase_append_right _ early, erase_cons_tail (by simpa using other.symm)]

theorem create_inPlace : Leaves texts vpcId uplink wanted
    (.host ["iptables", "-t", "filter", "-N", (egressChains vpcId).2]) := by
  refine leaves_of rfl (show commandOf _ = some (.create (egressChains vpcId).2) from rfl) ?_
  intro tabs text s' place done
  have gone := (perform_create _ done).1
  rw [place.chain] at gone
  cases gone

end

theorem mem_zip_tail {α : Type} (front rest : List α) (first snd : α) :
    (first, snd) ∈ (front ++ first :: snd :: rest).zip (front ++ first :: snd :: rest).tail := by
  induction front with
  | nil => exact .head _
  | cons head front ih =>
    obtain ⟨next, others, shape⟩ :=
      exists_cons_of_ne_nil (show front ++ first :: snd :: rest ≠ [] by simp)
    rw [cons_append, tail_cons, shape, zip_cons_cons]
    rw [shape, tail_cons] at ih
    exact .tail _ ih

theorem linkWords_pairs {vpcId uplink : String} {first snd : List Char}
    (pair : (first, snd) ∈ ((lineWords "FORWARD" (egressLink vpcId uplink)).dropLast).zip
      ((lineWords "FORWARD" (egressLink vpcId uplink)).dropLast).tail)
    (jumps : "-j".toList <:+ first) (chain : "INFRA-EGF-".toList <+: snd) : False := by
  simp only [lineWords, egressLink, List.map_cons, map_nil, dropLast_cons_cons, dropLast_singleton,
    tail_cons, zip_cons_cons, zip_nil_right, mem_cons, not_mem_nil, Prod.mk.injEq, or_false] at pair
  -- only the uplink can be a name like the chain's, and it does not follow a jump
  rcases pair with ⟨rfl, rfl⟩ | ⟨rfl, rfl⟩ | ⟨rfl, rfl⟩ | ⟨rfl, rfl⟩ | ⟨rfl, rfl⟩ | ⟨rfl, rfl⟩ |
    ⟨rfl, rfl⟩ | ⟨rfl, rfl⟩ |
    ⟨rfl, rfl⟩ | ⟨rfl, rfl⟩ | ⟨rfl, rfl⟩ | ⟨rfl, rfl⟩
  all_goals first
    | exact absurd chain (by decide)
    | exact absurd jumps (by decide)

theorem line_ne_link {vpcId uplink : String} {line chain : List Char}
    (lead : "INFRA-EGF-".toList <+: chain) (ends : ∀ char ∈ chain.getLast?, isSpace char = false)
    (jumps : "-j ".toList ++ chain <:+ line) (other : chain ≠ (egressChains vpcId).2.toList) :
    fields line ≠ lineWords "FORWARD" (egressLink vpcId uplink) := by
  intro eq
  obtain ⟨front, rfl⟩ := jumps
  obtain ⟨rest, rfl⟩ := lead
  obtain ⟨words, s, early⟩ := fields_ends (show Solid "-j".toList by decide) front
  obtain ⟨tail, more, late⟩ := fields_starts (show Solid "INFRA-EGF-".toList by decide) rest
  have shape : front ++ ("-j ".toList ++ ("INFRA-EGF-".toList ++ rest)) =
      (front ++ "-j".toList) ++ ' ' :: ("INFRA-EGF-".toList ++ rest) := by simp
  rw [shape, fields_append _ _ (by decide), early, late, append_assoc, singleton_append] at eq
  cases more with
  | nil =>
    have last := congrArg List.getLast? eq
    rw [lineWords, egressLink] at last
    simp only [List.getLast?_append_cons, List.getLast?_cons_cons, List.getLast?_singleton,
      List.map_cons, map_nil, Option.some.injEq] at last
    rw [last] at late
    exact other (eq_of_fields (fun char first => by cases first; decide) ends late)
  | cons next more =>
    have shorter := congrArg List.dropLast eq
    rw [dropLast_append_of_ne_nil (by simp), dropLast_cons_of_ne_nil (by simp),
      dropLast_cons_of_ne_nil (by simp)] at shorter
    have pair :=
      mem_zip_tail words (next :: more).dropLast (s ++ "-j".toList) ("INFRA-EGF-".toList ++ tail)
    rw [shorter] at pair
    exact linkWords_pairs pair (suffix_append _ _) (prefix_append _ _)

section

variable {allowed : Op → Prop} {table source : String} {lines : List (List Char)}

theorem unlinkChain_uses {chain : List Char}
    (each : ∀ line ∈ lines, ∀ spec, fields line = lineWords source spec →
      "-j ".toList ++ chain <:+ line →
      allowed (.host ("iptables" :: "-t" :: table :: "-D" :: source :: spec))) :
    (unlinkChain table source chain lines).Uses allowed fun _ => True := by
  induction lines with
  | nil => trivial
  | cons line lines ih =>
    rw [forall_mem_cons] at each
    have rest := ih each.2
    rw [unlinkChain]
    split
    · next first snd third words split =>
      split
      · next got =>
        obtain ⟨rfl, rfl, suffix⟩ := got
        have spec : fields line = lineWords source ((third :: words).map String.ofList) := by
          rw [split, lineWords, List.map_cons, List.map_cons, List.map_map]
          have back : String.toList ∘ String.ofList = id := funext fun text => String.toList_ofList
          rw [back, List.map_id]
        have op := each.1 _ spec (List.isSuffixOf_iff_suffix.mp suffix)
        refine ⟨?_, fun _ => rest⟩
        simpa using op
      · exact rest
    · exact rest

theorem staleChain_spec {lead : String} {kept : List String} {line chain : List Char}
    (stale : staleChain lead kept line = some chain) :
    lead.toList <+: chain ∧ String.ofList chain ∉ kept ∧
      ∀ char ∈ chain.getLast?, isSpace char = false := by
  unfold staleChain at stale
  split at stale
  · next name trimmed =>
    split at stale
    · next got =>
      cases stale
      rw [Bool.and_eq_true, isPrefixOf_iff_prefix, Bool.not_eq_true', contains_eq_mem,
        decide_eq_false_iff_not] at got
      refine ⟨got.1, got.2, ?_⟩
      intro char last
      have trimmedLast := @trimSpace_last line char
      rw [trimmed] at trimmedLast
      apply trimmedLast
      cases chain with
      | nil => cases last
      | cons first rest => simpa using last
    · cases stale
  · cases stale

theorem removeChains_uses {chains : List (List Char)}
    (each : ∀ chain ∈ chains, (∀ line ∈ lines, ∀ spec, fields line = lineWords source spec →
        "-j ".toList ++ chain <:+ line →
        allowed (.host ("iptables" :: "-t" :: table :: "-D" :: source :: spec))) ∧
      allowed (.host ["iptables", "-t", table, "-F", String.ofList chain]) ∧
      allowed (.host ["iptables", "-t", table, "-X", String.ofList chain])) :
    (removeChains table source lines chains).Uses allowed fun _ => True := by
  induction chains with
  | nil => trivial
  | cons chain chains ih =>
    rw [forall_mem_cons] at each
    obtain ⟨⟨unlinks, flushes, erases⟩, later⟩ := each
    have removes : (removeChain table source lines chain).Uses allowed fun _ => True := by
      apply (unlinkChain_uses unlinks).bind
      intro _ _
      refine uses_run flushes fun _ => uses_run erases fun reply => ?_
      cases reply <;> trivial
    apply removes.bind
    intro _ _
    apply (ih later).bind
    intro _ _
    trivial

end

section

variable {texts : EgressTexts} {vpcId uplink : String} {wanted : List Spec}

theorem uses_about_inPlace {α : Type} {prog : Prog α} {table chain : String}
    (uses : prog.Uses (Op.About table chain) fun _ => True)
    (apart : table = "filter" → chain ≠ "FORWARD" ∧ chain ≠ (egressChains vpcId).2) :
    prog.Uses (Leaves texts vpcId uplink wanted) fun _ => True :=
  uses.mono (fun _ about => about_inPlace about apart) fun _ => id

theorem errand_inPlace {op : Op} (errand : op.errand = true) :
    Leaves texts vpcId uplink wanted op := by
  refine ⟨?_, Op.sustains_of_not (Op.filters_of_errand errand) _⟩
  unfold Op.errand at errand
  split at errand
  · cases errand
  · exact ⟨_, rfl⟩
  · cases errand

theorem uses_apart_inPlace {α : Type} {prog : Prog α}
    (uses : prog.Uses (fun op => op.errand = true) fun _ => True) :
    prog.Uses (Leaves texts vpcId uplink wanted) fun _ => True :=
  uses.mono (fun _ => errand_inPlace) fun _ => id

theorem filterChain_ne {other : String} (ne : vrfMark other ≠ vrfMark vpcId) :
    (egressChains other).2 ≠ (egressChains vpcId).2 := by
  intro eq
  apply ne
  have digits := hexEncode_inj ((String.append_right_inj "INFRA-EGF-").mp eq)
  have hashes := wordBytes_mod digits
  have vni : fnv32a (bytesOf other) % 2 ^ 24 = fnv32a (bytesOf vpcId) % 2 ^ 24 := by omega
  rw [vrfMark, vrfTable, vniFor, vni, vrfMark, vrfTable, vniFor]

theorem filterChain_not_builtIn (vpcId : String) : (egressChains vpcId).2 ∉ builtIn := by
  intro mem
  have other : ∀ chain ∈ builtIn, ¬"INFRA-EGF-".toList <+: chain.toList := by decide
  apply other _ mem
  rw [toList_filterChain]
  exact prefix_append _ _

theorem filterChain_ne_empty (vpcId : String) : (egressChains vpcId).2 ≠ "" := by
  intro eq
  have solid := (solid_filterChain vpcId).1
  rw [eq] at solid
  exact solid rfl

theorem reads_inPlace {words rest : List String} {table : String} {cmd : Command}
    (about : tableOf words = (table, rest)) (names : commandOf rest = some cmd)
    (reads : ∀ chain, cmd.writes chain = false) :
    Leaves texts vpcId uplink wanted (.host ("iptables" :: words)) := by
  have nothing : Op.About table "" (.host ("iptables" :: words)) :=
    chainCommand about names fun chain _ => reads chain
  exact about_inPlace nothing fun _ => ⟨by decide, (filterChain_ne_empty vpcId).symm⟩

theorem ensureLink_inPlace {other : String} (ne : other = vpcId ∨ vrfMark other ≠ vrfMark vpcId)
    (out : String) :
    (ensureLink other out).Uses (Leaves texts vpcId uplink wanted) fun _ => True := by
  refine uses_run ?_ ?_
  · exact reads_inPlace rfl
      (show commandOf _ = some (.check "FORWARD" (egressLink other out)) from rfl) fun _ => rfl
  · intro reply
    cases reply with
    | ok _ => trivial
    | error _ =>
      refine uses_run (insert_inPlace (passable_egressLink ne out)) ?_
      intro reply
      cases reply <;> trivial

theorem ensureEgress_inPlace {e : EgressSetup} (ne : vrfMark e.vpcId ≠ vrfMark vpcId) :
    (ensureEgress texts e).Uses (Leaves texts vpcId uplink wanted) fun _ => True := by
  have nat {chain : String} : "nat" = "filter" →
      chain ≠ "FORWARD" ∧ chain ≠ (egressChains vpcId).2 :=
    fun eq => absurd eq (by decide)
  apply uses_andThen (uses_apart_inPlace (pid_apart _ _))
  intro pid
  apply uses_andThen (uses_apart_inPlace (ensureVIP_apart _ _ _ _))
  intro _
  apply uses_andThen (uses_apart_inPlace (ensureHostLeg_apart _ _))
  intro _
  apply uses_andThen (uses_about_inPlace (iptablesEnsure_about _ _ _) nat)
  intro _
  split
  · trivial
  · apply uses_andThen (uses_about_inPlace (syncChain_about _ _ _) nat)
    intro _
    apply uses_andThen (uses_about_inPlace (iptablesEnsure_about _ _ _) nat)
    intro _
    apply uses_andThen (uses_about_inPlace (syncChain_about _ _ _) fun _ =>
      ⟨filterChain_ne_forward _, filterChain_ne ne⟩)
    intro _
    exact ensureLink_inPlace (.inr ne) _

theorem prune_inPlace {keep : List String} (kept : vpcId ∈ keep) :
    (prune keep).Uses (Leaves texts vpcId uplink wanted) fun _ => True := by
  have lists (table : String) :
      Leaves texts vpcId uplink wanted (.host ["iptables", "-t", table, "-S"]) :=
    reads_inPlace rfl (show commandOf _ = some .printAll from rfl) fun _ => rfl
  refine Uses.bind (?_ : Uses _ (fun _ => True) _) ?_
  · -- the table of the redirections is another one
    refine uses_run (lists "nat") ?_
    intro reply
    cases reply with
    | error err => trivial
    | ok out =>
      apply removeChains_uses
      intro chain _
      have nat {words : List String} {cmd : Command} (names : commandOf words = some cmd)
          {other : String}
          (writes : ∀ chain, chain ≠ other → cmd.writes chain = false) :
          Leaves texts vpcId uplink wanted (.host ("iptables" :: "-t" :: "nat" :: words)) :=
        about_inPlace (chainCommand rfl names writes) fun eq => absurd eq (by decide)
      refine ⟨?_, ?_, ?_⟩
      · intro line _ spec _ _
        exact nat (show commandOf _ = some (.delete "PREROUTING" spec) from rfl) fun _ other =>
          beq_false_of_ne other.symm
      · exact nat (show commandOf _ = some (.flush (String.ofList chain)) from rfl) fun _ other =>
          beq_false_of_ne other.symm
      · exact nat (show commandOf _ = some (.erase (String.ofList chain)) from rfl) fun _ other =>
          beq_false_of_ne other.symm
  · intro _ _
    refine Uses.bind (?_ : Uses _ (fun _ => True) _) ?_
    · refine uses_run (lists "filter") ?_
      intro reply
      cases reply with
      | error err => trivial
      | ok out =>
        apply removeChains_uses
        intro chain mem
        obtain ⟨line, -, stale⟩ := mem_filterMap.mp mem
        obtain ⟨lead, gone, ends⟩ := staleChain_spec stale
        have other : String.ofList chain ≠ (egressChains vpcId).2 := by
          intro eq
          apply gone
          rw [eq]
          exact mem_flatMap.mpr ⟨vpcId, kept, .tail _ (.head _)⟩
        have notForward : String.ofList chain ≠ "FORWARD" := by
          intro eq
          have letters : chain = "FORWARD".toList := by rw [← eq, String.toList_ofList]
          rw [letters] at lead
          exact absurd lead (by decide)
        refine ⟨?_, ?_, ?_⟩
        · intro line _ spec words jumps
          apply delete_inPlace
          rintro rfl
          exact line_ne_link lead ends jumps
            (fun eq => other (by rw [eq, String.ofList_toList])) words
        · exact about_inPlace
            (chainCommand rfl (show commandOf _ = some (.flush (String.ofList chain)) from rfl)
            fun _ ne => beq_false_of_ne ne.symm) fun _ => ⟨notForward, other⟩
        · exact about_inPlace
            (chainCommand rfl (show commandOf _ = some (.erase (String.ofList chain)) from rfl)
            fun _ ne => beq_false_of_ne ne.symm) fun _ => ⟨notForward, other⟩
    · intro _ _
      trivial

end

namespace EgressReconciler

variable (r : EgressReconciler) (vpcId : String) (allowed : List EgressAddress)

/-- The registries of the pass are those of their kinds. -/
structure Wired : Prop where
  igws : r.igws.kind = kindIGW
  vpcs : r.vpcs.kind = kindVPC

/-- The gateway asks for the filter of a VPC. -/
def Filters (igw : IGW) (p : EgressProxySpec) : Prop :=
  igw.metadata.isDeleting = false ∧ igw.spec.egressProxy = some p ∧ p.enabled = true

/-- A gateway of the VPC asks for the filter and all that the pass needs is there; the VPC's
gateways allow what the filter was made of, and no other VPC has its mark. -/
structure Standing (shared : Shared) : Prop where
  gateway : ∃ uid igw p, r.igws.stored shared uid = some igw ∧ r.igws.Listable uid ∧ Filters igw p ∧
    igw.spec.vpcId = vpcId ∧ igw.status.hostIface ≠ ""
  vpc : ∃ vpc, r.vpcs.stored shared vpcId = some vpc ∧ vpc.metadata.uid = vpcId ∧
    vpc.status.bridgeName ≠ "" ∧
    secondHostOf r.texts vpc.spec.cidr ≠ ""
  subnet : ∃ uid subnet, r.subnets.stored shared uid = some subnet ∧ r.subnets.Listable uid ∧
    subnet.metadata.isDeleting = false ∧ subnet.spec.vpcId = vpcId
  blocks : ∀ uid subnet, r.subnets.stored shared uid = some subnet → subnet.spec.vpcId = vpcId →
    subnet.spec.cidr ≠ ""
  unchanged : ∀ uid igw p, r.igws.stored shared uid = some igw → Filters igw p →
    igw.spec.vpcId = vpcId →
    p.allowedAddresses = allowed
  others : ∀ uid igw p vpc, r.igws.stored shared uid = some igw → Filters igw p →
    igw.spec.vpcId ≠ vpcId →
    r.vpcs.stored shared igw.spec.vpcId = some vpc → vrfMark vpc.metadata.uid ≠ vrfMark vpcId

/-- What does not fail: reading the record, and listing the chain of the filter table. -/
def Unfailing (key chain : String) : (op : Op) → op.Reply → Prop
  | .get name, reply => name = key → ∀ err, reply = .error err → err.is errNotFound = true
  | .host cmd, reply => cmd = ["iptables", "-t", "filter", "-S", chain] → ∃ text, reply = .ok text
  | _, _ => True

/-- Anything else may fail, and between passes anything happen but to forwarded traffic and the
egress filters. -/
def guarded : Machine Op Op.Reply Host where
  exec s op reply s' := (filtered r.texts.iptables).exec s op reply s' ∧
    Unfailing (r.vpcs.key vpcId) (egressChains vpcId).2 op reply
  drift s s' := ∀ chain, chain = "FORWARD" ∨ "INFRA-EGF-".toList <+: chain.toList →
    s'.tables.rules "filter" chain = s.tables.rules "filter" chain

/-- What a pass keeps up: the filter is in place, and the VPCs are as they were when it began. -/
def Upheld (uplink : String) (wanted : List Spec) (start : Shared) (now : Host) : Prop :=
  InPlace r.texts vpcId uplink wanted now.tables ∧
    ∀ uid, r.vpcs.stored now.shared uid = r.vpcs.stored start uid

/-- The operation keeps that up, whatever comes of it. -/
def Upholds (uplink : String) (wanted : List Spec) (start : Shared) (op : Op) : Prop :=
  ∀ s reply s', (r.guarded vpcId).exec s op reply s' →
    r.Upheld vpcId uplink wanted start s → r.Upheld vpcId uplink wanted start s'

section

variable {r vpcId} {uplink : String} {wanted : List Spec} {start : Shared}

theorem Wired.vpcs_igws (wired : r.Wired) : r.vpcs.Disjoint r.igws :=
  disjoint_of_kinds wired.vpcs wired.igws (by decide)

theorem leaves_upholds {op : Op} (leaves : Leaves r.texts vpcId uplink wanted op) :
    r.Upholds vpcId uplink wanted start op := by
  obtain ⟨⟨cmd, rfl⟩, sustains⟩ := leaves
  rintro s reply s' ⟨⟨⟨eq, -⟩, filter⟩, -⟩ ⟨place, vpcs⟩
  have shared : s'.shared = s.shared := eq
  refine ⟨sustains.filters filter place, ?_⟩
  rw [shared]
  exact vpcs

theorem looks_upholds {op : Op} (looks : op.looks = true) :
    r.Upholds vpcId uplink wanted start op := by
  rintro s reply s' ⟨ran, -⟩ held
  rw [filtered_looks looks ran]
  exact held

theorem cas_upholds {key : String} (apart : ∀ uid, r.vpcs.key uid ≠ key) (old : Option Bytes)
    (new : Bytes) :
    r.Upholds vpcId uplink wanted start (.cas key old new) := by
  rintro s reply s' ⟨⟨⟨ran, -⟩, filter⟩, -⟩ ⟨place, vpcs⟩
  have tabs : s'.tables = s.tables := filter
  have changed : State.exec s.shared (.cas key old new) reply s'.shared := ran
  refine ⟨tabs ▸ place, fun uid => ?_⟩
  rw [← vpcs uid]
  rcases exec_cas changed with ⟨eq, -⟩ | ⟨-, wrote, -⟩
  · rw [eq]
  · rw [wrote, stored_write_of_ne (apart uid)]

theorem keeps_upholding {α : Type} {prog : Prog α} {s : Host}
    (uses : prog.Uses (r.Upholds vpcId uplink wanted start) fun _ => True)
    (held : r.Upheld vpcId uplink wanted start s) :
    prog.Keeps (r.guarded vpcId) (r.Upheld vpcId uplink wanted start)
      (fun _ s' => r.Upheld vpcId uplink wanted start s') s :=
  (Uses.keeps uses held).mono fun _ _ kept => kept.2

theorem setStatus_upholds (wired : r.Wired) (igw : IGW) (status : Option EgressProxyStatus) :
    (r.setStatus igw status).Uses (r.Upholds vpcId uplink wanted start) fun _ => True := by
  rw [setStatus]
  split
  · trivial
  · apply Uses.bind (put_swaps (looks_upholds rfl) fun old data _ => ?_)
    · intro _ _
      trivial
    · exact cas_upholds (fun uid => wired.vpcs_igws uid _) old data

theorem serveProxy_upholds (igw : IGW) (p : EgressProxySpec) (vpc : VPC) (subnet : String)
    (ranks : List (String × Nat))
    (progress : Progress) : (r.serveProxy igw p vpc subnet ranks progress).Uses
    (r.Upholds vpcId uplink wanted start)
      fun later => later.keep = progress.keep := by
  rw [serveProxy]
  split
  · refine ⟨leaves_upholds (errand_inPlace rfl), ?_⟩
    intro reply
    cases reply <;> rfl
  · rfl

theorem serving_apart : serving.Uses (fun op => op.errand = true) fun _ => True := by
  refine uses_run rfl ?_
  intro reply
  cases reply <;> trivial

theorem stopOthers_apart (served namespaces : List String) :
    (stopOthers served namespaces).Uses (fun op => op.errand = true) fun _ => True := by
  induction namespaces with
  | nil => trivial
  | cons ns namespaces ih =>
    rw [stopOthers]
    split
    · exact ih
    · refine uses_run rfl ?_
      intro reply
      apply ih.bind
      intro _ _
      cases reply <;> trivial

end

section

variable {r vpcId allowed} {uplink : String} {networks : List IPNet} {wanted : List Spec}
    {start : Shared} {s : Host}

section

variable (named : Named r.texts allowed networks)
    (made : wanted = entryRules r.texts allowed networks ++ [rejectRule])

include named made

theorem syncChain_upholds (held : r.Upheld vpcId uplink wanted start s) :
    (syncChain "filter" (egressChains vpcId).2 wanted).Keeps (r.guarded vpcId)
    (r.Upheld vpcId uplink wanted start)
      (fun _ s' => r.Upheld vpcId uplink wanted start s')
      s := by
  rw [syncChain]
  intro _ created creates
  have now := leaves_upholds create_inPlace s _ created creates held
  refine ⟨now, ?_⟩
  rintro printed listed ⟨⟨ran, filter⟩, unfailing⟩
  have later :=
    leaves_upholds
    (reads_inPlace rfl (show commandOf _ = some (.print (egressChains vpcId).2) from rfl) fun _ =>
      rfl)
    created printed listed ⟨⟨ran, filter⟩, unfailing⟩ now
  refine ⟨later, ?_⟩
  obtain ⟨text, rfl⟩ := unfailing rfl
  have prints : Performs r.texts.iptables created.tables ["-t", "filter", "-S",
      (egressChains vpcId).2]
    (.ok text : Except Error String) listed.tables := filter
  rw [Performs, perform_of _ (show tableOf _ = ("filter", ["-S", (egressChains vpcId).2]) from rfl)
    (show commandOf _ = some (.print (egressChains vpcId).2) from rfl)] at prints
  obtain ⟨specs, has, shown, -⟩ := perform_print _ prints
  rw [now.1.chain] at has
  cases has
  have lines := splitOn_print (solid_filterChain vpcId) (made ▸ worded_entryRules named)
  have head : heading (egressChains vpcId).2 = "-N " ++ (egressChains vpcId).2 :=
    if_neg (filterChain_not_builtIn vpcId)
  rw [← shown, head] at lines
  dsimp only [Program.bind]
  rw [if_pos]
  · exact later
  · exact congrArg some lines

theorem ensureEgress_upholds {e : EgressSetup} (own : e.vpcId = vpcId) (eq : e.allowed = allowed)
    (held : r.Upheld vpcId uplink wanted start s) : (ensureEgress r.texts e).Keeps (r.guarded vpcId)
      (r.Upheld vpcId uplink wanted start) (fun _ s' => r.Upheld vpcId uplink wanted start s')
      s := by
  have leaving {α : Type} {prog : Prog α} {now : Host}
      (uses : prog.Uses (Leaves r.texts vpcId uplink wanted) fun _ => True)
      (held : r.Upheld vpcId uplink wanted start now) :=
    keeps_upholding (uses.mono (fun _ => leaves_upholds) fun _ => id) held
  have nat {chain : String} : "nat" = "filter" →
      chain ≠ "FORWARD" ∧ chain ≠ (egressChains vpcId).2 :=
    fun eq => absurd eq (by decide)
  apply keeps_andThen (leaving (uses_apart_inPlace (pid_apart _ _)) held) fun _ _ => id
  intro pid now held
  apply keeps_andThen (leaving (uses_apart_inPlace (ensureVIP_apart _ _ _ _)) held) fun _ _ => id
  intro _ now held
  apply keeps_andThen (leaving (uses_apart_inPlace (ensureHostLeg_apart _ _)) held) fun _ _ => id
  intro _ now held
  apply keeps_andThen (leaving (uses_about_inPlace (iptablesEnsure_about _ _ _) nat) held)
    fun _ _ => id
  intro _ now held
  split
  · exact held
  · next got mapped =>
    -- the entries name the networks that the filter was made of
    have reads : Named r.texts e.allowed got := Lbproxy.forall₂_of_mapM mapped
    have equal : got = networks := by
      rw [eq] at reads
      exact named_unique reads named
    apply keeps_andThen (leaving (uses_about_inPlace (syncChain_about _ _ _) nat) held) fun _ _ =>
      id
    intro _ now held
    apply keeps_andThen (leaving (uses_about_inPlace (iptablesEnsure_about _ _ _) nat) held)
      fun _ _ => id
    intro _ now held
    rw [filterRules_eq, own, eq, equal, ← made]
    apply keeps_andThen (syncChain_upholds named made held) fun _ _ => id
    intro _ now held
    exact leaving (ensureLink_inPlace (.inl rfl) _) held

end

end

section

variable {r vpcId allowed} {uplink : String} {networks : List IPNet} {wanted : List Spec}
    {start : Shared} {s : Host}

def Kept (vpcId : String) (igw : IGW) (pre later : Progress) : Prop :=
  pre.keep ⊆ later.keep ∧ ∀ p, Filters igw p → igw.spec.vpcId = vpcId → igw.status.hostIface ≠ "" →
    vpcId ∈ later.keep

theorem firstSubnetOf_ne_empty {subnets : List Subnet} {subnet : Subnet} (mem : subnet ∈ subnets)
    (live : subnet.metadata.isDeleting = false) (within : subnet.spec.vpcId = vpcId)
    (blocks : ∀ subnet ∈ subnets, subnet.spec.vpcId = vpcId → subnet.spec.cidr ≠ "") :
    firstSubnetOf subnets vpcId ≠ "" := by
  -- once a subnet has been seen, the block stays one of a subnet's
  have folds (subnets : List Subnet) (blocks : ∀ subnet ∈ subnets, subnet.spec.vpcId = vpcId →
      subnet.spec.cidr ≠ "")
      (best : String × String) (seen : best.1 ≠ "" → best.2 ≠ "")
      (ends : best.2 ≠ "" ∨ ∃ subnet ∈ subnets, subnet.metadata.isDeleting = false ∧
        subnet.spec.vpcId = vpcId) :
      (subnets.foldl (earlierSubnet vpcId) best).2 ≠ "" := by
    induction subnets generalizing best with
    | nil => simpa using ends
    | cons subnet subnets ih =>
      rw [forall_mem_cons] at blocks
      rw [foldl_cons, earlierSubnet]
      split
      · next skipped =>
        apply ih blocks.2 best seen
        rcases ends with got | ⟨other, mem, live, within⟩
        · exact .inl got
        · rcases mem_cons.mp mem with rfl | later
          · simp [live, within] at skipped
          · exact .inr ⟨other, later, live, within⟩
      · next eligible =>
        have within : subnet.spec.vpcId = vpcId := by
          simp only [Bool.or_eq_true, bne_iff_ne, not_or, ne_eq, not_not] at eligible
          exact eligible.2
        split
        · exact ih blocks.2 _ (fun _ => blocks.1 within) (.inl (blocks.1 within))
        · next kept =>
          have known : best.1 ≠ "" := by
            intro none
            simp [none] at kept
          exact ih blocks.2 best seen (.inl (seen known))
  exact folds subnets blocks ("", "") (fun wrong => absurd rfl wrong)
    (.inr ⟨subnet, mem, live, within⟩)

theorem readVPC_keeps (name : String) (upheld : r.Upheld vpcId uplink wanted start s) :
    (r.vpcs.get name).Keeps (r.guarded vpcId) (r.Upheld vpcId uplink wanted start)
      (fun reply s' => s' = s ∧ (∀ vpc, reply = .ok vpc → r.vpcs.stored start name = some vpc) ∧
        (name = vpcId → ∀ vpc, r.vpcs.stored start vpcId = some vpc → reply = .ok vpc)) s := by
  rw [Registry.get, perform_bind]
  rintro reply s' ⟨ran, unfailing⟩
  obtain rfl := filtered_looks rfl ran
  have read : State.exec s'.shared (.get (r.vpcs.key name)) reply s'.shared := ran.1.1
  refine ⟨upheld, ?_⟩
  cases reply with
  | error err =>
    refine ⟨rfl, ?_, ?_⟩
    · intro vpc wrong
      cases wrong
    rintro rfl vpc has
    rw [← upheld.2, Registry.stored, read.2 (unfailing rfl err rfl)] at has
    cases has
  | ok data =>
    have value := (exec_get read).2 data rfl
    have held : r.vpcs.stored start name = (r.vpcs.decode name data).toOption := by
      rw [← upheld.2, Registry.stored, value, bind_some]
    refine ⟨rfl, ?_, ?_⟩
    · intro vpc dec
      rw [held]
      exact congrArg Except.toOption dec
    · rintro rfl vpc has
      rw [held] at has
      cases result : r.vpcs.decode name data with
      | error err =>
        rw [result] at has
        cases has
      | ok got =>
        rw [result] at has
        cases has
        rfl

theorem serveGateway_keeps (wired : r.Wired) (igw : IGW) (p : EgressProxySpec) (vpc : VPC)
    (vip subnet : String) (ranks : List (String × Nat))
    (progress : Progress) (ensures : (ensureEgress r.texts
        ⟨vpc.metadata.uid, vpc.status.bridgeName, vip, igw.status.hostIface,
          p.allowedAddresses⟩).Keeps (r.guarded vpcId)
      (r.Upheld vpcId uplink wanted start) (fun _ s' => r.Upheld vpcId uplink wanted start s') s) :
    (r.serveGateway igw p vpc vip subnet ranks progress).Keeps (r.guarded vpcId)
      (r.Upheld vpcId uplink wanted start)
      (fun later s' => r.Upheld vpcId uplink wanted start s' ∧
        later.keep = progress.keep ++ [vpc.metadata.uid]) s := by
  apply ensures.bind
  intro reply now held
  cases reply with
  | error err => exact ⟨held, rfl⟩
  | ok _ =>
    apply (Uses.keeps (serveProxy_upholds igw p vpc subnet ranks _) held).bind
    rintro later now ⟨eq, held⟩
    apply (keeps_upholding (setStatus_upholds wired igw _) held).bind
    intro _ last held
    exact ⟨held, eq⟩

section

variable (wired : r.Wired) (named : Named r.texts allowed networks)
  (made : wanted = entryRules r.texts allowed networks ++ [rejectRule])

include wired named made

section

variable (standing : r.Standing vpcId allowed start) {subnets : List Subnet}
  (listed : r.subnets.Listing start subnets) (ranks : List (String × Nat))

include standing subnets listed ranks

theorem reconcileGateway_keeps {uid : String} {igw : IGW} (got : r.igws.stored start uid = some igw)
    (progress : Progress) (upheld : r.Upheld vpcId uplink wanted start s) :
    (r.reconcileGateway subnets ranks igw progress).Keeps (r.guarded vpcId)
    (r.Upheld vpcId uplink wanted start)
      (fun later s' => r.Upheld vpcId uplink wanted start s' ∧
        Kept vpcId igw progress later) s := by
  have passedOver (idle : ∀ p, Filters igw p → igw.spec.vpcId = vpcId → igw.status.hostIface = "") :
      Kept vpcId igw progress progress :=
    ⟨List.Subset.refl _, fun p filters within up => absurd (idle p filters within) up⟩
  rw [reconcileGateway]
  split
  · next gone =>
    apply (keeps_upholding (setStatus_upholds wired igw none) upheld).bind
    intro _ now upheld
    refine ⟨upheld, passedOver ?_⟩
    rintro p ⟨-, has, -⟩
    rw [gone] at has
    cases has
  · next p has =>
    split
    · next off =>
      apply (keeps_upholding (setStatus_upholds wired igw none) upheld).bind
      intro _ now upheld
      refine ⟨upheld, passedOver ?_⟩
      rintro other ⟨live, eq, enabled⟩
      rw [has] at eq
      cases eq
      simp [live, enabled] at off
    · next on =>
      have filters : Filters igw p := by
        simp only [Bool.or_eq_true, Bool.not_eq_true', not_or, Bool.not_eq_true,
          Bool.not_eq_false] at on
        exact ⟨on.1, has, on.2⟩
      apply (readVPC_keeps igw.spec.vpcId upheld).bind
      rintro reply now ⟨rfl, held, reads⟩
      obtain ⟨own, ownStored, ownUid, bridged, addressed⟩ := standing.vpc
      cases reply with
      | error err =>
        refine ⟨upheld, passedOver ?_⟩
        intro _ _ within
        cases reads within own ownStored
      | ok vpc =>
        have vpcStored := held vpc rfl
        dsimp only
        split
        · next missing =>
          refine ⟨upheld, passedOver ?_⟩
          intro _ _ within
          cases reads within own ownStored
          obtain ⟨name, subnet, inside, listable, live, belongs⟩ := standing.subnet
          have block : firstSubnetOf subnets own.metadata.uid ≠ "" := by
            rw [ownUid]
            refine firstSubnetOf_ne_empty (listed.complete name subnet inside listable) live
              belongs ?_
            intro other mem
            obtain ⟨name, held⟩ := listed.sound other mem
            exact standing.blocks name other held
          tauto
        · by_cases within : igw.spec.vpcId = vpcId
          · cases reads within own ownStored
            have eq := standing.unchanged uid igw p got filters within
            apply (serveGateway_keeps wired igw p own _ _ ranks progress
              (ensureEgress_upholds named made ownUid eq upheld)).mono
            rintro later s' ⟨upheld, keep⟩
            refine ⟨upheld, ?_⟩
            rw [Kept, keep, ownUid]
            exact ⟨subset_append_left _ _, fun _ _ _ _ => by simp⟩
          · have ne := standing.others uid igw p vpc got filters within vpcStored
            apply (serveGateway_keeps wired igw p vpc _ _ ranks progress (keeps_upholding
              ((ensureEgress_inPlace (by exact ne)).mono (fun _ => leaves_upholds) fun _ => id)
                upheld)).mono
            rintro later s' ⟨upheld, keep⟩
            refine ⟨upheld, ?_⟩
            rw [Kept, keep]
            exact ⟨subset_append_left _ _, fun _ _ inside => absurd inside within⟩

theorem reconcileGateways_keeps {igws : List IGW}
    (got : ∀ igw ∈ igws, ∃ uid, r.igws.stored start uid = some igw) (progress : Progress)
    (upheld : r.Upheld vpcId uplink wanted start s) :
    (r.reconcileGateways subnets ranks igws progress).Keeps (r.guarded vpcId)
    (r.Upheld vpcId uplink wanted start)
      (fun later s' => r.Upheld vpcId uplink wanted start s' ∧ progress.keep ⊆ later.keep ∧
        ∀ igw ∈ igws, Kept vpcId igw progress later) s := by
  induction igws generalizing progress s with
  | nil => exact ⟨upheld, List.Subset.refl _, forall_mem_nil _⟩
  | cons igw igws ih =>
    rw [forall_mem_cons] at got
    obtain ⟨⟨uid, held⟩, others⟩ := got
    apply (reconcileGateway_keeps wired named made standing listed ranks held progress upheld).bind
    rintro mid now ⟨upheld, kept⟩
    apply (ih others mid upheld).mono
    rintro later s' ⟨upheld, grown, rest⟩
    have whole : progress.keep ⊆ later.keep := List.Subset.trans kept.1 grown
    refine ⟨upheld, whole, forall_mem_cons.mpr ⟨⟨whole, ?_⟩, ?_⟩⟩
    · intro p filters within up
      exact grown (kept.2 p filters within up)
    · intro other mem
      exact ⟨whole, (rest other mem).2⟩

end

theorem reconcileAll_keeps (standing : r.Standing vpcId allowed s.shared)
    (place : InPlace r.texts vpcId uplink wanted s.tables) : r.reconcileAll.Keeps (r.guarded vpcId)
      (fun now => InPlace r.texts vpcId uplink wanted now.tables) (fun _ _ => True) s := by
  have upheld : r.Upheld vpcId uplink wanted s.shared s := ⟨place, fun _ => rfl⟩
  suffices kept : r.reconcileAll.Keeps (r.guarded vpcId)
      (r.Upheld vpcId uplink wanted s.shared) (fun _ _ => True) s from kept.weaken fun _ => And.left
  have incl (now : Host) (op : Op) (reply : op.Reply) (s' : Host)
      (ran : (r.guarded vpcId).exec now op reply s') :
      (filtered r.texts.iptables).exec now op reply s' := ran.1
  have guarding {α : Type} {prog : Prog α} {inv : Host → Prop} {post : α → Host → Prop}
      (keeps : prog.Keeps (filtered r.texts.iptables) inv post s) :
      prog.Keeps (r.guarded vpcId) inv post s :=
    keeps.refine incl
  rw [reconcileAll]
  apply (guarding (keeps_seeing upheld r.igws.list_looks (list_keeps trivial))).bind
  intro reply s' ⟨eq, gateways⟩
  subst s'
  cases reply with
  | error err => trivial
  | ok igws =>
    apply (guarding (keeps_seeing upheld r.subnets.list_looks (list_keeps trivial))).bind
    intro reply s' ⟨eq, blocks⟩
    subst s'
    cases reply with
    | error err => trivial
    | ok subnets =>
      apply (guarding (keeps_seeing upheld r.nodes.list_looks (list_keeps trivial))).bind
      intro reply s' ⟨eq, _⟩
      subst s'
      cases reply with
      | error err => trivial
      | ok nodes =>
        have listing := gateways igws rfl
        apply (reconcileGateways_keeps wired named made standing (blocks subnets rfl)
          (nodeRanks nodes) listing.sound {}
          upheld).bind
        rintro progress now ⟨upheld, -, kept⟩
        obtain ⟨uid, igw, p, held, listable, filters, within, up⟩ := standing.gateway
        have keep : vpcId ∈ progress.keep :=
          (kept igw (listing.complete uid igw held listable)).2 p filters within up
        refine (keeps_upholding ?_ upheld).mono fun _ _ _ => trivial
        have leaves {α : Type} {prog : Prog α}
            (uses : prog.Uses (Leaves r.texts vpcId uplink wanted) fun _ => True) :
            prog.Uses (r.Upholds vpcId uplink wanted s.shared) fun _ => True :=
          uses.mono (fun _ => leaves_upholds) fun _ => id
        apply (leaves (prune_inPlace keep)).bind
        intro _ _
        apply (leaves (uses_apart_inPlace serving_apart)).bind
        intro _ _
        apply (leaves (uses_apart_inPlace (stopOthers_apart _ _))).bind
        intro _ _
        trivial

end

end

/-- A new connection of the VPC to an address outside the allowed entries is rejected after any
passes, finished or not. -/
theorem egress_filter_stays_closed (r : EgressReconciler) (wired : r.Wired) (vpcId uplink : String)
    (allowed : List EgressAddress) (networks : List IPNet) (named : Named r.texts allowed networks)
    (start state : Host) (place : InPlace r.texts vpcId uplink
      (entryRules r.texts allowed networks ++ [rejectRule]) start.tables)
    (reached : Passes (r.guarded vpcId) (fun _ : Unit => r.reconcileAll)
      (fun _ now => r.Standing vpcId allowed now.shared) start state)
    (pkt : Packet) (marked : pkt.mark = vrfMark vpcId) (new : pkt.tracking = .new)
      (out : pkt.outward = uplink)
    (outside : ∀ a ∈ allowed, ¬Reaches r.texts a pkt.destination) :
    state.tables.treat r.texts.iptables "filter" "FORWARD" pkt =
      some (.reject "icmp-admin-prohibited") := by
  have kept : InPlace r.texts vpcId uplink (entryRules r.texts allowed networks ++ [rejectRule])
      state.tables := by
    induction reached with
    | start => exact place
    | run _ standing runs ih => exact runs.keeps (reconcileAll_keeps wired named rfl standing ih) ih
    | drift _ moved ih =>
      constructor
      · rw [moved _ (.inr (by rw [toList_filterChain]; exact prefix_append _ _))]
        exact ih.chain
      · rw [moved _ (.inl rfl)]
        exact ih.linked
  exact kept.rejects named marked new out outside

end EgressReconciler

section

open Format

def egressAddressFormat : Format EgressAddress :=
  (string.pair (string.pair int)).via (fun value => (value.cidr, value.protocol, value.port))
    (fun (cidr, protocol, port) => ⟨cidr, protocol, port⟩) (fun _ => rfl)

def egressProxyFormat : Format EgressProxySpec :=
  (bool.pair ((list string).pair (list egressAddressFormat))).via
    (fun value => (value.enabled, value.allowedDomains, value.allowedAddresses))
    (fun (enabled, domains, addresses) => ⟨enabled, domains, addresses⟩) (fun _ => rfl)

def igwCodec : Codec IGWSpec IGWStatus := .ofFormat
  ((string.pair (option egressProxyFormat)).via (fun value => (value.vpcId, value.egressProxy))
    (fun (vpc, proxy) => ⟨vpc, proxy⟩) (fun _ => rfl))
  ((statusBaseFormat.pair
    (string.pair (option (string.via (·.address) (fun text => ⟨text⟩) fun _ => rfl)))).via
    (fun value => (value.toStatusBase, value.hostIface, value.egressProxy))
    (fun (base, iface, proxy) => ⟨base, iface, proxy⟩) (fun _ => rfl))

def sampleGateways : EgressReconciler where
  igws := ⟨kindIGW, igwCodec⟩
  vpcs := ⟨kindVPC, vpcCodec⟩
  subnets := ⟨kindSubnet, subnetCodec⟩
  nodes := ⟨kindNode, nodeCodec⟩
  nodeName := "node-a"
  texts := sampleEgressTexts
  encode _ := ""

def sampleNetworks : List IPNet := [⟨[203, 0, 113, 7], 32, 32⟩]

/-- A gateway with its proxy enabled, a VPC and a subnet, on a host with the filter. -/
def closedHost : Host where
  logged := ⟨⟨storeOf [
    sampleGateways.igws.entry
      { metadata := { uid := "igw-1" }, spec := ⟨"vpc-1", some sampleProxy⟩,
        status := { hostIface := "eth0", egressProxy := some ⟨"10.0.0.2"⟩ } },
    sampleGateways.vpcs.entry
      { metadata := { uid := "vpc-1" }, spec := ⟨"10.0.0.0/16"⟩
        status := { bridgeName := "br-vpc-1" } },
    sampleGateways.subnets.entry
      { metadata := { uid := "subnet-1" }, spec := ⟨"vpc-1", "10.0.0.0/24"⟩
        status := {} }], 0⟩, []⟩
  tables := ⟨fun table =>
    if table = "nat" then List.toAList [⟨"PREROUTING", []⟩, ⟨"POSTROUTING", []⟩]
    else List.toAList [⟨"FORWARD", [egressLink "vpc-1" "eth0"]⟩,
      ⟨(egressChains "vpc-1").2,
        entryRules sampleEgressTexts sampleProxy.allowedAddresses sampleNetworks ++ [rejectRule]⟩]⟩

/-- The answers of a host that cannot read the record of the VPC. -/
def unreadAnswer (s : Host) (op : Op) : op.Reply × Host :=
  match op with
  | .get key =>
    if key = "vpc/vpc-1" then (.error (.new "connection refused"), s)
    else hostAnswer sampleEgressTexts.iptables s (.get key)
  | op => hostAnswer sampleEgressTexts.iptables s op

theorem unreadAnswer_exec (s : Host) (op : Op) :
    (filtered sampleEgressTexts.iptables).exec s op (unreadAnswer s op).1
    (unreadAnswer s op).2 := by
  unfold unreadAnswer
  split
  · split
    · exact ⟨⟨⟨rfl, fun wrong => by cases wrong⟩, rfl⟩, rfl⟩
    · exact hostAnswer_exec _ s _
  · exact hostAnswer_exec _ s _

/-- The host after a pass that could not read the VPC. -/
def openHost : Host := sampleGateways.reconcileAll.outcome unreadAnswer closedHost

/-- The host after a pass that found no process to put the proxy's address in. -/
def retriedHost : Host :=
  sampleGateways.reconcileAll.outcome (hostAnswer sampleEgressTexts.iptables) closedHost

/-- A new connection of the VPC to an address outside the entries. -/
def leavingPacket : Packet where
  source := [10, 0, 0, 10]
  destination := [198, 51, 100, 1]
  transport := .tcp
  port := some 443
  mark := vrfMark "vpc-1"
  outward := "eth0"

theorem closedHost_place : InPlace sampleEgressTexts "vpc-1" "eth0"
    (entryRules sampleEgressTexts sampleProxy.allowedAddresses sampleNetworks ++ [rejectRule])
    closedHost.tables := by
  constructor
  · decide +kernel
  · exact ⟨[], [], by decide +kernel, forall_mem_nil _⟩

theorem sample_named : Named sampleEgressTexts sampleProxy.allowedAddresses sampleNetworks :=
  .cons (by decide +kernel) .nil

theorem sample_outside :
    ∀ a ∈ sampleProxy.allowedAddresses, ¬Reaches sampleEgressTexts a leavingPacket.destination := by
  rintro a mem ⟨net, named, inside⟩
  cases mem_singleton.mp mem
  have eq : sampleNetworks = [net] := named_unique sample_named (.cons named .nil)
  cases eq
  exact absurd inside (by decide +kernel)

/-- A check that the gateway, its VPC and the subnet stand as they should. -/
def gatewayStands (shared : Shared) : Bool :=
  ((sampleGateways.igws.stored shared "igw-1").map fun igw =>
      (igw.metadata.isDeleting, igw.spec, igw.status.hostIface)) ==
        some (false, ⟨"vpc-1", some sampleProxy⟩, "eth0") &&
    ((sampleGateways.vpcs.stored shared "vpc-1").map fun vpc =>
      (vpc.metadata.uid, vpc.status.bridgeName, vpc.spec.cidr)) ==
        some ("vpc-1", "br-vpc-1", "10.0.0.0/16") &&
    ((sampleGateways.subnets.stored shared "subnet-1").map fun subnet =>
      (subnet.metadata.isDeleting, subnet.spec.vpcId)) == some (false, "vpc-1") &&
    sampleGateways.igws.everyRecord (fun _ read => read.spec == ⟨"vpc-1", some sampleProxy⟩)
      shared &&
    sampleGateways.subnets.everyRecord (fun _ read => read.spec.cidr != "") shared

theorem standing_of_gatewayStands {shared : Shared} (ok : gatewayStands shared = true) :
    sampleGateways.Standing "vpc-1" sampleProxy.allowedAddresses shared := by
  simp only [gatewayStands, Bool.and_eq_true, beq_iff_eq, map_eq_some_iff, Prod.mk.injEq] at ok
  obtain ⟨⟨⟨⟨⟨igw, held, live, spec, up⟩, vpc, known, own, bridged, cidr⟩, subnet, within, kept,
    belongs⟩, every⟩, blocks⟩ :=
    ok
  have specs {uid : String} {got : IGW} (has : sampleGateways.igws.stored shared uid = some got) :
      got.spec = ⟨"vpc-1", some sampleProxy⟩ := by
    obtain ⟨read, v, rfl, eq⟩ := check_of_everyRecord every has
    exact beq_iff_eq.mp eq
  constructor
  · refine ⟨"igw-1", igw, sampleProxy, held, by decide +kernel, ⟨live, by rw [spec], rfl⟩,
      by rw [spec], ?_⟩
    rw [up]
    decide
  · refine ⟨vpc, known, own, ?_, ?_⟩
    · rw [bridged]
      decide
    · rw [cidr]
      decide +kernel
  · exact ⟨"subnet-1", subnet, within, by decide +kernel, kept, belongs⟩
  · intro uid got has _
    obtain ⟨read, v, rfl, some⟩ := check_of_everyRecord blocks has
    exact bne_iff_ne.mp some
  · rintro uid got p has ⟨-, proxy, -⟩ _
    rw [specs has] at proxy
    cases proxy
    rfl
  · intro uid got p _ has _ other
    rw [specs has] at other
    exact absurd rfl other

theorem closedHost_standing :
    sampleGateways.Standing "vpc-1" sampleProxy.allowedAddresses closedHost.shared :=
  standing_of_gatewayStands (by decide +kernel)

theorem openHost_left : (gatewayStands openHost.shared,
    openHost.tables.treat sampleEgressTexts.iptables "filter" "FORWARD" leavingPacket) =
      (true, none) := by
  decide +kernel

/-- Nothing is deleted, disabled or changed, but one failed read of the VPC takes the filter
away. -/
theorem filter_pruned_after_failed_read : InPlace sampleEgressTexts "vpc-1" "eth0"
      (entryRules sampleEgressTexts sampleProxy.allowedAddresses sampleNetworks ++ [rejectRule])
        closedHost.tables ∧
    sampleGateways.Standing "vpc-1" sampleProxy.allowedAddresses closedHost.shared ∧
    Passes (filtered sampleEgressTexts.iptables) (fun _ : Unit => sampleGateways.reconcileAll)
      (fun _ now => sampleGateways.Standing "vpc-1" sampleProxy.allowedAddresses now.shared)
        closedHost openHost ∧
    sampleGateways.Standing "vpc-1" sampleProxy.allowedAddresses openHost.shared ∧
    (∀ a ∈ sampleProxy.allowedAddresses, ¬Reaches sampleEgressTexts a leavingPacket.destination) ∧
    openHost.tables.treat sampleEgressTexts.iptables "filter" "FORWARD" leavingPacket = none := by
  obtain ⟨stands, forwards⟩ := Prod.mk.inj openHost_left
  refine ⟨closedHost_place, closedHost_standing, ?_, standing_of_gatewayStands stands,
    sample_outside, forwards⟩
  exact Passes.outcome (fun s op _ => unreadAnswer_exec s op) .start () closedHost_standing
    (meets_any unreadAnswer _ closedHost)

/-- What the guarded machine asks of an answer. -/
def unfailing (op : Op) (reply : op.Reply) : Bool :=
  match op, reply with
  | .host cmd, .error _ => cmd != ["iptables", "-t", "filter", "-S", (egressChains "vpc-1").2]
  | .get _, .error err => err.is errNotFound
  | _, _ => true

theorem hostAnswer_guarded (s : Host) (op : Op)
    (checked : unfailing op (hostAnswer sampleEgressTexts.iptables s op).1 = true) :
    (sampleGateways.guarded "vpc-1").exec s op (hostAnswer sampleEgressTexts.iptables s op).1
      (hostAnswer sampleEgressTexts.iptables s op).2 := by
  refine ⟨hostAnswer_exec _ s op, ?_⟩
  generalize (hostAnswer sampleEgressTexts.iptables s op).1 = reply at checked
  cases op with
  | get key =>
    intro _ err eq
    subst eq
    exact checked
  | host cmd =>
    intro eq
    cases reply with
    | error err => exact absurd eq (bne_iff_ne.mp checked)
    | ok text => exact ⟨text, rfl⟩
  | _ => trivial

theorem retried_unfailing :
    sampleGateways.reconcileAll.Meets (hostAnswer sampleEgressTexts.iptables) unfailing closedHost =
    true := by
  decide +kernel

theorem egress_filter_stays_closed_retried :
    retriedHost.tables.treat sampleEgressTexts.iptables "filter" "FORWARD" leavingPacket =
      some (.reject "icmp-admin-prohibited") := by
  refine EgressReconciler.egress_filter_stays_closed sampleGateways ⟨rfl,
    rfl⟩ "vpc-1" "eth0" sampleProxy.allowedAddresses
    sampleNetworks sample_named closedHost retriedHost closedHost_place ?_ leavingPacket rfl rfl
      rfl sample_outside
  exact Passes.outcome hostAnswer_guarded .start () closedHost_standing retried_unfailing

end

end Infrastructure.Manager
