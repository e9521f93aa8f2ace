import Infrastructure.Lbproxy.EgressRuns
import Mathlib.Data.List.MinMax

/-! How a listener finds the target group of a request. -/

namespace Infrastructure.Lbproxy

open List

structure Rule where
  host : String := ""
  pathPrefix : String := ""
  targetGroup : String
  deriving DecidableEq, Repr

def Rule.score (rule : Rule) : Nat :=
  2 * rule.pathPrefix.utf8ByteSize + if rule.host = "" then 0 else 1

/-- A longer path prefix comes first, then a host, whatever the host is. -/
def Rule.Outranks (rule other : Rule) : Prop :=
  other.pathPrefix.utf8ByteSize < rule.pathPrefix.utf8ByteSize ∨
    other.pathPrefix.utf8ByteSize = rule.pathPrefix.utf8ByteSize ∧ rule.host ≠ "" ∧ other.host = ""

theorem Rule.outranks_iff (rule other : Rule) : rule.Outranks other ↔ other.score < rule.score := by
  unfold Outranks score
  split <;> split <;> simp [*] <;> omega

section

variable (lib : Library)

/-- Whether a rule is for a request to a host and a path. -/
def Rule.takes (host path : String) (rule : Rule) : Bool :=
  (rule.host == "" || matchHost lib rule.host.toList (lib.toLower (hostOnly lib host).toList)) &&
    (rule.pathPrefix == "" || rule.pathPrefix.toList.isPrefixOf path.toList)

/-- The loop over the rules, with the best group and its score so far. -/
def routeFrom (host path : String) : List Rule → String → Int → String
  | [], best, _ => best
  | rule :: rules, best, bestScore =>
    if rule.takes lib host path && bestScore < rule.score then
      routeFrom host path rules rule.targetGroup rule.score
    else routeFrom host path rules best bestScore

def route (rules : List Rule) (defaultTargetGroup host path : String) : String :=
  routeFrom lib host path rules defaultTargetGroup (-1)

/-- A rule for a request that no other rule for it outranks. -/
def Leads (rules : List Rule) (host path : String) (rule : Rule) : Prop :=
  rule ∈ rules ∧ rule.takes lib host path ∧ ∀ other ∈ rules, other.takes lib host path →
    ¬ other.Outranks rule

variable {lib} {rules order : List Rule} {defaultTargetGroup host path : String} {rule : Rule}

theorem routeFrom_eq (sofar : Option Rule) :
    routeFrom lib host path rules (sofar.elim defaultTargetGroup Rule.targetGroup)
      (sofar.elim (-1) fun rule => rule.score) =
      ((rules.filter (Rule.takes lib host path)).foldl
        (List.argAux fun rule best => best.score < rule.score) sofar).elim defaultTargetGroup
          Rule.targetGroup := by
  induction rules generalizing sofar with
  | nil => rfl
  | cons rule rules ih =>
    rw [routeFrom, filter_cons]
    cases takes : rule.takes lib host path with
    | false => simpa using ih sofar
    | true =>
      -- the best so far is replaced exactly when the fold replaces it
      rw [if_pos rfl, foldl_cons]
      cases sofar with
      | none =>
        have first : (-1 : Int) < rule.score := by omega
        simpa [List.argAux, first] using ih (some rule)
      | some best =>
        by_cases higher : best.score < rule.score
        · simpa [List.argAux, higher] using ih (some rule)
        · simpa [List.argAux, higher] using ih (some best)

/-- The rule for a request with the highest score wins, of several the first. -/
theorem route_eq : route lib rules defaultTargetGroup host path =
    ((rules.filter (Rule.takes lib host path)).argmax Rule.score).elim defaultTargetGroup
    Rule.targetGroup :=
  routeFrom_eq none

theorem leads_iff : Leads lib rules host path rule ↔
    rule ∈ rules.filter (Rule.takes lib host path) ∧
    ∀ other ∈ rules.filter (Rule.takes lib host path), other.score ≤ rule.score := by
  simp [Leads, Rule.outranks_iff, and_assoc]

theorem Leads.perm (eq : rules.Perm order) : Leads lib rules host path rule ↔
    Leads lib order host path rule := by
  simp only [Leads, eq.mem_iff]

theorem route_cases (lib : Library) (rules : List Rule) (defaultTargetGroup host path : String) :
    (∃ rule, Leads lib rules host path rule ∧
      route lib rules defaultTargetGroup host path = rule.targetGroup) ∨
      (∀ rule ∈ rules, ¬ rule.takes lib host path) ∧
        route lib rules defaultTargetGroup host path = defaultTargetGroup := by
  rw [route_eq]
  cases best : (rules.filter (Rule.takes lib host path)).argmax Rule.score with
  | none => exact .inr ⟨filter_eq_nil_iff.mp (argmax_eq_none.mp best), rfl⟩
  | some rule =>
    exact .inl ⟨rule, leads_iff.mpr ⟨argmax_mem best, fun other mem => le_of_mem_argmax mem best⟩,
      rfl⟩

theorem Leads.first (leads : Leads lib rules host path rule) (defaultTargetGroup : String) :
    ∃ order, rules.Perm order ∧ route lib order defaultTargetGroup host path =
      rule.targetGroup := by
  have eq := perm_cons_erase leads.1
  have highest := (leads_iff.mp ((Leads.perm eq).mp leads)).2
  refine ⟨_, eq, ?_⟩
  rw [filter_cons_of_pos leads.2.1] at highest
  rw [route_eq, filter_cons_of_pos leads.2.1, argmax_cons]
  cases best : ((rules.erase rule).filter (Rule.takes lib host path)).argmax Rule.score with
  | none => rfl
  | some other =>
    have lower := highest other (.tail _ (argmax_mem best))
    simp [Nat.not_lt.mpr lower]

end

/-- A request goes to the group of a rule for it that no other outranks. The order of the rules
matters exactly when there are several such rules and they differ in their groups. -/
theorem route_order_independent_iff (lib : Library) (rules : List Rule)
    (defaultTargetGroup host path : String) :
    ((∃ rule, Leads lib rules host path rule ∧
      route lib rules defaultTargetGroup host path = rule.targetGroup) ∨
      (∀ rule ∈ rules, ¬ rule.takes lib host path) ∧
        route lib rules defaultTargetGroup host path = defaultTargetGroup) ∧
          ((∀ order, rules.Perm order →
        route lib order defaultTargetGroup host path =
          route lib rules defaultTargetGroup host path) ↔
      ∀ first second, Leads lib rules host path first → Leads lib rules host path second →
        first.targetGroup = second.targetGroup) := by
  refine ⟨route_cases _ _ _ _ _, fun alike first second leads others => ?_,
    fun agree order same => ?_⟩
  · obtain ⟨_, orderFirst, toFirst⟩ := leads.first defaultTargetGroup
    obtain ⟨_, orderSecond, toSecond⟩ := others.first defaultTargetGroup
    rw [← toFirst, ← toSecond, alike _ orderFirst, alike _ orderSecond]
  · obtain ⟨first, leads, routed⟩ | ⟨untaken, routed⟩ :=
      route_cases lib rules defaultTargetGroup host path <;>
      obtain ⟨second, others, routes⟩ | ⟨unmet, routes⟩ :=
        route_cases lib order defaultTargetGroup host path
    · rw [routed, routes]
      exact agree _ _ ((Leads.perm same).mpr others) leads
    · exact absurd leads.2.1 (unmet first (same.mem_iff.mp leads.1))
    · exact absurd others.2.1 (untaken second (same.mem_iff.mpr others.1))
    · rw [routed, routes]

/-- An exact host and a wildcard that covers it rank alike, and the one that comes first wins. -/
theorem wildcard_first_wins : let exact : Rule :=
  { host := "a.example.com", targetGroup := "exact" }
    let wildcard : Rule := { host := "*.example.com", targetGroup := "wildcard" }
    route plainLibrary [exact, wildcard] "default" "a.example.com" "/" = "exact" ∧
      route plainLibrary [wildcard, exact] "default" "a.example.com" "/" = "wildcard" := by
  decide

end Infrastructure.Lbproxy
