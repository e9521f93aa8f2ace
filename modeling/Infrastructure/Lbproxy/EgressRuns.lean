import Infrastructure.Concurrency.Protocol
import Infrastructure.Lbproxy.Egress

/-! What any number of clients can reach through an egress listener, whatever the resolver
answers them and however the policy is reloaded meanwhile. -/

namespace Infrastructure.Lbproxy

open Concurrency Net List

/-- An egress listener: what its configuration says and the policy in use. -/
structure Listener where
  protocol : ListenerProtocol
  policy : Option Policy := none
  deriving DecidableEq, Repr

section

variable (lib : Library)

/-- A reload stores the configuration and then the policy, if that compiles. -/
inductive Reload : Listener → Listener → Prop
  | config (s : Listener) (protocol : ListenerProtocol) : Reload s { s with protocol }
  | policy (s : Listener) (p : EgressPolicy) (compiled : Policy)
      (compiles : compilePolicy lib p = .ok compiled) :
      Reload s { s with policy := some compiled }

/-- Names may resolve to anything, and connecting may fail or not. -/
def egress : Machine Wire Wire.Reply Listener where
  exec s op reply s' := s' = s ∧
    match op, reply with
    | .loadConfig, protocol => protocol = s.protocol
    | .loadPolicy, policy => policy = s.policy
    | .lookup _, _ => True
    | .connect _, _ => True
    | .forward, _ => True
  drift := Reload lib

/-- A host that a client names. -/
inductive Names : Client → String → Prop
  | tunnel (r : HTTPRequest) (host port : String)
      (split : lib.splitHostPort r.host = some (host, port)) :
      Names (.http r) host
  | header (r : HTTPRequest) : Names (.http r) (hostOnly lib r.host)
  | url (r : HTTPRequest) : Names (.http r) (lib.urlHostname r.urlHost)
  | sni (host : String) : Names (.tls (.ok host)) host

/-- A name is a domain, or is a subdomain of one that is written with a star. -/
inductive Matches : List Char → List Char → Prop
  | exact (name : List Char) : Matches name name
  | below (label domain : List Char) (some : label ≠ []) :
      Matches ('*' :: '.' :: domain) (label ++ '.' :: domain)

def InAllowedCIDR (p : EgressPolicy) (ip : Address) : Prop :=
  ∃ c ∈ p.allowedCIDRs, ∃ net, parseCIDR lib c = .ok net ∧ net.contains ip.1 = true

/-- Upper case and a dot at the end do not count. -/
def MatchesDomain (p : EgressPolicy) (host : String) : Prop :=
  ∃ d ∈ p.allowedDomains,
    Matches (lib.toLower d.toList) (lib.toLower (trimDot (lib.toLower host.toList)))

def Public (ip : Address) : Prop := ∀ net ∈ setAside, net.contains ip.1 = false

/-- The addresses that the policy lets a client reach, given what the name resolved to. -/
inductive Permitted (p : EgressPolicy) (host : String) (resolved : Address → Prop) : IP → Prop
  | literal (ip : Address) (named : lib.parseIP (trimBrackets host) = some ip)
      (allowed : InAllowedCIDR lib p ip) :
      Permitted p host resolved (canonical ip.1)
  | name (ip : Address) (domain : MatchesDomain lib p host) (answer : resolved ip)
      (allowed : Public ip ∨ InAllowedCIDR lib p ip) : Permitted p host resolved (canonical ip.1)

abbrev EgressEvent := Event Wire Wire.Reply Client

/-- The resolver has given the address for the host to this client. -/
def Answered (past : List EgressEvent) (i : Nat) (client : Client) (host : String)
    (ip : Address) : Prop :=
  ∃ addrs, ⟨i, client, .lookup host, .ok addrs⟩ ∈ past ∧ ip ∈ addrs

def Found (past : List EgressEvent) (i : Nat) (client : Client) (p : EgressPolicy) : Prop :=
  ∃ compiled, compilePolicy lib p = .ok compiled ∧ ⟨i, client, .loadPolicy, some compiled⟩ ∈ past

/-- What a client has done warrants that it connects to the address a text names. -/
def Warranted (past : List EgressEvent) (i : Nat) (client : Client) (text : String) : Prop :=
  ∀ address, lib.dialed text = some address →
    ∃ p host, Found lib past i client p ∧ Names lib client host ∧
      Permitted lib p host (Answered past i client host) address

/-- Every connection so far was warranted when it was made. -/
def AllWarranted (past : List EgressEvent) : Prop :=
  ∀ later pre i client text reply,
    past = later ++ ⟨i, client, .connect text, reply⟩ :: pre → Warranted lib pre i client text

variable {lib}

theorem matches_of_matchHost {pattern host : List Char}
    (matched : matchHost lib pattern host = true) :
    Matches (lib.toLower pattern) (lib.toLower host) := by
  unfold matchHost at matched
  split at matched
  · rename_i suffix star
    rw [Bool.and_eq_true, isSuffixOf_iff_suffix] at matched
    obtain ⟨longer, label, below⟩ := matched
    rw [star, ← below]
    apply Matches.below
    intro empty
    subst empty
    simp [← below] at longer
  · rename_i star
    rw [beq_iff_eq] at matched
    rw [matched]
    exact .exact _

section

variable {ε α β : Type} {f : α → Except ε β} {xs : List α} {ys : List β}
    (mapped : xs.mapM f = .ok ys)

include ε α β f xs ys mapped

theorem forall₂_of_mapM : List.Forall₂ (fun x y => f x = .ok y) xs ys := by
  induction xs generalizing ys with
  | nil =>
    cases mapped
    exact .nil
  | cons x xs ih =>
    rw [mapM_cons] at mapped
    cases first : f x with
    | error text =>
      rw [first] at mapped
      cases mapped
    | ok val =>
      cases rest : xs.mapM f with
      | error text =>
        rw [first, rest] at mapped
        cases mapped
      | ok vals =>
        rw [first, rest] at mapped
        cases mapped
        exact .cons first (ih rest)

theorem mem_of_mapM_ok {y : β} (mem : y ∈ ys) : ∃ x ∈ xs, f x = .ok y := by
  have rel := forall₂_of_mapM mapped
  clear mapped
  induction rel with
  | nil => cases mem
  | cons made _ ih =>
    rcases mem_cons.mp mem with rfl | later
    · exact ⟨_, .head _, made⟩
    · obtain ⟨other, has, eq⟩ := ih later
      exact ⟨other, .tail _ has, eq⟩

theorem exists_of_mapM_ok {x : α} (mem : x ∈ xs) : ∃ y ∈ ys, f x = .ok y := by
  have rel := forall₂_of_mapM mapped
  clear mapped
  induction rel with
  | nil => cases mem
  | cons made _ ih =>
    rcases mem_cons.mp mem with rfl | later
    · exact ⟨_, .head _, made⟩
    · obtain ⟨other, has, eq⟩ := ih later
      exact ⟨other, .tail _ has, eq⟩

end

section

variable {p : EgressPolicy} {compiled : Policy} (compiles : compilePolicy lib p = .ok compiled)

include p compiled compiles

theorem compiled_parts : compiled.domains = p.allowedDomains ∧ p.allowedCIDRs.mapM
    (parseCIDR lib) = .ok compiled.nets := by
  unfold compilePolicy at compiles
  cases nets : p.allowedCIDRs.mapM (parseCIDR lib) with
  | error text =>
    rw [nets] at compiles
    cases compiles
  | ok networks =>
    rw [nets] at compiles
    cases compiles
    exact ⟨rfl, rfl⟩

theorem inAllowedCIDR {ip : Address} (ok : compiled.allowsIP ip = true) :
    InAllowedCIDR lib p ip := by
  obtain ⟨net, mem, inside⟩ := any_eq_true.mp ok
  obtain ⟨c, seen, got⟩ := mem_of_mapM_ok (compiled_parts compiles).2 mem
  exact ⟨c, seen, net, got, inside⟩

theorem matchesDomain {host : String} (ok : compiled.allowsDomain lib host = true) :
    MatchesDomain lib p host := by
  obtain ⟨d, mem, matched⟩ := any_eq_true.mp ok
  rw [(compiled_parts compiles).1] at mem
  exact ⟨d, mem, matches_of_matchHost matched⟩

end

theorem public_of_isPublic {ip : Address} (shown : isPublic ip = true) : Public ip := by
  intro net mem
  by_contra inside
  rw [isPublic, isInternal_eq, Bool.not_eq_true', any_eq_false] at shown
  exact shown net mem (by simpa using inside)

section

variable {i : Nat} {client : Client} {past more : List EgressEvent} {text : String}

theorem Permitted.mono {p : EgressPolicy} {host : String} {resolved known : Address → Prop}
    {addr : IP} (ok : Permitted lib p host resolved addr) (weaker : ∀ ip, resolved ip → known ip) :
    Permitted lib p host known addr := by
  cases ok with
  | literal ip named allowed => exact .literal ip named allowed
  | name ip domain answer allowed => exact .name ip domain (weaker ip answer) allowed

theorem Warranted.mono (warranted : Warranted lib past i client text) (kept : past ⊆ more) :
    Warranted lib more i client text := by
  intro addr dialed
  obtain ⟨p, host, ⟨compiled, compiles, got⟩, named, ok⟩ := warranted addr dialed
  refine ⟨p, host, ⟨compiled, compiles, kept got⟩, named, ok.mono ?_⟩
  intro ip answered
  obtain ⟨addrs, answer, mem⟩ := answered
  exact ⟨addrs, kept answer, mem⟩

theorem AllWarranted.cons (all : AllWarranted lib past) {event : EgressEvent}
    (new : ∀ i client text reply, event = ⟨i, client, .connect text, reply⟩ →
      Warranted lib past i client text) : AllWarranted lib (event :: past) := by
  intro later pre i client text reply split
  cases later with
  | nil =>
    rw [nil_append, List.cons.injEq] at split
    exact split.2 ▸ new i client text reply split.1
  | cons latest later =>
    rw [cons_append, List.cons.injEq] at split
    exact all later pre i client text reply split.2

end

/-- Events are never forgotten, connections are warranted and policies are compiled ones. -/
def egressProtocol (lib : Library) : Protocol (egress lib) Client where
  invariant w := AllWarranted lib w.past ∧
    ∀ compiled, w.state.policy = some compiled → ∃ p, compilePolicy lib p = .ok compiled
  permitted _ _ := True
  rely _ _ s s' := s.past ⊆ s'.past
  guarantee s s' := s.past ⊆ s'.past
  rely_refl _ _ _ := List.Subset.refl _
  rely_trans _ _ _ _ _ := List.Subset.trans

section

variable {i : Nat} {client : Client} {w : World Wire Wire.Reply Listener Client} {α : Type}
  {post : α → World Wire Wire.Reply Listener Client → Prop}

theorem safe_call {op : Wire} {next : op.Reply → Serve α}
    (warranted : ∀ text, op = .connect text → Warranted lib w.past i client text)
    (rest : ∀ now reply, w.past ⊆ now.past → (egressProtocol lib).invariant now →
      (egress lib).exec now.state op reply now.state →
      (egressProtocol lib).Safe i client post (next reply)
        (now.next ⟨i, client, op, reply⟩ now.state)) :
    (egressProtocol lib).Safe i client post (.call op next) w := by
  intro now inv rely reply state ran _
  have same : state = now.state := ran.1
  subst same
  constructor
  · exact subset_cons_self _ _
  · constructor
    · constructor
      · apply inv.1.cons
        intro i client text reply eq
        cases eq
        exact (warranted text rfl).mono rely
      · exact inv.2
    · exact rest now reply rely inv ran

theorem safe_connect {text : String} {next : Option String → Serve α}
    (warranted : Warranted lib w.past i client text) (rest : ∀ reply later, w.past ⊆ later.past →
      (egressProtocol lib).Safe i client post (next reply) later) :
    (egressProtocol lib).Safe i client post (connect text >>= next) w := by
  apply safe_call
  · intro _ eq
    cases eq
    exact warranted
  · intro now reply rely _ _
    exact rest reply _ (List.Subset.trans rely (subset_cons_self _ _))

theorem safe_lookup {host : String} {next : Except String (List Address) → Serve α}
    (rest : ∀ reply later, w.past ⊆ later.past → ⟨i, client, .lookup host, reply⟩ ∈ later.past →
      (egressProtocol lib).Safe i client post (next reply) later) :
    (egressProtocol lib).Safe i client post (lookupIPAddr host >>= next) w := by
  apply safe_call
  · intro _ eq
    cases eq
  · intro now reply rely _ _
    exact rest reply _ (List.Subset.trans rely (subset_cons_self _ _)) (.head _)

theorem safe_loadPolicy {next : Option Policy → Serve α} (rest : ∀ policy later,
      (∀ compiled, policy = some compiled → ∃ p, compilePolicy lib p = .ok compiled ∧
        ⟨i, client, .loadPolicy, some compiled⟩ ∈ later.past) →
      (egressProtocol lib).Safe i client post (next policy) later) :
    (egressProtocol lib).Safe i client post (loadPolicy >>= next) w := by
  apply safe_call
  · intro _ eq
    cases eq
  · intro now policy _ inv ran
    apply rest
    intro compiled got
    have has : policy = now.state.policy := ran.2
    obtain ⟨p, compiles⟩ := inv.2 compiled (has.symm.trans got)
    exact ⟨p, compiles, got ▸ .head _⟩

variable {p : EgressPolicy} {compiled : Policy} {host port : String}

/-- What a dial needs: the policy was found in use and the client has named the host. -/
structure Dials (lib : Library) (i : Nat) (client : Client) (p : EgressPolicy) (compiled : Policy)
    (host : String) (past : List EgressEvent) : Prop where
  compiles : compilePolicy lib p = .ok compiled
  found : ⟨i, client, .loadPolicy, some compiled⟩ ∈ past
  named : Names lib client host

theorem Dials.mono {past more : List EgressEvent} (dials : Dials lib i client p compiled host past)
    (kept : past ⊆ more) : Dials lib i client p compiled host more :=
  ⟨dials.compiles, kept dials.found, dials.named⟩

theorem Dials.warranted {past : List EgressEvent} (dials : Dials lib i client p compiled host past)
    {ip : Address} (ok : Permitted lib p host (Answered past i client host) (canonical ip.1)) :
    Warranted lib past i client (lib.joinHostPort (lib.ipString ip) port) := by
  intro addr dialed
  rw [lib.dialed_text ip port addr dialed]
  exact ⟨p, host, ⟨compiled, dials.compiles, dials.found⟩, dials.named, ok⟩

theorem dialEach_safe (addrs : List Address) (errs : DialError)
    (dials : Dials lib i client p compiled host w.past) (domain : MatchesDomain lib p host)
    (answered : ∀ ip ∈ addrs, Answered w.past i client host ip) :
    (egressProtocol lib).Safe i client (fun _ later => w.past ⊆ later.past)
      (compiled.dialEach lib host port addrs errs) w := by
  induction addrs generalizing errs w with
  | nil =>
    cases errs with
    | nil => exact List.Subset.refl _
    | cons err errs => exact List.Subset.refl _
  | cons ip addrs ih =>
    unfold Policy.dialEach
    split
    · exact ih _ dials fun other mem => answered other (.tail _ mem)
    · rename_i shown
      have ok : Public ip ∨ InAllowedCIDR lib p ip := by
        by_cases visible : isPublic ip = true
        · exact .inl (public_of_isPublic visible)
        · right
          apply inAllowedCIDR dials.compiles
          simpa [visible] using shown
      apply safe_connect
      · exact dials.warranted (.name ip domain (answered ip (.head _)) ok)
      · intro reply later kept
        cases reply with
        | none => exact kept
        | some err =>
          apply (ih _ (dials.mono kept) ?_).mono
          · intro _ last s'
            exact List.Subset.trans kept s'
          · intro other mem
            obtain ⟨addrs, answer, among⟩ := answered other (.tail _ mem)
            exact ⟨addrs, kept answer, among⟩

theorem dial_safe (dials : Dials lib i client p compiled host w.past) :
    (egressProtocol lib).Safe i client (fun _ later => w.past ⊆ later.past)
    (compiled.dial lib host port) w := by
  unfold Policy.dial
  split
  · rename_i ip named
    split
    · exact List.Subset.refl _
    · rename_i allowed
      apply safe_connect
      · apply dials.warranted
        exact .literal ip named (inAllowedCIDR dials.compiles (by simpa using allowed))
      · intro reply later kept
        cases reply with
        | none => exact kept
        | some err => exact kept
  · split
    · exact List.Subset.refl _
    · rename_i allowed
      have domain : MatchesDomain lib p host :=
        matchesDomain dials.compiles (by simpa using allowed)
      apply safe_lookup
      intro reply later kept answer
      cases reply with
      | error err => exact kept
      | ok addrs =>
        apply (dialEach_safe addrs [] (dials.mono kept) domain ?_).mono
        · intro _ last s'
          exact List.Subset.trans kept s'
        · intro ip mem
          exact ⟨addrs, answer, mem⟩

theorem dialAgain_safe (attempts : Nat) (dials : Dials lib i client p compiled host w.past) :
    (egressProtocol lib).Safe i client (fun _ _ => True)
    (compiled.dialAgain lib host port attempts) w := by
  induction attempts generalizing w with
  | zero => trivial
  | succ attempts ih =>
    apply Protocol.Safe.bind
    apply (dial_safe dials).mono
    intro out later kept
    cases out with
    | error err => trivial
    | ok _ => exact ih (dials.mono kept)

theorem names_destination {protocol : ListenerProtocol} {r : HTTPRequest}
    (destined : destination lib protocol r = .ok (host, port)) : Names lib (.http r) host := by
  unfold destination at destined
  dsimp only at destined
  split at destined
  · split at destined
    · cases destined
    · split at destined
      · cases destined
      · cases destined
        exact .url r
  · split at destined
    · cases destined
    · cases destined
      exact .header r

theorem serveHTTP_safe (r : HTTPRequest) : (egressProtocol lib).Safe i (.http r) (fun _ _ => True)
    (serveHTTP lib r) w := by
  apply safe_call
  · intro _ eq
    cases eq
  · intro now protocol _ _ _
    apply safe_loadPolicy
    intro policy later got
    cases policy with
    | none => trivial
    | some compiled =>
      obtain ⟨p, compiles, loaded⟩ := got compiled rfl
      dsimp only
      split
      · split
        · trivial
        · unfold tunnel
          split
          · trivial
          · rename_i host port parts
            split
            · trivial
            · apply Protocol.Safe.bind
              apply (dial_safe ⟨compiles, loaded, .tunnel r host port parts⟩).mono
              intro out last _
              cases out with
              | error err => trivial
              | ok _ => trivial
      · split
        · trivial
        · rename_i host port destined
          apply safe_call
          · intro _ eq
            cases eq
          · intro again attempts kept _ _
            exact dialAgain_safe attempts ⟨compiles, .tail _ (kept loaded),
              names_destination destined⟩

theorem serveEgressTLS_safe (tlsPort : String) (sni : Except String String) :
    (egressProtocol lib).Safe i (.tls sni) (fun _ _ => True)
    (serveEgressTLS lib tlsPort sni) w := by
  unfold serveEgressTLS
  split
  · trivial
  · trivial
  · rename_i host _
    apply safe_loadPolicy
    intro policy later got
    cases policy with
    | none => trivial
    | some compiled =>
      obtain ⟨p, compiles, loaded⟩ := got compiled rfl
      apply Protocol.Safe.bind
      apply (dial_safe ⟨compiles, loaded, .sni host⟩).mono
      intro out last _
      cases out with
      | error err => trivial
      | ok _ => trivial

theorem egress_sound (tlsPort : String) :
    (egressProtocol lib).Sound (serveEgress lib tlsPort) fun _ _ => True where
  safe i client w _ := by
    cases client with
    | http r => exact serveHTTP_safe r
    | tls sni => exact serveEgressTLS_safe tlsPort sni
  permitted _ _ _ := trivial
  drift s state inv moved _ := by
    constructor
    · constructor
      · exact inv.1
      · intro compiled got
        cases moved with
        | config protocol => exact inv.2 compiled got
        | policy p other compiles =>
          cases got
          exact ⟨p, compiles⟩
    · exact List.Subset.refl _
  interference _ _ _ _ _ _ _ _ guaranteed _ _ _ := guaranteed

end

/-- Whatever clients do at once, with names resolved afresh and the policy changing under them. -/
theorem egress_connects_permitted (lib : Library) (tlsPort : String) (protocol : ListenerProtocol)
    (reached : Configuration Wire Wire.Reply Listener Client Response)
    (run : Reachable (egress lib) (serveEgress lib tlsPort) (fun _ _ => True) ⟨protocol,
      none⟩ reached)
    (later pre : List EgressEvent) (i : Nat) (client : Client) (text : String)
    (reply : Option String)
    (connects : reached.past = later ++ ⟨i, client, .connect text, reply⟩ :: pre)
    (address : IP) (dialed : lib.dialed text = some address) :
    ∃ p host, Found lib pre i client p ∧ Names lib client host ∧
      Permitted lib p host (Answered pre i client host) address := by
  have initially : (egressProtocol lib).invariant ⟨⟨protocol, none⟩, []⟩ := by
    constructor
    · intro later pre i client text reply split
      simp at split
    · intro compiled loaded
      cases loaded
  have kept := (egress_sound tlsPort).invariant initially run
  exact kept.1 later pre i client text reply connects address dialed

/-- A library in which the text of an address is its bytes. -/
def plainLibrary : Library where
  parseIP _ := none
  parseCIDR _ := none
  toLower := id
  splitHostPort _ := none
  urlHostname := id
  urlPort _ := ""
  atoi _ := none
  ipString ip := String.ofList (ip.1.map fun byte => Char.ofNat byte.toNat)
  joinHostPort host _ := host
  dialed text := some (canonical (text.toList.map fun char => UInt8.ofNat char.toNat))
  dialed_text ip port t dialed := by
    have back : ∀ byte : UInt8, UInt8.ofNat (Char.ofNat byte.toNat).toNat = byte := by
      intro byte
      have small : byte.toNat < 256 := byte.toNat_lt
      have valid : byte.toNat.isValidChar := .inl (by omega)
      have same : (Char.ofNat byte.toNat).toNat = byte.toNat := by
        rw [Char.ofNat, dif_pos valid]
        rfl
      rw [same, UInt8.ofNat_toNat]
    simp only [String.toList_ofList, map_map, Option.some.injEq] at dialed
    rw [← dialed]
    congr 1
    simp [Function.comp_def, back]

theorem egress_connects_permitted_sample : let client := Client.tls (.ok "a.com")
    let pre : List EgressEvent :=
      [⟨0, client, .lookup "a.com", .ok [⟨[93, 184, 216, 34], .inl rfl⟩]⟩,
        ⟨0, client, .loadPolicy, some ⟨["a.com"], []⟩⟩]
    ∃ p host, Found plainLibrary pre 0 client p ∧ Names plainLibrary client host ∧
      Permitted plainLibrary p host (Answered pre 0 client host) [93, 184, 216, 34] := by
  intro client pre
  let ip : Address := ⟨[93, 184, 216, 34], .inl rfl⟩
  have run : Reachable (egress plainLibrary) (serveEgress plainLibrary "443") (fun _ _ => True)
      ⟨.egressTLS, none⟩ _ :=
    .step (.step (.step (.step (.step .initial
      (.drift _ _ (.policy _ ⟨["a.com"], []⟩ ⟨["a.com"], []⟩ rfl)) trivial)
      (.start _ 0 client rfl) trivial)
      (.act _ 0 client .loadPolicy _ (some ⟨["a.com"], []⟩) _ rfl ⟨rfl, rfl⟩) trivial)
      (.act _ 0 client (.lookup "a.com") _ (.ok [ip]) _ rfl ⟨rfl, trivial⟩) trivial)
      (.act _ 0 client (.connect (plainLibrary.ipString ip)) _ none _ rfl ⟨rfl, trivial⟩) trivial
  exact egress_connects_permitted plainLibrary "443" .egressTLS _ run [] pre 0 client _ none
    rfl _ (by decide)

end

end Infrastructure.Lbproxy
