import Infrastructure.Concurrency.Passes
import Infrastructure.Lbproxy.EgressRuns

/-! What the explicit proxy does with a request that names an address rather than a domain. -/

namespace Infrastructure.Lbproxy

open Concurrency Net

variable (lib : Library)

/-- The request asks the explicit proxy for a host and a port. -/
inductive Asks (r : HTTPRequest) : String → String → Prop
  | tunnel {host port : String} (connects : r.connects = true)
      (split : lib.splitHostPort r.host = some (host, port)) :
      Asks r host port
  | url {host port : String} (plain : r.connects = false)
      (destined : destination lib .egressProxy r = .ok (host, port)) :
      Asks r host port

/-- The explicit proxy may come to connect to the address that a text names. -/
def Connects (compiled : Policy) (r : HTTPRequest) (text : String) : Prop :=
  (serveHTTP lib r).Comes (egress lib) (.connect text) ⟨.egressProxy, some compiled⟩

variable {lib} {r : HTTPRequest} {host port : String} {ip : Address} {compiled : Policy}
    {listener : Listener}

theorem dial_denied (literal : lib.parseIP (trimBrackets host) = some ip)
    (denied : compiled.allowsIP ip = false) :
    compiled.dial lib host port =
      .ret (.error [.denied s!"egress denied: address {lib.ipString ip}"]) := by
  simp [Policy.dial, literal, denied]

theorem dialAgain_denied (port : String) (literal : lib.parseIP (trimBrackets host) = some ip)
    (denied : compiled.allowsIP ip = false)
    (attempts : Nat) : ∃ response, compiled.dialAgain lib host port attempts = .ret response := by
  cases attempts with
  | zero => exact ⟨_, rfl⟩
  | succ attempts =>
    rw [Policy.dialAgain, dial_denied literal denied]
    exact ⟨_, rfl⟩

theorem serveHTTP_denied (asks : Asks lib r host port)
    (literal : lib.parseIP (trimBrackets host) = some ip) (denied : compiled.allowsIP ip = false) :
    (serveHTTP lib r).Only (egress lib)
    (fun op => ∀ text, op ≠ .connect text) ⟨.egressProxy, some compiled⟩ := by
  refine ⟨nofun, ?_⟩
  rintro p _ ⟨rfl, got⟩
  cases got
  refine ⟨nofun, ?_⟩
  rintro policy _ ⟨rfl, loaded⟩
  cases loaded
  cases asks with
  | tunnel connects split =>
    simp only [Program.bind, connects, if_true, ne_eq, not_true_eq_false, if_false, tunnel, split]
    split
    · trivial
    · rw [dial_denied literal denied]
      trivial
  | url plain destined =>
    simp only [Program.bind, plain, Bool.false_eq_true, if_false, destined]
    refine ⟨nofun, ?_⟩
    intro attempts _ _
    obtain ⟨response, eq⟩ := dialAgain_denied port literal denied attempts
    simp only [Program.bind, eq]
    trivial

theorem dial_allowed (port : String) (literal : lib.parseIP (trimBrackets host) = some ip)
    (ok : compiled.allowsIP ip = true) :
    ∃ next, compiled.dial lib host port =
      .call (.connect (lib.joinHostPort (lib.ipString ip) port)) next := by
  rw [Policy.dial, literal]
  simp only [ok, Bool.not_true, Bool.false_eq_true, if_false]
  exact ⟨_, rfl⟩

section

variable (asks : Asks lib r host port) (literal : lib.parseIP (trimBrackets host) = some ip)
  (numeric : (lib.atoi port).isSome)

include asks literal numeric

theorem serveHTTP_allowed (ok : compiled.allowsIP ip = true) :
    Connects lib compiled r (lib.joinHostPort (lib.ipString ip) port) := by
  let listener : Listener := ⟨.egressProxy, some compiled⟩
  have config : (egress lib).exec listener .loadConfig .egressProxy listener := ⟨rfl, rfl⟩
  have policy : (egress lib).exec listener .loadPolicy (some compiled) listener := ⟨rfl, rfl⟩
  have once : (egress lib).exec listener .forward (1 : Nat) listener := ⟨rfl, trivial⟩
  obtain ⟨next, dials⟩ := dial_allowed port literal ok
  apply Program.Comes.step config
  apply Program.Comes.step policy
  cases asks with
  | tunnel connects split =>
    have some : ¬(lib.atoi port).isNone = true := by simpa [Option.isSome_iff_ne_none] using numeric
    simp only [Program.bind, connects, if_true, ne_eq, not_true_eq_false, if_false, tunnel, split,
      some, dials]
    exact Program.comes_call _ _ _
  | url plain destined =>
    simp only [Program.bind, plain, Bool.false_eq_true, if_false, destined]
    apply Program.Comes.step once
    simp only [Program.bind, Policy.dialAgain, dials]
    exact Program.comes_call _ _ _

theorem connects_iff : Connects lib compiled r (lib.joinHostPort (lib.ipString ip) port) ↔
    compiled.allowsIP ip = true := by
  constructor
  · intro connects
    by_contra denied
    exact connects.only (serveHTTP_denied asks literal (by simpa using denied)) _ rfl
  · exact serveHTTP_allowed asks literal numeric

end

end Infrastructure.Lbproxy
