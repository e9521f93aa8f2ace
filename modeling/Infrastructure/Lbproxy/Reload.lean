import Mathlib.Data.List.Nodup
import Infrastructure.Lbproxy.Egress
import Infrastructure.Lbproxy.Pool

/-! How the proxy takes a new configuration: as a change of what runs. -/

namespace Infrastructure.Lbproxy.Reload

open List Option Function

structure Listener extends Config.Listener where
  tlsMode : String := ""
  deriving DecidableEq, Repr

structure TargetGroup extends Config.TargetGroup where
  checkPath : String := ""
  checkPort : Nat := 0
  backendCAPEM : String := ""
  serverName : String := ""
  deriving DecidableEq, Repr

structure Settings where
  listeners : List Listener := []
  targetGroups : List TargetGroup := []
  deriving DecidableEq, Repr

/-- A listener that runs: what it was bound for, what it serves, and its socket if it has one. -/
structure Running where
  key : String
  cfg : Listener
  socket : Option Nat
  deriving DecidableEq, Repr

/-- The states of targets and the parameters of their checkers are under the keys of the targets. -/
structure Proxy where
  cfg : Settings := {}
  generation : Nat := 0
  lastError : String := ""
  states : String → Option TargetState := fun _ => none
  checkers : String → Option String := fun _ => none
  listeners : String → Option Running := fun _ => none

/-- What the proxy is given: how an address and a port are written, and the socket that binding a
listener yields. -/
structure Host where
  joinHostPort : String → String → String
  bind : (generation : Nat) → Listener → Option Nat

def bindKey (l : Listener) : String :=
  l.address ++ "|" ++ toString l.port ++ "|" ++ l.protocol ++ "|" ++ l.tlsMode

section

variable (host : Host)

def stateKey (group : String) (t : Config.Target) : String :=
  group ++ "|" ++ host.joinHostPort t.address (toString t.port)

/-- The keys of all targets, each with the parameters of its checker. -/
def Settings.targets (cfg : Settings) : List (String × String) :=
  cfg.targetGroups.flatMap fun gc => gc.targets.map fun t =>
    let key := stateKey host gc.name t
    let hc := gc.healthCheck
    (key, key ++ "|" ++ hc.protocol ++ "|" ++ gc.checkPath ++ "|" ++ gc.backendCAPEM ++ "|" ++
      gc.serverName ++ "|" ++
      toString gc.checkPort ++ "|" ++ toString hc.intervalSeconds ++ "|" ++
        toString hc.timeoutSeconds ++ "|" ++
      toString hc.healthyThreshold ++ "|" ++ toString hc.unhealthyThreshold)

def Settings.keys (cfg : Settings) : List String := (cfg.targets host).map Prod.fst

/-- A target that has a state keeps it. -/
def addState (states : String → Option TargetState) (key : String) : String → Option TargetState :=
  if (states key).isSome then states else Function.update states key (some {})

/-- A checker goes on while its check is the same. -/
def ensureChecker (checkers : String → Option String) (target : String × String) : String →
    Option String :=
  if checkers target.1 = some target.2 then checkers
  else Function.update checkers target.1 (some target.2)

/-- The listener that runs for a configured one, given the one that ran: it is bound anew for
another key. -/
def refresh (generation : Nat) (before : Option Running) (lc : Listener) : Running :=
  let new := ⟨bindKey lc, lc, host.bind generation lc⟩
  match before with
  | some cur => if cur.key = bindKey lc then { cur with cfg := lc } else new
  | none => new

def runListener (generation : Nat) (listeners : String → Option Running) (lc : Listener) : String →
    Option Running :=
  Function.update listeners lc.name (some (refresh host generation (listeners lc.name) lc))

def Proxy.apply (p : Proxy) (cfg : Settings) : Proxy :=
  let keep := cfg.keys host
  let states := keep.foldl addState p.states
  let checkers := (cfg.targets host).foldl ensureChecker p.checkers
  let listeners := cfg.listeners.foldl (runListener host p.generation) p.listeners
  { cfg := cfg, generation := p.generation + 1, lastError := ""
    states := fun key => if (checkers key).isSome && !keep.contains key then none else states key
    checkers := fun key => if keep.contains key then checkers key else none
    listeners := fun name => if (cfg.listeners.map (·.name)).contains name then
      listeners name else none }

variable {host} {p : Proxy} {cfg : Settings}

theorem foldl_addState (keys : List String) (states : String → Option TargetState) (key : String) :
    keys.foldl addState states key = (states key).or (if key ∈ keys then some {} else none) := by
  induction keys generalizing states with
  | nil => simp
  | cons head keys ih =>
    rw [foldl_cons, ih, addState]
    by_cases eq : key = head
    · subst eq
      cases had : states key <;> simp [had]
    · split <;> simp [eq]

theorem foldl_ensureChecker (targets : List (String × String)) (checkers : String → Option String)
    (key : String) :
    (targets.foldl ensureChecker checkers key).isSome ↔ (checkers key).isSome ∨ key ∈ targets.map
    Prod.fst := by
  induction targets generalizing checkers with
  | nil => simp
  | cons head targets ih =>
    rw [foldl_cons, ih, ensureChecker]
    by_cases eq : key = head.1
    · subst eq
      split <;> simp [*]
    · split <;> simp [eq]

theorem foldl_runListener (gen : Nat) {lcs : List Listener} (nodup : (lcs.map (·.name)).Nodup)
    (pre : String → Option Running) {lc : Listener} (mem : lc ∈ lcs) :
    lcs.foldl (runListener host gen) pre lc.name = some (refresh host gen (pre lc.name) lc) := by
  have others (lcs : List Listener) (name : String) (gone : name ∉ lcs.map (·.name))
      (pre : String → Option Running) :
      lcs.foldl (runListener host gen) pre name = pre name := by
    induction lcs generalizing pre with
    | nil => rfl
    | cons head lcs ih =>
      rw [map_cons, mem_cons, not_or] at gone
      rw [foldl_cons, ih gone.2, runListener, update_of_ne gone.1]
  induction lcs generalizing pre with
  | nil => cases mem
  | cons head lcs ih =>
    obtain ⟨apart, nodup⟩ := nodup_cons.mp nodup
    rw [foldl_cons]
    obtain rfl | later := mem_cons.mp mem
    · rw [others _ _ apart, runListener, update_self]
    · have ne : lc.name ≠ head.name := fun eq => apart (mem_map.mpr ⟨lc, later, eq⟩)
      rw [ih nodup _ later, runListener, update_of_ne ne]

theorem refresh_spec (gen : Nat) (pre : Option Running) (lc : Listener) :
    (refresh host gen pre lc).key = bindKey lc ∧ (refresh host gen pre lc).cfg = lc := by
  unfold refresh
  cases pre with
  | none => exact ⟨rfl, rfl⟩
  | some cur => dsimp only; split <;> simp [*]

/-- What runs is what the configuration that was applied last asks for. -/
structure Faithful (host : Host) (p : Proxy) : Prop where
  states : ∀ key, (p.states key).isSome ↔ key ∈ p.cfg.keys host
  checkers : ∀ key, (p.checkers key).isSome ↔ key ∈ p.cfg.keys host
  bound : ∀ name, ∀ r ∈ p.listeners name, r.key = bindKey r.cfg

/-- A listener runs under a name just when one of this name is configured. -/
theorem apply_listeners (nodup : (cfg.listeners.map (·.name)).Nodup) (name : String) (r : Running) :
    r ∈ (p.apply host cfg).listeners name ↔
      ∃ lc ∈ cfg.listeners, lc.name = name ∧
        r = refresh host p.generation (p.listeners name) lc := by
  constructor
  · intro runs
    simp only [Proxy.apply, contains_iff_mem, mem_def] at runs
    split at runs
    · next asked =>
      obtain ⟨lc, mem, rfl⟩ := mem_map.mp asked
      rw [foldl_runListener _ nodup _ mem] at runs
      exact ⟨lc, mem, rfl, (Option.some.inj runs).symm⟩
    · cases runs
  · rintro ⟨lc, mem, rfl, rfl⟩
    simp only [Proxy.apply, contains_iff_mem, mem_map_of_mem mem, if_true]
    exact foldl_runListener _ nodup _ mem

theorem Faithful.apply (faithful : Faithful host p) (nodup : (cfg.listeners.map (·.name)).Nodup) :
    Faithful host (p.apply host cfg) where
  states key := by
    have ok := foldl_ensureChecker (cfg.targets host) p.checkers key
    rw [faithful.checkers, ← faithful.states, ← Settings.keys] at ok
    simp only [Proxy.apply, foldl_addState]
    by_cases kept : key ∈ cfg.keys host
    · simp [kept]
    · cases had : p.states key <;> simp_all
  checkers key := by
    have ok := foldl_ensureChecker (cfg.targets host) p.checkers key
    simp only [Proxy.apply]
    split <;> simp_all [Settings.keys]
  bound name r runs := by
    obtain ⟨lc, -, -, rfl⟩ := (apply_listeners nodup name r).mp runs
    rw [(refresh_spec _ _ lc).1, (refresh_spec _ _ lc).2]

/-- The states of a proxy to which configurations are applied, while checks and traffic change the
health of targets and listeners without a socket get one. -/
inductive Reached (host : Host) : Proxy → Prop
  | start : Reached host {}
  | apply {p : Proxy} (reached : Reached host p) (cfg : Settings)
      (nodup : (cfg.listeners.map (·.name)).Nodup) : Reached host (p.apply host cfg)
  | observe {p : Proxy} (reached : Reached host p) (key : String) (present : (p.states key).isSome)
      (state : TargetState) :
        Reached host { p with states := Function.update p.states key (some state) }
  | retryBind {p : Proxy} (reached : Reached host p) (r : Running) (socket : Nat)
      (runs : p.listeners r.cfg.name = some r) (unbound : r.socket = none) : Reached host
        { p with listeners := Function.update p.listeners r.cfg.name (some {
          r with socket := some socket }) }

theorem Reached.faithful (hit : Reached host p) : Faithful host p := by
  induction hit with
  | start =>
    exact ⟨by simp [Settings.keys, Settings.targets], by simp [Settings.keys, Settings.targets],
      nofun⟩
  | apply _ _ nodup ih => exact ih.apply nodup
  | observe _ key present _ ih =>
    refine ⟨fun other => ?_, ih.checkers, ih.bound⟩
    rw [← ih.states]
    by_cases eq : other = key <;> simp_all
  | retryBind _ r socket runs _ ih =>
    refine ⟨ih.states, ih.checkers, fun name got later => ?_⟩
    by_cases eq : name = r.cfg.name
    · subst eq
      simp only [update_self, mem_some_iff] at later
      exact later ▸ ih.bound _ r runs
    · simp only [update_of_ne eq] at later
      exact ih.bound name got later

end

/-- After a configuration is applied its listeners run and no others, the states and checkers are
those of its targets, a listener bound for the same keeps its socket and any other has the one that
binding it yields, and a target that stays keeps its health. -/
theorem apply_exact (host : Host) (p : Proxy)
    (reached : Reached host p) (cfg : Settings) (nodup : (cfg.listeners.map (·.name)).Nodup) :
    let after := p.apply host cfg
    (∀ name lc, (∃ r ∈ after.listeners name, r.cfg = lc) ↔ lc ∈ cfg.listeners ∧ lc.name = name) ∧
    (∀ key, ((after.states key).isSome ↔ key ∈ cfg.keys host) ∧
      ((after.checkers key).isSome ↔ key ∈ cfg.keys host)) ∧
    (∀ lc ∈ cfg.listeners, ∀ old ∈ p.listeners lc.name, bindKey old.cfg = bindKey lc →
      after.listeners lc.name = some { old with cfg := lc }) ∧
    (∀ lc ∈ cfg.listeners, (∀ old ∈ p.listeners lc.name, bindKey old.cfg ≠ bindKey lc) →
      after.listeners lc.name = some ⟨bindKey lc, lc, host.bind p.generation lc⟩) ∧
    ∀ key ∈ p.cfg.keys host, key ∈ cfg.keys host → after.states key = p.states key := by
  have before := reached.faithful
  have faithful : Faithful host (p.apply host cfg) := before.apply nodup
  refine ⟨fun name lc => ?_, fun key => ⟨faithful.states key, faithful.checkers key⟩,
    fun lc mem old ran same => ?_, fun lc mem differs => ?_, fun key was is => ?_⟩
  · simp only [apply_listeners nodup]
    constructor
    · rintro ⟨_, ⟨other, mem, named, rfl⟩, rfl⟩
      rw [(refresh_spec _ _ other).2]
      exact ⟨mem, named⟩
    · rintro ⟨mem, named⟩
      exact ⟨_, ⟨lc, mem, named, rfl⟩, (refresh_spec _ _ lc).2⟩
  · refine (apply_listeners nodup lc.name _).mpr ⟨lc, mem, rfl, ?_⟩
    simp [refresh, mem_def.mp ran, before.bound _ old ran, same]
  · refine (apply_listeners nodup lc.name _).mpr ⟨lc, mem, rfl, ?_⟩
    cases ran : p.listeners lc.name with
    | none => rfl
    | some old =>
      have other : old.key ≠ bindKey lc := before.bound _ old ran ▸ differs old ran
      simp [refresh, other]
  · obtain ⟨state, had⟩ := isSome_iff_exists.mp ((before.states key).mpr was)
    simp [Proxy.apply, foldl_addState, is, had]

/-- A host that numbers the sockets by the configurations before. -/
def numbering : Host := ⟨(· ++ ":" ++ ·), fun generation _ => some generation⟩

def listening (name : String) (port : Nat) (group : String) : Listener :=
  { name, address := "10.0.0.9", port, protocol := "http", defaultTargetGroup := group }

def oneTarget : TargetGroup :=
  { name := "web", protocol := "http", healthCheck := ⟨"http", 5, 2, 2, 3⟩,
    targets := [⟨"a", "10.0.0.7", 8080, 1⟩] }

/-- A proxy with one listener and one target, which checks have found unhealthy. -/
def observed : Proxy :=
  let first := Proxy.apply numbering {} ⟨[listening "front" 80 ""], [oneTarget]⟩
  { first with states := update first.states "web|10.0.0.7:8080" (some { health := .unhealthy }) }

/-- A listener that is served differently keeps its socket, a new one is bound,
and the target is still unhealthy. -/
theorem apply_exact_second :
    let after := (observed.apply numbering
      ⟨[listening "front" 80 "web", listening "back" 81 "web"], [oneTarget]⟩)
    after.listeners "front" = some ⟨"10.0.0.9|80|http|", listening "front" 80 "web", some 0⟩ ∧
    after.listeners "back" = some ⟨"10.0.0.9|81|http|", listening "back" 81 "web", some 1⟩ ∧
    after.states "web|10.0.0.7:8080" = some { health := .unhealthy } := by
  have reached : Reached numbering observed :=
    .observe (.apply .start _ (by decide)) _ (by decide) _
  obtain ⟨-, -, kept, bound, health⟩ := apply_exact numbering observed reached
    ⟨[listening "front" 80 "web", listening "back" 81 "web"], [oneTarget]⟩ (by decide)
  refine ⟨?_, ?_, ?_⟩
  · exact kept (listening "front" 80 "web") (.head _)
      ⟨"10.0.0.9|80|http|", listening "front" 80 "", some 0⟩ (by decide) (by decide)
  · exact bound (listening "back" 81 "web") (.tail _ (.head _)) (by decide)
  · exact health _ (by decide) (by decide)

end Infrastructure.Lbproxy.Reload
