import Infrastructure.Manager.HostPaths
import Infrastructure.State.Netfilter

/-! The commands by which agents set up their host, and the network namespace that each VPC has
there for its load balancers. An error stands for the output of the command too. -/

namespace Infrastructure.Manager

open Concurrency State Net.Iptables Text

def run (cmd : List String) : Prog (Except Error String) := Program.perform (Op.host cmd)

def iptables (words : List String) : Prog (Except Error String) := run ("iptables" :: words)

def andThen {α β : Type} (first : Prog (Except Error α)) (next : α → Prog (Except Error β)) :
    Prog (Except Error β) := do
  match ← first with
  | .error err => return .error err
  | .ok val => next val

/-- `%v` on a slice of strings. -/
def listed (words : List String) : String := "[" ++ " ".intercalate words ++ "]"

/-- Adds the rule at the end of its chain unless it is there. -/
def iptablesEnsure (table : String) (rule : List String) : Prog (Except Error Unit) := do
  match ← iptables ("-t" :: table :: "-C" :: rule) with
  | .ok _ => return .ok ()
  | .error _ =>
    match ← iptables ("-t" :: table :: "-A" :: rule) with
    | .error err =>
      return .error (.wrap ("manager: iptables " ++ listed ("-t" :: table :: "-A" :: rule)) err)
    | .ok _ => return .ok ()

def vniFor (uid : String) : Nat :=
  let vni := fnv32a (bytesOf uid) % 2 ^ 24
  if vni ≠ 0 then vni else 1

def vrfTable (uid : String) : Nat := 0x01000000 ||| vniFor uid

def vrfMark (uid : String) : Nat := vrfTable uid

def vrfTableArg (uid : String) : String := toString (vrfTable uid)

def hex32 (val : Nat) : String := "0x" ++ String.ofList (Nat.toDigits 16 val)

def overlayMTU : Nat := 1450

def lbAnycastIface : String := "la0"
def lbPublicIface : String := "pub0"
def lbPublicHost : String := "169.254.0.1"
def lbPublicNS : String := "169.254.0.2"

def lbNamespaceName (uid : String) : String := ifaceName "lb-" uid

def lbNamespaceUnit (uid : String) : String := "infra-netns@" ++ lbNamespaceName uid ++ ".service"

def lbPublicPeerName (uid : String) : String := ifaceName "lp-" uid

/-- The main process of the unit, zero if there is none. -/
def mainPID (unit : String) : Prog (Except Error Int) := do
  match ← run ["systemctl", "show", "--property=MainPID", "--value", unit] with
  | .error err => return .error (.wrap ("manager: show " ++ unit) err)
  | .ok out => return .ok ((atoi (trimSpace out.toList)).getD 0)

/-- The process that holds the namespace, whose unit is started at most once. -/
def pid (uid : String) (start : Bool) : Prog (Except Error Int) :=
  andThen (mainPID (lbNamespaceUnit uid)) fun found =>
    if 0 < found ∨ !start then return .ok found
    else do
      match ← run ["systemctl", "start", lbNamespaceUnit uid] with
      | .error err => return .error (.wrap ("manager: start " ++ lbNamespaceUnit uid) err)
      | .ok _ =>
        andThen (mainPID (lbNamespaceUnit uid)) fun found =>
          if 0 < found then return .ok found
          else return .error (.new ("manager: " ++ lbNamespaceUnit uid ++
            " started without a main process"))

/-- The command inside the namespace that the process holds. -/
def inside (pid : Int) (cmd : List String) : List String :=
  "nsenter" :: ("--net=/proc/" ++ toString pid ++ "/ns/net") :: "--" :: cmd

def linkExists (name : String) : Prog (Except Error Bool) := do
  match ← run ["ip", "link", "show", name] with
  | .ok _ => return .ok true
  | .error err =>
    if "does not exist".toList <:+: err.text.toList ∨
      "Cannot find device".toList <:+: err.text.toList then
      return .ok false
    else return .error (.wrap ("manager: show link " ++ quoted name) err)

def ensureLeg (pid : Int) (host inner : String) : Prog (Except Error Unit) :=
  andThen (linkExists host) fun there =>
    if there then return .ok ()
    else do
      match ← run ["ip", "link", "add", host, "mtu", toString overlayMTU, "type", "veth", "peer",
        "name", inner, "mtu", toString overlayMTU, "netns", toString pid] with
      | .error err => return .error (.wrap ("manager: add leg " ++ host ++ "/" ++ inner) err)
      | .ok _ => return .ok ()

/-- Runs the steps where `enter` takes them, until one fails. -/
def runSteps (enter : List String → List String) (what : String) : List (List String) →
    Prog (Except Error Unit)
  | [] => return .ok ()
  | step :: steps => do
      match ← run (enter step) with
      | .error err => return .error (.wrap ("manager: " ++ what ++ " " ++ listed step) err)
      | .ok _ => runSteps enter what steps

def ensureVIP (pid : Int) (vpcId bridge vip : String) : Prog (Except Error Unit) :=
  andThen (runSteps id "vip route"
    [["sysctl", "-w", "net.ipv4.conf." ++ bridge ++ ".send_redirects=0"],
      ["ip", "route", "replace", vip ++ "/32", "dev", bridge, "table",
        vrfTableArg vpcId]]) fun _ => do
    match ← run (inside pid ["ip", "addr", "replace", vip ++ "/32", "dev", lbAnycastIface]) with
    | .error err => return .error (.wrap ("manager: add vip " ++ vip) err)
    | .ok _ => return .ok ()

def ensureHostLeg (pid : Int) (vpcId : String) : Prog (Except Error Unit) :=
  let host := lbPublicPeerName vpcId
  andThen (ensureLeg pid host lbPublicIface) fun _ =>
    andThen (runSteps id "host leg"
      [["ip", "addr", "replace", lbPublicHost ++ "/32", "dev", host],
        ["ip", "link", "set", host, "up"]]) fun _ =>
      runSteps (inside pid) "host leg"
        [["ip", "addr", "replace", lbPublicNS ++ "/32", "dev", lbPublicIface],
          ["ip", "link", "set", lbPublicIface, "up"],
          ["sysctl", "-w", "net.ipv4.conf." ++ lbPublicIface ++ ".rp_filter=0"],
          ["ip", "route", "replace", "default", "via", lbPublicHost, "dev", lbPublicIface,
            "onlink"]]

theorem isSpace_hexEncode {data : Bytes} {char : Char}
    (mem : char ∈ (Crypto.hexEncode data).toList) :
    isSpace char = false := by
  have digits : ∀ val < 16, isSpace (Crypto.hexDigit val) = false := by decide
  obtain ⟨val, small, rfl⟩ := Crypto.mem_hexEncode mem
  exact digits val small

section

variable {α β : Type} {first : Prog (Except Error α)} {next : α → Prog (Except Error β)}

theorem uses_andThen {allowed : Op → Prop} (uses : first.Uses allowed fun _ => True)
    (rest : ∀ val, (next val).Uses allowed fun _ => True) :
    (andThen first next).Uses allowed fun _ => True := by
  apply uses.bind
  intro reply _
  cases reply with
  | error err => trivial
  | ok val => exact rest val

theorem keeps_andThen {State : Type} {machine : Machine Op Op.Reply State} {inv : State → Prop}
    {mid : Except Error α → State → Prop} {post : Except Error β → State → Prop} {pre : State}
    (keeps : first.Keeps machine inv mid pre)
    (bad : ∀ err after, mid (.error err) after → post (.error err) after)
    (rest : ∀ val after, mid (.ok val) after → (next val).Keeps machine inv post after) :
    (andThen first next).Keeps machine inv post pre := by
  apply keeps.bind
  intro reply after hit
  cases reply with
  | error err => exact bad err after hit
  | ok val => exact rest val after hit

theorem uses_run {ok : Op → Prop} {cmd : List String} {next : Except Error String → Prog β}
    (uses : ok (.host cmd)) (rest : ∀ reply, (next reply).Uses ok fun _ => True) :
    (run cmd >>= next).Uses ok fun _ => True :=
  .perform uses rest

end

/-! The namespace is set up without touching the packet filter. -/

theorem mainPID_apart (unit : String) :
    (mainPID unit).Uses (fun op => op.errand = true) fun _ => True := by
  refine uses_run rfl ?_
  intro reply
  cases reply <;> trivial

theorem pid_apart (uid : String) (start : Bool) :
    (pid uid start).Uses (fun op => op.errand = true) fun _ => True := by
  apply uses_andThen (mainPID_apart _)
  intro got
  split
  · trivial
  · refine uses_run rfl ?_
    intro reply
    cases reply with
    | error err => trivial
    | ok _ =>
      apply uses_andThen (mainPID_apart _)
      intro got
      split <;> trivial

theorem runSteps_apart {enter : List String → List String} (what : String)
    {steps : List (List String)} (each : ∀ step ∈ steps, (Op.host (enter step)).errand = true) :
    (runSteps enter what steps).Uses (fun op => op.errand = true) fun _ => True := by
  induction steps with
  | nil => trivial
  | cons step steps ih =>
    rw [List.forall_mem_cons] at each
    refine uses_run each.1 ?_
    intro reply
    cases reply with
    | error err => trivial
    | ok _ => exact ih each.2

theorem ensureVIP_apart (pid : Int) (vpcId bridge vip : String) :
    (ensureVIP pid vpcId bridge vip).Uses (fun op => op.errand = true) fun _ => True := by
  apply uses_andThen (runSteps_apart _ (by simp [Op.errand]))
  intro _
  refine uses_run rfl ?_
  intro reply
  cases reply <;> trivial

theorem ensureLeg_apart (pid : Int) (host inner : String) :
    (ensureLeg pid host inner).Uses (fun op => op.errand = true) fun _ => True := by
  apply uses_andThen
  · refine uses_run rfl ?_
    intro reply
    cases reply with
    | error err => dsimp only; split <;> trivial
    | ok _ => trivial
  · intro there
    split
    · trivial
    · refine uses_run rfl ?_
      intro reply
      cases reply <;> trivial

theorem ensureHostLeg_apart (pid : Int) (vpcId : String) :
    (ensureHostLeg pid vpcId).Uses (fun op => op.errand = true) fun _ => True := by
  apply uses_andThen (ensureLeg_apart _ _ _)
  intro _
  apply uses_andThen (runSteps_apart _ (by simp [Op.errand]))
  intro _
  exact runSteps_apart _ (by simp [Op.errand, inside])

theorem iptablesEnsure_about (table chain : String) (spec : List String) :
    (iptablesEnsure table (chain :: spec)).Uses (Op.About table chain) fun _ => True := by
  refine uses_run
    (chainCommand rfl (show commandOf _ = some (.check chain spec) from rfl) fun _ _ => rfl) ?_
  intro reply
  cases reply with
  | ok _ => trivial
  | error _ =>
    refine uses_run (chainCommand rfl (show commandOf _ = some (.append chain spec) from rfl)
      fun _ ne => beq_false_of_ne ne.symm) ?_
    intro reply
    cases reply <;> trivial

end Infrastructure.Manager
