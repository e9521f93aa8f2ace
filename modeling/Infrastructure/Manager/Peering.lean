import Infrastructure.Manager.Commands
import Infrastructure.Net.Links
import Infrastructure.State.Gear

/-! The pair of interfaces that joins the bridges of two peered VPCs. -/

namespace Infrastructure.Manager

open Concurrency State Net Option Program AList

def peeringNames (uid : String) : String × String :=
  let hash := Crypto.hexEncode (Crypto.wordBytes (fnv32a (bytesOf uid)))
  ("pa-" ++ hash, "pb-" ++ hash)

/-- What iproute2 says of a device that is not there. -/
def saysAbsent (err : Error) : Prop :=
  "does not exist".toList <:+: err.text.toList ∨ "Cannot find device".toList <:+: err.text.toList

instance (err : Error) : Decidable (saysAbsent err) := inferInstanceAs (Decidable (_ ∨ _))

namespace ExecPeering

/-- Creates and attaches the pair if its first end is absent. -/
def ensureLink (veth1 veth2 bridge1 bridge2 : String) : Prog (Except Error Unit) := do
  match ← run ["ip", "link", "show", veth1] with
  | .ok _ => return .ok ()
  | .error err =>
    if saysAbsent err then
      runSteps ("ip" :: ·) "peering link"
        [["link", "add", veth1, "type", "veth", "peer", "name", veth2],
          ["link", "set", veth1, "master", bridge1], ["link", "set", veth1, "up"],
          ["link", "set", veth2, "master", bridge2], ["link", "set", veth2, "up"]]
    else return .error (.wrap ("manager: link exists " ++ quoted veth1) err)

/-- A command that fails may have taken effect; only a device that is absent is said to be. -/
def links : Gear Devices where
  perform := Devices.perform
  fails s words err s' := (s' = s ∨ ∃ text, s.perform words = some (text, s')) ∧
    ∀ name, words = ["ip", "link", "show", name] → saysAbsent err → s.lookup name = none

/-- The pair is in place: both ends are up and attached to their bridges. -/
def Joined (veth1 veth2 bridge1 bridge2 : String) (devices : Devices) : Prop :=
  ∃ first second, devices.lookup veth1 = some first ∧ devices.lookup veth2 = some second ∧
    first.master = some bridge1 ∧ first.up = true ∧ second.master = some bridge2 ∧ second.up = true

def Whole (veth1 veth2 bridge1 bridge2 : String) (devices : Devices) : Prop :=
  devices.lookup veth1 = none ∨ Joined veth1 veth2 bridge1 bridge2 devices

/-- No failure leaves a pair behind: of creating it, attaching it or bringing it up. -/
def cleanly (s : Devices) (words : List String) (s' : Devices) : Prop :=
  s' = s ∧ words.take 3 ≠ ["ip", "link", "set"]

section

variable {veth1 veth2 bridge1 bridge2 : String} {s s' : Devices} {text : String}

theorem adjusted {name : String} {change : Device → Device}
    (done : s.adjust name change = some (text, s')) :
    ∃ device, s.lookup name = some device ∧ s' = s.insert name (change device) := by
  obtain ⟨device, got, eq⟩ := map_eq_some_iff.mp done
  cases eq
  exact ⟨device, got, rfl⟩

theorem mastered {name bridge : String}
    (done : s.perform ["ip", "link", "set", name, "master", bridge] = some (text, s')) :
    ∃ device, s.lookup name = some device ∧
      s' = s.insert name { device with master := some bridge } := by
  change (if (s.lookup bridge).isSome then
    s.adjust name fun device => { device with master := some bridge }
    else none) = _ at done
  split at done
  · exact adjusted done
  · cases done

theorem added
    (done : s.perform ["ip", "link", "add", veth1, "type", "veth", "peer", "name", veth2] =
      some (text, s')) :
    s' = (s.insert veth1 ⟨.veth veth2, none, false, []⟩).insert veth2 ⟨.veth veth1, none, false,
      []⟩ := by
  change (if _ then some _ else none) = _ at done
  split at done
  · cases done
    rfl
  · cases done

theorem keeps_set {α : Type} {words : List String} {next : Except Error String → Prog α}
    {post : α → Devices → Prop}
    (served : ∀ text s', s.perform ("ip" :: "link" :: "set" :: words) = some (text, s') →
      (next (.ok text)).Keeps (geared (links.sparing cleanly)) (fun _ => True) post s') :
    (call (.host ("ip" :: "link" :: "set" :: words)) next).Keeps (geared (links.sparing cleanly))
      (fun _ => True) post s := by
  apply keeps_command served
  rintro err s' ⟨-, -, other⟩
  exact absurd rfl other

theorem ensureLink_joins (apart : veth1 ≠ veth2) (kept : Whole veth1 veth2 bridge1 bridge2 s) :
    (ensureLink veth1 veth2 bridge1 bridge2).Keeps (geared (links.sparing cleanly)) (fun _ => True)
      (fun reply s' => (reply = .ok () → Joined veth1 veth2 bridge1 bridge2 s') ∧
        Whole veth1 veth2 bridge1 bridge2 s') s := by
  apply keeps_command
  · intro text s' done
    obtain ⟨device, got, eq⟩ := map_eq_some_iff.mp done
    cases eq
    have joined := kept.resolve_left (by simp [got])
    exact ⟨fun _ => joined, .inr joined⟩
  rintro err _ ⟨⟨-, told⟩, rfl, -⟩
  change (if saysAbsent err then _ else _ : Prog _).Keeps _ _ _ _
  split
  · next gone =>
    have missing := told veth1 rfl gone
    apply keeps_command
    · intro _ pair done
      rw [added done]
      apply keeps_set
      intro _ _ done
      obtain ⟨first, got, rfl⟩ := mastered done
      apply keeps_set
      intro _ _ done
      obtain ⟨attached, found', rfl⟩ := adjusted done
      apply keeps_set
      intro _ _ done
      obtain ⟨snd, has, rfl⟩ := mastered done
      apply keeps_set
      intro _ last done
      obtain ⟨joined, present', final⟩ := adjusted done
      have complete : Joined veth1 veth2 bridge1 bridge2 last := by
        simp only [lookup_insert, lookup_insert_ne apart, lookup_insert_ne apart.symm,
          Option.some.injEq]
          at got found' has present'
        subst got found' has present'
        simp [Joined, final, lookup_insert_ne apart]
      exact ⟨fun _ => complete, .inr complete⟩
    · rintro _ _ ⟨-, rfl, -⟩
      exact ⟨by simp, .inl missing⟩
  · exact ⟨by simp, kept⟩

end

theorem peeringNames_ne (uid : String) : (peeringNames uid).1 ≠ (peeringNames uid).2 := by
  intro eq
  have lists := congrArg String.toList eq
  simp [peeringNames, String.toList_append] at lists

/-- When a call reports success the pair is in place, unless an earlier one left it half made. -/
theorem peering_link_complete (uid bridge1 bridge2 : String) (start s s' : Devices)
    (fresh : start.lookup (peeringNames uid).1 = none)
    (reached : Calls (geared (links.sparing cleanly))
      (fun _ : Unit => ensureLink (peeringNames uid).1 (peeringNames uid).2 bridge1 bridge2)
        start s)
    (succeeds : (ensureLink (peeringNames uid).1 (peeringNames uid).2 bridge1 bridge2).Runs
      (geared (links.sparing cleanly)) s (.ret (.ok ())) s') :
    Joined (peeringNames uid).1 (peeringNames uid).2 bridge1 bridge2 s' := by
  have kept : Whole (peeringNames uid).1 (peeringNames uid).2 bridge1 bridge2 s := by
    refine reached.invariant (.inl fresh) ?_
    intro _ state holds
    exact (ensureLink_joins (peeringNames_ne uid) holds).mono fun _ _ both => both.2
  exact (succeeds.ends (ensureLink_joins (peeringNames_ne uid) kept)).1 rfl

def twoBridges : Devices :=
  List.toAList [⟨"br-a", ⟨.bridge, none, true, []⟩⟩, ⟨"br-b", ⟨.bridge, none, true, []⟩⟩]

def linkReport (s : Devices) (words : List String) : Error :=
  .new (if s.perform words = none then "Device does not exist." else "interrupted")

theorem linkReport_fails (s : Devices) (words : List String) :
    links.fails s words (linkReport s words) s := by
  refine ⟨.inl rfl, ?_⟩
  rintro name rfl gone
  by_contra has
  have shown : s.perform ["ip", "link", "show", name] ≠ none := by simpa [Devices.perform] using has
  rw [linkReport, if_neg shown] at gone
  exact absurd gone (by decide)

def sampleLink : Prog (Except Error Unit) :=
  ensureLink (peeringNames "p-1").1 (peeringNames "p-1").2 "br-a" "br-b"

/-- The host after a call in which bringing up the second end fails. -/
def halfLinked : Devices :=
  sampleLink.outcome
    (gearAnswer Devices.perform linkReport
      (· == ["ip", "link", "set", (peeringNames "p-1").2, "up"])) twoBridges

/-- The next call finds the pair and reports success. -/
theorem half_linked_pair_reported :
    Calls (geared links) (fun _ : Unit => sampleLink) twoBridges halfLinked ∧
      sampleLink.Runs (geared links) halfLinked (.ret (.ok ())) halfLinked ∧
      ¬Joined (peeringNames "p-1").1 (peeringNames "p-1").2 "br-a" "br-b" halfLinked := by
  have answers (refused : List String → Bool) :=
    @gearAnswer_exec _ links linkReport refused (fun _ => true)
    fun s words _ => linkReport_fails s words
  refine ⟨.call .start () (Runs.checked (answers _) (by decide +kernel)), ?_, ?_⟩
  · exact Runs.checked (answers fun _ => false) (by decide +kernel)
  · rintro ⟨first, second, -, found, -, -, -, up⟩
    have down : (halfLinked.lookup (peeringNames "p-1").2).map Device.up = some false := by
      decide +kernel
    rw [found, map_some, up] at down
    cases down

theorem peering_link_complete_first :
    Joined (peeringNames "p-1").1 (peeringNames "p-1").2 "br-a" "br-b"
      (sampleLink.outcome (gearAnswer Devices.perform linkReport fun _ => false) twoBridges) := by
  refine peering_link_complete "p-1" "br-a" "br-b" twoBridges
    twoBridges _ (by decide +kernel) .start ?_
  have answers := @gearAnswer_exec _ (links.sparing cleanly) linkReport (fun _ => false)
    (fun words => words.take 3 != ["ip", "link", "set"])
    fun s words may => ⟨linkReport_fails s words, rfl, by simpa using may⟩
  exact Runs.checked answers (by decide +kernel)

end ExecPeering

end Infrastructure.Manager
