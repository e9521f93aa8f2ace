import Infrastructure.Manager.HostNames
import Infrastructure.State.Gear

/-! How the host provisions a disk: a backing file with a filesystem, within a LUKS mapping when
there is a passphrase. -/

namespace Infrastructure.Manager

open Concurrency State Option Program Function

namespace ExecDiskBackend

def imagePath (dir uid : String) : String :=
  .ofList (Text.joinText [dir.toList, (uid ++ ".img").toList])

def mapperPath (uid : String) : String := "/dev/mapper/" ++ mapperName uid

/-- Runs a step and titles its failure. -/
def step (title : String) (words : List String) : Prog (Except Error Unit) := do
  match ← run words with
  | .error err => return .error (.wrap title err)
  | .ok _ => return .ok ()

def truncate (path : String) (size : Int) : Prog (Except Error Unit) :=
  andThen (step "manager: create disk image" ["open", path]) fun _ =>
    step "manager: size disk image" ["truncate", path, toString size]

/-- Formats the file; a file that could not be formatted is removed. -/
def format (title img : String) (words : List String) : Prog (Except Error Unit) := do
  match ← run words with
  | .error err =>
    let _ ← run ["remove", img]
    return .error (.wrap title err)
  | .ok _ => return .ok ()

def encrypt (uid img keyFile : String) : Prog (Except Error String) :=
  andThen (format ("manager: luksFormat " ++ quoted uid) img
    ["cryptsetup", "luksFormat", "--batch-mode", "--key-file", keyFile, img]) fun _ =>
  andThen (step ("manager: luks open " ++ quoted uid)
    ["cryptsetup", "open", "--type", "luks", "--key-file", keyFile, img, mapperName uid]) fun _ =>
  andThen (step ("manager: mkfs " ++ quoted uid) ["mkfs.ext4", "-q", mapperPath uid]) fun _ =>
    return .ok (mapperPath uid)

/-- Once the backing file exists the call does nothing. -/
def ensureDisk (dir uid : String) (sizeMb : Int) (passphrase : Bytes) :
    Prog (Except Error String) := do
  let img := imagePath dir uid
  match ← run ["stat", img] with
  | .ok _ => return .ok (if passphrase = [] then img else mapperPath uid)
  | .error _ =>
    andThen (step "manager: disk dir" ["mkdir", dir]) fun _ =>
    andThen (truncate img (sizeMb * 1024 * 1024)) fun _ =>
      if passphrase = [] then
        andThen (format ("manager: mkfs " ++ quoted uid) img ["mkfs.ext4", "-q", "-F", img])
          fun _ => return .ok img
      else
        andThen (step "manager: disk keyfile" ["write", img ++ ".key", Crypto.hexEncode passphrase])
          fun _ => do
          let path ← encrypt uid img (img ++ ".key")
          let _ ← run ["remove", img ++ ".key"]
          return path

/-- What a file holds; the last is a LUKS container, with or without a filesystem in it. -/
inductive Content where
  | raw
  | ext4
  | luks (formatted : Bool)
  deriving DecidableEq

/-- The files of a host, and the file behind each open mapping. -/
structure Volumes where
  files : String → Option Content
  mappings : String → Option String

namespace Volumes

def write (volumes : Volumes) (path : String) (content : Content) : Volumes :=
  { volumes with files := Function.update volumes.files path (some content) }

/-- The commands that provisioning uses, and the file operations beside them. -/
def perform (volumes : Volumes) : List String → Option (String × Volumes)
  | ["stat", path] => (volumes.files path).map fun _ => ("", volumes)
  | ["mkdir", _] => some ("", volumes)
  | ["open", path] => some ("", volumes.write path ((volumes.files path).getD .raw))
  | ["truncate", path, _] => (volumes.files path).map fun _ => ("", volumes)
  | ["write", path, _] => some ("", volumes.write path .raw)
  | ["remove", path] =>
    (volumes.files path).map fun _ =>
      ("", { volumes with files := Function.update volumes.files path none })
  | ["mkfs.ext4", "-q", "-F", path] =>
    (volumes.files path).map fun _ => ("", volumes.write path .ext4)
  | ["cryptsetup", "luksFormat", "--batch-mode", "--key-file", _, path] =>
    (volumes.files path).map fun _ => ("", volumes.write path (.luks false))
  | ["cryptsetup", "open", "--type", "luks", "--key-file", _, path, name] =>
    match volumes.files path, volumes.mappings ("/dev/mapper/" ++ name) with
    | some (.luks _), none =>
      some ("",
        { volumes with mappings :=
          Function.update volumes.mappings ("/dev/mapper/" ++ name) (some path) })
    | _, _ => none
  | ["mkfs.ext4", "-q", device] =>
    (volumes.mappings device).bind fun path => (volumes.files path).map fun _ =>
      ("", volumes.write path (.luks true))
  | _ => none

end Volumes

/-- What a command that fails has done is left open. -/
def volumes : Gear Volumes where
  perform := Volumes.perform
  fails _ _ _ _ := True

/-- The file has a filesystem; that of an encrypted disk is in an open LUKS container. -/
def Provisioned (dir uid : String) (passphrase : Bytes) (volumes : Volumes) : Prop :=
  if passphrase = [] then volumes.files (imagePath dir uid) = some .ext4
  else volumes.files (imagePath dir uid) = some (.luks true) ∧
    volumes.mappings (mapperPath uid) = some (imagePath dir uid)

def AllOrNothing (dir uid : String) (passphrase : Bytes) (volumes : Volumes) : Prop :=
  volumes.files (imagePath dir uid) = none ∨ Provisioned dir uid passphrase volumes

/-- The failures after which the file is removed, and those before there is one. No other step fails
than the removal of the key file. -/
def mended (img : String) (s : Volumes) (words : List String) (s' : Volumes) : Prop :=
  match words with
  | ["mkfs.ext4", "-q", "-F", _] => True
  | "cryptsetup" :: "luksFormat" :: _ => True
  | ["stat", _] | ["mkdir", _] | ["open", _] => s' = s
  | ["remove", path] => s' = s ∧ path ≠ img
  | _ => False

section

variable {dir uid : String} {passphrase : Bytes} {s : Volumes} {words : List String}

theorem key_ne (img : String) : img ≠ img ++ ".key" := by
  intro eq
  have sizes := congrArg String.utf8ByteSize eq
  rw [String.utf8ByteSize_append] at sizes
  exact absurd sizes (by simp)

def Ended (dir uid : String) (passphrase : Bytes) (reply : Except Error String)
    (s' : Volumes) : Prop :=
  AllOrNothing dir uid passphrase s' ∧ ∀ path, reply = .ok path → Provisioned dir uid passphrase s'

theorem ended_ok {path : String} (done : Provisioned dir uid passphrase s) :
    Ended dir uid passphrase (.ok path) s := ⟨.inr done, fun _ _ => done⟩

theorem ended_error {err : Error} (kept : AllOrNothing dir uid passphrase s) :
    Ended dir uid passphrase (.error err) s := ⟨kept, nofun⟩

/-- A host on which what fails is mended. -/
abbrev mending (img : String) : Machine Op Op.Reply Volumes := geared (volumes.sparing (mended img))

theorem firm_keeps {α : Type} {img : String} {next : Except Error String → Prog α}
    {post : α → Volumes → Prop}
    (firm : ∀ s', ¬mended img s words s') (served : ∀ text s', s.perform words = some (text, s') →
      (next (.ok text)).Ends (mending img) post s') :
    (Program.call (.host words) next).Ends (mending img) post s := by
  apply keeps_command served
  intro err s' bad
  exact absurd bad.2 (firm s')

theorem format_keeps {title : String} {next : Unit → Prog (Except Error String)}
    (served : ∀ text s', s.perform words = some (text, s') →
      (next ()).Keeps (mending (imagePath dir uid)) (fun _ => True) (Ended dir uid passphrase) s') :
    (andThen (format title (imagePath dir uid) words) next).Keeps (mending (imagePath
      dir uid)) (fun _ => True)
      (Ended dir uid passphrase) s := by
  apply keeps_command served
  rintro err damaged -
  refine firm_keeps (fun _ spared => spared.2 rfl) ?_
  intro text s' done
  obtain ⟨content, -, eq⟩ := map_eq_some_iff.mp done
  cases eq
  exact ended_error (.inl (update_self ..))

theorem encrypt_keeps (secret : passphrase ≠ []) :
    (encrypt uid (imagePath dir uid) (imagePath dir uid ++ ".key")).Keeps
    (mending (imagePath dir uid)) (fun _ => True)
      (Ended dir uid passphrase) s := by
  apply format_keeps
  intro _ _ formatted
  obtain ⟨text, -, eq⟩ := map_eq_some_iff.mp formatted
  cases eq
  refine firm_keeps (fun _ => id) ?_
  intro _ opened done
  have mapping : opened.files (imagePath dir uid) = some (.luks false) ∧
      opened.mappings (mapperPath uid) = some (imagePath dir uid) := by
    change (match Function.update s.files (imagePath dir uid) (some (.luks false))
      (imagePath dir uid), s.mappings (mapperPath uid) with
      | some (.luks _), none => some _
      | _, _ => none) = _ at done
    rw [update_self] at done
    split at done
    · cases done
      simp [Volumes.write, mapperPath]
    · cases done
  refine firm_keeps (fun _ => id) ?_
  intro _ s' done
  change (opened.mappings (mapperPath uid)).bind _ = _ at done
  rw [mapping.2, bind_some, mapping.1, map_some] at done
  cases done
  apply ended_ok
  simp [Provisioned, secret, Volumes.write, mapping.2]

theorem ensureDisk_keeps (sizeMb : Int) (kept : AllOrNothing dir uid passphrase s) :
    (ensureDisk dir uid sizeMb passphrase).Keeps (mending (imagePath dir uid)) (fun _ => True)
      (Ended dir uid passphrase) s := by
  apply keeps_command
  · intro text s' done
    obtain ⟨content, got, eq⟩ := map_eq_some_iff.mp done
    cases eq
    exact ended_ok (kept.resolve_left (by simp [got]))
  rintro err _ ⟨-, rfl⟩
  apply keeps_command
  · rintro _ _ ⟨⟩
    apply keeps_command
    · rintro _ created -
      refine firm_keeps (fun _ => id) ?_
      rintro _ sized -
      change (if passphrase = [] then _ else _ : Prog _).Keeps _ _ _ _
      split
      · next plain =>
        apply format_keeps
        intro _ _ formatted
        obtain ⟨content, -, eq⟩ := map_eq_some_iff.mp formatted
        cases eq
        apply ended_ok
        simp [Provisioned, plain, Volumes.write]
      · next secret =>
        refine firm_keeps (fun _ => id) ?_
        intro _ _ _
        apply (encrypt_keeps secret).bind
        intro reply done ended
        apply keeps_command
        · intro _ _ removed
          obtain ⟨content, -, eq⟩ := map_eq_some_iff.mp removed
          cases eq
          change Ended dir uid passphrase reply _
          simpa only [Ended, AllOrNothing, Provisioned, update_of_ne (key_ne _)] using ended
        · rintro _ _ ⟨-, rfl, -⟩
          exact ended
    · rintro _ _ ⟨-, rfl⟩
      exact ended_error kept
  · rintro _ _ ⟨-, rfl⟩
    exact ended_error kept

end

/-- When a call returns a path the disk is provisioned, unless a failure left the backing file
behind or calls differ in having a passphrase. -/
theorem disk_all_or_nothing (dir uid : String) (sizeMb : Int) (passphrase : Bytes) (path : String)
    (start s s' : Volumes) (fresh : start.files (imagePath dir uid) = none)
    (reached : Calls (geared (volumes.sparing (mended (imagePath dir uid))))
      (fun call : Int × { given : Bytes // given = [] ↔ passphrase = [] } =>
        ensureDisk dir uid call.1 call.2) start s)
    (returns : (ensureDisk dir uid sizeMb passphrase).Runs
      (geared (volumes.sparing (mended (imagePath dir uid)))) s
      (.ret (.ok path)) s') : Provisioned dir uid passphrase s' := by
  have kept : AllOrNothing dir uid passphrase s := by
    refine reached.invariant (.inl fresh) ?_
    rintro ⟨size, given, same⟩ state holds
    have agree : AllOrNothing dir uid given = AllOrNothing dir uid passphrase := by
      simp only [funext_iff, AllOrNothing, Provisioned, same, implies_true]
    rw [← agree] at holds ⊢
    exact (ensureDisk_keeps size holds).mono fun _ _ ended => ended.1
  exact (returns.ends (ensureDisk_keeps sizeMb kept)).2 path rfl

def emptyHost : Volumes := ⟨fun _ => none, fun _ => none⟩

def sampleDisk : Prog (Except Error String) := ensureDisk "/disks" "d-1" 64 [7]

/-- A host on which the commands fail that are refused. -/
abbrev refusing (refused : List String → Bool) :=
  gearAnswer Volumes.perform (fun _ _ => .new "failed") refused

/-- The host after a call in which the mapping could not be opened. -/
def unopened : Volumes :=
  sampleDisk.outcome (refusing fun words => words[1]? == some "open") emptyHost

/-- The next call finds the backing file and returns a path. -/
theorem unopened_disk_reported :
    Calls (geared volumes) (fun _ : Unit => sampleDisk) emptyHost unopened ∧
      sampleDisk.Runs (geared volumes) unopened (.ret (.ok (mapperPath "d-1"))) unopened ∧
      ¬Provisioned "/disks" "d-1" [7] unopened := by
  have answers (refused : List String → Bool) :=
    @gearAnswer_exec _ volumes (fun _ _ => .new "failed") refused
    (fun _ => true) fun _ _ _ => trivial
  refine ⟨.call .start () (Runs.checked (answers _) (by decide +kernel)), ?_, ?_⟩
  · exact Runs.checked (answers fun _ => false) (by decide +kernel)
  · rintro ⟨formatted, -⟩
    exact absurd formatted (by decide +kernel)

theorem disk_all_or_nothing_first :
    Provisioned "/disks" "d-1" [7] (sampleDisk.outcome (refusing fun _ => false) emptyHost) := by
  refine disk_all_or_nothing "/disks" "d-1" 64 [7] (mapperPath "d-1") emptyHost
    emptyHost _ rfl .start ?_
  have answers := @gearAnswer_exec _ (volumes.sparing (mended (imagePath "/disks" "d-1")))
    (fun _ _ => .new "failed") (fun _ => false) (· == ["stat", imagePath "/disks" "d-1"]) ?_
  · exact Runs.checked answers (by decide +kernel)
  · intro s words absent
    rw [beq_iff_eq.mp absent]
    exact ⟨trivial, rfl⟩

end ExecDiskBackend

end Infrastructure.Manager
