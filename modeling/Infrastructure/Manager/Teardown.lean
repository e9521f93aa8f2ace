import Infrastructure.Manager.Instances
import Infrastructure.Posix.Calls
import Infrastructure.Registry.Isolation

/-! What the agent removes from its host when it tears an instance or a disk down, and for
which uids the paths of two of them stay apart. -/

namespace Infrastructure.Manager

open Concurrency Posix State Text Domain List

def cleanupRootfs (stateDir uid : String) : SysProg (Except Errno Unit) :=
  Sys.removeAll (clean (rootfsPath stateDir uid))

/-- `cgroupManager.remove`. -/
def removeCgroup (base uid : String) : SysProg (Except Errno Unit) :=
  Sys.remove (clean (cgroupPath base uid))

def netnsDir : String := "/etc/netns"

/-- The resolver's directory of a compute's network namespace. -/
def netnsPath (uid : String) : List Char :=
  joinText [netnsDir.toList, (ComputeReconciler.computeName "ns-" uid).toList]

def removeNetns (uid : String) : SysProg (Except Errno Unit) :=
  Sys.removeAll (clean (netnsPath uid))

/-- The files of a compute's entry process: the name of its log may hold its host name. -/
def IsEnding (ending : String) : Prop :=
  ending ∈ [".entry.sh", ".entry.pid", ".runtime.json", ".entry.log"] ∨
    ∃ hostname : String, ComputeSpec.isHostName hostname.toList ∧
      ending = "." ++ hostname ++ ".entry.log"

/-- The uid stands in the pattern as it is. -/
def removeEntries (stateDir uid : String) : SysProg (Except Errno Unit) := do
  let _ ← Sys.remove (clean (entryFile stateDir uid ".entry.sh"))
  let _ ← Sys.remove (clean (entryFile stateDir uid ".entry.pid"))
  let _ ← Sys.remove (clean (entryFile stateDir uid ".runtime.json"))
  let _ ← Sys.removeMatches (clean (entryFile stateDir uid "*.entry.log"))
  return .ok ()

def keySuffix : List Char := ".key".toList

/-- `DeleteDisk`, after the encrypted mapping has been closed. -/
def deleteDisk (stateDir uid : String) : SysProg (Except Errno Unit) := do
  match ← Sys.remove (clean (diskImage stateDir uid)) with
  | .ok () | .error .notExist =>
    let _ ← Sys.remove (clean (diskImage stateDir uid ++ keySuffix))
    pure (.ok ())
  | .error errno => pure (.error errno)

/-- `AsyncDiskReplicaReconciler.finalize`, as far as it reaches the host. -/
def removeReplica (stateDir uid : String) : SysProg (Except Errno Unit) :=
  Sys.remove (clean (replicaImage stateDir uid))

/-- `DeleteMicroVM`, after the hypervisor has gone. -/
def deleteMicroVM (stateDir uid : String) : SysProg (Except Errno Unit) :=
  Sys.removeAll (clean (instanceDir stateDir uid))

/-- The directories an agent is started with. The state directory goes into a glob pattern, in
which none of its names has a special meaning. -/
structure AgentDirs where
  stateDir : String
  cgroupBase : String
  literal : ∀ name ∈ (clean stateDir.toList).names, Literal name.text

/-- The families of host paths that are derived from a uid. -/
inductive HostPath where
  | netns
  | cgroup
  | rootfs
  | entry
  | disk
  | replica
  | microVM
  deriving DecidableEq

namespace HostPath

def reserved (dirs : AgentDirs) : HostPath → Path
  | .netns => clean netnsDir.toList
  | .cgroup => join [dirs.cgroupBase.toList, "infra".toList]
  | .rootfs => clean (rootfsDir dirs.stateDir)
  | .entry => join [dirs.stateDir.toList, "compute".toList]
  | .disk => clean (diskDir dirs.stateDir)
  | .replica => join [dirs.stateDir.toList, "disk-replicas".toList]
  | .microVM => join [dirs.stateDir.toList, "microvm".toList]

/-- The paths of a uid. -/
def Owns (dirs : AgentDirs) (uid : String) : HostPath → Path → Prop
  | .netns, path => path = clean (netnsPath uid)
  | .cgroup, path => path = clean (cgroupPath dirs.cgroupBase uid)
  | .rootfs, path => path = clean (rootfsPath dirs.stateDir uid)
  | .entry, path => ∃ ending, IsEnding ending ∧ path = clean (entryFile dirs.stateDir uid ending)
  | .disk, path => path = clean (diskImage dirs.stateDir uid)
  | .replica, path => path = clean (replicaImage dirs.stateDir uid)
  | .microVM, path => path = clean (instanceDir dirs.stateDir uid)

/-- `DeleteCompute` tears the first four down, in this order. -/
def teardown (dirs : AgentDirs) (uid : String) : HostPath → SysProg (Except Errno Unit)
  | .netns => removeNetns uid
  | .cgroup => removeCgroup dirs.cgroupBase uid
  | .rootfs => cleanupRootfs dirs.stateDir uid
  | .entry => removeEntries dirs.stateDir uid
  | .disk => deleteDisk dirs.stateDir uid
  | .replica => removeReplica dirs.stateDir uid
  | .microVM => deleteMicroVM dirs.stateDir uid

end HostPath

/-- The paths of two uids lie in the reserved directory, none at or below one of the other, and
tearing the first down takes nothing outside the directory and nothing of the second. -/
structure Separate (which : HostPath) (dirs : AgentDirs) (first second : String) : Prop where
  firstBelow : ∀ path, which.Owns dirs first path → StrictlyBelow (which.reserved dirs) path
  secondBelow : ∀ path, which.Owns dirs second path → StrictlyBelow (which.reserved dirs) path
  apart : ∀ path other, which.Owns dirs first path → which.Owns dirs second other →
    ¬ AtOrBelow path other ∧ ¬ AtOrBelow other path
  spares : (which.teardown dirs first).Uses
    (fun call => ∀ t, Takes t call → StrictlyBelow (which.reserved dirs) t ∧
      ¬ which.Owns dirs second t)
    fun _ => True

namespace HostPath

def dirName : HostPath → Name
  | .netns => ⟨"netns".toList, by decide +kernel⟩
  | .cgroup => ⟨"infra".toList, by decide +kernel⟩
  | .rootfs => ⟨"rootfs".toList, by decide +kernel⟩
  | .entry => ⟨"compute".toList, by decide +kernel⟩
  | .disk => ⟨"disks".toList, by decide +kernel⟩
  | .replica => ⟨"disk-replicas".toList, by decide +kernel⟩
  | .microVM => ⟨"microvm".toList, by decide +kernel⟩

/-- What a uid is written as below the reserved directory. -/
def Writes (uid : String) : HostPath → List Char → Prop
  | .netns, text => text = (ComputeReconciler.computeName "ns-" uid).toList
  | .entry, text => ∃ ending, IsEnding ending ∧ text = (uid ++ ending).toList
  | .disk, text | .replica, text => text = (uid ++ ".img").toList
  | .cgroup, text | .rootfs, text | .microVM, text => text = uid.toList

/-- What the texts of two uids must lead to in the reserved directory: neither to an initial part
of where the other leads. The pattern for the logs of the first selects no file of the second. -/
structure Apart (which : HostPath) (first second : String) : Prop where
  paths : ∀ text text', which.Writes first text → which.Writes second text' →
    ∃ names others, residual which.dirName text = some names ∧
      residual which.dirName text' = some others ∧
      names ≠ [] ∧ others ≠ [] ∧ ¬ names <+: others ∧ ¬ others <+: names
  logs : which = .entry → ∀ pattern text names,
    residual which.dirName (first ++ "*.entry.log").toList = some pattern →
    which.Writes second text → residual which.dirName text = some names → ¬ Selects pattern names

def parent (dirs : AgentDirs) : HostPath → Path
  | .netns => clean "/etc".toList
  | .cgroup => clean dirs.cgroupBase.toList
  | _ => clean dirs.stateDir.toList

theorem reserved_eq (which : HostPath) (dirs : AgentDirs) :
    which.reserved dirs = (which.parent dirs).child which.dirName := by
  cases which with
  | netns =>
    change clean netnsDir.toList = (clean "/etc".toList).child (dirName .netns)
    decide +kernel
  | rootfs => exact (clean_joinText _).trans (join_name _ (dirName .rootfs))
  | disk => exact (clean_joinText _).trans (join_name _ (dirName .disk))
  | cgroup => exact join_name _ (dirName .cgroup)
  | entry => exact join_name _ (dirName .entry)
  | replica => exact join_name _ (dirName .replica)
  | microVM => exact join_name _ (dirName .microVM)

/-- A path of a uid is where its text leads from the reserved directory. -/
theorem owns_iff (which : HostPath) (dirs : AgentDirs) (uid : String) (path : Path) :
    which.Owns dirs uid path ↔
      ∃ text, which.Writes uid text ∧ path = (which.reserved dirs).walk (segments text) := by
  have inside (dir : List (List Char)) (text : List Char) :
      clean (joinText [joinText dir, text]) = (join dir).walk (segments text) := by
    rw [clean_joinText, joinText, join_render]
  have below (name : Name) (base text : List Char) :
      clean (joinText [base, name.text, text]) = (join [base, name.text]).walk (segments text) := by
    rw [clean_joinText, join_name_cons, join_name]
  have one {text : List Char} {place : Path}
      (leads : place = (which.reserved dirs).walk (segments text)) :
      path = place ↔ ∃ t, t = text ∧ path = (which.reserved dirs).walk (segments t) := by
    rw [exists_eq_left, leads]
  cases which with
  | netns =>
    refine one (?_ : clean (netnsPath uid) = _)
    rw [netnsPath, clean_joinText, join_cons_cons (by decide +kernel), intercalate_singleton]
    rfl
  | cgroup => exact one (below (dirName .cgroup) _ _)
  | rootfs => exact one ((inside _ _).trans (by rw [reserved, rootfsDir, clean_joinText]))
  | disk => exact one ((inside _ _).trans (by rw [reserved, diskDir, clean_joinText]))
  | replica => exact one (inside _ _)
  | microVM => exact one (below (dirName .microVM) _ _)
  | entry =>
    constructor
    · rintro ⟨ending, known, rfl⟩
      exact ⟨_, ⟨ending, known, rfl⟩, below (dirName .entry) _ _⟩
    · rintro ⟨_, ⟨ending, known, rfl⟩, rfl⟩
      exact ⟨ending, known, (below (dirName .entry) _ _).symm⟩

theorem literal_reserved (dirs : AgentDirs) :
    ∀ name ∈ (reserved dirs .entry).names, Literal name.text := by
  intro name mem
  rw [reserved_eq, Path.child, mem_append, mem_singleton] at mem
  rcases mem with mem | rfl
  · exact dirs.literal name mem
  · decide +kernel

/-- Wherever the agent keeps its files, a text that leads below the reserved directory does so by
itself. -/
theorem residual_of_below {which : HostPath} (moves : which ≠ .netns) {text : List Char}
    (below : ∀ dirs,
      StrictlyBelow (which.reserved dirs) ((which.reserved dirs).walk (segments text))) :
    ∃ names, residual which.dirName text = some names ∧ names ≠ [] := by
  apply Text.residual_of_below
  intro base lettered
  have literal : ∀ name ∈ (clean (String.ofList base.render).toList).names, Literal name.text := by
    rw [String.toList_ofList, clean_render]
    intro name mem char used
    rw [lettered name mem char used]
    decide
  have lies := below ⟨String.ofList base.render, String.ofList base.render, literal⟩
  have same : which.parent ⟨String.ofList base.render, String.ofList base.render, literal⟩ =
      base := by
    cases which with
    | netns => exact absurd rfl moves
    | _ => simp only [parent, String.toList_ofList, clean_render]
  rwa [reserved_eq, same] at lies

theorem computeName_plain (uid : String) :
    Plain (ComputeReconciler.computeName "ns-" uid).toList := by
  have noDigit : ∀ val < 16, Crypto.hexDigit val ≠ '/' := by decide
  have text : (ComputeReconciler.computeName "ns-" uid).toList =
      'n' :: 's' :: '-' :: (Crypto.hexEncode (Crypto.wordBytes (fnv32a (bytesOf uid)))).toList := by
    rw [ComputeReconciler.computeName, String.toList_append]
    rfl
  rw [text]
  refine ⟨cons_ne_nil _ _, ?_, by simp, by simp⟩
  simp only [mem_cons, not_or]
  refine ⟨by decide, by decide, by decide, ?_⟩
  intro slash
  obtain ⟨val, small, digit⟩ := Crypto.mem_hexEncode slash
  exact noDigit val small digit.symm

/-- A single name leads to itself. -/
theorem residual_plain (name : Name) {text : List Char} (plain : Plain text) :
    residual name text = some [⟨text, plain⟩] := by
  have shape : relative text = ⟨.above 0, [⟨text, plain⟩]⟩ := by
    rw [relative, segments_plain plain]
    exact Path.enter_name ⟨.above 0, []⟩ ⟨text, plain⟩
  rw [Text.residual, shape]
  rfl

theorem names_of_below {which : HostPath} {uid : String} {text : List Char}
    (own : which.Writes uid text)
    (below : ∀ dirs path, which.Owns dirs uid path → StrictlyBelow (which.reserved dirs) path) :
    ∃ names, residual which.dirName text = some names ∧ names ≠ [] := by
  by_cases fixed : which = .netns
  · subst fixed
    cases own
    exact ⟨_, residual_plain _ (computeName_plain uid), cons_ne_nil _ _⟩
  · exact residual_of_below fixed fun dirs =>
      below dirs _ ((owns_iff which dirs uid _).mpr ⟨text, own, rfl⟩)

theorem walk_of_residual {which : HostPath} {text : List Char} {names : List Name}
    (got : residual which.dirName text = some names) (dirs : AgentDirs) :
    (which.reserved dirs).walk (segments text) = (which.reserved dirs).descend names := by
  rw [reserved_eq]
  exact walk_residual got _

/-- The pattern for the logs leads to where the logs are. -/
theorem pattern_below {dirs : AgentDirs} {uid : String}
    (below : ∀ path, Owns dirs uid .entry path → StrictlyBelow (reserved dirs .entry) path) :
    StrictlyBelow (reserved dirs .entry)
      ((reserved dirs .entry).walk (segments (uid ++ "*.entry.log").toList)) := by
  obtain ⟨dir, last, leads⟩ := walk_suffix (reserved dirs .entry) uid.toList
  obtain ⟨_, log⟩ := leads ".entry.log".toList (by decide +kernel) (by decide +kernel)
  obtain ⟨_, pattern⟩ := leads "*.entry.log".toList (by decide +kernel) (by decide +kernel)
  rw [String.toList_append, pattern]
  refine StrictlyBelow.sibling (log ▸ below _ ((owns_iff _ _ _ _).mpr ⟨_, ?_, rfl⟩)) _
  exact ⟨".entry.log", .inl (by decide), String.toList_append.symm⟩

theorem disk_key (dirs : AgentDirs) (uid : String) :
    ∃ (dir : Path) (image key : Name) (front : List Char),
      clean (diskImage dirs.stateDir uid) = dir.child image ∧ image.text = front ++ ".img".toList ∧
      clean (diskImage dirs.stateDir uid ++ keySuffix) = dir.child key ∧
      key.text = image.text ++ keySuffix := by
  obtain ⟨dir, last, leads⟩ := walk_suffix (reserved dirs .disk) uid.toList
  obtain ⟨plain, image⟩ := leads ".img".toList (by decide +kernel) (by decide +kernel)
  obtain ⟨keyPlain, -⟩ := leads (".img".toList ++ keySuffix) (by decide +kernel) (by decide +kernel)
  obtain ⟨text, own, eq⟩ := (owns_iff .disk dirs uid _).mp rfl
  have path : clean (diskImage dirs.stateDir uid) = dir.child ⟨last ++ ".img".toList, plain⟩ := by
    rw [eq, show text = _ from own, String.toList_append]
    exact image
  have rendered : diskImage dirs.stateDir uid =
      (dir.child ⟨last ++ ".img".toList, plain⟩).render := by
    rw [← path]
    exact congrArg Path.render (clean_joinText _).symm
  refine ⟨dir, _, ⟨_, by rwa [← append_assoc] at keyPlain⟩, last, path, rfl, ?_, rfl⟩
  rw [rendered]
  exact clean_suffix _ ⟨_, plain⟩ (by decide +kernel) _

section

variable {which : HostPath} {dirs : AgentDirs} {first second : String}

/-- An image ends in `g`, a key file in `y`. -/
theorem key_ne_image (dirs : AgentDirs) (first second : String) :
    clean (diskImage dirs.stateDir first ++ keySuffix) ≠
      clean (diskImage dirs.stateDir second) := by
  obtain ⟨_, _, _, _, -, -, isKey, keyText⟩ := disk_key dirs first
  obtain ⟨_, _, _, _, isOther, ending, -⟩ := disk_key dirs second
  intro eq
  rw [isKey, isOther] at eq
  have texts := congrArg Name.text (Path.child_inj.mp eq).2
  rw [keyText, ending, keySuffix] at texts
  have lasts := congrArg List.getLast? texts
  have key : ".key".toList.getLast? = some 'y' := by decide +kernel
  have img : ".img".toList.getLast? = some 'g' := by decide +kernel
  rw [List.getLast?_append, List.getLast?_append, key, img, Option.some_or, Option.some_or] at lasts
  exact absurd lasts (by decide)

theorem teardown_spares
    (below : ∀ path, which.Owns dirs first path → StrictlyBelow (which.reserved dirs) path)
    (apart : ∀ path other, which.Owns dirs first path → which.Owns dirs second other →
      ¬ AtOrBelow path other)
    (logs : which = .entry → ∀ t, (clean (entryFile dirs.stateDir first "*.entry.log")).Matches t →
      StrictlyBelow (which.reserved dirs) t ∧ ¬ which.Owns dirs second t) :
    (which.teardown dirs first).Uses (fun call => ∀ t, Takes t call →
      StrictlyBelow (which.reserved dirs) t ∧ ¬ which.Owns dirs second t) fun _ => True := by
  have whole (path t : Path) (own : which.Owns dirs first path) (taken : AtOrBelow path t) :
      StrictlyBelow (which.reserved dirs) t ∧ ¬ which.Owns dirs second t :=
    ⟨(below path own).trans taken, fun other => apart path t own other taken⟩
  have itself (path t : Path) (own : which.Owns dirs first path) (taken : t = path) :=
    whole path t own (taken ▸ AtOrBelow.refl _)
  cases which with
  | netns => exact ⟨fun t => whole _ t rfl, fun _ => trivial⟩
  | rootfs => exact ⟨fun t => whole _ t rfl, fun _ => trivial⟩
  | microVM => exact ⟨fun t => whole _ t rfl, fun _ => trivial⟩
  | cgroup => exact ⟨fun t => itself _ t rfl, fun _ => trivial⟩
  | replica => exact ⟨fun t => itself _ t rfl, fun _ => trivial⟩
  | entry =>
    have file (ending : String)
        (known : ending ∈ [".entry.sh", ".entry.pid", ".runtime.json", ".entry.log"]) (t : Path)
        (taken : t = clean (entryFile dirs.stateDir first ending)) :=
      itself _ t ⟨ending, .inl known, rfl⟩ taken
    exact ⟨file ".entry.sh" (by decide), fun _ => ⟨file ".entry.pid" (by decide),
      fun _ => ⟨file ".runtime.json" (by decide), fun _ => ⟨logs rfl, fun _ => trivial⟩⟩⟩⟩
  | disk =>
    obtain ⟨dir, image, key, front, isImage, -, isKey, -⟩ := disk_key dirs first
    have keyTaken (t : Path) (taken : t = clean (diskImage dirs.stateDir first ++ keySuffix)) :
        StrictlyBelow (reserved dirs .disk) t ∧ ¬ Owns dirs second .disk t := by
      subst taken
      refine ⟨?_, key_ne_image dirs first second⟩
      rw [isKey]
      exact StrictlyBelow.sibling (isImage ▸ below _ rfl) key
    refine ⟨fun t => itself _ t rfl, ?_⟩
    intro reply
    cases reply with
    | ok val => exact ⟨keyTaken, fun _ => trivial⟩
    | error errno =>
      cases errno with
      | notExist => exact ⟨keyTaken, fun _ => trivial⟩
      | other => trivial

theorem pattern_eq (dirs : AgentDirs) (uid : String) :
    clean (entryFile dirs.stateDir uid "*.entry.log") =
    (reserved dirs .entry).walk (segments (uid ++ "*.entry.log").toList) := by
  rw [entryFile, clean_joinText, reserved_eq]
  exact join_name_cons _ (dirName .entry) _

/-- Nothing that the pattern selects lies outside the directory or is a file of the second. -/
theorem Apart.logs_spared (apart : Apart .entry first second)
    (below : ∀ dirs path, Owns dirs first .entry path → StrictlyBelow (reserved dirs .entry) path)
    (t : Path) (taken : (clean (entryFile dirs.stateDir first "*.entry.log")).Matches t) :
    StrictlyBelow (reserved dirs .entry) t ∧ ¬ Owns dirs second .entry t := by
  obtain ⟨pattern, got, more⟩ :=
    residual_of_below (show HostPath.entry ≠ .netns by decide) fun dirs =>
    pattern_below (below dirs)
  rw [pattern_eq, walk_of_residual got, matches_descend (literal_reserved dirs)] at taken
  obtain ⟨names, rfl, selects⟩ := taken
  refine ⟨⟨names, ?_, rfl⟩, ?_⟩
  · rintro rfl
    exact more (forall₂_nil_right_iff.mp selects)
  · intro own
    obtain ⟨text, writes, eq⟩ := (owns_iff _ _ _ _).mp own
    obtain ⟨_, others, -, found, -⟩ :=
      apart.paths _ text ⟨".entry.log", .inl (by decide), rfl⟩ writes
    rw [walk_of_residual found, Path.descend_inj] at eq
    exact apart.logs rfl pattern text names got writes (eq ▸ found) selects

theorem Apart.separate (apart : which.Apart first second) (dirs : AgentDirs) :
    Separate which dirs first second := by
  have written (uid : String) : ∃ text, which.Writes uid text := by
    cases which with
    | entry => exact ⟨_, ".entry.log", .inl (by decide), rfl⟩
    | _ => exact ⟨_, rfl⟩
  have below (dirs : AgentDirs) (path : Path) (own : which.Owns dirs first path) :
      StrictlyBelow (which.reserved dirs) path := by
    obtain ⟨text, writes, rfl⟩ := (owns_iff _ _ _ _).mp own
    obtain ⟨text', writes'⟩ := written second
    obtain ⟨names, -, found, -, more, -⟩ := apart.paths text text' writes writes'
    exact ⟨names, more, walk_of_residual found dirs⟩
  have below' (path : Path) (own : which.Owns dirs second path) :
      StrictlyBelow (which.reserved dirs) path := by
    obtain ⟨text', writes', rfl⟩ := (owns_iff _ _ _ _).mp own
    obtain ⟨text, writes⟩ := written first
    obtain ⟨-, others, -, found, -, more, -⟩ := apart.paths text text' writes writes'
    exact ⟨others, more, walk_of_residual found dirs⟩
  have noNesting (path other : Path) (own : which.Owns dirs first path)
      (own' : which.Owns dirs second other) :
      ¬ AtOrBelow path other ∧ ¬ AtOrBelow other path := by
    obtain ⟨text, writes, rfl⟩ := (owns_iff _ _ _ _).mp own
    obtain ⟨text', writes', rfl⟩ := (owns_iff _ _ _ _).mp own'
    obtain ⟨names, others, found, found', -, -, under, above⟩ :=
      apart.paths text text' writes writes'
    rw [walk_of_residual found, walk_of_residual found', atOrBelow_descend, atOrBelow_descend]
    exact ⟨under, above⟩
  refine ⟨below dirs, below', noNesting, ?_⟩
  refine teardown_spares (below dirs)
    (fun path other own own' => (noNesting path other own own').1) ?_
  rintro rfl
  exact apart.logs_spared below

end

end HostPath

/-- Exactly these uids keep their paths apart wherever the agent keeps its files. -/
theorem separate_iff (which : HostPath) (first second : String) :
    (∀ dirs, Separate which dirs first second) ↔ which.Apart first second := by
  refine ⟨fun separate => ⟨fun text text' own own' => ?_, ?_⟩,
    fun apart dirs => apart.separate dirs⟩
  · obtain ⟨names, found, more⟩ := HostPath.names_of_below own fun dirs =>
      (separate dirs).firstBelow
    obtain ⟨others, found', more'⟩ := HostPath.names_of_below own' fun dirs =>
      (separate dirs).secondBelow
    have dirs : AgentDirs := ⟨"", "", by decide +kernel⟩
    obtain ⟨under, above⟩ :=
      (separate dirs).apart _ _ ((which.owns_iff dirs first _).mpr ⟨text, own, rfl⟩)
      ((which.owns_iff dirs second _).mpr ⟨text', own', rfl⟩)
    rw [HostPath.walk_of_residual found, HostPath.walk_of_residual found',
      atOrBelow_descend] at under above
    exact ⟨names, others, found, found', more, more', under, above⟩
  · rintro rfl pattern text names got own found selects
    have dirs : AgentDirs := ⟨"", "", by decide +kernel⟩
    -- a file of the second that the pattern selects would be taken
    obtain ⟨-, rest⟩ := (separate dirs).spares
    refine ((rest (.ok ())).2 (.ok ())).2 (.ok ()) |>.1
      ((HostPath.reserved dirs .entry).descend names) ?_ |>.2 ?_
    · change Path.Matches _ _
      rw [HostPath.pattern_eq, HostPath.walk_of_residual got,
        matches_descend (HostPath.literal_reserved dirs)]
      exact ⟨names, rfl, selects⟩
    · exact (HostPath.owns_iff _ _ _ _).mpr ⟨text, own, (HostPath.walk_of_residual found dirs).symm⟩

-- a plain uid leads to the one name that it is
example : residual (HostPath.dirName .rootfs) "a1".toList = some [⟨['a', '1'], by decide⟩] := by
  decide +kernel

def stateDirs : AgentDirs := ⟨"/var/lib/infra", "/sys/fs/cgroup", by decide +kernel⟩

/-- A compute called `..` is stored and listed, and tearing it down takes the whole state directory;
tearing down `compute-1` takes the log of `compute-10`. -/
theorem dotted_uid_takes_state_dir :
    (((Registry.blankRegistry .compute "..").put (Registry.blank "..") >>= fun _ =>
        (Registry.blankRegistry .compute "..").list).run (fun op shared => answer shared op)
          ⟨∅, 0⟩).1.toOption.map (List.map (·.metadata.uid)) = some [".."] ∧
      HostPath.teardown stateDirs ".." .rootfs = Sys.removeAll (clean "/var/lib/infra".toList) ∧
      Takes (clean (rootfsPath "/var/lib/infra" "a1"))
        (.removeAll (clean (rootfsPath "/var/lib/infra" ".."))) ∧
      ¬ Separate .rootfs stateDirs ".." "a1" ∧
        ¬ Separate .entry stateDirs "compute-1" "compute-10" := by
  have taken : clean (rootfsPath "/var/lib/infra" "..") = clean "/var/lib/infra".toList := by
    decide +kernel
  refine ⟨by decide +kernel, congrArg Sys.removeAll taken, ?_, ?_, ?_⟩
  · have below : AtOrBelow (clean (rootfsPath "/var/lib/infra" ".."))
        (clean (rootfsPath "/var/lib/infra" "a1")) := by decide +kernel
    exact below
  · intro separate
    have outside : ¬ StrictlyBelow (HostPath.reserved stateDirs .rootfs)
        (clean (rootfsPath "/var/lib/infra" "..")) := by decide +kernel
    exact outside (separate.firstBelow _ rfl)
  · intro separate
    obtain ⟨-, rest⟩ := separate.spares
    have log : HostPath.Owns stateDirs "compute-10" .entry
        (clean (entryFile "/var/lib/infra" "compute-10" ".entry.log")) :=
      ⟨".entry.log", .inl (by decide), rfl⟩
    refine ((rest (.ok ())).2 (.ok ())).2 (.ok ()) |>.1 _ ?_ |>.2 log
    have selected : Path.Matches (clean (entryFile "/var/lib/infra" "compute-1" "*.entry.log"))
        (clean (entryFile "/var/lib/infra" "compute-10" ".entry.log")) := by decide +kernel
    exact selected

end Infrastructure.Manager
