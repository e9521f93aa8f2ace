import Mathlib.Data.String.Basic
import Infrastructure.Manager.HostPaths
import Infrastructure.Shell.Printer

/-! The shell script that takes a compute instance into its root file system, and
what the host's shell reads in it. -/

namespace Infrastructure.Manager

open Shell State Text List Option

def containerInitBin : List Char := ascii "/usr/bin/infra-container-init"

/-- The part of a request that the entry script depends on. -/
structure ComputeRequest where
  uid : String
  hostname : String
  env : List (String × String)
  distinct : (env.map Prod.fst).Nodup
  privileged : Bool

def ComputeRequest.sortedEnv (req : ComputeRequest) : List (String × String) :=
  req.env.mergeSort fun first second => first.1 ≤ second.1

def fill : List Char → List (List Char) → List Char
  | '%' :: 's' :: rest, argument :: arguments => argument ++ fill rest arguments
  | '%' :: 'd' :: rest, argument :: arguments => argument ++ fill rest arguments
  | c :: rest, arguments => c :: fill rest arguments
  | [], _ => []

/-- `fmt.Sprintf` for the verbs `%s` and `%d`, with the arguments as text. -/
def sprintf (format : String) (arguments : List (List Char)) : List Char :=
  fill (ascii format) arguments

/-- `strings.ReplaceAll(value, "'", "'\\''")`. -/
def replaceQuotes (val : String) : List Char :=
  val.toList.flatMap fun c => if c = '\'' then ascii "'\\''" else [c]

def shellArgument (val : String) : List Char := '\'' :: (replaceQuotes val ++ ['\''])

/-- The devices of an unprivileged instance, with their numbers. -/
def devices : List (String × String × String) :=
  [("null", "1", "3"), ("zero", "1", "5"), ("full", "1", "7"), ("random", "1", "8"),
    ("urandom", "1", "9"), ("tty", "5", "0")]

/-- The special file systems of the instance. -/
def mountScript (privileged : Bool) (rootfs : List Char) : List Char :=
  if privileged then
    sprintf "mount --rbind /sys %s/sys\n" [rootfs] ++
    sprintf "mount --rbind /dev %s/dev\n" [rootfs]
  else
    [sprintf "mount -t sysfs -o ro,nosuid,nodev,noexec sysfs %s/sys\n" [rootfs],
      sprintf "mount -t tmpfs -o nosuid,noexec,mode=755 tmpfs %s/dev\n" [rootfs],
      devices.flatMap fun (name, major, minor) =>
        sprintf "mknod -m 666 %s/dev/%s c %d %d\n"
          [rootfs, ascii name, ascii major, ascii minor],
      sprintf "mkdir -p %s/dev/pts\n" [rootfs],
      sprintf
        "mount -t devpts -o newinstance,nosuid,noexec,mode=620,ptmxmode=666 devpts %s/dev/pts\n"
        [rootfs],
      sprintf "ln -s pts/ptmx %s/dev/ptmx\n" [rootfs]].flatten

/-- The last line: the command runs under the shell found in the root file system. -/
def execScript (privileged hasContainerInit : Bool) (shell : List Char) (entryCmd : String) :
    List Char :=
  if !privileged && hasContainerInit && shell ≠ [] then
    sprintf "exec %s -- %s -c '%s'\n" [containerInitBin, shell, replaceQuotes entryCmd]
  else if !privileged && hasContainerInit then
    sprintf "exec %s -- %s\n" [containerInitBin, entryCmd.toList]
  else if shell ≠ [] then sprintf "exec %s -c '%s'\n" [shell, replaceQuotes entryCmd]
  else sprintf "exec %s\n" [entryCmd.toList]

def buildEntryScript (req : ComputeRequest) (rootfs : List Char) (entryCmd : String)
    (shell cgroupProcs : List Char) (hasCgroup hasContainerInit : Bool) : List Char :=
  ascii "#!/bin/sh\n" ++
  [ascii "set -eu\n",
    ascii "mount --make-rprivate /\n",
    if hasCgroup then sprintf "echo $$ > %s 2>/dev/null\n" [cgroupProcs] else [],
    if req.hostname = "" then []
    else sprintf "hostname %s 2>/dev/null\n" [shellArgument req.hostname],
    req.sortedEnv.flatMap fun (name, val) =>
      sprintf "export %s=%s\n" [shellArgument name, shellArgument val],
    sprintf "mkdir -p %s/proc %s/sys %s/dev 2>/dev/null\n" [rootfs, rootfs, rootfs],
    sprintf "mount -t proc proc %s/proc 2>/dev/null\n" [rootfs],
    mountScript req.privileged rootfs,
    if hasContainerInit then
      sprintf "mkdir -p %s/usr/bin 2>/dev/null\n" [rootfs] ++
      sprintf "cp %s %s/usr/bin/infra-container-init 2>/dev/null\n" [containerInitBin, rootfs]
    else [],
    sprintf "mount --rbind %s %s\n" [rootfs, rootfs],
    sprintf "cd %s\n" [rootfs],
    ascii "mkdir -p .old_root\n",
    ascii "pivot_root . .old_root\n",
    ascii "cd /\n",
    ascii "umount -l /.old_root 2>/dev/null\n",
    ascii "rmdir /.old_root 2>/dev/null\n",
    if req.privileged then
      ascii "mkdir -p /sys/fs/cgroup 2>/dev/null\n" ++
      ascii "mount -t cgroup2 none /sys/fs/cgroup 2>/dev/null || true\n"
    else [],
    execScript req.privileged hasContainerInit shell entryCmd].flatten

/-- What the agent can see on the host: regular non-empty files, and paths that exist. -/
structure HostFiles where
  regular : List Char → Bool
  present : List Char → Bool

def rootfsShell (host : HostFiles) (rootfs : List Char) : Option (List Char) :=
  [ascii "/bin/sh", ascii "/bin/ash", (ascii "/bin/bash")].find? fun cand =>
    host.regular (joinText [rootfs, cand])

structure ComputeBackend where
  stateDir : String
  cgroupBase : String

/-- The agent looks for the directory of the compute's control group. -/
def ComputeBackend.hasCgroup (backend : ComputeBackend) (host : HostFiles)
    (req : ComputeRequest) : Bool :=
  host.present (clean (procsFile backend.cgroupBase req.uid)).parent.render

/-- The script that `startEntrypoint` writes for the command `entryCmd`. -/
def ComputeBackend.entryScript (backend : ComputeBackend) (host : HostFiles) (req : ComputeRequest)
    (entryCmd : String) : Except Error (List Char) :=
  match rootfsShell host (rootfsPath backend.stateDir req.uid) with
  | none => .error (.new "manager: rootfs has no shell")
  | some shell =>
    .ok (buildEntryScript req (rootfsPath backend.stateDir req.uid) entryCmd shell
      (procsFile backend.cgroupBase req.uid) (backend.hasCgroup host req)
      (host.present containerInitBin))

def fixed (text : String) : Phrase := .word [.bare (ascii text)]

def within (rootfs : List Char) (text : String) : Phrase := .word [.bare rootfs, .bare (ascii text)]

def commandLine (command : String) (arguments : List Phrase) : Line :=
  { command := [.bare (ascii command)], arguments }

def deviceLine (rootfs : List Char) (device : String × String × String) : Line :=
  commandLine "mknod" [fixed "-m", fixed "666",
    .word [.bare rootfs, .bare (ascii "/dev/"), .bare (ascii device.1)], fixed "c",
    fixed device.2.1, fixed device.2.2]

def mountLines (privileged : Bool) (rootfs : List Char) : List Line :=
  if privileged then
    [commandLine "mount" [fixed "--rbind", fixed "/sys", within rootfs "/sys"],
      commandLine "mount" [fixed "--rbind", fixed "/dev", within rootfs "/dev"]]
  else
    [[commandLine "mount" [fixed "-t", fixed "sysfs", fixed "-o", fixed "ro,nosuid,nodev,noexec",
        fixed "sysfs", within rootfs "/sys"]],
      [commandLine "mount" [fixed "-t", fixed "tmpfs", fixed "-o", fixed "nosuid,noexec,mode=755",
        fixed "tmpfs", within rootfs "/dev"]],
      devices.map (deviceLine rootfs),
      [commandLine "mkdir" [fixed "-p", within rootfs "/dev/pts"]],
      [commandLine "mount" [fixed "-t", fixed "devpts", fixed "-o",
        fixed "newinstance,nosuid,noexec,mode=620,ptmxmode=666", fixed "devpts",
          within rootfs "/dev/pts"]],
      [commandLine "ln" [fixed "-s", fixed "pts/ptmx", within rootfs "/dev/ptmx"]]].flatten

def execLine (privileged hasContainerInit : Bool) (shell : List Char) (entryCmd : String) : Line :=
  if !privileged && hasContainerInit then
    commandLine "exec" [.word [.bare containerInitBin], fixed "--", .word [.bare shell], fixed "-c",
      .word [.quoted entryCmd.toList]]
  else commandLine "exec" [.word [.bare shell], fixed "-c", .word [.quoted entryCmd.toList]]

def exportLine (setting : String × String) : Line :=
  commandLine "export" [.word [.quoted setting.1.toList, .bare ['='], .quoted setting.2.toList]]

/-- The commands of the entry script; a tenant's string is a literal word or part of one. -/
def entryLines (req : ComputeRequest) (rootfs : List Char) (entryCmd : String)
    (shell cgroupProcs : List Char) (hasCgroup hasContainerInit : Bool) : List Line :=
  [[commandLine "set" [fixed "-eu"]],
    [commandLine "mount" [fixed "--make-rprivate", fixed "/"]],
    if hasCgroup then
      [commandLine "echo" [.word [.parameter '$'], .output [.bare cgroupProcs], .silent]]
    else [],
    if req.hostname = "" then []
    else [commandLine "hostname" [.word [.quoted req.hostname.toList], .silent]],
    req.sortedEnv.map exportLine,
    [commandLine "mkdir" [fixed "-p", within rootfs "/proc", within rootfs "/sys",
      within rootfs "/dev", .silent]],
    [commandLine "mount" [fixed "-t", fixed "proc", fixed "proc", within rootfs "/proc", .silent]],
    mountLines req.privileged rootfs,
    if hasContainerInit then
      [commandLine "mkdir" [fixed "-p", within rootfs "/usr/bin", .silent],
        commandLine "cp" [.word [.bare containerInitBin],
          within rootfs "/usr/bin/infra-container-init", .silent]]
    else [],
    [commandLine "mount" [fixed "--rbind", .word [.bare rootfs], .word [.bare rootfs]]],
    [commandLine "cd" [.word [.bare rootfs]]],
    [commandLine "mkdir" [fixed "-p", fixed ".old_root"]],
    [commandLine "pivot_root" [fixed ".", fixed ".old_root"]],
    [commandLine "cd" [fixed "/"]],
    [commandLine "umount" [fixed "-l", fixed "/.old_root", .silent]],
    [commandLine "rmdir" [fixed "/.old_root", .silent]],
    if req.privileged then
      [commandLine "mkdir" [fixed "-p", fixed "/sys/fs/cgroup", .silent],
        { commandLine "mount" [fixed "-t", fixed "cgroup2", fixed "none", fixed "/sys/fs/cgroup",
          .silent]
          with ending := .orElse },
        commandLine "true" []]
    else [],
    [execLine req.privileged hasContainerInit shell entryCmd]].flatten

theorem mountScript_prints (privileged : Bool) (rootfs : List Char) :
    Prints (mountScript privileged rootfs) (mountLines privileged rootfs) := by
  apply Prints.ite
  · intro _
    exact .append (.line rfl) (.line rfl)
  · intro _
    have device (device : String × String × String) : (deviceLine rootfs device).print [] =
        sprintf "mknod -m 666 %s/dev/%s c %d %d\n" [rootfs, ascii device.1, ascii device.2.1,
          ascii device.2.2] := rfl
    exact .flatten (.cons (.line rfl) (.cons (.line rfl) (.cons (.flatMap device devices)
      (.cons (.line rfl) (.cons (.line rfl) (.cons (.line rfl) .nil))))))

theorem execScript_prints (privileged init : Bool) {shell : List Char} (got : shell ≠ [])
    (entryCmd : String) : Prints (execScript privileged init shell entryCmd)
    [execLine privileged init shell entryCmd] := by
  -- the format closes the quotes that `singleQuoted` closes itself
  have closing : singleQuoted entryCmd.toList ++ ['\n'] =
      '\'' :: (replaceQuotes entryCmd ++ ['\'', '\n']) := by
    rw [singleQuoted, cons_append, append_assoc]
    rfl
  apply Prints.line
  rw [execScript, execLine]
  by_cases guarded : (!privileged && init) = true
  · rw [if_pos guarded, if_pos (by simpa [got] using guarded)]
    exact congrArg (fun text => ascii "exec " ++ (containerInitBin ++ (ascii " -- " ++ (shell ++
      (ascii " -c " ++ text))))) closing
  · rw [if_neg guarded, if_neg (by simp [guarded]), if_neg guarded, if_pos got]
    exact congrArg (fun text => ascii "exec " ++ (shell ++ (ascii " -c " ++ text))) closing

theorem buildEntryScript_prints (req : ComputeRequest) (rootfs : List Char) (entryCmd : String)
    {shell : List Char} (got : shell ≠ []) (cgroupProcs : List Char) (hasCgroup init : Bool) :
    ∃ body, Prints body (entryLines req rootfs entryCmd shell cgroupProcs hasCgroup init) ∧
      buildEntryScript req rootfs entryCmd shell cgroupProcs hasCgroup init =
        ascii "#!/bin/sh\n" ++ body := by
  have setting (setting : String × String) : (exportLine setting).print [] =
      sprintf "export %s=%s\n" [shellArgument setting.1, shellArgument setting.2] := rfl
  refine ⟨_, .flatten ?_, rfl⟩
  refine .cons (.line rfl) (.cons (.line rfl) (.cons (.ite (fun _ => .line rfl) fun _ => .nil)
    (.cons (.ite (fun _ => .nil) fun _ => .line rfl) (.cons (.flatMap setting _)
    (.cons (.line rfl) (.cons (.line rfl) (.cons (mountScript_prints _ _) (.cons ?_
    (.cons (.line rfl) (.cons (.line rfl) (.cons (.line rfl) (.cons (.line rfl) (.cons (.line rfl)
    (.cons (.line rfl) (.cons (.line rfl) (.cons ?_
    (.cons (execScript_prints _ _ got _) .nil)))))))))))))))))
  · exact .ite (fun _ => .append (.line rfl) (.line rfl)) fun _ => .nil
  · exact .ite (fun _ => .append (.line rfl) rfl) fun _ => .nil

def isCommand (command : String) : Bool :=
  areSound [.bare (ascii command)] && !isReserved (spell [.bare (ascii command)])

theorem commandLine_isSound (command : String) (arguments : List Phrase) :
    (commandLine command arguments).isSound = (isCommand command && arguments.all Phrase.isSound) :=
  rfl

theorem word_isSound (text : List Char) : (Phrase.word [.bare text]).isSound = isBare text := by
  simp [Phrase.isSound, areSound, Part.isSound]

section

variable {rootfs : List Char} (bare : isBare rootfs = true)

include bare

theorem within_isSound (text : String) : (within rootfs text).isSound = isBare (ascii text) := by
  simp [within, Phrase.isSound, areSound, Part.isSound, bare]

theorem deviceLine_isSound (device : String × String × String) :
    (deviceLine rootfs device).isSound =
      (isBare (ascii device.1) && isBare (ascii device.2.1) && isBare (ascii device.2.2)) := by
  have command : isCommand "mknod" = true := by decide +kernel
  have options : ((fixed "-m").isSound && (fixed "666").isSound && (fixed "c").isSound) = true := by
    decide +kernel
  have dir : isBare (ascii "/dev/") = true := by decide +kernel
  simp_all [deviceLine, commandLine_isSound, Phrase.isSound, areSound, Part.isSound, fixed,
    Bool.and_assoc]

theorem mountLines_sound (privileged : Bool) :
    (mountLines privileged rootfs).all Line.isSound = true := by
  cases privileged with
  | true =>
    simp only [mountLines, if_true, List.all_cons, List.all_nil, commandLine_isSound,
      within_isSound bare]
    decide +kernel
  | false =>
    simp only [mountLines, Bool.false_eq_true, if_false, List.all_flatten, List.all_map,
      Function.comp_def, deviceLine_isSound bare, List.all_cons, List.all_nil, commandLine_isSound,
      within_isSound bare]
    decide +kernel

theorem entryLines_sound (req : ComputeRequest) (entryCmd : String) {shell : List Char}
    (shellBare : isBare shell = true) {cgroupProcs : List Char} {hasCgroup : Bool}
    (cgroupBare : hasCgroup = true → isBare cgroupProcs = true) (hasContainerInit : Bool) :
    (entryLines req rootfs entryCmd shell cgroupProcs hasCgroup hasContainerInit).all Line.isSound =
      true := by
  rw [entryLines, List.all_flatten]
  simp only [List.all_cons, List.all_nil, Bool.and_true, Bool.and_eq_true, commandLine_isSound,
    within_isSound bare, word_isSound, bare]
  refine ⟨by decide +kernel, by decide +kernel, ?cgroup, ?hostname, ?environment, by decide +kernel,
    by decide +kernel, mountLines_sound bare _, ?init, by decide +kernel, by decide +kernel,
    by decide +kernel, by decide +kernel, by decide +kernel, by decide +kernel, by decide +kernel,
    ?privileged, ?exec⟩
  case cgroup =>
    cases hasCgroup with
    | false => rfl
    | true =>
      have sound : Phrase.isSound (.output [.bare cgroupProcs]) = true := by
        simp [Phrase.isSound, areSound, Part.isSound, cgroupBare rfl]
      simp only [if_true, List.all_cons, List.all_nil, commandLine_isSound, sound]
      decide +kernel
  case hostname => split <;> rfl
  case environment =>
    simp only [List.all_map, List.all_eq_true]
    intro setting mem
    rfl
  case init =>
    cases hasContainerInit with
    | false => rfl
    | true =>
      simp only [if_true, List.all_cons, List.all_nil, commandLine_isSound, within_isSound bare]
      decide +kernel
  case privileged => cases req.privileged <;> decide +kernel
  case exec =>
    rw [execLine]
    split
    all_goals
      simp only [commandLine_isSound, List.all_cons, List.all_nil, word_isSound, shellBare]
      rfl

end

theorem rootfsShell_bare {host : HostFiles} {rootfs shell : List Char}
    (got : rootfsShell host rootfs = some shell) : isBare shell = true := by
  have seen := mem_of_find?_eq_some got
  have all : [ascii "/bin/sh", ascii "/bin/ash", ascii "/bin/bash"].all isBare = true := by
    decide +kernel
  exact List.all_eq_true.mp all shell seen

theorem entryScript_of_found (backend : ComputeBackend) (host : HostFiles) (req : ComputeRequest)
    (entryCmd : String) {shell : List Char}
    (got : rootfsShell host (rootfsPath backend.stateDir req.uid) = some shell) :
    backend.entryScript host req entryCmd =
      .ok (buildEntryScript req (rootfsPath backend.stateDir req.uid) entryCmd shell
        (procsFile backend.cgroupBase req.uid) (backend.hasCgroup host req)
        (host.present containerInitBin)) := by
  simp only [ComputeBackend.entryScript, got]

/-- The commands that the entry script is meant to be, whatever strings the tenant chose. -/
def ComputeBackend.entryCommands (backend : ComputeBackend) (host : HostFiles)
    (req : ComputeRequest) (entryCmd : String) (shell : List Char) : List Command :=
  (entryLines req (rootfsPath backend.stateDir req.uid) entryCmd shell
    (procsFile backend.cgroupBase req.uid) (backend.hasCgroup host req)
    (host.present containerInitBin)).map Line.meaning

theorem parse_buildEntryScript (req : ComputeRequest) {rootfs : List Char}
    (bare : isBare rootfs = true) (entryCmd : String) {shell : List Char}
    (shellBare : isBare shell = true) {cgroupProcs : List Char} {hasCgroup : Bool}
    (cgroupBare : hasCgroup = true → isBare cgroupProcs = true) (init : Bool) :
    parse (buildEntryScript req rootfs entryCmd shell cgroupProcs hasCgroup init) =
      some ((entryLines req rootfs entryCmd shell cgroupProcs hasCgroup init).map
        Line.meaning) := by
  have got : shell ≠ [] := (isBare_iff.mp shellBare).1
  obtain ⟨body, printed, text⟩ :=
    buildEntryScript_prints req rootfs entryCmd got cgroupProcs hasCgroup init
  have skipped : run initial (ascii "#!/bin/sh\n") = some (initial, []) := by decide +kernel
  have sound := List.all_eq_true.mp (entryLines_sound bare req entryCmd shellBare cgroupBare init)
  rw [text, ← printed]
  apply parse_printLines skipped sound
  · rw [entryLines]
    exact cons_ne_nil _ _
  · have last : (entryLines req rootfs entryCmd shell cgroupProcs hasCgroup init).getLast? =
        some (execLine req.privileged init shell entryCmd) := by
      simp only [entryLines, flatten_cons, flatten_nil, append_nil, List.getLast?_append,
        List.getLast?_singleton, some_or]
    simp only [following, last, execLine]
    split <;> rfl

/-- The script is read as intended exactly when the two paths derived from the uid, which it does
not quote, hold only ordinary characters. -/
theorem entryScript_read_iff (backend : ComputeBackend) (host : HostFiles) (req : ComputeRequest)
    (entryCmd : String) {shell script : List Char}
    (found : rootfsShell host (rootfsPath backend.stateDir req.uid) = some shell)
    (built : backend.entryScript host req entryCmd = .ok script) :
    parse script = some (backend.entryCommands host req entryCmd shell) ↔
      isBare (rootfsPath backend.stateDir req.uid) = true ∧
        (backend.hasCgroup host req = true →
          isBare (procsFile backend.cgroupBase req.uid) = true) := by
  rw [entryScript_of_found backend host req entryCmd found] at built
  cases built
  constructor
  · intro read
    constructor
    · -- `mkdir -p` names a directory below the root file system
      have listed : commandLine "mkdir" [fixed "-p",
          within (rootfsPath backend.stateDir req.uid) "/proc",
          within (rootfsPath backend.stateDir req.uid) "/sys",
          within (rootfsPath backend.stateDir req.uid) "/dev", .silent] ∈
            entryLines req (rootfsPath backend.stateDir req.uid) entryCmd shell
              (procsFile backend.cgroupBase req.uid) (backend.hasCgroup host req)
              (host.present containerInitBin) := by
        simp only [entryLines, flatten_cons, mem_append, mem_singleton, true_or, or_true]
      have spelled : (within (rootfsPath backend.stateDir req.uid) "/proc").item.text =
          (rootfsPath backend.stateDir req.uid ++ ascii "/proc").map .bare := by
        rw [map_append]
        exact congrArg (_ ++ ·) (append_nil _)
      exact isBare_of_parse read listed (.tail _ (.head _)) spelled (render_ne_nil _)
    · intro hasCgroup
      have listed : commandLine "echo" [.word [.parameter '$'],
          .output [.bare (procsFile backend.cgroupBase req.uid)], .silent] ∈
            entryLines req (rootfsPath backend.stateDir req.uid) entryCmd shell
              (procsFile backend.cgroupBase req.uid) (backend.hasCgroup host req)
              (host.present containerInitBin) := by
        simp only [entryLines, hasCgroup, if_true, flatten_cons, mem_append, mem_singleton, true_or,
          or_true]
      have spelled : (Phrase.output [.bare (procsFile backend.cgroupBase req.uid)]).item.text =
          (procsFile backend.cgroupBase req.uid ++ []).map .bare := by
        rw [append_nil]
        exact append_nil _
      exact isBare_of_parse read listed (.tail _ (.head _)) spelled (render_ne_nil _)
  · rintro ⟨bare, cgroupBare⟩
    exact parse_buildEntryScript req bare entryCmd (rootfsShell_bare found) cgroupBare _

/-- The text of a word that nothing in it is expanded in. -/
def plainWord (word : Word) : Option (List Char) :=
  word.mapM fun
    | .bare c | .quoted c => some c
    | _ => none

def plainItem : Item → Option (List Char)
  | .word word => plainWord word
  | .redirect _ _ _ => none

/-- The words of a script of one simple command, if they are all that it has. -/
def readWords (script : List Char) : Option (List (List Char)) :=
  match parse script with
  | some [] => some []
  | some [⟨items, .sequence⟩] => items.mapM plainItem
  | _ => none

def quotedLine (words : List String) : List Char := [' '].intercalate (words.map shellArgument)

theorem isReserved_quoted (text : List Char) : isReserved (text.map .quoted) = false := by
  rw [isReserved, List.any_eq_false]
  intro name seen eq
  have first := congrArg List.head? (of_decide_eq_true eq)
  have named : ∀ name ∈ reservedWords, (ascii name).head?.isSome := by decide
  obtain ⟨c, starts⟩ := Option.isSome_iff_exists.mp (named name seen)
  cases text <;> simp [starts] at first

theorem plainWord_quoted (text : List Char) : plainWord (text.map .quoted) = some text := by
  induction text with
  | nil => rfl
  | cons c text ih =>
    rw [plainWord] at ih ⊢
    rw [map_cons, mapM_cons, ih]
    rfl

/-- Each word but the last ends at a blank; the end of the text ends the last one. -/
theorem run_quotedLine (word : String) (words : List String) {expect : Expect}
    (begins : expect = .start ∨ expect = .more) :
    ∃ state events, run ⟨.blank, expect⟩ (quotedLine (word :: words)) = some (state, events) ∧
      ∃ more, finish state = some more ∧ events ++ more =
        (word :: words).map (fun word => .item (.word (word.toList.map .quoted))) ++
          [.stop .sequence] := by
  have ok (word : String) {expect : Expect} (begins : expect = .start ∨ expect = .more) :
      accept expect (.word (word.toList.map .quoted)) =
        some (.more, [.item (.word (word.toList.map .quoted))]) := by
    rcases begins with rfl | rfl <;> simp [accept, isReserved_quoted]
  have read (word : String) (expect : Expect) (rest : List Char) :
      run ⟨.blank, expect⟩ (shellArgument word ++ rest) =
      run ⟨.word (word.toList.map .quoted), expect⟩ rest := by
    have spelled : spell [.quoted word.toList] = word.toList.map .quoted := append_nil _
    have sound : areSound [.quoted word.toList] = true := rfl
    rw [← spelled, ← run_word rest sound]
    rfl
  induction words generalizing word expect with
  | nil =>
    have whole : quotedLine [word] = shellArgument word ++ [] := by
      simp [quotedLine, List.intercalate]
    rw [whole, read]
    refine ⟨_, [], rfl, _, ?_, rfl⟩
    simp [finish, lexEnd, acceptAll, ok word begins]
  | cons next words ih =>
    obtain ⟨state, events, ran, more, finished, eq⟩ := ih next (.inr rfl)
    have split : quotedLine (word :: next :: words) = shellArgument word ++
        ' ' :: quotedLine (next :: words) := by
      simp [quotedLine, intercalate_cons_cons]
    rw [split, read, run_cons (step_space (ok word begins)), ran]
    refine ⟨state, _, rfl, more, finished, ?_⟩
    rw [append_assoc, eq]
    rfl

theorem readWords_quotedLine (words : List String) :
    readWords (quotedLine words) = some (words.map String.toList) := by
  cases words with
  | nil => rfl
  | cons word words =>
    obtain ⟨state, events, ran, more, finished, eq⟩ := run_quotedLine word words (.inl rfl)
    have got : parse (quotedLine (word :: words)) = some (group [] (events ++ more)) := by
      simp only [parse, initial, ran, finished, map_some]
    have grouped (items : List Item) (words : List String) :
        group items (words.map (fun word => .item (.word (word.toList.map .quoted))) ++
          [.stop .sequence]) =
          [⟨items ++ words.map fun word => .word (word.toList.map .quoted), .sequence⟩] := by
      induction words generalizing items with
      | nil => simp [group]
      | cons word words ih => simp [group, ih]
    have plain (words : List String) :
        (words.map fun word => Item.word (word.toList.map .quoted)).mapM plainItem =
        some (words.map String.toList) := by
      induction words with
      | nil => rfl
      | cons word words ih =>
        rw [map_cons, mapM_cons, ih, plainItem, plainWord_quoted]
        rfl
    rw [readWords, got, eq, grouped]
    exact plain (word :: words)

/-- A shell reads a quoted string back as one word, and a line of quoted words that is quoted once
more for a nested shell gives the words after both have read it. -/
theorem quoting_composes (val : String) (before words : List String) :
    readWords (shellArgument val) = some [val.toList] ∧
      ((readWords (quotedLine (before ++ [String.ofList (quotedLine words)]))).bind fun outer =>
        outer.getLast?.bind readWords) = some (words.map String.toList) := by
  constructor
  · simpa [quotedLine, List.intercalate] using readWords_quotedLine [val]
  · rw [readWords_quotedLine, bind_some, map_append, map_singleton, List.getLast?_concat,
      bind_some, String.toList_ofList, readWords_quotedLine]

def sampleBackend : ComputeBackend := ⟨"/var/lib/infra", "/sys/fs/cgroup"⟩

/-- A host on which every file that the agent looks for is there. -/
def sampleHost : HostFiles := ⟨fun _ => true, fun _ => true⟩

def sampleRequest (uid : String) : ComputeRequest :=
  { uid, hostname := "web", env := [("MODE", "it's $(id)")], distinct := by decide,
    privileged := false }

theorem entryScript_read_plain_uid : ∃ script,
      rootfsShell sampleHost (rootfsPath "/var/lib/infra" "a1") = some (ascii "/bin/sh") ∧
      sampleBackend.entryScript sampleHost (sampleRequest "a1") "/bin/serve" = .ok script ∧
        parse script = some
        (sampleBackend.entryCommands sampleHost (sampleRequest "a1") "/bin/serve"
          (ascii "/bin/sh")) := by
  have found : rootfsShell sampleHost (rootfsPath "/var/lib/infra" "a1") =
      some (ascii "/bin/sh") := by
    decide +kernel
  have built :=
    entryScript_of_found sampleBackend sampleHost (sampleRequest "a1") "/bin/serve" found
  exact ⟨_, found, built, (entryScript_read_iff sampleBackend sampleHost (sampleRequest "a1")
    "/bin/serve" found built).mpr (by decide +kernel)⟩

/-- The uid ends the command that it is spelled in, and its next word is run. -/
theorem uid_runs_reboot : ∃ script commands,
      rootfsShell sampleHost (rootfsPath "/var/lib/infra" "a;reboot;") = some (ascii "/bin/sh") ∧
      sampleBackend.entryScript sampleHost (sampleRequest "a;reboot;") "/bin/serve" = .ok script ∧
      parse script = some commands ∧ ⟨[.word ((ascii "reboot").map .bare)], .sequence⟩ ∈ commands ∧
      commands ≠ sampleBackend.entryCommands sampleHost (sampleRequest "a;reboot;") "/bin/serve"
        (ascii "/bin/sh") := by
  have found : rootfsShell sampleHost (rootfsPath "/var/lib/infra" "a;reboot;") =
      some (ascii "/bin/sh") := by decide +kernel
  have built :=
    entryScript_of_found sampleBackend sampleHost (sampleRequest "a;reboot;") "/bin/serve"
    found
  have run : (parse (buildEntryScript (sampleRequest "a;reboot;")
      (rootfsPath "/var/lib/infra" "a;reboot;") "/bin/serve" (ascii "/bin/sh")
      (procsFile "/sys/fs/cgroup" "a;reboot;") true true)).any (fun commands =>
        decide (⟨[.word ((ascii "reboot").map .bare)], .sequence⟩ ∈ commands ∧
          commands ≠ sampleBackend.entryCommands sampleHost (sampleRequest "a;reboot;") "/bin/serve"
            (ascii "/bin/sh"))) = true := by
    decide +kernel
  obtain ⟨commands, read, facts⟩ := (any_eq_true _ _).mp run
  obtain ⟨run, differs⟩ := of_decide_eq_true facts
  exact ⟨_, commands, found, built, read, run, differs⟩

end Infrastructure.Manager
