import Infrastructure.Domain.Kind
import Infrastructure.Registry.Updates
import Infrastructure.State.FileStore

/-! What the registry calls for one kind and uid reach on the file store. -/

namespace Infrastructure.Registry

open Concurrency State Domain Text List Program Path

def ClientCall.uid {S ST : Type} : ClientCall S ST → Option String
  | .get uid => some uid
  | .put res => some res.metadata.uid
  | .tryUpdate uid _ => some uid
  | .delete uid => some uid
  | .list => none

variable (fs : FileStore) (kind : Kind) (uid : String)

/-- Every file operation behind a store operation is allowed. -/
def Through (ok : FileOp → Prop) : Op → Prop
  | .get key => (fs.get key).Uses ok fun _ => True
  | .put key val => (fs.put key val).Uses ok fun _ => True
  | .delete key => (fs.delete key).Uses ok fun _ => True
  | .keys dir => (fs.list dir).Uses ok fun _ => True
  | .cas key old new => (fs.compareAndSwap key old new).Uses ok fun _ => True
  | _ => True

/-- Every file operation behind a registry call for the kind and uid is allowed. -/
def Keeps (ok : FileOp → Prop) : Prop :=
  ∀ (S ST : Type) (r : Registry S ST) (call : ClientCall S ST),
    r.kind = kind.text → call.uid = some uid →
    (call.run r).Uses (Through fs ok) fun _ => True

def kindDir : Path := fs.base.child kind.name

/-- The record of a kind and uid is the file that the uid names in the kind's directory. -/
def IsRecord (path : Path) : Prop :=
  ∃ name : Name, name.text = uid.toList ∧ path = (kindDir fs kind).child name

def IsScratch (path : Path) : Prop := ∃ n, path = (kindDir fs kind).child (tempName n)

/-- The operation is on the record, on a temporary file beside it or on the lock. -/
def OnRecord : FileOp → Prop
  | .mkdirAll dir _ => dir = fs.base ∨ dir = kindDir fs kind
  | .openLock path _ => path = fs.base.child lockName
  | .readFile path => IsRecord fs kind uid path
  | .readDir _ => False
  | .createTemp dir => dir = kindDir fs kind
  | .writeTemp dir _ _ => dir = kindDir fs kind
  | .chmodTemp dir _ _ => dir = kindDir fs kind
  | .syncTemp dir _ => dir = kindDir fs kind
  | .closeTemp dir _ => dir = kindDir fs kind
  | .rename src t => IsScratch fs kind src ∧ IsRecord fs kind uid t
  | .remove path => IsRecord fs kind uid path ∨ IsScratch fs kind path
  | .openRoot dir => dir = fs.base
  | .openDir dir => dir = kindDir fs kind
  | .syncDir dir => dir = kindDir fs kind
  | .lock | .unlock | .closeLock | .closeRoot | .closeDir => True

/-- The files an operation reads, writes, renames or removes. -/
def files : FileOp → List Path
  | .openLock path _ => [path]
  | .readFile path => [path]
  | .writeTemp dir n _ => [dir.child (tempName n)]
  | .chmodTemp dir n _ => [dir.child (tempName n)]
  | .syncTemp dir n => [dir.child (tempName n)]
  | .closeTemp dir n => [dir.child (tempName n)]
  | .rename src t => [src, t]
  | .remove path => [path]
  | _ => []

def pairKey : String := kind.text ++ "/" ++ uid

/-- Calls for one pair stay on its record, and neither of two distinct pairs reaches the other's
file. -/
def Isolated (first second : Kind × String) : Prop :=
  Keeps fs first.1 first.2 (OnRecord fs first.1 first.2) ∧
  Keeps fs second.1 second.2 (OnRecord fs second.1 second.2) ∧
  (first ≠ second →
    (∀ path, fs.resolve (pairKey first.1 first.2) = .ok path →
      Keeps fs second.1 second.2 fun op => path ∉ files op) ∧
    ∀ path, fs.resolve (pairKey second.1 second.2) = .ok path →
      Keeps fs first.1 first.2 fun op => path ∉ files op)

section

variable {S ST : Type} {r : Registry S ST} {ok : Op → Prop} {uid : String}

theorem get_uses (read : ok (.get (r.key uid))) : (r.get uid).Uses ok fun _ => True := by
  refine Uses.perform read ?_
  rintro (err | data) <;> trivial

end

section

variable {fs : FileStore} {kind : Kind} {uid : String} {ok : FileOp → Prop}

theorem keeps_of_issued (covers : ∀ op, fs.Issued (pairKey kind uid) op → ok op) :
    Keeps fs kind uid ok := by
  intro S ST r call sameKind sameUid
  have keyed : r.key uid = pairKey kind uid := by
    rw [key, sameKind, pairKey]
  have read : Through fs ok (.get (r.key uid)) := by
    rw [keyed]
    exact fs.get_issued.mono covers fun _ _ => trivial
  have removed : Through fs ok (.delete (r.key uid)) := by
    rw [keyed]
    exact fs.delete_issued.mono covers fun _ _ => trivial
  have swapped (old : Option Bytes) (new : Bytes) : Through fs ok (.cas (r.key uid) old new) := by
    rw [keyed]
    exact (fs.compareAndSwap_issued old new).mono covers fun _ _ => trivial
  cases call with
  | get called =>
    obtain rfl : called = uid := Option.some.inj sameUid
    exact (get_uses read).bind fun _ _ => trivial
  | put res =>
    obtain rfl : res.metadata.uid = uid := Option.some.inj sameUid
    exact (put_swaps read fun old new _ => swapped old new).bind fun _ _ => trivial
  | tryUpdate called mutate =>
    obtain rfl : called = uid := Option.some.inj sameUid
    have mutates (res : Resource S ST) : (return mutate res : Prog _).Uses (Through fs ok) fun _ =>
        True := trivial
    exact (tryUpdate_uses read swapped mutates).bind fun _ _ => trivial
  | delete called =>
    obtain rfl : called = uid := Option.some.inj sameUid
    exact (delete_uses removed).bind fun _ _ => trivial
  | list => cases sameUid

/-- A record that some registry can encode. -/
def blank (uid : String) : Resource Unit Unit :=
  ⟨"", "", { uid := uid }, (), ()⟩

def blankRegistry (kind : Kind) (uid : String) : Registry Unit Unit :=
  ⟨kind.text, Codec.ofTable [((blank uid).stamp kind.text, [])] (nodup_singleton _)⟩

theorem Keeps.readFile (keeps : Keeps fs kind uid ok) {path : Path}
    (got : fs.resolve (pairKey kind uid) = .ok path) : ok (.readFile path) := by
  have uses := keeps Unit Unit (blankRegistry kind uid) (.get uid) rfl rfl
  have read : (fs.get (pairKey kind uid)).Uses ok fun _ => True := uses.1
  simp only [FileStore.get, got] at read
  exact read.1

theorem put_blank (kind : Kind) (ne : uid ≠ "") :
    (blankRegistry kind uid).put (blank uid) = (blankRegistry kind uid).swap
    (blank uid) none [] := by
  have enc : (blankRegistry kind uid).codec.marshal ((blank uid).stamp kind.text) = .ok [] := by
    simp [blankRegistry, Codec.ofTable]
  have named : ¬ (blank uid).metadata.uid = "" := ne
  have unread : (blankRegistry kind uid).expected (blank uid) = .ret (.ok none) := rfl
  have kinded : (blankRegistry kind uid).kind = kind.text := rfl
  rw [put, if_neg named, kinded, enc, unread]
  rfl

theorem uses_of_withWriteLock {α : Type} {action : FileProg (Except Error α)}
    (uses : (fs.withWriteLock action).Uses ok fun _ => True) :
    action.Uses ok fun _ => True := by
  have mem := ((uses.2 (.ok ())).2 (.ok ())).2 (.ok ())
  change (action >>= _).Uses ok _ at mem
  exact mem.first

theorem Keeps.writeTemp (keeps : Keeps fs kind uid ok) (ne : uid ≠ "") {path : Path}
    (got : fs.resolve (pairKey kind uid) = .ok path) (n : UInt32) :
    ok (.writeTemp path.parent n []) := by
  have uses := keeps Unit Unit (blankRegistry kind uid) (.put (blank uid)) rfl rfl
  rw [ClientCall.run, put_blank kind ne] at uses
  have swapped : (fs.compareAndSwap (pairKey kind uid) none []).Uses ok fun _ => True := uses.1
  -- the lock is taken, the file is absent and the temporary file gets the number
  have locked := uses_of_withWriteLock swapped
  simp only [FileStore.swapLocked, FileStore.get, got] at locked
  have swaps : (fs.swapOver (pairKey kind uid) none [] none).Uses ok fun _ => True :=
    locked.2 (.error errNotExist)
  have wrote : (fs.putLocked (pairKey kind uid) []).Uses ok fun _ => True := by
    rw [FileStore.swapOver, if_neg (by simp)] at swaps
    exact swaps.first
  simp only [FileStore.putLocked, got] at wrote
  exact ((wrote.2 (.ok ())).2 (.ok n)).1

end

/-- Where a uid leads from the directory of its kind. -/
def lands : List Name := ((⟨.root, [kind.name]⟩ : Path).walk (segments uid.toList)).names

/-- A uid that names a file, or whose dot segments undo the whole key so that it is refused. -/
def Acceptable : Prop := Plain uid.toList ∨ lands kind uid = []

instance : Decidable (Acceptable kind uid) := by unfold Acceptable; infer_instance

theorem pairKey_ne_empty : pairKey kind uid ≠ "" := by
  intro empty
  have text := congrArg String.toList empty
  simp [pairKey] at text

theorem locate_pairKey : FileStore.locate (pairKey kind uid) = lands kind uid := by
  have text : (pairKey kind uid).toList = kind.text.toList ++ '/' :: uid.toList := by
    simp [pairKey]
  have entered : (⟨.root, []⟩ : Path).walk (segments kind.text.toList) = ⟨.root, [kind.name]⟩ := by
    rw [segments_plain kind.text_plain]
    exact enter_name _ kind.name
  rw [FileStore.locate, text, segments_join, walk_append, entered, lands]

theorem resolve_pairKey : fs.resolve (pairKey kind uid) =
    if lands kind uid = [] then .error (.new ("state: invalid key " ++ quoted (pairKey kind uid)))
    else .ok (fs.base.descend (lands kind uid)) := by
  rw [fs.resolve_eq (pairKey_ne_empty kind uid), locate_pairKey]

theorem lands_plain {uid : String} (plain : Plain uid.toList) :
    lands kind uid = [kind.name, ⟨uid.toList, plain⟩] := by
  rw [lands, segments_plain plain]
  exact congrArg Path.names (enter_name _ ⟨uid.toList, plain⟩)

theorem resolve_plain {uid : String} (plain : Plain uid.toList) :
    fs.resolve (pairKey kind uid) = .ok ((kindDir fs kind).child ⟨uid.toList, plain⟩) := by
  rw [resolve_pairKey, lands_plain kind plain, if_neg (cons_ne_nil _ _)]
  simp [kindDir, child_eq_descend]

section

variable {fs : FileStore} {kind : Kind} {uid : String}

theorem plain_of_resolve (acceptable : Acceptable kind uid) {path : Path}
    (got : fs.resolve (pairKey kind uid) = .ok path) :
    ∃ plain : Plain uid.toList, path = (kindDir fs kind).child ⟨uid.toList, plain⟩ := by
  rcases acceptable with plain | refused
  · rw [resolve_plain fs kind plain] at got
    exact ⟨plain, (Except.ok.inj got).symm⟩
  · rw [resolve_pairKey, if_pos refused] at got
    cases got

theorem onRecord_of_issued (acceptable : Acceptable kind uid) {op : FileOp}
    (issued : fs.Issued (pairKey kind uid) op) : OnRecord fs kind uid op := by
  have rcd {path : Path} (got : fs.resolve (pairKey kind uid) = .ok path) :
      IsRecord fs kind uid path ∧ path.parent = kindDir fs kind := by
    obtain ⟨plain, rfl⟩ := plain_of_resolve acceptable got
    exact ⟨⟨_, rfl, rfl⟩, parent_child _ _⟩
  cases op with
  | mkdirAll dir mode =>
    rcases issued with rfl | ⟨path, got, rfl⟩
    · exact Or.inl rfl
    · exact Or.inr (rcd got).2
  | openLock path mode => exact issued
  | readFile path => exact (rcd issued).1
  | readDir dir => exact issued
  | rename src t =>
    obtain ⟨got, n, rfl⟩ := issued
    exact ⟨⟨n, by rw [(rcd got).2]⟩, (rcd got).1⟩
  | remove file =>
    obtain ⟨path, got, rfl | ⟨n, rfl⟩⟩ := issued
    · exact Or.inl (rcd got).1
    · exact Or.inr ⟨n, by rw [(rcd got).2]⟩
  | openRoot dir => exact issued
  | createTemp dir | writeTemp dir n val | chmodTemp dir n mode | syncTemp dir n
  | closeTemp dir n | openDir dir | syncDir dir =>
    obtain ⟨path, got, rfl⟩ := issued
    exact (rcd got).2
  | lock | unlock | closeLock | closeRoot | closeDir => trivial

theorem files_issued {op : FileOp} (issued : fs.Issued (pairKey kind uid) op) {file : Path}
    (named : file ∈ files op) :
    file = fs.base.child lockName ∨ ∃ path, fs.resolve (pairKey kind uid) = .ok path ∧
      (file = path ∨ ∃ n, file = path.parent.child (tempName n)) := by
  cases op with
  | openLock path mode => exact Or.inl ((mem_singleton.mp named).trans issued)
  | readFile path => exact Or.inr ⟨path, issued, Or.inl (mem_singleton.mp named)⟩
  | writeTemp dir n val | chmodTemp dir n mode | syncTemp dir n
  | closeTemp dir n =>
    obtain ⟨path, got, rfl⟩ := issued
    exact Or.inr ⟨path, got, Or.inr ⟨n, mem_singleton.mp named⟩⟩
  | rename src t =>
    obtain ⟨got, n, rfl⟩ := issued
    rcases mem_pair.mp named with rfl | rfl
    · exact Or.inr ⟨t, got, Or.inr ⟨n, rfl⟩⟩
    · exact Or.inr ⟨file, got, Or.inl rfl⟩
  | remove path =>
    cases mem_singleton.mp named
    exact Or.inr issued
  | mkdirAll | readDir | createTemp | openRoot | openDir | syncDir | lock | unlock | closeLock
  | closeRoot | closeDir => cases named

theorem child_kindDir_inj {first snd : Kind} {name name' : Name}
    (eq : (kindDir fs first).child name = (kindDir fs snd).child name') :
    first = snd ∧ name = name' := by
  obtain ⟨dirs, names⟩ := child_inj.mp eq
  exact ⟨Kind.name_inj (child_inj.mp dirs).2, names⟩

/-- Neither of two distinct pairs of one kind has the name of a temporary file as its uid. -/
def ApartFromScratch (first second : Kind × String) : Prop :=
  first ≠ second → first.1 = second.1 → Plain first.2.toList → Plain second.2.toList →
    ∀ n, first.2.toList ≠ tempText n ∧ second.2.toList ≠ tempText n

theorem ApartFromScratch.symm {first snd : Kind × String} (apart : ApartFromScratch first snd) :
    ApartFromScratch snd first := by
  intro nodup eq plain plain' n
  exact (apart nodup.symm eq.symm plain' plain n).symm

theorem keeps_apart {first snd : Kind × String} (acceptable : Acceptable first.1 first.2)
    (acceptable' : Acceptable snd.1 snd.2) (nodup : first ≠ snd)
    (apart : ApartFromScratch first snd) {path : Path}
    (got : fs.resolve (pairKey first.1 first.2) = .ok path) :
    Keeps fs snd.1 snd.2 fun op => path ∉ files op := by
  obtain ⟨plain, rfl⟩ := plain_of_resolve acceptable got
  apply keeps_of_issued
  intro op issued named
  rcases files_issued issued named with locked | ⟨path, found', here⟩
  · exact child_ne_self _ _ (child_inj.mp locked).1
  · obtain ⟨plain', rfl⟩ := plain_of_resolve acceptable' found'
    rcases here with eq | ⟨n, eq⟩
    · obtain ⟨kinds, names⟩ := child_kindDir_inj eq
      exact nodup (Prod.ext kinds (String.toList_inj.mp (congrArg Name.text names)))
    · rw [parent_child] at eq
      obtain ⟨kinds, names⟩ := child_kindDir_inj eq
      exact (apart nodup kinds plain plain' n).1 (congrArg Name.text names)

theorem acceptable_of_keeps (keeps : Keeps fs kind uid (OnRecord fs kind uid)) :
    Acceptable kind uid := by
  by_cases refused : lands kind uid = []
  · exact Or.inr refused
  · have got := resolve_pairKey fs kind uid
    rw [if_neg refused] at got
    obtain ⟨name, text, -⟩ := keeps.readFile got
    rw [Acceptable, ← text]
    exact Or.inl name.plain

theorem not_tempText_of_keeps {first snd : String} (plain : Plain first.toList)
    (plain' : Plain snd.toList) (keeps : ∀ path, fs.resolve (pairKey kind first) = .ok path →
      Keeps fs kind snd fun op => path ∉ files op) (n : UInt32) :
    first.toList ≠ tempText n := by
  intro temporary
  have ne : snd ≠ "" := by
    rintro rfl
    exact plain'.1 rfl
  have avoided := keeps _ (resolve_plain fs kind plain)
  have wrote := avoided.writeTemp ne (resolve_plain fs kind plain') n
  apply wrote
  simp [files, tempName, temporary]

end

theorem isolated_iff (fs : FileStore) (first second : Kind × String) : Isolated fs first second ↔
      Acceptable first.1 first.2 ∧ Acceptable second.1 second.2 ∧
        ApartFromScratch first second := by
  constructor
  · rintro ⟨keeps, keeps', apart⟩
    refine ⟨acceptable_of_keeps keeps, acceptable_of_keeps keeps', ?_⟩
    intro nodup same plain plain' n
    obtain ⟨kind, uid⟩ := first
    obtain ⟨kind', uid'⟩ := second
    obtain rfl : kind = kind' := same
    obtain ⟨left, right⟩ := apart nodup
    exact ⟨not_tempText_of_keeps plain plain' left n,
      not_tempText_of_keeps plain' plain right n⟩
  · rintro ⟨acceptable, acceptable', apart⟩
    refine ⟨keeps_of_issued fun _ => onRecord_of_issued acceptable,
      keeps_of_issued fun _ => onRecord_of_issued acceptable', ?_⟩
    intro nodup
    exact ⟨fun path found => keeps_apart acceptable acceptable' nodup apart found,
      fun path found => keeps_apart acceptable' acceptable nodup.symm apart.symm found⟩

/-- The uid of the decoded path segment `..%2Fsubnet%2Fa1` leads a VPC to a subnet's file. -/
theorem dotted_uid_reaches_subnet :
    (⟨"/var/lib/infra"⟩ : FileStore).resolve (pairKey .vpc "../subnet/a1") =
        (⟨"/var/lib/infra"⟩ : FileStore).resolve (pairKey .subnet "a1") ∧
      ¬ Isolated ⟨"/var/lib/infra"⟩ (.vpc, "../subnet/a1") (.subnet, "a1") := by
  constructor
  · decide +kernel
  · intro isolated
    have acceptable := acceptable_of_keeps isolated.1
    revert acceptable
    decide +kernel

end Infrastructure.Registry
