import Infrastructure.State.Contract
import Infrastructure.State.Tree

/-! The file store keeps the map in its tree: a file for each key, at the path the key leads to. -/

namespace Infrastructure.State

open Concurrency Text Refinement List Option Program

namespace FileStore

variable (fs : FileStore) (draw : Tree → Path → UInt32)

def answerGet : Except Error Bytes → Answer
  | .ok data => .found data
  | .error err => if err.is errNotFound then .missing else .failed err

def answerDone : Except Error Unit → Answer
  | .ok () => .done
  | .error err => .failed err

def answerList : Except Error (List (String × Bytes)) → Answer
  | .ok pairs => .listed pairs
  | .error err => .failed err

def answerSwap : Except Error Bool → Answer
  | .ok applied => .swapped applied
  | .error err => .failed err

def step (tree : Tree) : Call → Answer × Tree
  | .get key => ((fs.get key).run (Tree.exec draw) tree).map answerGet id
  | .put key value => ((fs.put key (value.getD [])).run (Tree.exec draw) tree).map answerDone id
  | .delete key => ((fs.delete key).run (Tree.exec draw) tree).map answerDone id
  | .list dir => ((fs.list dir).run (Tree.exec draw) tree).map answerList id
  | .compareAndSwap key old new =>
    ((fs.compareAndSwap key old (new.getD [])).run (Tree.exec draw) tree).map answerSwap id

def store : Service Call Answer where
  State := Tree
  start := ∅
  step := fs.step draw

/-- Text that is its own cleaned path and names something below the root of a store. -/
def Clean (key : String) : Prop := key.toList = namesText (locate key) ∧ locate key ≠ []

/-- The names that the store uses for itself. -/
def Reserved (names : List Name) : Prop :=
  names.head? = some lockName ∨ ∃ name ∈ names, ".tmp-".toList.isPrefixOf name.text = true

instance (key : String) : Decidable (Clean key) := inferInstanceAs (Decidable (_ ∧ _))

instance (names : List Name) : Decidable (Reserved names) := inferInstanceAs (Decidable (_ ∨ _))

/-- A key the store can hold beside those used before: none leads through another. -/
structure KeyFits (used : List String) (key : String) : Prop where
  clean : Clean key
  free : ¬ Reserved (locate key)
  text : Char.ofNat 0 ∉ key.toList
  apart : ∀ other ∈ used, locate other <+: locate key ∨ locate key <+: locate other → other = key

/-- A directory that the store can list: no key leads to it or through it. -/
structure DirFits (used : List String) (dir : String) : Prop where
  clean : Clean dir
  free : ¬ Reserved (locate dir)
  text : Char.ofNat 0 ∉ dir.toList
  apart : ∀ other ∈ used, ¬ locate other <+: locate dir

/-- The calls that the store serves as the map does. -/
def Serves (contents : Contents) : Call → Prop
  | .get key | .delete key | .put key _ => KeyFits contents.used key
  | .list dir => DirFits contents.used dir
  | .compareAndSwap key old _ =>
    KeyFits contents.used key ∧ ¬ (old = some [] ∧ contents.map key = none)

/-- The key of the file that names lead to. -/
def keyText (names : List Name) : String := .ofList (namesText names)

theorem locate_keyText (names : List Name) : locate (keyText names) = names := by
  rw [locate, keyText, String.toList_ofList]
  by_cases empty : names = []
  · subst empty
    rfl
  · rw [segments_namesText empty, Path.walk_names]
    rfl

theorem keyText_locate {key : String} (clean : Clean key) : keyText (locate key) = key := by
  rw [keyText, ← clean.1, String.ofList_toList]

theorem resolve_clean {key : String} (clean : Clean key) :
    fs.resolve key = .ok (fs.base.descend (locate key)) := by
  have ne : key ≠ "" := by
    intro empty
    subst empty
    exact clean.2 rfl
  rw [fs.resolve_eq ne, if_neg clean.2]

theorem segments_clean {key : String} (clean : Clean key) :
    segments key.toList = (locate key).map Name.text := by
  rw [clean.1, segments_namesText clean.2]

theorem directChild_clean {dir key : String} (parent : Clean dir) (child : Clean key) :
    directChild dir key = true ↔ ∃ name, locate key = locate dir ++ [name] := by
  rw [directChild_iff]
  constructor
  · intro ⟨rest, parts, flat⟩
    have texts : (locate key).map Name.text = (locate dir).map Name.text ++ [rest] := by
      rw [← segments_clean child, parts, segments_join, segments_clean parent]
      exact congrArg _ (splitOn_eq_singleton flat)
    obtain ⟨front, back, split, fronts, backs⟩ := map_eq_append_iff.mp texts
    obtain ⟨name, single, _⟩ := map_eq_singleton_iff.mp backs
    have eq : front = locate dir := map_injective_iff.mpr (fun _ _ => Name.ext) fronts
    exact ⟨name, by rw [split, eq, single]⟩
  · intro ⟨name, split⟩
    refine ⟨name.text, ?_, name.plain.2.1⟩
    have joined : segments (dir.toList ++ '/' :: name.text) = (locate key).map Name.text := by
      rw [segments_join, segments_clean parent, segments_plain name.plain, split, map_append,
        map_singleton]
    rw [child.1, namesText, ← joined]
    exact intercalate_splitOn '/'

/-- What the tree below the base directory has to do with the contents. -/
structure Represents (tree : Tree) (contents : Contents) : Prop where
  files : ∀ names value, names ≠ [] → names.head? ≠ some lockName →
    (tree.lookup (fs.base.descend names) = some (.file value) ↔
      contents.map (keyText names) = some value)
  directories : ∀ names, names ≠ [] → tree.lookup (fs.base.descend names) = some .directory →
    ∃ key ∈ contents.used, names <+: locate key ∧ names ≠ locate key
  parents : ∀ names name value, tree.lookup (fs.base.descend (names ++ [name])) =
    some (.file value) →
    tree.isDirectory (fs.base.descend names) = true
  used : ∀ key ∈ contents.used, Clean key ∧ ¬ Reserved (locate key)
  present : ∀ key value, contents.map key = some value → key ∈ contents.used
  root : ∀ path ∈ Tree.along fs.base, tree.isFile path = false

variable {fs} {draw} {tree : Tree} {contents : Contents} {key : String}

theorem along_descend {names : List Name} {path : Path}
    (mem : path ∈ Tree.along (fs.base.descend names)) :
    path ∈ Tree.along fs.base ∨ ∃ front, front ≠ [] ∧ front <+: names ∧
      path = fs.base.descend front := by
  obtain ⟨anchors, starts⟩ := Tree.mem_along.mp mem
  simp only [Path.descend] at anchors starts
  rcases prefix_or_prefix_of_prefix starts (prefix_append fs.base.names names) with shorter |
    ⟨front, split⟩
  · exact .inl (Tree.mem_along.mpr ⟨anchors, shorter⟩)
  · by_cases empty : front = []
    · subst empty
      rw [append_nil] at split
      exact .inl (Tree.mem_along.mpr ⟨anchors, split ▸ prefix_rfl⟩)
    · rw [← split, prefix_append_right_inj] at starts
      refine .inr ⟨front, empty, starts, ?_⟩
      obtain ⟨anchor, names⟩ := path
      simp only at anchors split
      subst anchors
      subst split
      rfl

theorem descend_not_along {names : List Name} (ne : names ≠ []) :
    fs.base.descend names ∉ Tree.along fs.base := by
  intro mem
  have starts := (Tree.mem_along.mp mem).2
  have shorter := starts.length_le
  simp only [Path.descend, length_append] at shorter
  have pos := length_pos_of_ne_nil ne
  omega

theorem head_of_leading {front names : List Name} (ne : front ≠ []) (starts : front <+: names) :
    front.head? = names.head? := by
  obtain ⟨rest, split⟩ := starts
  rw [← split, List.head?_append_of_ne_nil _ ne]

theorem reserved_of_starts {front names : List Name} (free : Reserved front) (ne : front ≠ [])
    (starts : front <+: names) : Reserved names := by
  rcases free with lock | ⟨name, mem, temporary⟩
  · exact .inl (head_of_leading ne starts ▸ lock)
  · exact .inr ⟨name, starts.subset mem, temporary⟩

theorem tempName_ne_lockName (number : UInt32) : tempName number ≠ lockName := by
  intro eq
  have texts : tempText number = ".store.lock".toList := congrArg Name.text eq
  have snd := congrArg (fun text => text[1]?) texts
  have temporary : ".tmp-".toList = ['.', 't', 'm', 'p', '-'] := by decide
  have lock : ".store.lock".toList[1]? = some 's' := by decide
  rw [tempText, temporary, lock] at snd
  simp at snd

theorem fits_unlocked {used : List String} (fits : KeyFits used key) :
    (locate key).head? ≠ some lockName :=
  fun lock => fits.free (.inl lock)

section

variable (rep : fs.Represents tree contents) (fits : KeyFits contents.used key)

include rep

theorem Represents.not_directory_of_reserved {names : List Name} (ne : names ≠ [])
    (free : Reserved names) :
    tree.lookup (fs.base.descend names) ≠ some .directory := by
  intro got
  obtain ⟨other, mem, starts, _⟩ := rep.directories names ne got
  exact (rep.used other mem).2 (reserved_of_starts free ne starts)

theorem Represents.map_reserved {names : List Name} (reserved : Reserved names) :
    contents.map (keyText names) = none := by
  by_contra some
  obtain ⟨value, got⟩ := ne_none_iff_exists'.mp some
  have free := (rep.used _ (rep.present _ value got)).2
  rw [locate_keyText] at free
  exact free reserved

theorem Represents.temp_absent {names : List Name} (number : UInt32)
    (unlocked : names.head? ≠ some lockName) :
    tree.lookup (fs.base.descend (names ++ [tempName number])) = none := by
  have free : Reserved (names ++ [tempName number]) :=
    .inr ⟨tempName number, by simp, by simp [tempName, tempText]⟩
  have ne : names ++ [tempName number] ≠ [] := by simp
  have head : (names ++ [tempName number]).head? ≠ some lockName := by
    cases names with
    | nil => simpa using tempName_ne_lockName number
    | cons first rest => exact unlocked
  cases got : tree.lookup (fs.base.descend (names ++ [tempName number])) with
  | none => rfl
  | some entry =>
    cases entry with
    | directory => exact absurd got (rep.not_directory_of_reserved ne free)
    | file value =>
      have mapped := (rep.files _ value ne head).mp got
      rw [rep.map_reserved free] at mapped
      cases mapped

theorem Represents.clear_of_apart {names : List Name} (unlocked : names.head? ≠ some lockName)
    (apart : ∀ other ∈ contents.used, ¬ locate other <+: names) {path : Path}
    (mem : path ∈ Tree.along (fs.base.descend names)) : tree.isFile path = false := by
  rcases along_descend mem with out | ⟨front, ne, starts, eq⟩
  · exact rep.root path out
  · by_contra file
    rw [Bool.not_eq_false, Tree.isFile_iff] at file
    obtain ⟨value, got⟩ := file
    rw [eq, rep.files front value ne (head_of_leading ne starts ▸ unlocked)] at got
    apply apart (keyText front) (rep.present _ value got)
    rw [locate_keyText]
    exact starts

include fits

theorem Represents.not_directory :
    tree.lookup (fs.base.descend (locate key)) ≠ some .directory := by
  intro got
  obtain ⟨other, mem, starts, ne⟩ := rep.directories _ fits.clean.2 got
  have eq := fits.apart other mem (.inr starts)
  subst eq
  exact ne rfl

theorem Represents.clear {path : Path} (mem : path ∈ Tree.above (fs.base.descend (locate key))) :
    tree.isFile path = false := by
  obtain ⟨along, ne⟩ := Tree.mem_above.mp mem
  rcases along_descend along with out | ⟨front, nonempty, starts, eq⟩
  · exact rep.root path out
  · by_contra file
    rw [Bool.not_eq_false, Tree.isFile_iff] at file
    obtain ⟨value, got⟩ := file
    rw [eq, rep.files front value nonempty
      (head_of_leading nonempty starts ▸ fits_unlocked fits)] at got
    have led := fits.apart (keyText front) (rep.present _ value got)
      (.inl (by rwa [locate_keyText]))
    apply ne
    rw [eq, ← led, locate_keyText]

theorem Represents.lookup_eq :
    tree.lookup (fs.base.descend (locate key)) = (contents.map key).map .file := by
  have files (value : Bytes) := rep.files (locate key) value fits.clean.2 (fits_unlocked fits)
  rw [keyText_locate fits.clean] at files
  cases got : tree.lookup (fs.base.descend (locate key)) with
  | none =>
    cases mapped : contents.map key with
    | none => rfl
    | some value =>
      rw [(files value).mpr mapped] at got
      cases got
  | some entry =>
    cases entry with
    | directory => exact absurd got (rep.not_directory fits)
    | file value =>
      rw [(files value).mp got]
      rfl

theorem Represents.absence_eq : tree.absence (fs.base.descend (locate key)) = errNotExist := by
  rw [Tree.absence, if_neg]
  intro some
  obtain ⟨path, mem, file⟩ := any_eq_true.mp some
  rw [rep.clear fits mem] at file
  cases file

theorem Represents.get_run (draw : Tree → Path → UInt32) :
    (fs.get key).run (Tree.exec draw) tree = (match contents.map key with
      | some value => .ok value
      | none => .error errNotFound, tree) := by
  have got := rep.lookup_eq fits
  cases mapped : contents.map key with
  | none =>
    rw [mapped, map_none] at got
    simp only [FileStore.get, fs.resolve_clean fits.clean, perform_bind, Program.run, Tree.exec,
      Tree.readFile, got, rep.absence_eq fits]
    rfl
  | some value =>
    rw [mapped, map_some] at got
    simp only [FileStore.get, fs.resolve_clean fits.clean, perform_bind, Program.run, Tree.exec,
      Tree.readFile, got]
    rfl

end

theorem lock_descend : fs.base.child lockName = fs.base.descend [lockName] := rfl

theorem Represents.transfer (rep : fs.Represents tree contents) {other : Tree}
    (eq : ∀ names, names ≠ [] → names ≠ [lockName] →
      other.lookup (fs.base.descend names) = tree.lookup (fs.base.descend names))
    (lockFile : other.lookup (fs.base.descend [lockName]) ≠ some .directory)
    (made : other.isDirectory fs.base = true)
      (root : ∀ path ∈ Tree.along fs.base, other.isFile path = false) :
    fs.Represents other contents := by
  constructor
  · intro names value ne unlocked
    have plain : names ≠ [lockName] := fun lock => unlocked (by rw [lock]; rfl)
    rw [eq names ne plain]
    exact rep.files names value ne unlocked
  · intro names ne got
    by_cases lock : names = [lockName]
    · exact absurd (lock ▸ got) lockFile
    · rw [eq names ne lock] at got
      exact rep.directories names ne got
  · intro names name value got
    by_cases top : names = []
    · subst top
      rw [Path.descend_nil]
      exact made
    · have deeper : names ++ [name] ≠ [lockName] := by simp [append_eq_singleton_iff, top]
      rw [eq _ (by simp) deeper] at got
      have parent := Tree.isDirectory_iff.mp (rep.parents names name value got)
      have named : (fs.base.descend names).names ≠ [] := by simp [Path.descend, top]
      have dir := parent.resolve_left named
      have plain : names ≠ [lockName] := by
        intro lock
        apply rep.not_directory_of_reserved top (.inl (by rw [lock]; rfl))
        exact dir
      rw [Tree.isDirectory_iff, eq names top plain]
      exact .inr dir
  · exact rep.used
  · exact rep.present
  · exact root

theorem isDirectory_along {path : Path} (tree : Tree) :
    Tree.isDirectory ((Tree.along path).foldl Tree.addDirectory tree) path = true := by
  rw [Tree.isDirectory_iff, Tree.lookup_addDirectories]
  have mem : path ∈ Tree.along path := Tree.mem_along.mpr ⟨rfl, prefix_rfl⟩
  by_cases start : path.names = []
  · exact .inl start
  · exact .inr (if_pos ⟨mem, start⟩)

def based (fs : FileStore) (tree : Tree) : Tree := (Tree.along fs.base).foldl Tree.addDirectory tree

theorem based_lookup {names : List Name} (ne : names ≠ []) :
    (fs.based tree).lookup (fs.base.descend names) = tree.lookup (fs.base.descend names) := by
  rw [based, Tree.lookup_addDirectories, if_neg]
  exact fun along => descend_not_along ne along.1

theorem based_root (root : ∀ path ∈ Tree.along fs.base, tree.isFile path = false) {path : Path}
    (mem : path ∈ Tree.along fs.base) : (fs.based tree).isFile path = false := by
  have eq := root path mem
  rw [← Bool.not_eq_true, Tree.isFile_iff] at eq ⊢
  intro ⟨text, got⟩
  rw [based, Tree.lookup_addDirectories] at got
  split at got
  · cases got
  · exact eq ⟨text, got⟩

/-- The tree once the lock is taken. -/
def locked (fs : FileStore) (tree : Tree) : Tree :=
  ((fs.based tree).create (fs.base.child lockName)).2

section

variable (rep : fs.Represents tree contents)

include rep

theorem Represents.create_lock :
    (fs.based tree).create (fs.base.child lockName) = (.ok (), fs.locked tree) ∧
      (∀ path, path ≠ fs.base.child lockName →
        (fs.locked tree).lookup path = (fs.based tree).lookup path) ∧
      (fs.locked tree).lookup (fs.base.child lockName) ≠ some .directory := by
  have plain : tree.lookup (fs.base.descend [lockName]) ≠ some .directory :=
    rep.not_directory_of_reserved (by simp) (.inl rfl)
  rw [← based_lookup (by simp), ← lock_descend] at plain
  have parent : (fs.based tree).isDirectory (fs.base.child lockName).parent = true := by
    rw [Path.parent_child]
    exact isDirectory_along tree
  unfold locked Tree.create
  cases got : (fs.based tree).lookup (fs.base.child lockName) with
  | none =>
    simp only [parent, if_true, true_and]
    constructor
    · intro path other
      exact AList.lookup_insert_ne other
    · simp
  | some entry =>
    cases entry with
    | directory => exact absurd got plain
    | file content => exact ⟨rfl, fun _ _ => rfl, plain⟩

theorem Represents.locked_lookup {names : List Name} (ne : names ≠ [])
    (plain : names ≠ [lockName]) : (fs.locked tree).lookup (fs.base.descend names) = tree.lookup
    (fs.base.descend names) := by
  rw [rep.create_lock.2.1, based_lookup ne]
  rw [lock_descend, Ne, Path.descend_inj]
  exact plain

theorem Represents.lock :
    fs.Represents (fs.locked tree) contents ∧ (fs.locked tree).isDirectory fs.base = true := by
  have above (path : Path) (mem : path ∈ Tree.along fs.base) : path ≠ fs.base.child lockName := by
    intro eq
    rw [eq, lock_descend] at mem
    exact descend_not_along (by simp) mem
  have made : (fs.locked tree).isDirectory fs.base = true := by
    rw [Tree.isDirectory_iff,
      rep.create_lock.2.1 _ (above _ (Tree.mem_along.mpr ⟨rfl, prefix_rfl⟩)),
      ← Tree.isDirectory_iff]
    exact isDirectory_along tree
  refine ⟨rep.transfer (fun _ => rep.locked_lookup) rep.create_lock.2.2 made ?_, made⟩
  · intro path mem
    have same := based_root rep.root mem
    rw [← Bool.not_eq_true, Tree.isFile_iff] at same ⊢
    rwa [rep.create_lock.2.1 path (above path mem)]

theorem Represents.withWriteLock_run (draw : Tree → Path → UInt32) {α : Type}
    (action : FileProg (Except Error α)) :
    (fs.withWriteLock action).run (Tree.exec draw) tree = action.run (Tree.exec draw)
    (fs.locked tree) := by
  have made : tree.mkdirAll fs.base = (.ok (), fs.based tree) := by
    rw [Tree.mkdirAll, if_neg]
    · rfl
    · intro some
      obtain ⟨path, mem, file⟩ := any_eq_true.mp some
      rw [rep.root path mem] at file
      cases file
  simp only [withWriteLock, perform_bind, Program.run, Tree.exec, made, rep.create_lock.1]
  exact run_bind _ action _ _

end

section

variable {front : List Name} {last : Name} {value : Bytes}

/-- A tree after a write: the directories on the way are made and the temporary file is gone. -/
def Stored (fs : FileStore) (tree written : Tree) (front : List Name) (last : Name)
    (number : UInt32) (value : Bytes) : Prop :=
  ∀ path, written.lookup path =
    if path = fs.base.descend (front ++ [last]) then some (.file value)
    else if path = fs.base.descend (front ++ [tempName number]) then none
    else if path ∈ Tree.along (fs.base.descend front) ∧ path.names ≠ [] then some .directory
    else tree.lookup path

theorem descend_deeper_not_along (front : List Name) (name : Name) :
    fs.base.descend (front ++ [name]) ∉ Tree.along (fs.base.descend front) := by
  intro mem
  have shorter := (Tree.mem_along.mp mem).2.length_le
  simp only [Path.descend, length_append, length_singleton] at shorter
  omega

section

variable {written : Tree} {number : UInt32}
    (stored : Stored fs tree written front last number value)

include stored

theorem Stored.isDirectory_of_along {path : Path}
    (mem : path ∈ Tree.along (fs.base.descend front)) :
    written.isDirectory path = true := by
  have deeper (name : Name) : path ≠ fs.base.descend (front ++ [name]) :=
    fun eq => descend_deeper_not_along front name (eq ▸ mem)
  rw [Tree.isDirectory_iff, stored, if_neg (deeper last), if_neg (deeper _)]
  by_cases start : path.names = []
  · exact .inl start
  · exact .inr (if_pos ⟨mem, start⟩)

theorem Stored.isDirectory {path : Path} (t : path ≠ fs.base.descend (front ++ [last]))
    (temporary : path ≠ fs.base.descend (front ++ [tempName number]))
    (pre : tree.isDirectory path = true) :
    written.isDirectory path = true := by
  by_cases between : path ∈ Tree.along (fs.base.descend front)
  · exact stored.isDirectory_of_along between
  · rw [Tree.isDirectory_iff, stored, if_neg t, if_neg temporary, if_neg fun both => between both.1]
    exact Tree.isDirectory_iff.mp pre

theorem Stored.file {path : Path} {text : Bytes} (t : path ≠ fs.base.descend (front ++ [last]))
    (got : written.lookup path = some (.file text)) : tree.lookup path = some (.file text) := by
  rw [stored, if_neg t] at got
  split at got
  · cases got
  · split at got
    · cases got
    · exact got

end

section

variable (rep : fs.Represents tree contents) (fits : KeyFits contents.used key)
    (split : locate key = front ++ [last])

include rep fits split

theorem Represents.temp_absent_beside (number : UInt32) :
    tree.lookup (fs.base.descend (front ++ [tempName number])) = none := by
  apply rep.temp_absent
  have unlocked := fits_unlocked fits
  cases front with
  | nil => simp
  | cons first rest => rwa [split] at unlocked

theorem Represents.clear_of_front {path : Path} (mem : path ∈ Tree.along (fs.base.descend front)) :
    tree.isFile path = false := by
  apply rep.clear fits
  rw [Tree.mem_above, split]
  obtain ⟨anchors, starts⟩ := Tree.mem_along.mp mem
  constructor
  · exact Tree.mem_along.mpr ⟨anchors, starts.trans (by simp [Path.descend])⟩
  · exact fun eq => descend_deeper_not_along front last (eq ▸ mem)

theorem Represents.stored {written : Tree} {number : UInt32}
    (stored : Stored fs tree written front last number value) :
    fs.Represents written ⟨Function.update contents.map key (some value),
      key :: contents.used⟩ := by
  have gone := rep.temp_absent_beside fits split number
  constructor
  · intro names text nonempty plain
    by_cases t : names = front ++ [last]
    · rw [t, stored, if_pos rfl, ← split, keyText_locate fits.clean]
      simp
    · have other : keyText names ≠ key := by
        intro eq
        rw [← eq, locate_keyText] at split
        exact t split
      have away : fs.base.descend names ≠ fs.base.descend (front ++ [last]) := by
        rwa [Ne, Path.descend_inj]
      simp only [Function.update_of_ne other]
      rw [← rep.files names text nonempty plain]
      constructor
      · exact stored.file away
      · intro got
        rw [stored, if_neg away, if_neg, if_neg, got]
        · rintro ⟨between, -⟩
          have file := rep.clear_of_front fits split between
          rw [← Bool.not_eq_true, Tree.isFile_iff] at file
          exact file ⟨text, got⟩
        · intro eq
          rw [eq, gone] at got
          cases got
  · intro names nonempty got
    rw [stored] at got
    split at got
    · cases got
    · split at got
      · cases got
      · split at got
        · next between =>
          have starts : names <+: front := by
            simpa [Path.descend] using (Tree.mem_along.mp between.1).2
          refine ⟨key, by simp, ?_, ?_⟩
          · rw [split]
            exact starts.trans (prefix_append ..)
          · intro eq
            have shorter := starts.length_le
            rw [eq, split, length_append, length_singleton] at shorter
            omega
        · obtain ⟨other, mem, leads⟩ := rep.directories names nonempty got
          exact ⟨other, .tail _ mem, leads⟩
  · intro names name text got
    by_cases t : names ++ [name] = front ++ [last]
    · rw [(append_inj' t rfl).1]
      exact stored.isDirectory_of_along (Tree.mem_along.mpr ⟨rfl, prefix_rfl⟩)
    · have pre := stored.file (by rwa [Ne, Path.descend_inj]) got
      have parent := rep.parents names name text pre
      have ne {others : List Name} (nonempty : others ≠ [])
          (plain : tree.lookup (fs.base.descend others) ≠ some .directory) :
          fs.base.descend names ≠ fs.base.descend others := by
        intro eq
        rw [eq, Tree.isDirectory_iff] at parent
        exact parent.elim (by simp [Path.descend, nonempty]) plain
      apply stored.isDirectory _ _ parent
      · apply ne (by simp)
        rw [← split]
        exact rep.not_directory fits
      · apply ne (by simp)
        rw [gone]
        simp
  · intro other mem
    rcases mem_cons.mp mem with eq | mem
    · subst eq
      exact ⟨fits.clean, fits.free⟩
    · exact rep.used other mem
  · intro other text mapped
    by_cases eq : other = key
    · subst eq
      exact .head _
    · simp only [Function.update_of_ne eq] at mapped
      exact .tail _ (rep.present other text mapped)
  · intro path mem
    have out : path ≠ fs.base.descend (front ++ [last]) :=
      fun eq => descend_not_along (by simp) (eq ▸ mem)
    have pre := rep.root path mem
    rw [← Bool.not_eq_true, Tree.isFile_iff] at pre ⊢
    rintro ⟨text, got⟩
    exact pre ⟨text, stored.file out got⟩

end

/-- The tree once the directories on the way to a file are made. -/
def grown (fs : FileStore) (tree : Tree) (front : List Name) : Tree :=
  (Tree.along (fs.base.descend front)).foldl Tree.addDirectory tree

theorem grown_lookup_deeper (name : Name) :
    (fs.grown tree front).lookup (fs.base.descend (front ++ [name])) =
    tree.lookup (fs.base.descend (front ++ [name])) := by
  rw [grown, Tree.lookup_addDirectories, if_neg]
  exact fun both => descend_deeper_not_along front name both.1

/-- The tree once the temporary file has taken the place of the file. -/
def replaced (fs : FileStore) (tree : Tree) (front : List Name) (last : Name) (number : UInt32)
    (value : Bytes) : Tree :=
  let temporary := fs.base.descend (front ++ [tempName number])
  ((((fs.grown tree front).insert temporary (.file [])).insert temporary (.file value)).erase
    temporary).insert
    (fs.base.descend (front ++ [last])) (.file value)

theorem stored_replaced (number : UInt32) :
    Stored fs tree (fs.replaced tree front last number value) front last number value := by
  intro path
  unfold replaced
  by_cases t : path = fs.base.descend (front ++ [last])
  · rw [if_pos t, t, AList.lookup_insert]
  · rw [if_neg t, AList.lookup_insert_ne t]
    by_cases temporary : path = fs.base.descend (front ++ [tempName number])
    · rw [if_pos temporary, temporary, AList.lookup_erase]
    · rw [if_neg temporary, AList.lookup_erase_ne temporary, AList.lookup_insert_ne temporary,
        AList.lookup_insert_ne temporary, grown, Tree.lookup_addDirectories]

theorem syncDirectory_run {dir : Path} (base : tree.isDirectory fs.base = true)
    (made : tree.isDirectory dir = true) :
    (fs.syncDirectory dir).run (Tree.exec draw) tree = (.ok (), tree) := by
  simp [syncDirectory, Program.run, Tree.exec, Tree.openDirectory, base, made]

theorem child_descend (front : List Name) (name : Name) :
    (fs.base.descend front).child name = fs.base.descend (front ++ [name]) := by
  simp [Path.descend, Path.child]

theorem parent_descend (front : List Name) (name : Name) :
    (fs.base.descend (front ++ [name])).parent = fs.base.descend front := by
  rw [← child_descend, Path.parent_child]

theorem Represents.rename_run (rep : fs.Represents tree contents) (fits : KeyFits contents.used key)
    (split : locate key = front ++ [last]) (number : UInt32) (value : Bytes) :
    let temporary := fs.base.descend (front ++ [tempName number])
    Tree.rename (((fs.grown tree front).insert temporary (.file [])).insert temporary (.file value))
      temporary
      (fs.base.descend (front ++ [last])) = (.ok (), fs.replaced tree front last number value) := by
  intro temporary
  have ne : fs.base.descend (front ++ [last]) ≠ temporary := by
    rw [Ne, Path.descend_inj]
    intro eq
    apply fits.free
    exact .inr ⟨tempName number, by simp [split, eq], by simp [tempName, tempText]⟩
  have plain := rep.not_directory fits
  rw [split, ← grown_lookup_deeper] at plain
  have above : fs.base.descend front ≠ temporary := by
    rw [Ne, Path.descend_inj]
    simp
  rw [Tree.rename, AList.lookup_insert]
  simp only
  rw [AList.lookup_insert_ne ne, AList.lookup_insert_ne ne, if_neg plain, if_pos]
  · rfl
  · rw [parent_descend, Tree.isDirectory_iff, AList.lookup_insert_ne above,
      AList.lookup_insert_ne above, ← Tree.isDirectory_iff]
    exact isDirectory_along tree

theorem Represents.putLocked_run (rep : fs.Represents tree contents)
    (fits : KeyFits contents.used key) (draw : Tree → Path → UInt32) (value : Bytes) :
    ∃ written, (fs.putLocked key value).run (Tree.exec draw) tree = (.ok (), written) ∧
      fs.Represents written ⟨Function.update contents.map key (some value),
        key :: contents.used⟩ := by
  obtain ⟨front, last, split⟩ : ∃ front last, locate key = front ++ [last] :=
    ⟨_, _, (dropLast_append_getLast fits.clean.2).symm⟩
  generalize numbered : draw (fs.grown tree front) (fs.base.descend front) = number
  have stored : Stored fs tree (fs.replaced tree front last number value) front last number value :=
    stored_replaced number
  refine ⟨fs.replaced tree front last number value, ?_, rep.stored fits split stored⟩
  have made : tree.mkdirAll (fs.base.descend front) = (.ok (), fs.grown tree front) := by
    rw [Tree.mkdirAll, if_neg]
    · rfl
    · intro some
      obtain ⟨path, mem, file⟩ := any_eq_true.mp some
      rw [rep.clear_of_front fits split mem] at file
      cases file
  have created : (fs.grown tree front).createTemp (fs.base.descend front) number =
      (.ok number, (fs.grown tree front).insert (fs.base.descend (front ++ [tempName number]))
        (.file [])) := by
    have dir : (fs.grown tree front).isDirectory (fs.base.descend front) = true :=
      isDirectory_along tree
    rw [Tree.createTemp, if_pos dir, child_descend, grown_lookup_deeper,
      rep.temp_absent_beside fits split number]
  have filled (grown : Tree) (path : Path) : Tree.write (grown.insert path (.file [])) path value =
      (.ok (), (grown.insert path (.file [])).insert path (.file value)) := by
    rw [Tree.write, if_pos]
    exact Tree.isFile_iff.mpr ⟨[], AList.lookup_insert _⟩
  have synced : (fs.syncDirectory (fs.base.descend front)).run (Tree.exec draw)
      (fs.replaced tree front last number value) =
      (.ok (), fs.replaced tree front last number value) := by
    apply syncDirectory_run
    · apply stored.isDirectory_of_along
      exact Tree.mem_along.mpr ⟨rfl, by simp [Path.descend]⟩
    · exact stored.isDirectory_of_along (Tree.mem_along.mpr ⟨rfl, prefix_rfl⟩)
  simp only [putLocked, fs.resolve_clean fits.clean, split, parent_descend, perform_bind,
    Program.run, Tree.exec, made, numbered, created, child_descend, filled,
    rep.rename_run fits split number value, synced]

end

theorem Represents.erased (rep : fs.Represents tree contents) (fits : KeyFits contents.used key) :
    fs.Represents (tree.erase (fs.base.descend (locate key)))
      ⟨Function.update contents.map key none, contents.used⟩ := by
  have erased {names : List Name} (other : names ≠ locate key) :
      (tree.erase (fs.base.descend (locate key))).lookup (fs.base.descend names) =
        tree.lookup (fs.base.descend names) := by
    apply AList.lookup_erase_ne
    rwa [Ne, Path.descend_inj]
  constructor
  · intro names text ne plain
    by_cases t : names = locate key
    · rw [t, AList.lookup_erase, keyText_locate fits.clean]
      simp
    · have other : keyText names ≠ key := by
        intro eq
        rw [← eq, locate_keyText] at t
        exact t rfl
      simp only [Function.update_of_ne other]
      rw [erased t]
      exact rep.files names text ne plain
  · intro names ne got
    by_cases t : names = locate key
    · rw [t, AList.lookup_erase] at got
      cases got
    · rw [erased t] at got
      exact rep.directories names ne got
  · intro names name text got
    by_cases t : names ++ [name] = locate key
    · rw [t, AList.lookup_erase] at got
      cases got
    · rw [erased t] at got
      have parent := rep.parents names name text got
      rw [Tree.isDirectory_iff] at parent ⊢
      apply parent.imp_right
      intro dir
      rw [erased, dir]
      intro eq
      rw [eq] at dir
      exact rep.not_directory fits dir
  · exact rep.used
  · intro other text mapped
    by_cases eq : other = key
    · simp [eq] at mapped
    · simp only [Function.update_of_ne eq] at mapped
      exact rep.present other text mapped
  · intro path mem
    have out : path ≠ fs.base.descend (locate key) :=
      fun eq => descend_not_along fits.clean.2 (eq ▸ mem)
    have pre := rep.root path mem
    rw [← Bool.not_eq_true, Tree.isFile_iff] at pre ⊢
    rwa [AList.lookup_erase_ne out]

theorem Represents.deleteLocked_run (rep : fs.Represents tree contents)
    (fits : KeyFits contents.used key) (draw : Tree → Path → UInt32)
    (base : tree.isDirectory fs.base = true) :
    ∃ erased, (fs.deleteLocked key).run (Tree.exec draw) tree = (.ok (), erased) ∧
      fs.Represents erased ⟨Function.update contents.map key none, contents.used⟩ := by
  have got := rep.lookup_eq fits
  cases mapped : contents.map key with
  | none =>
    rw [mapped, map_none] at got
    refine ⟨tree, ?_, ?_⟩
    · simp only [deleteLocked, fs.resolve_clean fits.clean, perform_bind, Program.run, Tree.exec,
        Tree.remove, got, rep.absence_eq fits]
      rfl
    · have eq : Function.update contents.map key none = contents.map := by
        rw [← mapped, Function.update_eq_self]
      rw [eq]
      exact rep
  | some value =>
    rw [mapped, map_some] at got
    obtain ⟨front, last, split⟩ : ∃ front last, locate key = front ++ [last] :=
      ⟨_, _, (dropLast_append_getLast fits.clean.2).symm⟩
    refine ⟨_, ?_, rep.erased fits⟩
    have kept {path : Path} (dir : tree.isDirectory path = true) :
        Tree.isDirectory (tree.erase (fs.base.descend (locate key))) path = true := by
      rw [Tree.isDirectory_iff] at dir ⊢
      apply dir.imp_right
      intro pre
      rw [AList.lookup_erase_ne, pre]
      intro eq
      rw [eq, got] at pre
      cases pre
    have parent : tree.isDirectory (fs.base.descend (locate key)).parent = true := by
      rw [split] at got ⊢
      rw [parent_descend]
      exact rep.parents front last value got
    simp only [deleteLocked, fs.resolve_clean fits.clean, perform_bind, Program.run, Tree.exec,
      Tree.remove, got]
    exact syncDirectory_run (kept base) (kept parent)

theorem keyOf_descend (names : List Name) : fs.keyOf (fs.base.descend names) = keyText names := by
  simp [keyOf, keyText, Path.descend]

/-- What the listing makes of an entry of the directory. -/
def value (fs : FileStore) (tree : Tree) (dir : Path) (entry : Name × Bool) :
    Option (String × Bytes) :=
  if entry.2 || ".tmp-".toList.isPrefixOf entry.1.text then none
  else match tree.lookup (dir.child entry.1) with
    | some (.file data) => some (fs.keyOf (dir.child entry.1), data)
    | _ => none

theorem readEntries_run (dir : Path) (entries : List (Name × Bool))
    (files : ∀ name, (name, false) ∈ entries → tree.isFile (dir.child name) = true) :
    (fs.readEntries dir entries).run
    (Tree.exec draw) tree = (.ok (entries.filterMap (fs.value tree dir)), tree) := by
  induction entries with
  | nil => rfl
  | cons entry rest ih =>
    obtain ⟨name, isDir⟩ := entry
    have later := ih fun name mem => files name (.tail _ mem)
    rw [readEntries]
    by_cases skipped : (isDir || ".tmp-".toList.isPrefixOf name.text) = true
    · rw [if_pos skipped, later, filterMap_cons_none]
      rw [value, if_pos skipped]
    · have plain : isDir = false := by
        cases isDir with
        | false => rfl
        | true => simp at skipped
      subst plain
      obtain ⟨data, got⟩ := Tree.isFile_iff.mp (files name (.head _))
      have kept : fs.value tree dir (name, false) = some (fs.keyOf (dir.child name), data) := by
        rw [value, if_neg skipped, got]
      rw [if_neg skipped, filterMap_cons_some kept]
      simp only [perform_bind, Program.run, Tree.exec, Tree.readFile, got]
      rw [run_then, later]
      rfl

theorem value_eq_some {names : List Name} {entry : Name × Bool} {data : Bytes} :
    fs.value tree (fs.base.descend names) entry = some (key, data) ↔
      entry.2 = false ∧ ".tmp-".toList.isPrefixOf entry.1.text = false ∧
        tree.lookup (fs.base.descend (names ++ [entry.1])) = some (.file data) ∧
          key = keyText (names ++ [entry.1]) := by
  obtain ⟨name, isDir⟩ := entry
  rw [value, child_descend, keyOf_descend]
  by_cases skipped : (isDir || ".tmp-".toList.isPrefixOf name.text) = true
  · rw [if_pos skipped]
    simp only [reduceCtorEq, false_iff]
    intro ⟨plain, lasting, _⟩
    rw [plain, lasting] at skipped
    cases skipped
  · rw [if_neg skipped]
    rw [Bool.not_eq_true, Bool.or_eq_false_iff] at skipped
    cases got : tree.lookup (fs.base.descend (names ++ [name])) with
    | none => simp
    | some entry =>
      cases entry with
      | directory => simp
      | file content =>
        simp only [Option.some.injEq, Prod.mk.injEq, Entry.file.injEq, skipped.1, skipped.2,
          true_and]
        exact ⟨fun both => ⟨both.2, both.1.symm⟩, fun both => ⟨both.2.symm, both.1⟩⟩

theorem values_nodup (tree : Tree) (names : List Name) :
    (((tree.children (fs.base.descend names)).filterMap (fs.value tree (fs.base.descend names))).map
      Prod.fst).Nodup := by
  rw [map_filterMap]
  apply List.Nodup.filterMap
  · intro first snd key one other
    simp only [mem_def, map_eq_some_iff] at one other
    obtain ⟨⟨_, data⟩, one, rfl⟩ := one
    obtain ⟨⟨_, data'⟩, other, rfl⟩ := other
    rw [value_eq_some] at one other
    have texts : keyText (names ++ [first.1]) = keyText (names ++ [snd.1]) :=
      one.2.2.2.symm.trans other.2.2.2
    have eq := congrArg locate texts
    rw [locate_keyText, locate_keyText] at eq
    apply Prod.ext
    · simpa using eq
    · rw [one.1, other.1]
  · exact (Tree.children_nodup tree _).of_map Prod.fst

section

variable (rep : fs.Represents tree contents) {dir : String} (fits : DirFits contents.used dir)

include rep dir fits

theorem Represents.mem_values (key : String) (data : Bytes) :
    (key, data) ∈ (tree.children (fs.base.descend (locate dir))).filterMap
    (fs.value tree (fs.base.descend (locate dir))) ↔
      contents.map key = some data ∧ directChild dir key = true := by
  have unlocked (name : Name) : (locate dir ++ [name]).head? ≠ some lockName := by
    rw [List.head?_append_of_ne_nil _ fits.clean.2]
    exact fun lock => fits.free (.inl lock)
  have files (name : Name) := rep.files (locate dir ++ [name]) data (by simp) (unlocked name)
  simp only [mem_filterMap, value_eq_some]
  constructor
  · intro ⟨⟨name, _⟩, _, _, _, got, named⟩
    have mapped := (files name).mp got
    rw [← named] at mapped
    have clean := (rep.used key (rep.present key data mapped)).1
    refine ⟨mapped, (directChild_clean fits.clean clean).mpr ⟨name, ?_⟩⟩
    rw [named, locate_keyText]
  · intro ⟨mapped, child⟩
    obtain ⟨clean, free⟩ := rep.used key (rep.present key data mapped)
    obtain ⟨name, split⟩ := (directChild_clean fits.clean clean).mp child
    have named : key = keyText (locate dir ++ [name]) := by rw [← split, keyText_locate clean]
    have got := (files name).mpr (named ▸ mapped)
    refine ⟨(name, false), Tree.mem_children.mpr ⟨.file data, ?_, rfl⟩, rfl, ?_, got, named⟩
    · rw [child_descend, got]
    · rw [← Bool.not_eq_true]
      intro temporary
      exact free (.inr ⟨name, by simp [split], temporary⟩)

theorem Represents.list_run (draw : Tree → Path → UInt32) :
    ∃ pairs, (fs.list dir).run (Tree.exec draw) tree = (.ok pairs, tree) ∧
      contents.Lists dir pairs := by
  simp only [FileStore.list, fs.resolve_clean fits.clean, perform_bind, Program.run, Tree.exec,
    Tree.readDir]
  have unlocked : (locate dir).head? ≠ some lockName := fun lock => fits.free (.inl lock)
  have clear {path : Path} (mem : path ∈ Tree.along (fs.base.descend (locate dir))) :
      tree.isFile path = false :=
    rep.clear_of_apart unlocked fits.apart mem
  by_cases made : tree.isDirectory (fs.base.descend (locate dir)) = true
  · rw [if_pos made]
    refine ⟨_, readEntries_run _ _ ?_, values_nodup tree (locate dir), rep.mem_values fits⟩
    intro name mem
    obtain ⟨entry, got, plain⟩ := Tree.mem_children.mp mem
    cases entry with
    | directory => cases plain
    | file content => exact Tree.isFile_iff.mpr ⟨content, got⟩
  · have absence : tree.absence (fs.base.descend (locate dir)) = errNotExist := by
      rw [Tree.absence, if_neg]
      intro some
      obtain ⟨path, mem, file⟩ := any_eq_true.mp some
      rw [clear (Tree.mem_above.mp mem).1] at file
      cases file
    have plain : ¬ tree.isFile (fs.base.descend (locate dir)) = true := by
      rw [clear (Tree.mem_along.mpr ⟨rfl, prefix_rfl⟩)]
      simp
    rw [if_neg made, if_neg plain, absence]
    refine ⟨[], rfl, by simp, ?_⟩
    intro key value
    simp only [not_mem_nil, false_iff]
    intro ⟨mapped, child⟩
    have clean := (rep.used key (rep.present key value mapped)).1
    obtain ⟨name, split⟩ := (directChild_clean fits.clean clean).mp child
    have got : tree.lookup (fs.base.descend (locate dir ++ [name])) = some (.file value) := by
      rw [rep.files _ value (by simp), ← split, keyText_locate clean]
      · exact mapped
      · rw [List.head?_append_of_ne_nil _ fits.clean.2]
        exact unlocked
    exact made (rep.parents _ name value got)

end

theorem swap_refused_iff {old cur : Option Bytes} (expects : ¬ (old = some [] ∧ cur = none)) :
    (old = none ∧ cur ≠ none) ∨ cur.getD [] ≠ old.getD [] ↔ cur ≠ old := by
  cases old with
  | none =>
    cases cur with
    | none => simp
    | some data => simp
  | some old =>
    cases cur with
    | none =>
      have ne : old ≠ [] := by simpa using expects
      simp [ne.symm]
    | some data => simp

section

variable (rep : fs.Represents tree contents) (fits : KeyFits contents.used key)
  (draw : Tree → Path → UInt32) {old : Option Bytes} (new : Bytes)
  (expects : ¬ (old = some [] ∧ contents.map key = none))

include rep fits old new expects

theorem Represents.swapOver_run :
    ∃ after, (fs.swapOver key old new (contents.map key)).run (Tree.exec draw) tree =
      (.ok (contents.map key = old : Bool), after) ∧
      fs.Represents after (contents.after (.compareAndSwap key old (some new))) := by
  unfold swapOver
  by_cases equal : contents.map key = old
  · obtain ⟨written, run, represented⟩ := rep.putLocked_run fits draw new
    refine ⟨written, ?_, ?_⟩
    · rw [if_neg, run_then, run]
      · simp [equal, Program.run]
      · rw [swap_refused_iff expects]
        exact fun ne => ne equal
    · rw [Contents.after, if_pos equal]
      exact represented
  · refine ⟨tree, ?_, ?_⟩
    · rw [if_pos ((swap_refused_iff expects).mpr equal)]
      simp [equal, Program.run]
    · rw [Contents.after, if_neg equal]
      exact rep

theorem Represents.swapLocked_run :
    ∃ after, (fs.swapLocked key old new).run (Tree.exec draw) tree =
      (.ok (contents.map key = old : Bool), after) ∧
      fs.Represents after (contents.after (.compareAndSwap key old (some new))) := by
  obtain ⟨after, run, represented⟩ := rep.swapOver_run fits draw new expects
  refine ⟨after, ?_, represented⟩
  rw [swapLocked, run_then, rep.get_run fits draw, ← run]
  cases contents.map key with
  | none => rfl
  | some value => rfl

end

theorem represents_start (fs : FileStore) : fs.Represents ∅ mapContract.start where
  files := by simp [mapContract]
  directories := by simp
  parents := by simp
  used := by simp [mapContract]
  present := by simp [mapContract]
  root := by simp [Tree.isFile]

theorem Represents.step (rep : fs.Represents tree contents) (draw : Tree → Path → UInt32)
    {call : Call} (ok : Serves contents call) :
    contents.Allows call (fs.step draw tree call).1 ∧
      fs.Represents (fs.step draw tree call).2 (contents.after call) := by
  cases call with
  | get key =>
    rw [FileStore.step, rep.get_run ok draw]
    refine ⟨?_, rep⟩
    rw [Contents.Allows]
    cases contents.map key with
    | none => rfl
    | some value => rfl
  | put key value =>
    obtain ⟨written, run, represented⟩ := rep.lock.1.putLocked_run ok draw (value.getD [])
    rw [FileStore.step, put, rep.withWriteLock_run, run]
    exact ⟨rfl, represented⟩
  | delete key =>
    obtain ⟨erased, run, represented⟩ := rep.lock.1.deleteLocked_run ok draw rep.lock.2
    rw [FileStore.step, delete, rep.withWriteLock_run, run]
    exact ⟨rfl, represented⟩
  | list dir =>
    obtain ⟨pairs, run, lists⟩ := rep.list_run ok draw
    rw [FileStore.step, run]
    exact ⟨⟨pairs, rfl, lists⟩, rep⟩
  | compareAndSwap key old new =>
    obtain ⟨fits, expects⟩ := ok
    obtain ⟨after, run, represented⟩ := rep.lock.1.swapLocked_run fits draw (new.getD []) expects
    rw [FileStore.step, compareAndSwap, rep.withWriteLock_run, run]
    exact ⟨rfl, represented⟩

/-- The file store keeps to the map, whatever the numbers of its temporary files. -/
def simulation (fs : FileStore) (draw : Tree → Path → UInt32) :
    Simulation (fs.store draw) mapContract Serves where
  relation := fs.Represents
  start := fs.represents_start
  step _ _ _ rep admitted := rep.step draw admitted

end FileStore

end Infrastructure.State
