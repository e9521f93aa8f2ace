import Infrastructure.Concurrency.Sequential
import Infrastructure.State.FileStore

/-! A directory tree without links, as the file store finds it when it has the tree to itself. -/

namespace Infrastructure.State

open Concurrency Text List Option

inductive Entry where
  | file (content : Bytes)
  | directory
  deriving DecidableEq, Repr

def Entry.isDir : Entry → Bool
  | .file _ => false
  | .directory => true

/-- The entries by their paths. The start of a path, which has no names, is always a directory. -/
abbrev Tree := AList fun _ : Path => Entry

namespace Tree

def isFile (tree : Tree) (path : Path) : Bool :=
  match tree.lookup path with
  | some (.file _) => true
  | _ => false

def isDirectory (tree : Tree) (path : Path) : Bool :=
  path.names = [] || tree.lookup path = some .directory

/-- The paths on the way to a path, with or without the path itself. -/
def along (path : Path) : List Path := path.names.inits.map fun names => ⟨path.anchor, names⟩

def above (path : Path) : List Path := (along path).filter (· ≠ path)

def errNotDirectory : Error := .new "not a directory"
def errIsDirectory : Error := .new "is a directory"
def errNotEmpty : Error := .new "directory not empty"
def errExist : Error := .new "file exists"

/-- Why there is nothing at a path. -/
def absence (tree : Tree) (path : Path) : Error :=
  if (above path).any tree.isFile then errNotDirectory else errNotExist

def addDirectory (tree : Tree) (path : Path) : Tree :=
  if tree.isDirectory path then tree else tree.insert path .directory

def mkdirAll (tree : Tree) (dir : Path) : Except Error Unit × Tree :=
  if (along dir).any tree.isFile then (.error errNotDirectory, tree)
  else (.ok (), (along dir).foldl addDirectory tree)

def readFile (tree : Tree) (path : Path) : Except Error Bytes :=
  match tree.lookup path with
  | some (.file content) => .ok content
  | some .directory => .error errIsDirectory
  | none => .error (tree.absence path)

def nameBelow (dir path : Path) : Option Name :=
  path.names.getLast?.bind fun name => if dir.child name = path then some name else none

def children (tree : Tree) (dir : Path) : List (Name × Bool) :=
  tree.entries.filterMap fun entry => (nameBelow dir entry.1).map fun name => (name, entry.2.isDir)

def readDir (tree : Tree) (dir : Path) : Except Error (List (Name × Bool)) :=
  if tree.isDirectory dir then .ok (tree.children dir)
  else if tree.isFile dir then .error errNotDirectory
  else .error (tree.absence dir)

def create (tree : Tree) (path : Path) : Except Error Unit × Tree :=
  match tree.lookup path with
  | some (.file _) => (.ok (), tree)
  | some .directory => (.error errIsDirectory, tree)
  | none => if tree.isDirectory path.parent then (.ok (), tree.insert path (.file [])) else
      (.error (tree.absence path), tree)

def createTemp (tree : Tree) (dir : Path) (n : UInt32) : Except Error UInt32 × Tree :=
  if tree.isDirectory dir then
    match tree.lookup (dir.child (tempName n)) with
    | some _ => (.error errExist, tree)
    | none => (.ok n, tree.insert (dir.child (tempName n)) (.file []))
  else (.error (tree.absence dir), tree)

def write (tree : Tree) (path : Path) (content : Bytes) : Except Error Unit × Tree :=
  if tree.isFile path then (.ok (), tree.insert path (.file content))
  else (.error (tree.absence path), tree)

def rename (tree : Tree) (src t : Path) : Except Error Unit × Tree :=
  match tree.lookup src with
  | some (.file content) =>
    if tree.lookup t = some .directory then (.error errIsDirectory, tree)
    else if tree.isDirectory t.parent then (.ok (), (tree.erase src).insert t (.file content))
    else (.error (tree.absence t), tree)
  | _ => (.error (tree.absence src), tree)

def remove (tree : Tree) (path : Path) : Except Error Unit × Tree :=
  match tree.lookup path with
  | some (.file _) => (.ok (), tree.erase path)
  | some .directory =>
    if tree.children path = [] then (.ok (), tree.erase path) else (.error errNotEmpty, tree)
  | none => (.error (tree.absence path), tree)

def openDirectory (tree : Tree) (dir : Path) : Except Error Unit :=
  if tree.isDirectory dir then .ok () else .error (tree.absence dir)

/-- What the operations of the file store do. The numbers of temporary files are drawn somehow. -/
def exec (draw : Tree → Path → UInt32) : (op : FileOp) → Tree → op.Reply × Tree
  | .mkdirAll dir _, tree => tree.mkdirAll dir
  | .openLock path _, tree => tree.create path
  | .lock, tree => (.ok (), tree)
  | .unlock, tree => (.ok (), tree)
  | .closeLock, tree => (.ok (), tree)
  | .readFile path, tree => (tree.readFile path, tree)
  | .readDir dir, tree => (tree.readDir dir, tree)
  | .createTemp dir, tree => tree.createTemp dir (draw tree dir)
  | .writeTemp dir n val, tree => tree.write (dir.child (tempName n)) val
  | .chmodTemp _ _ _, tree => (.ok (), tree)
  | .syncTemp _ _, tree => (.ok (), tree)
  | .closeTemp _ _, tree => (.ok (), tree)
  | .rename src t, tree => tree.rename src t
  | .remove path, tree => tree.remove path
  | .openRoot dir, tree => (tree.openDirectory dir, tree)
  | .closeRoot, tree => (.ok (), tree)
  | .openDir dir, tree => (tree.openDirectory dir, tree)
  | .syncDir _, tree => (.ok (), tree)
  | .closeDir, tree => (.ok (), tree)

theorem mem_along {path other : Path} : other ∈ along path ↔
    other.anchor = path.anchor ∧ other.names <+: path.names := by
  simp only [along, List.mem_map, List.mem_inits]
  constructor
  · intro ⟨names, starts, eq⟩
    subst eq
    exact ⟨rfl, starts⟩
  · intro ⟨anchors, starts⟩
    exact ⟨other.names, starts, by rw [← anchors]⟩

theorem mem_above {path other : Path} : other ∈ above path ↔ other ∈ along path ∧ other ≠ path := by
  simp [above]

theorem isDirectory_iff {tree : Tree} {path : Path} :
    tree.isDirectory path = true ↔ path.names = [] ∨ tree.lookup path = some .directory := by
  simp [isDirectory]

theorem isFile_iff {tree : Tree} {path : Path} : tree.isFile path = true ↔
    ∃ content, tree.lookup path = some (.file content) := by
  unfold isFile
  split
  · simp_all
  · simp_all

theorem lookup_addDirectory (tree : Tree) (dir path : Path) : (tree.addDirectory dir).lookup path =
    if path = dir ∧ path.names ≠ [] then some .directory else tree.lookup path := by
  unfold addDirectory
  by_cases eq : path = dir
  · subst eq
    by_cases start : path.names = []
    · simp [isDirectory, start]
    · by_cases present : tree.lookup path = some .directory
      · simp [isDirectory, start, present]
      · simp [isDirectory, start, present]
  · split
    · simp [eq]
    · simp [eq, AList.lookup_insert_ne eq]

theorem lookup_addDirectories (dirs : List Path) (tree : Tree) (path : Path) :
    (dirs.foldl addDirectory tree).lookup path =
      if path ∈ dirs ∧ path.names ≠ [] then some .directory else tree.lookup path := by
  induction dirs generalizing tree with
  | nil => simp
  | cons dir dirs ih =>
    rw [foldl_cons, ih, lookup_addDirectory]
    by_cases later : path ∈ dirs
    · by_cases start : path.names = []
      · simp [start]
      · simp [later, start]
    · by_cases eq : path = dir
      · subst eq
        simp [later]
      · simp [later, eq]

theorem nameBelow_iff {dir path : Path} {name : Name} : nameBelow dir path = some name ↔
    path = dir.child name := by
  unfold nameBelow
  cases last : path.names.getLast? with
  | none =>
    simp only [bind_none, reduceCtorEq, false_iff]
    intro eq
    subst eq
    simp [Path.child] at last
  | some other =>
    simp only [bind_some]
    constructor
    · intro chosen
      split at chosen
      · cases chosen
        exact Eq.symm (by assumption)
      · cases chosen
    · intro eq
      subst eq
      have first : other = name := by simpa [Path.child] using last.symm
      simp [first]

theorem mem_children {tree : Tree} {dir : Path} {name : Name} {isDir : Bool} :
    (name, isDir) ∈ tree.children dir ↔ ∃ entry, tree.lookup
    (dir.child name) = some entry ∧ isDir = entry.isDir := by
  simp only [children, mem_filterMap, map_eq_some_iff, Prod.mk.injEq]
  constructor
  · intro ⟨⟨path, entry⟩, mem, got, named, eq, dirs⟩
    subst eq
    rw [nameBelow_iff] at named
    subst named
    exact ⟨entry, AList.mem_lookup_iff.mpr mem, dirs.symm⟩
  · intro ⟨entry, got, dirs⟩
    exact ⟨⟨_, entry⟩, AList.mem_lookup_iff.mp got, name, nameBelow_iff.mpr rfl, rfl, dirs.symm⟩

theorem children_nodup (tree : Tree) (dir : Path) : ((tree.children dir).map Prod.fst).Nodup := by
  have sublist (entries : List (Sigma fun _ : Path => Entry)) :
      (((entries.filterMap fun entry => (nameBelow dir entry.1).map fun name =>
        (name, entry.2.isDir)).map Prod.fst).map
        dir.child).Sublist (entries.map Sigma.fst) := by
    induction entries with
    | nil => exact .slnil
    | cons entry entries ih =>
      cases named : nameBelow dir entry.1 with
      | none =>
        rw [filterMap_cons_none (by simp [named]), map_cons]
        exact ih.cons _
      | some name =>
        rw [filterMap_cons_some (b := (name, entry.2.isDir)) (by simp [named])]
        simp only [map_cons]
        rw [nameBelow_iff.mp named]
        exact ih.cons_cons _
  have nodup : (tree.entries.map Sigma.fst).Nodup := tree.nodupKeys
  exact (nodup.sublist (sublist tree.entries)).of_map dir.child

end Tree

end Infrastructure.State
