import Infrastructure.State.Store
import Infrastructure.Text.Decimal
import Infrastructure.Text.Path

/-! The store on the local file system. Its methods are programs over the file
operations they issue, so that what they reach does not depend on what the file
system answers. -/

namespace Infrastructure.State

open Concurrency Text Program

/-- A temporary file is known by the directory it is in and its random number. -/
inductive FileOp where
  | mkdirAll (dir : Path) (mode : Nat)
  | openLock (path : Path) (mode : Nat)
  | lock
  | unlock
  | closeLock
  | readFile (path : Path)
  | readDir (dir : Path)
  | createTemp (dir : Path)
  | writeTemp (dir : Path) (n : UInt32) (val : Bytes)
  | chmodTemp (dir : Path) (n : UInt32) (mode : Nat)
  | syncTemp (dir : Path) (n : UInt32)
  | closeTemp (dir : Path) (n : UInt32)
  | rename (src t : Path)
  | remove (path : Path)
  | openRoot (dir : Path)
  | closeRoot
  | openDir (dir : Path)
  | syncDir (dir : Path)
  | closeDir

/-- The entries of a directory come with whether each is a directory itself. -/
@[reducible] def FileOp.Reply : FileOp → Type
  | .readFile _ => Except Error Bytes
  | .readDir _ => Except Error (List (Name × Bool))
  | .createTemp _ => Except Error UInt32
  | _ => Except Error Unit

abbrev FileProg (α : Type) := Program FileOp FileOp.Reply α

/-- `os.ErrNotExist`. -/
def errNotExist : Error := .new "file does not exist"

def tempText (n : UInt32) : List Char := ".tmp-".toList ++ Nat.toDigits 10 n.toNat

theorem tempText_plain (n : UInt32) : Plain (tempText n) := by
  refine ⟨by simp [tempText], ?_, by simp [tempText], by simp [tempText]⟩
  intro slash
  rcases List.mem_append.mp slash with dotted | digit
  · revert dotted
    decide
  · have bounds := digit_bounds (Nat.isDigit_of_mem_toDigits (by omega) (by omega) digit)
    have val : '/'.toNat = 47 := rfl
    omega

/-- The name `os.CreateTemp` makes of `.tmp-*`. -/
def tempName (n : UInt32) : Name := ⟨tempText n, tempText_plain n⟩

def lockName : Name := ⟨".store.lock".toList, by decide⟩

def trimSlash : List Char → List Char
  | '/' :: rest => rest
  | text => text

structure FileStore where
  baseDir : String

namespace FileStore

variable (fs : FileStore)

def base : Path := clean fs.baseDir.toList

def resolve (key : String) : Except Error Path :=
  if key = "" then .error (.new "state: empty key")
  else
    let rel := trimSlash (clean ('/' :: key.toList)).render
    if rel = [] ∨ rel = ['.'] then .error (.new ("state: invalid key " ++ quoted key))
    else .ok (join [fs.baseDir.toList, rel])

def get (key : String) : FileProg (Except Error Bytes) := do
  match fs.resolve key with
  | .error err => return .error err
  | .ok path =>
    match ← perform (FileOp.readFile path) with
    | .error err =>
      if err.is errNotExist then return .error errNotFound
      else return .error (.wrap ("state: get " ++ quoted key) err)
    | .ok data => return .ok data

def syncDirectory (dir : Path) : FileProg (Except Error Unit) := do
  match ← perform (FileOp.openRoot fs.base) with
  | .error err => return .error err
  | .ok () =>
    match ← perform (FileOp.openDir dir) with
    | .error err =>
      let _ ← perform FileOp.closeRoot
      return .error err
    | .ok () =>
      let synced ← perform (FileOp.syncDir dir)
      let _ ← perform FileOp.closeDir
      let _ ← perform FileOp.closeRoot
      return synced

/-- A failed write takes its temporary file away. -/
def discard (dir : Path) (n : UInt32) (close : Bool) (context : String) (err : Error) :
    FileProg (Except Error Unit) := do
  if close then
    let _ ← perform (FileOp.closeTemp dir n)
  let _ ← perform (FileOp.remove (dir.child (tempName n)))
  return .error (.wrap context err)

def putLocked (key : String) (val : Bytes) : FileProg (Except Error Unit) := do
  match fs.resolve key with
  | .error err => return .error err
  | .ok path =>
    let dir := path.parent
    match ← perform (FileOp.mkdirAll dir 0o700) with
    | .error err =>
      return .error (.wrap ("state: put mkdir " ++ quoted (.ofList dir.render)) err)
    | .ok () =>
    match ← perform (FileOp.createTemp dir) with
    | .error err => return .error (.wrap ("state: put temp " ++ quoted key) err)
    | .ok n =>
    match ← perform (FileOp.writeTemp dir n val) with
    | .error err => discard dir n true ("state: put write " ++ quoted key) err
    | .ok () =>
    match ← perform (FileOp.chmodTemp dir n 0o600) with
    | .error err => discard dir n true ("state: put chmod " ++ quoted key) err
    | .ok () =>
    match ← perform (FileOp.syncTemp dir n) with
    | .error err => discard dir n true ("state: sync " ++ quoted key) err
    | .ok () =>
    match ← perform (FileOp.closeTemp dir n) with
    | .error err => discard dir n false ("state: put close " ++ quoted key) err
    | .ok () =>
    match ← perform (FileOp.rename (dir.child (tempName n)) path) with
    | .error err => discard dir n false ("state: put rename " ++ quoted key) err
    | .ok () => fs.syncDirectory dir

def deleteLocked (key : String) : FileProg (Except Error Unit) := do
  match fs.resolve key with
  | .error err => return .error err
  | .ok path =>
    match ← perform (FileOp.remove path) with
    | .error err =>
      if err.is errNotExist then return .ok ()
      else return .error (.wrap ("state: delete " ++ quoted key) err)
    | .ok () => fs.syncDirectory path.parent

/-- Every mutation runs under one lock file, shared by all stores and processes. -/
def withWriteLock {α : Type} (action : FileProg (Except Error α)) : FileProg (Except Error α) := do
  match ← perform (FileOp.mkdirAll fs.base 0o700) with
  | .error err => return .error err
  | .ok () =>
    match ← perform (FileOp.openLock (fs.base.child lockName) 0o600) with
    | .error err => return .error err
    | .ok () =>
      match ← perform FileOp.lock with
      | .error err =>
        let _ ← perform FileOp.closeLock
        return .error err
      | .ok () =>
        let result ← action
        let _ ← perform FileOp.unlock
        let _ ← perform FileOp.closeLock
        return result

def put (key : String) (val : Bytes) : FileProg (Except Error Unit) :=
  fs.withWriteLock (fs.putLocked key val)

def delete (key : String) : FileProg (Except Error Unit) := fs.withWriteLock (fs.deleteLocked key)

/-- The swap once the current value is known. An absent file reads as no bytes. -/
def swapOver (key : String) (old : Option Bytes) (new : Bytes) (cur : Option Bytes) :
    FileProg (Except Error Bool) := do
  if (old = none ∧ cur ≠ none) ∨ cur.getD [] ≠ old.getD [] then return .ok false
  else
    match ← fs.putLocked key new with
    | .error err => return .error err
    | .ok () => return .ok true

def swapLocked (key : String) (old : Option Bytes) (new : Bytes) :
    FileProg (Except Error Bool) := do
  match ← fs.get key with
  | .error err => if err.is errNotFound then fs.swapOver key old new none else return .error err
  | .ok data => fs.swapOver key old new (some data)

def compareAndSwap (key : String) (old : Option Bytes) (new : Bytes) :
    FileProg (Except Error Bool) :=
  fs.withWriteLock (fs.swapLocked key old new)

/-- The key of a file: its path relative to the root of the store. -/
def keyOf (path : Path) : String := .ofList (namesText (path.names.drop fs.base.names.length))

def readEntries (dir : Path) : List (Name × Bool) → FileProg (Except Error (List (String × Bytes)))
  | [] => return .ok []
  | (name, isDir) :: rest => do
      if isDir || ".tmp-".toList.isPrefixOf name.text then readEntries dir rest
      else
        let path := dir.child name
        match ← perform (FileOp.readFile path) with
        | .error err =>
          return .error (.wrap ("state: list read " ++ quoted (.ofList path.render)) err)
        | .ok data =>
          match ← readEntries dir rest with
          | .error err => return .error err
          | .ok values => return .ok ((fs.keyOf path, data) :: values)

def list (dir : String) : FileProg (Except Error (List (String × Bytes))) := do
  match fs.resolve dir with
  | .error err => return .error err
  | .ok path =>
    match ← perform (FileOp.readDir path) with
    | .error err =>
      if err.is errNotExist then return .ok []
      else return .error (.wrap ("state: list " ++ quoted dir) err)
    | .ok entries => fs.readEntries path entries

/-- The names that a key leads to from the root of the store. -/
def locate (key : String) : List Name := ((⟨.root, []⟩ : Path).walk (segments key.toList)).names

theorem render_clean_slash (key : String) : trimSlash (clean ('/' :: key.toList)).render = namesText
    (locate key) := by
  rw [clean_slash, Path.render, Path.walk_root rfl]
  rfl

theorem resolve_eq {key : String} (ne : key ≠ "") : fs.resolve key =
      if locate key = [] then .error (.new ("state: invalid key " ++ quoted key))
      else .ok (fs.base.descend (locate key)) := by
  simp only [resolve, if_neg ne, render_clean_slash]
  by_cases nowhere : locate key = []
  · have empty : namesText (locate key) = [] := by rw [nowhere]; rfl
    rw [if_pos (Or.inl empty), if_pos nowhere]
  · have somewhere : ¬ (namesText (locate key) = [] ∨ namesText (locate key) = ['.']) := by
      rintro (empty | dot)
      · exact namesText_ne_nil nowhere empty
      · exact namesText_ne_dot _ dot
    rw [if_neg somewhere, if_neg nowhere, join_namesText _ nowhere]
    rfl

/-- What the methods for one key do on the file system. -/
def Issued (key : String) : FileOp → Prop
  | .mkdirAll dir _ => dir = fs.base ∨ ∃ path, fs.resolve key = .ok path ∧ dir = path.parent
  | .openLock path _ => path = fs.base.child lockName
  | .readFile path => fs.resolve key = .ok path
  | .readDir _ => False
  | .createTemp dir | .writeTemp dir _ _ | .chmodTemp dir _ _ | .syncTemp dir _
  | .closeTemp dir _ =>
    ∃ path, fs.resolve key = .ok path ∧ dir = path.parent
  | .rename src t =>
    fs.resolve key = .ok t ∧ ∃ n, src = t.parent.child (tempName n)
  | .remove file =>
    ∃ path, fs.resolve key = .ok path ∧
      (file = path ∨ ∃ n, file = path.parent.child (tempName n))
  | .openRoot dir => dir = fs.base
  | .openDir dir | .syncDir dir => ∃ path, fs.resolve key = .ok path ∧ dir = path.parent
  | .lock | .unlock | .closeLock | .closeRoot | .closeDir => True

variable {key : String}

theorem get_issued : (fs.get key).Uses (fs.Issued key) fun _ => True := by
  rw [get]
  split
  · trivial
  · next path got =>
    refine Uses.perform got ?_
    rintro (err | data)
    · dsimp only
      split <;> trivial
    · trivial

theorem syncDirectory_issued {path : Path} (got : fs.resolve key = .ok path) :
    (fs.syncDirectory path.parent).Uses (fs.Issued key) fun _ => True := by
  refine Uses.perform rfl ?_
  rintro (err | ⟨⟩)
  · trivial
  · refine Uses.perform ⟨path, got, rfl⟩ ?_
    rintro (err | ⟨⟩)
    · exact Uses.perform trivial fun _ => trivial
    · refine Uses.perform ⟨path, got, rfl⟩ fun synced => ?_
      exact Uses.perform trivial fun _ => Uses.perform trivial fun _ => trivial

theorem discard_issued {path : Path} (got : fs.resolve key = .ok path) (n : UInt32)
    (close : Bool) (context : String) (err : Error) :
    (discard path.parent n close context err).Uses (fs.Issued key) fun _ => True := by
  have removed : fs.Issued key (.remove (path.parent.child (tempName n))) :=
    ⟨path, got, Or.inr ⟨n, rfl⟩⟩
  cases close with
  | false => exact Uses.perform removed fun _ => trivial
  | true =>
    refine Uses.perform ⟨path, got, rfl⟩ fun _ => ?_
    exact Uses.perform removed fun _ => trivial

theorem putLocked_issued (val : Bytes) :
    (fs.putLocked key val).Uses (fs.Issued key) fun _ => True := by
  rw [putLocked]
  split
  · trivial
  · next path got =>
    have beside : ∃ path', fs.resolve key = .ok path' ∧ path.parent = path'.parent :=
      ⟨path, got, rfl⟩
    refine Uses.perform (Or.inr beside) ?_
    rintro (err | ⟨⟩)
    · trivial
    refine Uses.perform beside ?_
    rintro (err | n)
    · trivial
    have discarded := fs.discard_issued got n
    refine Uses.perform beside ?_
    rintro (err | ⟨⟩)
    · exact discarded true _ err
    refine Uses.perform beside ?_
    rintro (err | ⟨⟩)
    · exact discarded true _ err
    refine Uses.perform beside ?_
    rintro (err | ⟨⟩)
    · exact discarded true _ err
    refine Uses.perform beside ?_
    rintro (err | ⟨⟩)
    · exact discarded false _ err
    refine Uses.perform ⟨got, n, rfl⟩ ?_
    rintro (err | ⟨⟩)
    · exact discarded false _ err
    exact fs.syncDirectory_issued got

theorem deleteLocked_issued : (fs.deleteLocked key).Uses (fs.Issued key) fun _ => True := by
  rw [deleteLocked]
  split
  · trivial
  · next path got =>
    refine Uses.perform ⟨path, got, Or.inl rfl⟩ ?_
    rintro (err | ⟨⟩)
    · dsimp only
      split <;> trivial
    · exact fs.syncDirectory_issued got

theorem withWriteLock_issued {α : Type} {action : FileProg (Except Error α)}
    (issued : action.Uses (fs.Issued key) fun _ => True) :
    (fs.withWriteLock action).Uses (fs.Issued key) fun _ => True := by
  refine Uses.perform (Or.inl rfl) ?_
  rintro (err | ⟨⟩)
  · trivial
  refine Uses.perform rfl ?_
  rintro (err | ⟨⟩)
  · trivial
  refine Uses.perform trivial ?_
  rintro (err | ⟨⟩)
  · exact Uses.perform trivial fun _ => trivial
  refine issued.bind fun out _ => ?_
  exact Uses.perform trivial fun _ => Uses.perform trivial fun _ => trivial

theorem delete_issued : (fs.delete key).Uses (fs.Issued key) fun _ => True :=
  fs.withWriteLock_issued fs.deleteLocked_issued

theorem compareAndSwap_issued (old : Option Bytes) (new : Bytes) :
    (fs.compareAndSwap key old new).Uses (fs.Issued key) fun _ => True := by
  have swaps (cur : Option Bytes) : (fs.swapOver key old new cur).Uses (fs.Issued key) fun _ =>
      True := by
    rw [swapOver]
    split
    · trivial
    · refine (fs.putLocked_issued new).bind ?_
      rintro (err | ⟨⟩) - <;> trivial
  refine fs.withWriteLock_issued (fs.get_issued.bind ?_)
  rintro (err | data) -
  · dsimp only
    split
    · exact swaps none
    · trivial
  · exact swaps (some data)

end FileStore

end Infrastructure.State
