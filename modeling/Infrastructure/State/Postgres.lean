import Infrastructure.State.Contract

/-! The store on PostgreSQL: one table, listed by patterns. -/

namespace Infrastructure.State

open Refinement List AList

namespace Postgres

/-- A byte of a character of UTF-8 after its first. -/
def continues (byte : Char) : Bool := 0x80 ≤ byte.toNat && byte.toNat < 0xC0

/-- The operator `LIKE` on the bytes of a pattern and a text: a percent sign is any text, an
underscore any character with all its bytes, and a backslash escapes. -/
def like : List Char → List Char → Bool
  | [], text => text.isEmpty
  | '%' :: pattern, text => text.tails.any (like pattern)
  | '_' :: pattern, text =>
    match text with
    | [] => false
    | _ :: rest => like pattern (rest.dropWhile continues)
  | '\\' :: literal :: pattern, text =>
    match text with
    | [] => false
    | char :: rest => char == literal && like pattern rest
  | literal :: pattern, text =>
    match text with
    | [] => false
    | char :: rest => char == literal && like pattern rest

/-- The table `kv`; its rows are shown in the order of a collation. -/
structure Table where
  rows : AList fun _ : String => Bytes

/-- Text is UTF-8 and holds no zero byte; the bytes that the message ends with are left out. -/
def errText : Error := .new "invalid byte sequence for encoding \"UTF8\""

/-- A nil slice is written as null. -/
def errNull : Error :=
  .new "null value in column \"value\" of relation \"kv\" violates not-null constraint"

/-- Where the bytes after the first one of a character lie; the bounds of the second rule out
overlong forms, surrogates and all above the last character. -/
def following (first : Nat) : Option (List (Nat × Nat)) :=
  if first < 0x80 then some []
  else if first < 0xC2 then none
  else if first < 0xE0 then some [(0x80, 0xC0)]
  else if first < 0xF0 then
    some [(if first = 0xE0 then 0xA0 else 0x80, if first = 0xED then 0xA0 else 0xC0), (0x80, 0xC0)]
  else if first < 0xF5 then
    some [(if first = 0xF0 then 0x90 else 0x80, if first = 0xF4 then 0x90 else 0xC0), (0x80, 0xC0),
      (0x80, 0xC0)]
  else none

/-- UTF-8, after bytes that leave some due. -/
def utf8 : List (Nat × Nat) → List Char → Bool
  | [], [] => true
  | _ :: _, [] => false
  | [], byte :: rest => (following byte.toNat).any fun due => utf8 due rest
  | (low, high) :: due, byte :: rest => low ≤ byte.toNat && byte.toNat < high && utf8 due rest

def textual (text : String) : Bool := utf8 [] text.toList && !text.toList.contains (Char.ofNat 0)

def failed (context key : String) (err : Error) : Answer :=
  .failed (.wrap (context ++ " " ++ quoted key) err)

section

variable (collation : String → String → Bool)

def get (table : Table) (key : String) : Answer :=
  if textual key then (table.rows.lookup key).elim .missing .found
  else failed "state: pg get" key errText

/-- An insert that gives way to the row that is there, or updates it. -/
def put (table : Table) (key : String) (val : Option Bytes) : Answer × Table :=
  if textual key then
    match val with
    | none => (failed "state: pg put" key errNull, table)
    | some data => (.done, ⟨table.rows.insert key data⟩)
  else (failed "state: pg put" key errText, table)

def delete (table : Table) (key : String) : Answer × Table :=
  if textual key then (.done, ⟨table.rows.erase key⟩)
  else (failed "state: pg delete" key errText, table)

def list (table : Table) (dir : String) : Answer :=
  if textual dir then
    .listed (((table.rows.entries.filter fun row =>
      like (dir ++ "/%").toList row.1.toList && !like (dir ++ "/%/%").toList row.1.toList).mergeSort
        fun first second => collation first.1 second.1).map fun row => (row.1, row.2))
  else failed "state: pg list" dir errText

def compareAndSwap (table : Table) (key : String) (old new : Option Bytes) : Answer × Table :=
  match old with
  | none =>
    if textual key then
      match new, table.rows.lookup key with
      | none, _ => (failed "state: pg cas insert" key errNull, table)
      | some _, some _ => (.swapped false, table)
      | some data, none => (.swapped true, ⟨table.rows.insert key data⟩)
    else (failed "state: pg cas insert" key errText, table)
  | some old =>
    if textual key then
      if table.rows.lookup key = some old then
        match new with
        | none => (failed "state: pg cas update" key errNull, table)
        | some data => (.swapped true, ⟨table.rows.insert key data⟩)
      else (.swapped false, table)
    else (failed "state: pg cas update" key errText, table)

def step (table : Table) : Call → Answer × Table
  | .get key => (get table key, table)
  | .put key val => put table key val
  | .delete key => delete table key
  | .list dir => (list collation table dir, table)
  | .compareAndSwap key old new => compareAndSwap table key old new

def store : Service Call Answer where
  State := Table
  start := ⟨∅⟩
  step := step collation

end

theorem like_percent (text : List Char) : like ['%'] text = true := by
  rw [like, any_eq_true]
  exact ⟨[], by simp, rfl⟩

theorem like_append {front : List Char}
    (plain : ∀ char ∈ front, char ≠ '%' ∧ char ≠ '_' ∧ char ≠ '\\') (pattern text : List Char) :
    like (front ++ pattern) text = true ↔
      ∃ rest, text = front ++ rest ∧ like pattern rest = true := by
  induction front generalizing text with
  | nil => simp
  | cons literal front ih =>
    obtain ⟨percent, underscore, backslash⟩ := plain literal (.head _)
    have step : like (literal :: (front ++ pattern)) text =
        match text with
        | [] => false
        | char :: rest => char == literal && like (front ++ pattern) rest := by
      rw [like.eq_def]
      split
      all_goals simp_all
    rw [cons_append, step]
    cases text with
    | nil => simp
    | cons char rest =>
      simp [ih (fun other mem => plain other (.tail _ mem)), and_assoc]

theorem like_slash (text : List Char) : like ['%', '/', '%'] text = true ↔ '/' ∈ text := by
  have slash (rest : List Char) : like ['/', '%'] rest = true ↔ ∃ after, rest = '/' :: after := by
    have front : like (['/'] ++ ['%']) rest = true ↔
        ∃ after, rest = ['/'] ++ after ∧ like ['%'] after = true :=
      like_append (by simp) ['%'] rest
    simpa [like_percent] using front
  rw [like, any_eq_true]
  simp only [mem_tails, slash]
  constructor
  · intro ⟨rest, ⟨pre, split⟩, after, starts⟩
    rw [← split, starts]
    simp
  · intro mem
    obtain ⟨pre, after, split⟩ := append_of_mem mem
    exact ⟨'/' :: after, ⟨pre, split.symm⟩, after, rfl⟩

theorem listed_iff {dir : String}
    (plain : ∀ char ∈ dir.toList, char ≠ '%' ∧ char ≠ '_' ∧ char ≠ '\\') (key : String) :
    (like (dir ++ "/%").toList key.toList && !like (dir ++ "/%/%").toList key.toList) = directChild
    dir key := by
  have ordinary : ∀ char ∈ dir.toList ++ ['/'], char ≠ '%' ∧ char ≠ '_' ∧ char ≠ '\\' := by
    intro char mem
    rcases mem_append.mp mem with inside | last
    · exact plain char inside
    · rw [mem_singleton.mp last]
      decide
  have below : like (dir ++ "/%").toList key.toList = true ↔
      ∃ rest, key.toList = dir.toList ++ '/' :: rest := by
    have pattern : (dir ++ "/%").toList = (dir.toList ++ ['/']) ++ ['%'] := by simp
    rw [pattern, like_append ordinary]
    simp [like_percent]
  have deeper : like (dir ++ "/%/%").toList key.toList = true ↔
      ∃ rest, key.toList = dir.toList ++ '/' :: rest ∧ '/' ∈ rest := by
    have pattern : (dir ++ "/%/%").toList = (dir.toList ++ ['/']) ++ ['%', '/', '%'] := by simp
    rw [pattern, like_append ordinary]
    simp [like_slash]
  rw [Bool.eq_iff_iff, Bool.and_eq_true, Bool.not_eq_true', ← Bool.not_eq_true, below, deeper,
    directChild_iff]
  constructor
  · intro ⟨⟨rest, split⟩, flat⟩
    exact ⟨rest, split, fun slash => flat ⟨rest, split, slash⟩⟩
  · intro ⟨rest, split, flat⟩
    constructor
    · exact ⟨rest, split⟩
    · intro ⟨other, again, slash⟩
      rw [split, append_cancel_left_eq, List.cons.injEq] at again
      exact flat (again.2 ▸ slash)

def Represents (table : Table) (contents : Contents) : Prop :=
  ∀ key, table.rows.lookup key = contents.map key

variable {table : Table} {contents : Contents} {used : List String} {key : String}

section

variable (rep : Represents table contents)
include rep

theorem Represents.insert (data : Bytes) :
    Represents ⟨table.rows.insert key data⟩ ⟨Function.update contents.map key (some data),
      used⟩ := by
  intro other
  by_cases eq : other = key
  · subst eq
    simp
  · simp [lookup_insert_ne eq, eq, rep other]

theorem Represents.erase :
    Represents ⟨table.rows.erase key⟩ ⟨Function.update contents.map key none, used⟩ := by
  intro other
  by_cases eq : other = key
  · subst eq
    simp
  · simp [lookup_erase_ne eq, eq, rep other]

theorem Represents.lists (collation : String → String → Bool) {dir : String}
    (text : textual dir = true)
    (plain : ∀ char ∈ dir.toList, char ≠ '%' ∧ char ≠ '_' ∧ char ≠ '\\') :
    ∃ pairs, list collation table dir = .listed pairs ∧ contents.Lists dir pairs := by
  rw [list, if_pos text]
  simp only [listed_iff plain]
  apply Exists.intro _
  constructor
  · rfl
  · constructor
    · have sorted := mergeSort_perm (table.rows.entries.filter fun row => directChild dir row.1)
        fun first snd => collation first.1 snd.1
      rw [map_map]
      apply (sorted.map Sigma.fst).nodup_iff.mpr
      exact List.Nodup.sublist (filter_sublist.map Sigma.fst) table.rows.nodupKeys
    · intro key val
      rw [← rep key]
      simp only [mem_map, mem_mergeSort, mem_filter, Prod.mk.injEq]
      constructor
      · intro ⟨⟨got, data⟩, ⟨mem, child⟩, eq, content⟩
        simp only at eq content
        subst eq
        subst content
        exact ⟨mem_lookup_iff.mpr mem, child⟩
      · intro ⟨got, child⟩
        exact ⟨⟨key, val⟩, ⟨mem_lookup_iff.mp got, child⟩, rfl, rfl⟩

theorem Represents.swap (text : textual key = true) (old : Option Bytes)
    (new : Bytes) : contents.Allows (.compareAndSwap key old (some new))
    (compareAndSwap table key old (some new)).1 ∧
      Represents (compareAndSwap table key old (some new)).2
        (contents.after (.compareAndSwap key old (some new))) := by
  rw [Contents.after, Contents.Allows, ← rep key]
  cases old with
  | none =>
    cases got : table.rows.lookup key with
    | none =>
      simp only [compareAndSwap, if_pos text, got]
      exact ⟨rfl, rep.insert new⟩
    | some data =>
      simp only [compareAndSwap, if_pos text, got]
      exact ⟨rfl, rep⟩
  | some old =>
    by_cases eq : table.rows.lookup key = some old
    · simp only [compareAndSwap, if_pos text, if_pos eq]
      exact ⟨by simp [eq], rep.insert new⟩
    · simp only [compareAndSwap, if_pos text, if_neg eq]
      exact ⟨by simp [eq], rep⟩

theorem Represents.get_eq (text : textual key = true) :
    Postgres.get table key = (contents.map key).elim .missing .found := by
  rw [Postgres.get, if_pos text, rep key]

end

theorem put_eq (text : textual key = true) (data : Bytes) :
    Postgres.put table key (some data) = (.done, ⟨table.rows.insert key data⟩) := by
  simp only [Postgres.put, if_pos text]

theorem delete_eq (text : textual key = true) :
    Postgres.delete table key = (.done, ⟨table.rows.erase key⟩) := by
  rw [Postgres.delete, if_pos text]

/-- The calls served as by the map: values that are not null, and text without pattern
characters. -/
def Serves : Call → Prop
  | .get key | .delete key => textual key = true
  | .put key val => textual key = true ∧ val ≠ none
  | .list dir => textual dir = true ∧ ∀ char ∈ dir.toList, char ≠ '%' ∧ char ≠ '_' ∧ char ≠ '\\'
  | .compareAndSwap key _ new => textual key = true ∧ new ≠ none

instance : DecidablePred Serves
  | .get _ | .delete _ => inferInstanceAs (Decidable (_ = _))
  | .put _ _ | .compareAndSwap _ _ _ => inferInstanceAs (Decidable (_ ∧ _))
  | .list dir => have : Decidable (∀ char ∈ dir.toList, char ≠ '%' ∧ char ≠ '_' ∧ char ≠ '\\') :=
      List.decidableBAll _ _
    inferInstanceAs (Decidable (_ ∧ _))

def simulation (collation : String → String → Bool) :
    Simulation (store collation) mapContract fun _ => Serves where
  relation := Represents
  start _ := rfl
  step table contents call rep admitted := by
    cases call with
    | get key => exact ⟨rep.get_eq admitted, rep⟩
    | put key val =>
      obtain ⟨text, given⟩ := admitted
      obtain ⟨data, rfl⟩ := Option.ne_none_iff_exists'.mp given
      have written : (store collation).step table (.put key (some data)) =
          (.done, ⟨table.rows.insert key data⟩) :=
        put_eq text data
      rw [written]
      exact ⟨rfl, rep.insert data⟩
    | delete key =>
      have erased : (store collation).step table (.delete key) = (.done, ⟨table.rows.erase key⟩) :=
        delete_eq admitted
      rw [erased]
      exact ⟨rfl, rep.erase⟩
    | list dir => exact ⟨rep.lists collation admitted.1 admitted.2, rep⟩
    | compareAndSwap key old new =>
      obtain ⟨text, given⟩ := admitted
      obtain ⟨data, rfl⟩ := Option.ne_none_iff_exists'.mp given
      exact rep.swap text old data

end Postgres

end Infrastructure.State
