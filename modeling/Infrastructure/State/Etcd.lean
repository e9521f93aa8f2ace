import Infrastructure.State.Contract
import Mathlib.Data.String.Basic

/-! The store on etcd: a map in the order of its keys, read by ranges. -/

namespace Infrastructure.State

open Refinement List AList

namespace Etcd

structure Value where
  data : Bytes
  createRevision : Nat
  deriving DecidableEq, Repr

/-- What the servers agree on. The order of keys is that of their characters, as it is in UTF-8. -/
structure Server where
  kvs : AList fun _ : String => Value
  revision : Nat := 0

namespace Server

def write (server : Server) (key : String) (data : Bytes) : Server :=
  let created := ((server.kvs.lookup key).map Value.createRevision).getD (server.revision + 1)
  ⟨server.kvs.insert key ⟨data, created⟩, server.revision + 1⟩

/-- Where the keys with a prefix end: its last character counted up by one. -/
def rangeEnd (start : List Char) : List Char :=
  start.dropLast ++ (start.getLast?.map fun char => Char.ofNat (char.toNat + 1)).toList

def range (server : Server) (start limit : List Char) : List (String × Bytes) :=
  ((server.kvs.entries.filter fun kv => ¬ kv.1.toList < start ∧ kv.1.toList < limit).mergeSort
    fun first second => ¬ second.1.toList < first.1.toList).map fun kv => (kv.1, kv.2.data)

end Server

def get (server : Server) (key : String) : Answer :=
  match server.kvs.lookup key with
  | none => .missing
  | some val => .found val.data

def list (server : Server) (dir : String) : Answer :=
  let scan := dir ++ "/"
  .listed ((server.range scan.toList (Server.rangeEnd scan.toList)).filter fun kv =>
    !(kv.1.toList.drop scan.length).contains '/')

/-- A key that was never created, or is deleted, has revision zero. -/
def holds (server : Server) (key : String) : Option Bytes → Bool
  | none => ((server.kvs.lookup key).map Value.createRevision).getD 0 == 0
  | some old => (server.kvs.lookup key).map Value.data == some old

def compareAndSwap (server : Server) (key : String) (old new : Option Bytes) : Answer × Server :=
  if holds server key old then (.swapped true, server.write key (new.getD []))
  else (.swapped false, server)

def step (server : Server) : Call → Answer × Server
  | .get key => (get server key, server)
  | .put key val => (.done, server.write key (val.getD []))
  | .delete key => (.done, ⟨server.kvs.erase key, server.revision + 1⟩)
  | .list dir => (list server dir, server)
  | .compareAndSwap key old new => compareAndSwap server key old new

def store : Service Call Answer where
  State := Server
  start := ⟨∅, 0⟩
  step := step

theorem range_iff_starts (front : List Char) {last next : Char}
    (successor : ∀ char, ¬ char < last ∧ char < next ↔ char = last) (text : List Char) :
    ¬ text < front ++ [last] ∧ text < front ++ [next] ↔ front ++ [last] <+: text := by
  induction front generalizing text with
  | nil =>
    cases text with
    | nil => simp
    | cons char text =>
      simp only [nil_append, cons_lt_cons_iff, not_lt_nil, and_false, or_false,
        cons_prefix_cons, nil_prefix, and_true, successor]
      exact eq_comm
  | cons char front ih =>
    cases text with
    | nil => simp
    | cons first text =>
      simp only [cons_append, cons_lt_cons_iff, cons_prefix_cons, ← ih text]
      rcases lt_trichotomy first char with less | eq | more
      · simp [less, less.ne']
      · simp [eq]
      · simp [more.ne, more.ne', lt_asymm more]

theorem slash_successor (char : Char) : ¬ char < '/' ∧ char < '0' ↔ char = '/' := by
  constructor
  · intro ⟨lower, upper⟩
    have low : ¬ char.toNat < '/'.toNat := lower
    have high : char.toNat < '0'.toNat := upper
    have eq : char.toNat = '/'.toNat := by
      have slash : '/'.toNat = 47 := rfl
      have zero : '0'.toNat = 48 := rfl
      omega
    exact Char.toNat_inj.mp eq
  · intro eq
    subst eq
    decide

theorem mem_range (server : Server) (dir key : String) (data : Bytes) :
    (key, data) ∈ server.range (dir ++ "/").toList (Server.rangeEnd (dir ++ "/").toList) ↔
      (server.kvs.lookup key).map Value.data = some data ∧ (dir ++ "/").toList <+: key.toList := by
  have limit : Server.rangeEnd (dir ++ "/").toList = dir.toList ++ ['0'] := by
    simp [Server.rangeEnd]
  have scan : (dir ++ "/").toList = dir.toList ++ ['/'] := by simp
  rw [Server.range, limit, scan]
  simp only [mem_map, mem_mergeSort, mem_filter, decide_eq_true_eq,
    range_iff_starts _ slash_successor, Prod.mk.injEq, Option.map_eq_some_iff]
  constructor
  · intro ⟨⟨got, val⟩, ⟨mem, starts⟩, eq, text⟩
    simp only at eq text
    subst eq
    exact ⟨⟨val, mem_lookup_iff.mpr mem, text⟩, starts⟩
  · intro ⟨⟨val, got, text⟩, starts⟩
    exact ⟨⟨key, val⟩, ⟨mem_lookup_iff.mp got, starts⟩, rfl, text⟩

theorem range_nodup (server : Server) (start limit : List Char) :
    ((server.range start limit).map Prod.fst).Nodup := by
  have keys : (server.range start limit).map Prod.fst =
      ((server.kvs.entries.filter fun kv => ¬ kv.1.toList < start ∧ kv.1.toList < limit).mergeSort
        fun first snd => ¬ snd.1.toList < first.1.toList).keys := by
    simp [Server.range, List.keys, Function.comp_def]
  rw [keys]
  have sorted :=
    mergeSort_perm (server.kvs.entries.filter fun kv => ¬ kv.1.toList < start ∧ kv.1.toList < limit)
    fun first snd => ¬ snd.1.toList < first.1.toList
  apply (sorted.map Sigma.fst).nodup_iff.mpr
  exact List.Nodup.sublist (filter_sublist.map Sigma.fst) server.kvs.nodupKeys

/-- The server holds the map, and every key it holds was created. -/
structure Represents (server : Server) (contents : Contents) : Prop where
  data : ∀ key, (server.kvs.lookup key).map Value.data = contents.map key
  created : ∀ key val, server.kvs.lookup key = some val → 0 < val.createRevision

variable {server : Server} {contents : Contents}

section

variable (rep : Represents server contents)
include rep

theorem Represents.write (key : String) (data : Bytes) (used : List String) :
    Represents (server.write key data) ⟨Function.update contents.map key (some data), used⟩ := by
  constructor
  · intro other
    by_cases eq : other = key
    · subst eq
      simp [Server.write]
    · simp [Server.write, lookup_insert_ne eq, eq, rep.data other]
  · intro other val got
    by_cases eq : other = key
    · subst eq
      simp only [Server.write, lookup_insert, Option.some.injEq] at got
      subst got
      cases old : server.kvs.lookup other with
      | none => simp
      | some val => simpa using rep.created other val old
    · rw [Server.write, lookup_insert_ne eq] at got
      exact rep.created other val got

theorem Represents.erase (key : String) (revision : Nat) :
    Represents ⟨server.kvs.erase key, revision⟩ ⟨Function.update contents.map key none,
      contents.used⟩ := by
  constructor
  · intro other
    by_cases eq : other = key
    · subst eq
      simp
    · simp [lookup_erase_ne eq, eq, rep.data other]
  · intro other val got
    by_cases eq : other = key
    · subst eq
      simp at got
    · rw [lookup_erase_ne eq] at got
      exact rep.created other val got

theorem Represents.holds_iff (key : String) (old : Option Bytes) :
    holds server key old = true ↔ contents.map key = old := by
  rw [← rep.data key]
  cases old with
  | none =>
    cases got : server.kvs.lookup key with
    | none => simp [holds, got]
    | some val =>
      have pos := rep.created key val got
      simp [holds, got, pos.ne']
  | some old => simp [holds]

theorem Represents.lists (dir : String) :
    ∃ pairs, list server dir = .listed pairs ∧ contents.Lists dir pairs := by
  apply Exists.intro _
  constructor
  · rfl
  · constructor
    · exact (range_nodup server _ _).sublist (filter_sublist.map Prod.fst)
    · intro key val
      rw [mem_filter, mem_range, rep.data key, directChild]
      simp [List.isPrefixOf_iff_prefix, and_assoc]

theorem Represents.get_eq (key : String) :
    Etcd.get server key = (contents.map key).elim .missing .found := by
  rw [← rep.data key, Etcd.get]
  cases server.kvs.lookup key with
  | none => rfl
  | some val => rfl

theorem Represents.swap (key : String) (old new : Option Bytes) :
    contents.Allows (.compareAndSwap key old new) (compareAndSwap server key old new).1 ∧
      Represents (compareAndSwap server key old new).2
        (contents.after (.compareAndSwap key old new)) := by
  have swap := rep.holds_iff key old
  rw [compareAndSwap, Contents.after, Contents.Allows]
  by_cases eq : contents.map key = old
  · rw [if_pos (swap.mpr eq), if_pos eq]
    exact ⟨by simp [eq], rep.write key _ _⟩
  · rw [if_neg (mt swap.mp eq), if_neg eq]
    exact ⟨by simp [eq], rep⟩

end

/-- The servers refuse the empty key only. -/
def simulation : Simulation store mapContract fun _ call => call.Keyed where
  relation := Represents
  start := ⟨fun _ => rfl, fun _ _ found => nomatch found⟩
  step server contents call rep _ := by
    cases call with
    | get key =>
      constructor
      · exact rep.get_eq key
      · exact rep
    | put key val => exact ⟨rfl, rep.write key _ _⟩
    | delete key => exact ⟨rfl, rep.erase key _⟩
    | list dir => exact ⟨rep.lists dir, rep⟩
    | compareAndSwap key old new => exact rep.swap key old new

end Etcd

end Infrastructure.State
