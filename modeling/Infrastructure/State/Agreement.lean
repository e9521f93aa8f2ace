import Infrastructure.State.Etcd
import Infrastructure.State.FileBackend
import Infrastructure.State.Postgres

/-! The stores are one map, each for the calls that it serves. -/

namespace Infrastructure.State

open Refinement

/-- The same answer, up to the order of a listing. -/
def Answer.Agrees : Answer → Answer → Prop
  | .listed first, .listed second => first.Perm second
  | first, second => first = second

theorem Answer.agrees_refl (answer : Answer) : answer.Agrees answer := by
  cases answer with
  | listed pairs => exact List.Perm.refl pairs
  | _ => rfl

theorem Contents.Lists.perm {contents : Contents} {dir : String} {first snd : List (String × Bytes)}
    (one : contents.Lists dir first) (other : contents.Lists dir snd) : first.Perm snd := by
  rw [List.perm_ext_iff_of_nodup one.1.of_map other.1.of_map]
  intro ⟨key, val⟩
  rw [one.2, other.2]

/-- The map leaves no choice but the order of a listing. -/
theorem Contents.Allows.agrees (contents : Contents) (call : Call) (first snd : Answer)
    (one : contents.Allows call first) (other : contents.Allows call snd) : first.Agrees snd := by
  cases call with
  | list dir =>
    obtain ⟨pairs, rfl, lists⟩ := one
    obtain ⟨pairs', rfl, lists'⟩ := other
    exact lists.perm lists'
  | _ =>
    cases one
    cases other
    exact Answer.agrees_refl _

/-- With keys that are not empty etcd answers as the map does, and so do the database and the file
store as far as they serve the calls. -/
theorem stores_follow_map (fs : FileStore) (draw : Tree → Text.Path → UInt32)
    (collation : String → String → Bool) (calls : List Call) (keyed : ∀ call ∈ calls, call.Keyed) :
    mapContract.Follows calls (Etcd.store.answers calls) ∧
    (mapContract.Admits (fun _ => Postgres.Serves) calls →
      mapContract.Follows calls ((Postgres.store collation).answers calls) ∧
      List.Forall₂ Answer.Agrees ((Postgres.store collation).answers calls)
        (Etcd.store.answers calls)) ∧
    (mapContract.Admits FileStore.Serves calls →
      mapContract.Follows calls ((fs.store draw).answers calls) ∧
      List.Forall₂ Answer.Agrees ((fs.store draw).answers calls) (Etcd.store.answers calls)) ∧
    (mapContract.Admits (fun _ => Postgres.Serves) calls →
      mapContract.Admits FileStore.Serves calls →
      List.Forall₂ Answer.Agrees ((fs.store draw).answers calls)
        ((Postgres.store collation).answers calls)) := by
  have etcd : mapContract.Follows calls (Etcd.store.answers calls) :=
    Etcd.simulation.follows (Contract.admits_of_forall keyed)
  have agree {first second : List Answer} (one : mapContract.Follows calls first)
      (other : mapContract.Follows calls second) : List.Forall₂ Answer.Agrees first second :=
    one.agree Contents.Allows.agrees other
  refine ⟨etcd, ?_, ?_, ?_⟩
  · intro serves
    have postgres := (Postgres.simulation collation).follows serves
    exact ⟨postgres, agree postgres etcd⟩
  · intro serves
    have files := (fs.simulation draw).follows serves
    exact ⟨files, agree files etcd⟩
  · intro serves serves'
    exact agree ((fs.simulation draw).follows serves')
      ((Postgres.simulation collation).follows serves)

/-- A key, a swap and a listing that all of them serve. -/
def Call.ordinary : List Call :=
  [.put "vms/a" (some [1]), .compareAndSwap "vms/a" (some [1]) (some [2]), .list "vms"]

theorem stores_follow_map_ordinary :
    mapContract.Admits (fun _ => Postgres.Serves) Call.ordinary ∧
      mapContract.Admits FileStore.Serves Call.ordinary ∧
    mapContract.Follows Call.ordinary
      ((FileStore.store ⟨"/state"⟩ fun _ _ => 0).answers Call.ordinary) ∧
    List.Forall₂ Answer.Agrees ((FileStore.store ⟨"/state"⟩ fun _ _ => 0).answers Call.ordinary)
      ((Postgres.store fun _ _ => true).answers Call.ordinary) := by
  have serves : mapContract.Admits (fun _ => Postgres.Serves) Call.ordinary :=
    Contract.admits_of_forall (by decide)
  have fits (used : List String) (same : ∀ key ∈ used, key = "vms/a") :
      FileStore.KeyFits used "vms/a" :=
    ⟨by decide, by decide, by decide, fun key mem _ => same key mem⟩
  have serves' : mapContract.Admits FileStore.Serves Call.ordinary := by
    refine ⟨fits _ (by decide), ⟨fits _ (by decide), by decide⟩,
      ⟨by decide, by decide, by decide, ?_⟩, trivial⟩
    decide
  have follows :=
    stores_follow_map ⟨"/state"⟩ (fun _ _ => 0) (fun _ _ => true) Call.ordinary (by decide)
  exact ⟨serves, serves', (follows.2.2.1 serves').1, follows.2.2.2 serves serves'⟩

/-- An underscore stands for any character in the database, which takes no key that is not UTF-8
(here one with the byte 255). In the file store a swap that expects no bytes creates a file, two
slashes are one, and no key leads through another. -/
theorem stores_not_one_map : ¬ mapContract.Follows [.put "axb/n" (some [1]), .list "a_b"]
        ((Postgres.store fun _ _ => true).answers [.put "axb/n" (some [1]), .list "a_b"]) ∧
    ¬ mapContract.Follows [.put "vpc/ÿ" (some [1])]
        ((Postgres.store fun _ _ => true).answers [.put "vpc/ÿ" (some [1])]) ∧
    ¬ mapContract.Follows [.compareAndSwap "k" (some []) (some [1])]
        ((FileStore.store ⟨"/state"⟩ fun _ _ => 0).answers [.compareAndSwap "k"
          (some []) (some [1])]) ∧
    ¬ mapContract.Follows [.put "a//b" (some [1]), .get "a/b"]
        ((FileStore.store ⟨"/state"⟩ fun _ _ => 0).answers [.put "a//b" (some [1]), .get "a/b"]) ∧
    ¬ mapContract.Follows [.put "a" (some [1]), .put "a/b" (some [2])]
        ((FileStore.store ⟨"/state"⟩ fun _ _ => 0).answers [.put "a" (some [1]),
          .put "a/b" (some [2])]) := by
  refine ⟨?_, ?_, ?_, ?_, ?_⟩
  · intro ⟨_, ⟨pairs, answered, _, lists⟩, _⟩
    have shown : ("axb/n", [1]) ∈ pairs := by
      cases answered
      exact List.mem_map.mpr ⟨⟨"axb/n", [1]⟩, List.mem_mergeSort.mpr (by decide), rfl⟩
    have child := ((lists _ _).mp shown).2
    revert child
    decide
  · intro ⟨answered, _⟩
    have failed : Postgres.failed "state: pg put" "vpc/ÿ" Postgres.errText = .done := answered
    cases failed
  · intro ⟨answered, _⟩
    have swapped : Answer.swapped true = .swapped false := answered
    cases swapped
  · intro ⟨_, answered, _⟩
    have found : Answer.found [1] = .missing := answered
    cases found
  · intro ⟨_, answered, _⟩
    have failed : Answer.failed (.wrap "state: put mkdir \"/state/a\"" Tree.errNotDirectory) =
        .done := answered
    cases failed

end Infrastructure.State
