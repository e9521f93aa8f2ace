import Mathlib.Algebra.Order.BigOperators.Group.List
import Mathlib.Algebra.Order.Ring.Rat
import Infrastructure.Controllers.Placement
import Infrastructure.State.Steady

/-! A scheduling pass turn by turn: which node each record chose, and what the store made of it. -/

namespace Infrastructure.Controllers

open Concurrency State Domain List Registry Function

variable {S ST : Type}

theorem rel_right {α β : Type} {relation : α → β → Prop} {left : Option α} {right : Option β}
    {val : β} (rel : Option.Rel relation left right) (got : right = some val) :
    ∃ orig, left = some orig ∧ relation orig val := by
  cases rel with
  | none => cases got
  | some holds =>
    cases got
    exact ⟨_, rfl, holds⟩

theorem rel_left {α β : Type} {relation : α → β → Prop} {left : Option α} {right : Option β}
    {val : α} (rel : Option.Rel relation left right) (got : left = some val) :
    ∃ cur, right = some cur ∧ relation val cur := by
  cases rel with
  | none => cases got
  | some holds =>
    cases got
    exact ⟨_, rfl, holds⟩

/-- The same record, apart from its placement and its version. -/
structure SameRecord (orig cur : Resource S ST) : Prop where
  uid : cur.metadata.uid = orig.metadata.uid
  deleting : cur.metadata.isDeleting = orig.metadata.isDeleting
  spec : cur.spec = orig.spec

def Places (r : Registry S ST) (p : Placement ST) (origin : Shared) (places : String → String)
    (now : Shared) : Prop :=
  ∀ uid, Option.Rel (fun orig cur => SameRecord orig cur ∧ p.on cur = places uid)
    (r.stored origin uid) (r.stored now uid)

def placeOf (r : Registry S ST) (p : Placement ST) (now : Shared) (uid : String) : String :=
  ((r.stored now uid).map p.on).getD ""

namespace Places

variable {r : Registry S ST} {p : Placement ST} {origin s s' : Shared}
variable {places : String → String} {uid node : String} {cur : Resource S ST}

theorem start : Places r p origin (placeOf r p origin) origin := by
  intro uid
  rw [placeOf]
  cases r.stored origin uid with
  | none => exact .none
  | some orig => exact .some ⟨⟨rfl, rfl, rfl⟩, rfl⟩

section

variable (tracked : Places r p origin places s)
include tracked

theorem of_stored (got : r.stored s uid = some cur) :
    ∃ orig, r.stored origin uid = some orig ∧ SameRecord orig cur ∧
      p.on cur = places uid := by
  have rel := rel_right (tracked uid) got
  exact rel

theorem of_origin {orig : Resource S ST} (known : r.stored origin uid = some orig) :
    ∃ cur, r.stored s uid = some cur ∧ SameRecord orig cur ∧ p.on cur = places uid := by
  have rel := rel_left (tracked uid) known
  exact rel

theorem placeOf_eq {orig : Resource S ST} (known : r.stored origin uid = some orig) :
    placeOf r p s uid = places uid := by
  obtain ⟨cur, got, -, put⟩ := tracked.of_origin known
  rw [placeOf, got]
  exact put

theorem filed (filed : r.Filed origin) : r.Filed s := by
  intro uid cur got
  obtain ⟨orig, known, eq, -⟩ := tracked.of_stored got
  rw [eq.uid, filed uid orig known]

theorem assigned (filed : r.Filed origin) (got : r.stored s uid = some cur)
    (saves : r.Saves s (p.move node cur) s') :
    Places r p origin (Function.update places uid node) s' := by
  have named : (p.move node cur).metadata.uid = uid := tracked.filed filed uid cur got
  obtain ⟨orig, known, eq, -⟩ := tracked.of_stored got
  intro other
  by_cases here : other = uid
  · obtain ⟨v, wrote⟩ := saves.stored_self
    rw [here, ← named, wrote, named, known, Function.update_self]
    exact .some ⟨⟨eq.uid, eq.deleting, eq.spec⟩, p.nodeName_place node cur.status⟩
  · rw [saves.stored_of_ne (by rwa [named]), update_of_ne here]
    exact tracked other

theorem update_self (eq : places uid = node) :
    Places r p origin (Function.update places uid node) s := by
  rw [← eq, update_eq_self]
  exact tracked

end

end Places

section

variable {r : Registry S ST} {p : Placement ST} {origin : Shared} {s : Logged}
variable {places : String → String} {items : List (Resource S ST)} {ready : String → Bool}

theorem assign_places {uid node : String} (filed : r.Filed origin)
    (tracked : Places r p origin places s.shared) :
    (assign r p uid node).Ends logged (fun reply s' =>
      Places r p origin (Function.update places uid node) s'.shared ∨
        (Places r p origin places s'.shared ∧ ∃ err, reply = .error err)) s := by
  refine keeps_get trivial (fun err => .inr ⟨tracked, err, rfl⟩) ?_
  intro cur got
  obtain ⟨orig, -, -, put⟩ := tracked.of_stored got
  dsimp only
  split
  · next there => exact .inl (tracked.update_self (put.symm.trans there))
  · apply keeps_put trivial (fun _ _ => trivial)
    · intro err
      exact .inr ⟨tracked, err, rfl⟩
    · intro reply s' saves _
      have moved := tracked.assigned filed got saves
      cases reply with
      | error err => exact .inl moved
      | ok stored => exact .inl moved

/-- What becomes of a record and of its placement in the first part of a pass. -/
inductive Cleared (p : Placement ST) (ready : String → Bool) (item : Resource S ST) (old : String) :
    Resource S ST → String → Prop
  | kept (stays : stranded p ready item = false) : Cleared p ready item old item old
  | cleared (out : stranded p ready item = true) : Cleared p ready item old (p.move "" item) ""
  | failed {new : String} (out : stranded p ready item = true) (either : new = old ∨ new = "") :
      Cleared p ready item old item new

/-- The copies of the records when every write was acknowledged. -/
def clearedCopy (p : Placement ST) (ready : String → Bool) (item : Resource S ST) : Resource S ST :=
  if stranded p ready item then p.move "" item else item

/-- What the first part of a pass leaves: each record with its copy, and where the store places
it. -/
structure Clears (r : Registry S ST) (p : Placement ST) (ready : String → Bool) (origin : Shared)
    (places : String → String) (items : List (Resource S ST)) (s' : Shared)
    (pairs : List (Resource S ST × Resource S ST)) (later : String → String) : Prop where
  tracked : Places r p origin later s'
  listed : pairs.map Prod.fst = items
  outside : ∀ uid, uid ∉ items.map (·.metadata.uid) → later uid = places uid
  each : ∀ pair ∈ pairs,
    Cleared p ready pair.1 (places pair.1.metadata.uid) pair.2 (later pair.1.metadata.uid)

variable {item copy : Resource S ST}

theorem Clears.cons {mid later : String → String} {s' : Shared}
    {pairs : List (Resource S ST × Resource S ST)}
    (clears : Clears r p ready origin mid items s' pairs later)
    (fresh : item.metadata.uid ∉ items.map (·.metadata.uid))
    (frame : ∀ uid, uid ≠ item.metadata.uid → mid uid = places uid)
    (here : Cleared p ready item (places item.metadata.uid) copy (mid item.metadata.uid)) :
    Clears r p ready origin places (item :: items) s' ((item, copy) :: pairs) later := by
  refine ⟨clears.tracked, by rw [map_cons, clears.listed], ?_, ?_⟩
  · intro uid gone
    simp only [map_cons, mem_cons, not_or] at gone
    rw [clears.outside uid gone.2, frame uid gone.1]
  · intro pair mem
    rcases mem_cons.mp mem with rfl | inside
    · rw [clears.outside _ fresh]
      exact here
    · have seen : pair.1 ∈ items := clears.listed ▸ mem_map_of_mem inside
      have other : pair.1.metadata.uid ≠ item.metadata.uid :=
        fun eq => fresh (eq ▸ mem_map_of_mem (f := fun item => item.metadata.uid) seen)
      rw [← frame _ other]
      exact clears.each pair inside

theorem evictStranded_places (filed : r.Filed origin) (tracked : Places r p origin places s.shared)
    (once : (items.map (·.metadata.uid)).Nodup) :
    (evictStranded r p ready items).Ends logged (fun result s' =>
      ∃ pairs later, Clears r p ready origin places items s'.shared pairs later ∧
        pairs.map Prod.snd = result.1 ∧
          (result.2 = [] → result.1 = items.map (clearedCopy p ready))) s := by
  induction items generalizing s places with
  | nil => exact ⟨[], places, ⟨tracked, rfl, fun _ _ => rfl, by simp⟩, rfl, fun _ => rfl⟩
  | cons item items ih =>
    obtain ⟨fresh, nodup⟩ := nodup_cons.mp once
    -- the rest of the pass, once the first record has been dealt with
    have rest (now : Logged) (mid : String → String) (copy : Resource S ST)
        (add : List Error → List Error)
        (kept : Places r p origin mid now.shared)
        (frame : ∀ uid, uid ≠ item.metadata.uid → mid uid = places uid)
        (here : Cleared p ready item (places item.metadata.uid) copy (mid item.metadata.uid))
        (clean : ∀ errs, add errs = [] → errs = [] ∧ copy = clearedCopy p ready item) :
        (evictStranded r p ready items >>= fun result =>
            return (copy :: result.1, add result.2) : Prog _).Ends logged (fun result s' =>
          ∃ pairs later, Clears r p ready origin places (item :: items) s'.shared pairs later ∧
            pairs.map Prod.snd = result.1 ∧
            (result.2 = [] → result.1 = (item :: items).map (clearedCopy p ready))) now := by
      apply (ih kept nodup).bind
      rintro ⟨others, errs⟩ s' ⟨pairs, later, clears, copies, complete⟩
      refine ⟨(item, copy) :: pairs, later, clears.cons fresh frame here, ?_, ?_⟩
      · rw [map_cons, copies]
      · intro none
        obtain ⟨nothing, eq⟩ := clean errs none
        have others : others = items.map (clearedCopy p ready) := complete nothing
        rw [map_cons, ← eq, ← others]
    have frame (uid : String) (ne : uid ≠ item.metadata.uid) :
        Function.update places item.metadata.uid "" uid = places uid := update_of_ne ne _ _
    rw [evictStranded]
    split
    · next out =>
      have copied : p.move "" item = clearedCopy p ready item := by rw [clearedCopy, if_pos out]
      apply (assign_places filed tracked).bind
      intro reply s' either
      cases reply with
      | error err =>
        let reported (errs : List Error) := Error.wrap ("evict " ++ item.metadata.uid) err :: errs
        rcases either with wrote | ⟨same, -⟩
        · refine rest s' _ item reported wrote frame ?_ (by simp [reported])
          rw [Function.update_self]
          exact .failed out (.inr rfl)
        · exact rest s' _ item reported same (fun _ _ => rfl) (.failed out (.inl rfl))
            (by simp [reported])
      | ok done =>
        rcases either with wrote | ⟨-, err, wrong⟩
        · refine rest s' _ _ id wrote frame ?_ fun errs none => ⟨none, copied⟩
          rw [Function.update_self]
          exact .cleared out
        · cases wrong
    · next stays =>
      have stays : stranded p ready item = false := Bool.not_eq_true _ ▸ stays
      have copied : item = clearedCopy p ready item := by rw [clearedCopy, stays, if_neg (by simp)]
      exact rest s places item id tracked (fun _ _ => rfl) (.kept stays) fun errs none =>
        ⟨none, copied⟩

/-- A turn of the second part of a pass: a copy, the node chosen, if any, and whether the write was
acknowledged. -/
structure Turn (S ST : Type) where
  item : Resource S ST
  chosen : String
  acknowledged : Bool

def waiting (p : Placement ST) (item : Resource S ST) : Bool :=
  !item.metadata.isDeleting && p.on item == ""

/-- What a turn adds to the commitments that the next ones see. -/
def Turn.advance (demand : Resource S ST → Demand) (alloc : Allocation)
    (turn : Turn S ST) : Allocation :=
  if turn.chosen ≠ "" ∧ turn.acknowledged = true then
    Function.update alloc turn.chosen (some (((alloc turn.chosen).getD {}).add (demand turn.item)))
  else alloc

/-- What the store may make of a turn. -/
def Turn.Settles (turn : Turn S ST) (old new : String) : Prop :=
  (turn.chosen ≠ "" ∧ new = turn.chosen) ∨
    (new = old ∧ (turn.chosen ≠ "" → turn.acknowledged = false))

/-- Every turn chooses by the commitments that the turns before it have left. -/
def Follows (p : Placement ST) (pick : Allocation → Resource S ST → String)
    (demand : Resource S ST → Demand) :
    Allocation → List (Turn S ST) → Prop
  | _, [] => True
  | alloc, turn :: turns =>
    turn.chosen = (if waiting p turn.item then pick alloc turn.item else "") ∧
      Follows p pick demand (turn.advance demand alloc) turns

variable {pick : Allocation → Resource S ST → String} {demand : Resource S ST → Demand}
    {alloc : Allocation}

theorem Follows.choice {pre later : List (Turn S ST)} {turn : Turn S ST}
    (follows : Follows p pick demand alloc (pre ++ turn :: later)) :
    turn.chosen = if waiting p turn.item then pick (pre.foldl (Turn.advance demand) alloc) turn.item
      else "" := by
  induction pre generalizing alloc with
  | nil => exact follows.1
  | cons first pre ih => exact ih follows.2

/-- What the second part of a pass leaves. -/
structure Turns (r : Registry S ST) (p : Placement ST) (origin : Shared) (places : String → String)
    (items : List (Resource S ST)) (s' : Shared) (turns : List (Turn S ST))
    (later : String → String) : Prop where
  tracked : Places r p origin later s'
  listed : turns.map Turn.item = items
  outside : ∀ uid, uid ∉ items.map (·.metadata.uid) → later uid = places uid
  each : ∀ turn ∈ turns, turn.Settles (places turn.item.metadata.uid) (later turn.item.metadata.uid)

theorem Turns.cons {turn : Turn S ST} {mid later : String → String} {s' : Shared}
    {turns : List (Turn S ST)} (done : Turns r p origin mid items s' turns later)
    (fresh : turn.item.metadata.uid ∉ items.map (·.metadata.uid))
    (frame : ∀ uid, uid ≠ turn.item.metadata.uid → mid uid = places uid)
    (here : turn.Settles (places turn.item.metadata.uid) (mid turn.item.metadata.uid)) :
    Turns r p origin places (turn.item :: items) s' (turn :: turns) later := by
  refine ⟨done.tracked, by rw [map_cons, done.listed], ?_, ?_⟩
  · intro uid gone
    simp only [map_cons, mem_cons, not_or] at gone
    rw [done.outside uid gone.2, frame uid gone.1]
  · intro other mem
    rcases mem_cons.mp mem with rfl | inside
    · rw [done.outside _ fresh]
      exact here
    · have seen : other.item ∈ items := done.listed ▸ mem_map_of_mem inside
      have ne : other.item.metadata.uid ≠ turn.item.metadata.uid :=
        fun eq => fresh (eq ▸ mem_map_of_mem (f := fun item => item.metadata.uid) seen)
      rw [← frame _ ne]
      exact done.each other inside

theorem placeEach_places (filed : r.Filed origin) (tracked : Places r p origin places s.shared)
    (once : (items.map (·.metadata.uid)).Nodup) :
    (placeEach r p (fun alloc item => return pick alloc item) demand alloc items).Ends logged
    (fun out s' => ∃ turns later,
        Turns r p origin places items s'.shared turns later ∧ Follows p pick demand alloc turns ∧
          (out.2 = [] → ∀ turn ∈ turns, turn.chosen ≠ "" → turn.acknowledged = true)) s := by
  induction items generalizing s places alloc with
  | nil => exact ⟨[], places, ⟨tracked, rfl, fun _ _ => rfl, by simp⟩, trivial, fun _ => by simp⟩
  | cons item items ih =>
    obtain ⟨fresh, nodup⟩ := nodup_cons.mp once
    have idle (named : (if waiting p item then pick alloc item else "") = "") :
        (placeEach r p (fun alloc item => return pick alloc item) demand alloc items).Ends logged
          (fun out s' => ∃ turns later,
            Turns r p origin places (item :: items) s'.shared turns later ∧
              Follows p pick demand alloc turns ∧
              (out.2 = [] → ∀ turn ∈ turns, turn.chosen ≠ "" → turn.acknowledged = true)) s := by
      apply (ih tracked nodup).mono
      rintro out s' ⟨turns, later, settled, follows, clean⟩
      refine ⟨⟨item, "", false⟩ :: turns, later, ?_, ⟨named.symm, ?_⟩, ?_⟩
      · have here : (Turn.mk item "" false).Settles (places item.metadata.uid)
            (places item.metadata.uid) :=
          .inr ⟨rfl, fun chosen => (chosen rfl).elim⟩
        exact settled.cons fresh (fun _ _ => rfl) here
      · rw [Turn.advance, if_neg (by simp)]
        exact follows
      · intro none turn mem chosen
        rcases mem_cons.mp mem with rfl | inside
        · exact absurd rfl chosen
        · exact clean none turn inside chosen
    rw [placeEach]
    split
    · next settled =>
      apply idle
      rw [if_neg]
      simp only [waiting, Bool.and_eq_true, Bool.not_eq_true', beq_iff_eq, not_and]
      intro live unplaced
      simp [live, unplaced] at settled
    · next unsettled =>
      have waits : waiting p item = true := by
        simpa [waiting] using unsettled
      show (if pick alloc item = "" then _ else _ : Prog _).Keeps _ _ _ _
      split
      · next none => exact idle (by rw [if_pos waits, none])
      · next chosen =>
        have frame (uid : String) (ne : uid ≠ item.metadata.uid) :
            Function.update places item.metadata.uid (pick alloc item) uid = places uid :=
          update_of_ne ne _ _
        -- the rest of the pass, after a write with the given outcome
        have rest (now : Logged) (mid : String → String) (acknowledged : Bool)
            (kept : Places r p origin mid now.shared)
            (frame : ∀ uid, uid ≠ item.metadata.uid → mid uid = places uid)
            (here : (Turn.mk item (pick alloc item) acknowledged).Settles (places item.metadata.uid)
              (mid item.metadata.uid)) :
            (placeEach r p (fun alloc item => return pick alloc item) demand
              ((Turn.mk item (pick alloc item) acknowledged).advance demand alloc) items).Ends
                logged (fun out s' => ∃ turns later,
                Turns r p origin places (item :: items) s'.shared turns later ∧
                  Follows p pick demand alloc turns ∧ (out.2 = [] → acknowledged = true →
                    ∀ turn ∈ turns, turn.chosen ≠ "" → turn.acknowledged = true)) now := by
          apply (ih kept nodup).mono
          rintro out s' ⟨turns, later, settled, follows, clean⟩
          refine ⟨⟨item, pick alloc item, acknowledged⟩ :: turns, later,
            settled.cons fresh frame here, ⟨by rw [if_pos waits], follows⟩, ?_⟩
          intro none done turn mem chosen
          rcases mem_cons.mp mem with rfl | inside
          · exact done
          · exact clean none turn inside chosen
        apply (assign_places filed tracked).bind
        intro reply s' either
        cases reply with
        | error err =>
          obtain ⟨mid, kept, frame, here⟩ : ∃ mid, Places r p origin mid s'.shared ∧
              (∀ uid, uid ≠ item.metadata.uid → mid uid = places uid) ∧
              (Turn.mk item (pick alloc item) false).Settles (places item.metadata.uid)
                (mid item.metadata.uid) := by
            rcases either with wrote | ⟨same, -⟩
            · exact ⟨_, wrote, frame, .inl ⟨chosen, Function.update_self _ _ _⟩⟩
            · exact ⟨_, same, fun _ _ => rfl, .inr ⟨rfl, fun _ => rfl⟩⟩
          have moved := rest s' mid false kept frame here
          simp only [Turn.advance, Bool.false_eq_true, and_false, if_false] at moved
          apply moved.bind
          rintro out final ⟨turns, later, settled, follows, -⟩
          exact ⟨turns, later, settled, follows, by simp⟩
        | ok done =>
          rcases either with wrote | ⟨-, err, wrong⟩
          · have moved := rest s' _ true wrote frame (.inl ⟨chosen, Function.update_self _ _ _⟩)
            rw [Turn.advance, if_pos ⟨chosen, rfl⟩] at moved
            apply moved.mono
            rintro out final ⟨turns, later, settled, follows, clean⟩
            exact ⟨turns, later, settled, follows, fun none => clean none rfl⟩
          · cases wrong

variable {old new : String}

section

variable (cleared : Cleared p ready item old copy new)
include cleared

theorem Cleared.copies : Copies p ready item copy := by
  cases cleared with
  | kept => exact .inl rfl
  | cleared out => exact .inr ⟨out, rfl⟩
  | failed => exact .inl rfl

theorem Cleared.metadata : copy.metadata = item.metadata := by
  cases cleared <;> rfl

theorem Cleared.spec : copy.spec = item.spec := by
  cases cleared <;> rfl

theorem Cleared.place : new = old ∨ new = "" := by
  cases cleared with
  | kept => exact .inl rfl
  | cleared => exact .inr rfl
  | failed _ either => exact either

theorem Cleared.place_of_copy (copied : copy = clearedCopy p ready item) (there : old = p.on item) :
    new = p.on copy := by
  cases cleared with
  | kept => exact there
  | cleared => exact (p.nodeName_place "" item.status).symm
  | failed out _ =>
    rw [clearedCopy, if_pos out] at copied
    have empty : p.on item = "" := by
      rw [copied]
      exact p.nodeName_place "" item.status
    simp [stranded, empty] at out

end

theorem Clears.uids {s' : Shared} {pairs : List (Resource S ST × Resource S ST)}
    {later : String → String} (clears : Clears r p ready origin places items s' pairs later) :
    (pairs.map Prod.snd).map (·.metadata.uid) = items.map fun item => item.metadata.uid := by
  rw [← clears.listed, map_map, map_map]
  apply map_congr_left
  intro pair mem
  exact congrArg ObjectMeta.uid (clears.each pair mem).metadata

/-- A pass: the records that it cleared, and then its turns. -/
structure Scheduled (r : Registry S ST) (p : Placement ST) (ready : String → Bool) (origin : Shared)
    (alloc : Allocation) (pick : Allocation → Resource S ST → String)
    (demand : Resource S ST → Demand) (items : List (Resource S ST)) (s' : Shared)
    (pairs : List (Resource S ST × Resource S ST)) (turns : List (Turn S ST))
    (middle later : String → String) : Prop where
  clears : ∃ between, Clears r p ready origin (placeOf r p origin) items between pairs middle
  settled : Turns r p origin middle (pairs.map Prod.snd) s' turns later
  follows : Follows p pick demand ((pairs.map Prod.snd).foldl (account p demand) alloc) turns

theorem schedule_places {nodes : List Node} (filed : r.Filed s.shared)
    (once : (items.map (·.metadata.uid)).Nodup) :
    (schedule r p ready nodes (fun alloc item => return pick alloc item) demand items).Ends logged
    (fun out s' => ∃ pairs turns mid later,
        Scheduled r p ready s.shared (emptyAllocation nodes) pick demand items s'.shared pairs
          turns mid later ∧ (out.2 = [] → pairs.map Prod.snd = items.map (clearedCopy p ready) ∧
          ∀ turn ∈ turns, turn.chosen ≠ "" → turn.acknowledged = true)) s := by
  apply (evictStranded_places filed Places.start once).bind
  rintro ⟨copies, evictions⟩ between ⟨pairs, mid, clears, eq, complete⟩
  have eq : pairs.map Prod.snd = copies := eq
  have nodup : (copies.map (·.metadata.uid)).Nodup := by
    rw [← eq, clears.uids]
    exact once
  apply (placeEach_places filed clears.tracked nodup).bind
  rintro ⟨alloc, errs⟩ s' ⟨turns, later, done, follows, clean⟩
  refine ⟨pairs, turns, mid, later, ⟨⟨_, clears⟩, eq ▸ done, eq ▸ follows⟩, ?_⟩
  intro nothing
  obtain ⟨first, snd⟩ := append_eq_nil_iff.mp nothing
  exact ⟨eq.trans (complete first), clean snd⟩

theorem evictStranded_none (none : ∀ item ∈ items, stranded p ready item = false) :
    evictStranded r p ready items = return (items, []) := by
  induction items with
  | nil => rfl
  | cons item items ih =>
    rw [evictStranded, none item (.head _), ih fun other mem => none other (.tail _ mem)]
    rfl

theorem placeEach_none (none : ∀ item ∈ items, waiting p item = true → pick alloc item = "") :
    placeEach r p (fun alloc item => return pick alloc item) demand alloc items =
      return (alloc, []) := by
  induction items with
  | nil => rfl
  | cons item items ih =>
    have rest := ih fun other mem => none other (.tail _ mem)
    rw [placeEach, rest]
    split
    · rfl
    · next unsettled =>
      have nothing := none item (.head _) (by simpa [waiting] using unsettled)
      simp [nothing]

section

variable (filed : r.Filed origin) (encodes : r.Encodes)
variable (named : ∀ uid res, r.stored origin uid = some res → uid ≠ "")

include filed encodes named

theorem assign_served {uid node : String} (tracked : Places r p origin places s.shared)
    (has : ∃ orig, r.stored origin uid = some orig) :
    (assign r p uid node).Ends steady
    (fun reply s' => reply = .ok () ∧ ∃ later, Places r p origin later s'.shared) s := by
  obtain ⟨orig, known⟩ := has
  obtain ⟨cur, got, -⟩ := tracked.of_origin known
  have own : cur.metadata.uid = uid := tracked.filed filed uid cur got
  have answered : (assign r p uid node).Ends steady (fun reply _ => reply = .ok ())
      s := by
    apply (get_served trivial got).bind
    rintro reply s' ⟨rfl, rfl⟩
    dsimp only
    split
    · exact rfl
    · have eq : (p.move node cur).metadata = cur.metadata := rfl
      apply (save_served encodes got eq own (named uid orig known)).bind
      rintro reply final ⟨⟨stored, rfl⟩, -⟩
      exact rfl
  apply (answered.and (keeps_answering (assign_places filed tracked))).mono
  rintro reply s' ⟨rfl, wrote | ⟨-, err, wrong⟩⟩
  · exact ⟨rfl, _, wrote⟩
  · cases wrong

theorem evictStranded_served (tracked : Places r p origin places s.shared)
    (has : ∀ item ∈ items, ∃ orig, r.stored origin item.metadata.uid = some orig) :
    (evictStranded r p ready items).Ends steady (fun out s' => out.2 = [] ∧
      (∀ copy ∈ out.1, ∃ orig, r.stored origin copy.metadata.uid = some orig) ∧
      ∃ later, Places r p origin later s'.shared) s := by
  induction items generalizing s places with
  | nil => exact ⟨rfl, by simp, places, tracked⟩
  | cons item items ih =>
    have here := has item (.head _)
    have rest (now : Logged) (mid : String → String) (kept : Places r p origin mid now.shared)
        (copy : Resource S ST) (eq : copy.metadata = item.metadata) :
        (evictStranded r p ready items >>= fun out =>
            return (copy :: out.1, out.2) : Prog _).Ends steady (fun out s' =>
          out.2 = [] ∧ (∀ copy ∈ out.1, ∃ orig, r.stored origin copy.metadata.uid = some orig) ∧
          ∃ later, Places r p origin later s'.shared) now := by
      apply (ih kept fun other mem => has other (.tail _ mem)).bind
      rintro ⟨others, errs⟩ s' ⟨nothing, copies, later⟩
      refine ⟨nothing, ?_, later⟩
      intro other mem
      rcases mem_cons.mp mem with rfl | inside
      · rw [eq]
        exact here
      · exact copies other inside
    rw [evictStranded]
    split
    · apply (assign_served filed encodes named tracked here).bind
      rintro reply s' ⟨rfl, mid, kept⟩
      exact rest s' mid kept _ rfl
    · exact rest s places tracked item rfl

theorem placeEach_served (tracked : Places r p origin places s.shared)
    (has : ∀ item ∈ items, ∃ orig, r.stored origin item.metadata.uid = some orig) :
    (placeEach r p (fun alloc item => return pick alloc item) demand alloc items).Ends steady
    (fun out _ => out.2 = []) s := by
  induction items generalizing s places alloc with
  | nil => exact rfl
  | cons item items ih =>
    have rest {now : Logged} {mid : String →
        String} {alloc : Allocation} (kept : Places r p origin mid now.shared) :=
      @ih now mid alloc kept fun other mem => has other (.tail _ mem)
    rw [placeEach]
    split
    · exact rest tracked
    · show (if pick alloc item = "" then _ else _ : Prog _).Keeps _ _ _ _
      split
      · exact rest tracked
      · apply (assign_served filed encodes named tracked (has item (.head _))).bind
        rintro reply s' ⟨rfl, mid, kept⟩
        exact rest kept

theorem schedule_served {nodes : List Node} (tracked : Places r p origin places s.shared)
    (has : ∀ item ∈ items, ∃ orig, r.stored origin item.metadata.uid = some orig) :
    (schedule r p ready nodes (fun alloc item => return pick alloc item) demand items).Ends steady
    (fun out _ => out.2 = []) s := by
  apply (evictStranded_served filed encodes named tracked has).bind
  rintro ⟨copies, evictions⟩ between ⟨nothing, copied, mid, kept⟩
  apply (placeEach_served filed encodes named kept copied).bind
  rintro ⟨alloc, errs⟩ s' none
  exact append_eq_nil_iff.mpr ⟨nothing, none⟩

end

end

section

def WithinLimits (capacity : NodeCapacity) (demands : List Demand) : Prop :=
  (0 < capacity.maxPods → (demands.length : Int) ≤ capacity.maxPods) ∧
    (demands.map Demand.cpu).sum ≤ capacity.cpus ∧ (demands.map Demand.mem).sum ≤ capacity.memoryMb

def NodeAlloc.addAll (alloc : NodeAlloc) (demands : List Demand) : NodeAlloc :=
  demands.foldl NodeAlloc.add alloc

theorem NodeAlloc.addAll_eq (alloc : NodeAlloc) (demands : List Demand) : alloc.addAll demands =
    ⟨alloc.cpus + (demands.map Demand.cpu).sum, alloc.mem + (demands.map Demand.mem).sum,
      alloc.pods + demands.length⟩ := by
  induction demands generalizing alloc with
  | nil => simp [NodeAlloc.addAll]
  | cons demand demands ih =>
    have step : alloc.addAll (demand :: demands) = (alloc.add demand).addAll demands := rfl
    rw [step, ih, NodeAlloc.add, NodeAlloc.mk.injEq]
    refine ⟨?_, ?_, ?_⟩
    · rw [map_cons, sum_cons, add_assoc]
    · rw [map_cons, sum_cons, add_assoc]
    · simp only [length_cons]
      omega

theorem hasRoom_iff (capacity : NodeCapacity) (demands : List Demand) (demand : Demand) :
    hasRoom capacity (NodeAlloc.addAll {} demands) demand = true ↔
      WithinLimits capacity (demand :: demands) := by
  rw [NodeAlloc.addAll_eq, hasRoom, WithinLimits]
  simp only [Bool.and_eq_true, Bool.not_eq_true', Bool.and_eq_false_iff, decide_eq_false_iff_not,
    not_lt, not_le, length_cons, map_cons, sum_cons, zero_add, Nat.cast_add, Nat.cast_one,
    and_assoc, add_comm]
  refine and_congr ?_ Iff.rfl
  omega

theorem WithinLimits.perm {capacity : NodeCapacity} {first snd : List Demand}
    (eq : first.Perm snd) :
    WithinLimits capacity first ↔ WithinLimits capacity snd := by
  rw [WithinLimits, WithinLimits, eq.length_eq, (eq.map Demand.cpu).sum_eq,
    (eq.map Demand.mem).sum_eq]

theorem WithinLimits.sublist {capacity : NodeCapacity} {less more : List Demand}
    (within : WithinLimits capacity more) (incl : less.Sublist more)
    (pos : ∀ demand ∈ more, 0 ≤ demand.cpu ∧ 0 ≤ demand.mem) :
    WithinLimits capacity less := by
  obtain ⟨pods, cpus, mem⟩ := within
  refine ⟨?_, ?_, ?_⟩
  · intro limited
    have shorter := incl.length_le
    have bound := pods limited
    omega
  · refine le_trans (List.Sublist.sum_le_sum (incl.map Demand.cpu) ?_) cpus
    intro amount member
    obtain ⟨demand, inside, rfl⟩ := mem_map.mp member
    exact (pos demand inside).1
  · refine le_trans (List.Sublist.sum_le_sum (incl.map Demand.mem) ?_) mem
    intro amount member
    obtain ⟨demand, inside, rfl⟩ := mem_map.mp member
    exact (pos demand inside).2

theorem emptyAllocation_snoc (nodes : List Node) (node : Node) :
    emptyAllocation (nodes ++ [node]) =
      Function.update (emptyAllocation nodes) node.metadata.uid (some {}) := by
  rw [emptyAllocation, foldl_append]
  rfl

theorem emptyAllocation_listed {nodes : List Node} {node : Node} (mem : node ∈ nodes) :
    emptyAllocation nodes node.metadata.uid = some {} := by
  induction nodes using List.reverseRecOn with
  | nil => cases mem
  | append_singleton nodes last ih =>
    rw [emptyAllocation_snoc]
    by_cases eq : node.metadata.uid = last.metadata.uid
    · rw [eq, Function.update_self]
    · rw [update_of_ne eq]
      rcases mem_append.mp mem with inside | final
      · exact ih inside
      · rw [mem_singleton.mp final] at eq
        exact absurd rfl eq

variable {p : Placement ST} {demand : Resource S ST → Demand} {name : String} {base : NodeAlloc}

def occupies (p : Placement ST) (name : String) (item : Resource S ST) : Bool :=
  !item.metadata.isDeleting && p.on item == name

theorem account_fold (items : List (Resource S ST)) {alloc : Allocation}
    (seen : alloc name = some base) :
    items.foldl (account p demand) alloc name =
      some (base.addAll ((items.filter (occupies p name)).map demand)) := by
  induction items generalizing alloc base with
  | nil => exact seen
  | cons item items ih =>
    rw [foldl_cons, filter_cons]
    by_cases there : occupies p name item = true
    · have there' := there
      simp only [occupies, Bool.and_eq_true, Bool.not_eq_true', beq_iff_eq] at there'
      rw [if_pos there]
      have added : account p demand alloc item name = some (base.add (demand item)) := by
        simp [account, there'.1, there'.2, seen]
      exact ih added
    · rw [if_neg there]
      apply ih
      rw [account]
      split
      · exact seen
      · next live =>
        have away : name ≠ p.on item := by
          intro eq
          simp [occupies, live, eq] at there
        cases alloc (p.on item) with
        | none => exact seen
        | some committed =>
          dsimp only
          rw [update_of_ne away]
          exact seen

theorem filter_occupies {ready : String → Bool} {pairs : List (Resource S ST × Resource S ST)}
    {old new : String → String} (alive : ready name = true) (named : name ≠ "")
    (each : ∀ pair ∈ pairs,
      Cleared p ready pair.1 (old pair.1.metadata.uid) pair.2 (new pair.1.metadata.uid)) :
    (pairs.map Prod.snd).filter (occupies p name) = (pairs.map Prod.fst).filter
    (occupies p name) := by
  induction pairs with
  | nil => rfl
  | cons pair pairs ih =>
    have rest := ih fun other mem => each other (.tail _ mem)
    have away (item : Resource S ST) (out : stranded p ready item = true) :
        occupies p name item = false := by
      simp only [stranded, Bool.and_eq_true, Bool.not_eq_true'] at out
      simp only [occupies, Bool.and_eq_false_iff, beq_eq_false_iff_ne]
      right
      intro eq
      rw [eq, alive] at out
      cases out.2
    obtain ⟨item, copy⟩ := pair
    simp only [map_cons, filter_cons]
    rw [rest]
    have copies : Copies p ready item copy := (each (item, copy) (.head _)).copies
    rcases copies with rfl | ⟨out, rfl⟩
    · rfl
    · have gone : occupies p name (p.move "" item) = false := by
        simp only [occupies, Bool.and_eq_false_iff, beq_eq_false_iff_ne]
        right
        intro eq
        exact named (eq.symm.trans (p.nodeName_place "" item.status))
      simp [gone, away item out]

/-- The placements that a node got in the turns so far. -/
def Turn.onto (name : String) (turn : Turn S ST) : Bool := turn.chosen == name && turn.acknowledged

theorem advance_fold (named : name ≠ "") (turns : List (Turn S ST)) {alloc : Allocation}
    (seen : alloc name = some base) :
    turns.foldl (Turn.advance demand) alloc name =
      some (base.addAll ((turns.filter (Turn.onto name)).map fun turn => demand turn.item)) := by
  induction turns generalizing alloc base with
  | nil => exact seen
  | cons turn turns ih =>
    rw [foldl_cons, filter_cons]
    by_cases there : turn.onto name = true
    · have there' := there
      simp only [Turn.onto, Bool.and_eq_true, beq_iff_eq] at there'
      rw [if_pos there]
      have added : turn.advance demand alloc name = some (base.add (demand turn.item)) := by
        simp [Turn.advance, there'.1, there'.2, named, seen]
      exact ih added
    · rw [if_neg there]
      apply ih
      rw [Turn.advance]
      split
      · next chosen =>
        have away : name ≠ turn.chosen := by
          intro eq
          simp [Turn.onto, eq, chosen.2] at there
        rw [update_of_ne away]
        exact seen
      · exact seen

theorem pickBest_none {fits : Node → Bool} {pods : String → Int} {nodes : List Node} {best : String}
    {bestPods : Int} (named : ∀ node ∈ nodes, node.metadata.uid ≠ "")
    (nothing : pickBest fits pods nodes best bestPods = "") :
    best = "" ∧ ∀ node ∈ nodes, fits node = false := by
  induction nodes generalizing best bestPods with
  | nil => exact ⟨nothing, by simp⟩
  | cons node nodes ih =>
    have others (other : Node) (mem : other ∈ nodes) : other.metadata.uid ≠ "" :=
      named other (.tail _ mem)
    rw [pickBest] at nothing
    split at nothing
    · exact absurd (ih others nothing).1 (named node (.head _))
    · next worse =>
      obtain ⟨empty, rest⟩ := ih others nothing
      refine ⟨empty, ?_⟩
      intro other mem
      rcases mem_cons.mp mem with rfl | inside
      · simpa [empty] using worse
      · exact rest other inside

end

end Infrastructure.Controllers
