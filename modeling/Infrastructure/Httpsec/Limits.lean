import Mathlib.Data.Finset.Card
import Mathlib.Tactic.Linarith
import Mathlib.Tactic.Ring

/-! How many requests of a peer the servers admit: each peer has a bucket of tokens, and idle
buckets are forgotten. -/

namespace Infrastructure.Httpsec

open Nat Finset

def ratePerSecond : Rat := 100

def rateBurst : Rat := 200

def maxPeers : Nat := 4096

/-- Ten minutes; times are in nanoseconds. -/
def peerIdle : Int := 600 * 10 ^ 9

structure PeerBucket where
  tokens : Rat
  updated : Int

structure Limiter where
  peers : Finset String := ∅
  bucket : String → PeerBucket := fun _ => ⟨0, 0⟩

def refilled (b : PeerBucket) (now : Int) : Rat :=
  min rateBurst (b.tokens + (now - b.updated) / 10 ^ 9 * ratePerSecond)

structure Request where
  peer : String
  now : Int

namespace Limiter

/-- The end of `allow`, with the bucket that it has found or made. -/
def take (l : Limiter) (peer : String) (now : Int) (b : PeerBucket) : Bool × Limiter :=
  let tokens := refilled b now
  let ok := decide (1 ≤ tokens)
  (ok, ⟨insert peer l.peers,
    Function.update l.bucket peer ⟨if ok then tokens - 1 else tokens, now⟩⟩)

/-- The buckets left when the idle ones are forgotten. -/
def sweep (l : Limiter) (now : Int) : Limiter :=
  { l with peers := l.peers.filter fun key => now - (l.bucket key).updated < peerIdle }

def allow (l : Limiter) (peer : String) (now : Int) : Bool × Limiter :=
  if peer ∈ l.peers then l.take peer now (l.bucket peer)
  else if l.peers.card < maxPeers then l.take peer now ⟨rateBurst, now⟩
  else if (l.sweep now).peers.card < maxPeers then (l.sweep now).take peer now ⟨rateBurst, now⟩
  else (false, l.sweep now)

/-- What a limiter that never forgets a peer would do. -/
def allowKept (l : Limiter) (peer : String) (now : Int) : Bool × Limiter :=
  l.take peer now (if peer ∈ l.peers then l.bucket peer else ⟨rateBurst, now⟩)

section

variable (step : Limiter → String → Int → Bool × Limiter)

def admitted : Limiter → List Request → List Request
  | _, [] => []
  | l, r :: rest =>
    let (ok, later) := step l r.peer r.now
    if ok then r :: admitted later rest else admitted later rest

def settled (l : Limiter) (requests : List Request) : Limiter :=
  requests.foldl (fun l r => (step l r.peer r.now).2) l

end

/-- The tokens of a peer; one that is not tracked would be given a full bucket. -/
def credit (l : Limiter) (peer : String) (now : Int) : Rat :=
  if peer ∈ l.peers then refilled (l.bucket peer) now else rateBurst

structure Sound (l : Limiter) (now : Int) : Prop where
  updated : ∀ peer ∈ l.peers, (l.bucket peer).updated ≤ now
  tokens : ∀ peer ∈ l.peers, 0 ≤ (l.bucket peer).tokens

/-- A step takes from the peer's own credit what it admits, and leaves every other peer's credit. -/
structure Charges (l : Limiter) (peer : String) (now : Int) (result : Bool × Limiter) : Prop where
  sound : result.2.Sound now
  enough : result.1 = true → 1 ≤ l.credit peer now
  credit (other : String) : result.2.credit other now =
    l.credit other now - if result.1 = true ∧ peer = other then 1 else 0

variable {l : Limiter} {now later : Int}

theorem refilled_same (tokens : Rat) : refilled ⟨tokens, now⟩ now = min rateBurst tokens := by
  simp [refilled]

theorem Sound.at_later (sound : l.Sound now) (order : now ≤ later) : l.Sound later :=
  ⟨fun peer kept => (sound.updated peer kept).trans order, sound.tokens⟩

theorem credit_le (l : Limiter) (peer : String) (now : Int) : l.credit peer now ≤ rateBurst := by
  unfold credit
  split
  · exact min_le_left _ _
  · exact le_rfl

theorem Sound.nonneg (sound : l.Sound now) (peer : String) : 0 ≤ l.credit peer now := by
  unfold credit
  split
  case isTrue kept =>
    have seen : ((l.bucket peer).updated : Rat) ≤ now := by exact_mod_cast sound.updated peer kept
    have enough := sound.tokens peer kept
    apply le_min (by decide)
    simp only [ratePerSecond]
    linarith
  case isFalse => decide

/-- What time gives a peer. -/
theorem credit_later (order : now ≤ later) (peer : String) :
    l.credit peer later =
      min rateBurst (l.credit peer now + (later - now) / 10 ^ 9 * ratePerSecond) := by
  have time : (now : Rat) ≤ later := by exact_mod_cast order
  have full : rateBurst ≤ rateBurst + (later - now) / 10 ^ 9 * ratePerSecond := by
    simp only [ratePerSecond]
    linarith
  unfold credit
  split
  · rw [refilled, refilled, ← min_add_add_right, ← min_assoc, min_eq_left full]
    ring_nf
  · rw [min_eq_left full]

theorem Sound.take (sound : l.Sound now) {peer : String} {b : PeerBucket}
    (holds : refilled b now = l.credit peer now) :
    Charges l peer now (l.take peer now b) := by
  have least := sound.nonneg peer
  have most := credit_le l peer now
  unfold Limiter.take
  rw [holds]
  refine ⟨⟨fun key kept => ?_, fun key kept => ?_⟩, by simp, fun other => ?_⟩
  · by_cases own : key = peer
    · simp [own]
    · simpa [own] using sound.updated key (mem_of_mem_insert_of_ne kept own)
  · by_cases own : key = peer
    · by_cases paid : 1 ≤ l.credit peer now <;> simp [own, paid, least]
    · simpa [own] using sound.tokens key (mem_of_mem_insert_of_ne kept own)
  · by_cases own : other = peer
    · subst own
      generalize l.credit other now = held at *
      by_cases paid : 1 ≤ held
      · simp only [credit, mem_insert_self, Function.update_self, paid, decide_true, refilled_same,
          and_self, if_true]
        exact min_eq_right (by linarith)
      · simpa [credit, paid, refilled_same] using most
    · simp [credit, own, Ne.symm own]

/-- A peer that is forgotten had a full bucket. -/
theorem Sound.sweep (sound : l.Sound now) : (l.sweep now).Sound now ∧
    ∀ other, (l.sweep now).credit other now = l.credit other now := by
  constructor
  · exact ⟨fun peer kept => sound.updated peer (mem_filter.mp kept).1,
      fun peer kept => sound.tokens peer (mem_filter.mp kept).1⟩
  · intro other
    simp only [credit, Limiter.sweep, mem_filter]
    by_cases kept : other ∈ l.peers
    case neg => simp [kept]
    by_cases idle : now - (l.bucket other).updated < peerIdle
    case pos => simp [kept, idle]
    have enough := sound.tokens other kept
    have long : (peerIdle : Rat) ≤ now - (l.bucket other).updated := by
      exact_mod_cast not_lt.mp idle
    rw [if_neg (fun both => idle both.2), if_pos kept, refilled, min_eq_left]
    simp only [rateBurst, ratePerSecond, peerIdle] at long ⊢
    push_cast at long
    linarith

theorem Sound.allow (sound : l.Sound now) (peer : String) :
    Charges l peer now (l.allow peer now) := by
  unfold Limiter.allow
  split
  case isTrue tracked => exact sound.take (by rw [credit, if_pos tracked])
  case isFalse untracked =>
    have full : refilled ⟨rateBurst, now⟩ now = l.credit peer now := by
      rw [credit, if_neg untracked, refilled_same, min_self]
    split
    · exact sound.take full
    · obtain ⟨swept, eq⟩ := sound.sweep
      split
      · have charges := swept.take (full.trans (eq peer).symm)
        exact ⟨charges.sound, fun paid => eq peer ▸ charges.enough paid,
          fun other => by rw [charges.credit, eq]⟩
      · exact ⟨swept, nofun, fun other => by simp [eq]⟩

theorem refilled_kept (l : Limiter) (peer : String) (now : Int) :
    refilled (if peer ∈ l.peers then l.bucket peer else ⟨rateBurst, now⟩) now =
      l.credit peer now := by
  unfold credit
  split
  · rfl
  · rw [refilled_same, min_self]

theorem card_settled (requests : List Request) {l : Limiter} (bounded : l.peers.card ≤ maxPeers) :
    (settled allow l requests).peers.card ≤ maxPeers := by
  induction requests generalizing l with
  | nil => exact bounded
  | cons r rest ih =>
    apply ih
    change (l.allow r.peer r.now).2.peers.card ≤ maxPeers
    unfold Limiter.allow
    split
    case isTrue tracked => simpa [Limiter.take, tracked] using bounded
    split
    case isTrue few => exact (card_insert_le _ _).trans few
    split
    case isTrue few => exact (card_insert_le _ _).trans few
    exact (card_filter_le _ _).trans bounded

theorem countP_admitted {step : Limiter → String → Int → Bool × Limiter} {r : Request}
    {rest : List Request} (p : Request → Bool) :
    (admitted step l (r :: rest)).countP p = (admitted step (step l r.peer r.now).2 rest).countP p +
      if (step l r.peer r.now).1 = true ∧ p r = true then 1 else 0 := by
  cases ok : (step l r.peer r.now).1 <;> simp [admitted, ok, List.countP_cons]

/-- Times that never go back, from `now` on. -/
abbrev Ordered (now : Int) (requests : List Request) : Prop :=
  (now :: requests.map Request.now).IsChain (· ≤ ·)

/-- Up to a time a peer can spend what it holds and what it is given until then. -/
theorem count_until_le (peer : String) (stop : Rat) {requests : List Request} (sound : l.Sound now)
    (ordered : Ordered now requests) :
    ((admitted allow l requests).countP (fun r => r.peer = peer ∧ r.now ≤ stop) : Rat) ≤
      max 0 (l.credit peer now + (stop - now) / 10 ^ 9 * ratePerSecond) := by
  induction requests generalizing l now with
  | nil => simp [admitted]
  | cons r rest ih =>
    obtain ⟨order, ordered⟩ := List.isChain_cons_cons.mp ordered
    have charges := (sound.at_later order).allow r.peer
    have left := ih charges.sound ordered
    have given : l.credit peer r.now ≤ _ := (credit_later order peer).trans_le (min_le_right _ _)
    rw [charges.credit peer] at left
    simp only [ratePerSecond] at left given ⊢
    by_cases spends : ((l.allow r.peer r.now).1 = true ∧ r.peer = peer) ∧ r.now ≤ stop
    · have enough : 1 ≤ l.credit peer r.now := spends.1.2 ▸ charges.enough spends.1.1
      have early := spends.2
      rw [if_pos spends.1, max_eq_right (by linarith)] at left
      rw [countP_admitted, if_pos (by simpa [and_assoc] using spends), cast_add, cast_one]
      exact le_max_of_le_right (by linarith)
    · rw [countP_admitted, if_neg (by simpa [and_assoc] using spends), add_zero]
      refine left.trans (max_le_max_left _ ?_)
      split <;> linarith

theorem count_within_le (peer : String) {start stop : Rat} (order : start ≤ stop)
    {requests : List Request} (sound : l.Sound now) (ordered : Ordered now requests) :
    ((admitted allow l requests).countP (fun r => r.peer = peer ∧ start ≤ r.now ∧ r.now ≤ stop) :
      Rat) ≤
      rateBurst + (stop - start) / 10 ^ 9 * ratePerSecond := by
  have bound : (0 : Rat) ≤ rateBurst + (stop - start) / 10 ^ 9 * ratePerSecond := by
    simp only [rateBurst, ratePerSecond]
    linarith
  induction requests generalizing l now with
  | nil => simpa [admitted] using bound
  | cons r rest ih =>
    obtain ⟨later, ordered⟩ := List.isChain_cons_cons.mp ordered
    have sound := sound.at_later later
    by_cases early : (r.now : Rat) < start
    · rw [countP_admitted, if_neg (by simp [early.not_ge]), add_zero]
      exact ih (sound.allow _).sound ordered
    · have again : Ordered r.now (r :: rest) := List.isChain_cons_cons.mpr ⟨le_rfl, ordered⟩
      have most := count_until_le peer stop sound again
      refine (cast_le.mpr (List.countP_mono_left ?_)).trans (most.trans (max_le bound ?_))
      · simp +contextual
      · have full := l.credit_le peer r.now
        simp only [ratePerSecond, not_lt] at early ⊢
        linarith

/-- A limiter that forgets is ahead of one that does not by no more than the credit it has too
much. -/
theorem count_le_kept (peer : String) {requests : List Request} {k : Limiter} (gap : Nat)
    (sound : l.Sound now) (kept : k.Sound now) (ordered : Ordered now requests)
    (bounded : l.credit peer now ≤ k.credit peer now + gap) :
    (admitted allow l requests).countP (·.peer = peer) ≤ (admitted allowKept k requests).countP
    (·.peer = peer) + gap := by
  induction requests generalizing l k now gap with
  | nil => simp [admitted]
  | cons r rest ih =>
    obtain ⟨order, ordered⟩ := List.isChain_cons_cons.mp ordered
    have charges := (sound.at_later order).allow r.peer
    have wanted : Charges k r.peer r.now (k.allowKept r.peer r.now) :=
      (kept.at_later order).take (k.refilled_kept r.peer r.now)
    have bounded : l.credit peer r.now ≤ k.credit peer r.now + gap := by
      rw [credit_later order, credit_later order, ← min_add_add_right]
      exact min_le_min (le_add_of_nonneg_right gap.cast_nonneg) (by linarith)
    have next (gap : Nat) := ih gap charges.sound wanted.sound ordered
    rw [countP_admitted, countP_admitted]
    simp only [charges.credit, wanted.credit, decide_eq_true_eq] at next ⊢
    by_cases own : r.peer = peer
    · subst own
      cases first : (l.allow r.peer r.now).1 <;> cases snd : (k.allowKept r.peer r.now).1 <;>
        simp only [first, snd, Bool.false_eq_true, false_and, true_and, if_true, if_false,
          sub_zero] at next ⊢
      · exact next gap bounded
      · have fewer := next (gap + 1) (by push_cast; linarith)
        omega
      · have rich := charges.enough first
        have poor : k.credit r.peer r.now < 1 := by
          rw [allowKept, Limiter.take, refilled_kept] at snd
          simpa using snd
        cases gap with
        | zero => simp at bounded; linarith
        | succ gap =>
          have fewer := next gap (by push_cast at bounded; linarith)
          omega
      · have fewer := next gap (by linarith)
        omega
    · simpa [own] using next gap (by simpa [own] using bounded)

theorem rate_limited {requests : List Request} (ordered : Ordered now requests) :
    (∀ (peer : String) (start stop : Rat), start ≤ stop →
      ((admitted allow {} requests).countP (fun r => r.peer = peer ∧ start ≤ r.now ∧ r.now ≤ stop) :
        Rat) ≤
        200 + 100 * ((stop - start) / 10 ^ 9)) ∧ (settled allow {} requests).peers.card ≤ 4096 ∧
    ∀ peer : String, (admitted allow {} requests).countP (·.peer = peer) ≤
      (admitted allowKept {} requests).countP (·.peer = peer) := by
  have sound : Sound {} now := ⟨by simp, by simp⟩
  refine ⟨fun peer start stop order => ?_, card_settled requests (zero_le _), fun peer => ?_⟩
  · rw [mul_comm 100]
    exact count_within_le peer order sound ordered
  · exact count_le_kept peer 0 sound sound ordered (by simp)

theorem rate_limited_second : ((admitted allow {} [⟨"10.0.0.1", 0⟩, ⟨"10.0.0.1", 1⟩]).countP
      (fun r => r.peer = "10.0.0.1" ∧ (0 : Rat) ≤ r.now ∧ r.now ≤ (10 ^ 9 : Rat)) :
        Rat) ≤ 200 + 100 * ((10 ^ 9 - 0) / 10 ^ 9) :=
  (rate_limited (by decide : Ordered 0 _)).1 "10.0.0.1" 0 (10 ^ 9) (by norm_num)

theorem allow_eq_kept {peer : String} (room : (insert peer l.peers).card ≤ maxPeers) :
    l.allow peer now = l.allowKept peer now := by
  unfold Limiter.allow allowKept
  split
  · rfl
  case isFalse untracked =>
    rw [card_insert_of_notMem untracked] at room
    exact if_pos room

theorem filter_admitted (peer : String) {k : Limiter} {requests : List Request}
    (room : (l.peers ∪ (requests.map Request.peer).toFinset).card ≤ maxPeers)
    (fewer : k.peers ⊆ l.peers) (tracked : peer ∈ l.peers → peer ∈ k.peers)
    (same : l.bucket peer = k.bucket peer) :
    (admitted allow l requests).filter (·.peer = peer) = admitted allow k
    (requests.filter (·.peer = peer)) := by
  induction requests generalizing l k with
  | nil => rfl
  | cons r rest ih =>
    rw [List.map_cons, List.toFinset_cons, union_insert, ← insert_union] at room
    have fits := (card_le_card subset_union_left).trans room
    have step : l.allow r.peer r.now = _ := allow_eq_kept fits
    by_cases own : r.peer = peer
    · have alone : k.allow r.peer r.now = _ :=
        allow_eq_kept ((card_le_card (insert_subset_insert _ fewer)).trans fits)
      subst own
      have known : r.peer ∈ l.peers ↔ r.peer ∈ k.peers := ⟨tracked, fun mem => fewer mem⟩
      have later :=
        ih (l := (l.allow r.peer r.now).2) (k := (k.allow r.peer r.now).2) (by rwa [step])
        (by rw [step, alone]; exact insert_subset_insert _ fewer)
          (by simp [alone, allowKept, Limiter.take])
        (by simp [step, alone, allowKept, Limiter.take, known, same])
      have ok : (l.allow r.peer r.now).1 = (k.allow r.peer r.now).1 := by
        simp [step, alone, allowKept, Limiter.take, known, same]
      cases spent : (k.allow r.peer r.now).1 <;> simp [admitted, ok, spent, later]
    · have later := ih (l := (l.allow r.peer r.now).2) (k := k) (by rwa [step])
        (by rw [step]; exact fewer.trans (subset_insert _ _))
        (by rw [step]; exact fun mem => tracked (mem_of_mem_insert_of_ne mem (Ne.symm own)))
        (by rw [step, ← same]; exact Function.update_of_ne (Ne.symm own) _ _)
      cases spent : (l.allow r.peer r.now).1 <;> simp [admitted, spent, own, later]

/-- As long as the peers all have a place in the table, what one is admitted does not depend on the
others. -/
theorem peers_independent {requests : List Request}
    (few : (requests.map Request.peer).toFinset.card ≤ maxPeers)
    (peer : String) : (admitted allow {} requests).filter (·.peer = peer) =
      admitted allow {} (requests.filter (·.peer = peer)) :=
  filter_admitted peer (by simpa using few) (Subset.refl _) id rfl

theorem peers_independent_two : (admitted allow {} [⟨"10.0.0.1", 0⟩, ⟨"10.0.0.2", 1⟩]).filter
    (·.peer = "10.0.0.2") =
    admitted allow {} [⟨"10.0.0.2", 1⟩] :=
  peers_independent (by decide) "10.0.0.2"

end Limiter

end Infrastructure.Httpsec
