import Infrastructure.Controllers.FunctionController

/-! The signed requests by which agents pull disks from each other. -/

namespace Infrastructure.Replication

open Crypto State Controllers

/-- The time library, for times in nanoseconds: `time.Parse` and `Format` with RFC3339. -/
structure TimeTexts where
  parse : String → Option Int
  format : Int → String

/-- Five minutes, the clock skew that a request is accepted within. -/
def authWindow : Int := 5 * 60 * 10 ^ 9

def blockSize : Nat := 64

/-- HMAC with SHA-256. -/
def hmac (key msg : Bytes) : Bytes :=
  let short := if key.length ≤ blockSize then key else sha256 key
  let block := short ++ List.replicate (blockSize - short.length) 0
  sha256 (block.map (· ^^^ 0x5c) ++ sha256 (block.map (· ^^^ 0x36) ++ msg))

def sign (texts : TimeTexts) (key : Bytes) (method path : String) (time : Int) : String :=
  hexEncode (hmac key (bytesOf (method ++ "\n" ++ path ++ "\n" ++ texts.format time)))

structure Request where
  method : String
  path : String
  timestamp : String
  signature : String
  deriving DecidableEq, Repr

/-- The negation of a 64-bit duration, which wraps around. -/
def negate (duration : Int) : Int := Int.bmod (-duration) (2 ^ 64)

/-- How far the clock and the time are apart, as far as 64 bits tell. -/
def skew (now time : Int) : Int :=
  if timeSub now time < 0 then negate (timeSub now time) else timeSub now time

def verifyRequest (texts : TimeTexts) (req : Request) (key : Bytes) (now : Int) : Bool :=
  match texts.parse req.timestamp with
  | none => false
  | some time =>
    if authWindow < skew now time then false
    else sign texts key req.method req.path time == req.signature

section

variable {now time : Int}

def Fresh (now time : Int) : Prop := now - authWindow ≤ time ∧ time ≤ now + authWindow

theorem negate_exact {duration : Int} (low : -(2 ^ 63) < duration) (high : duration ≤ 0) :
    negate duration = -duration := by
  rw [negate, Int.bmod_eq_of_le] <;> omega

theorem fresh_of_skew (near : time - now < 2 ^ 63) (within : ¬authWindow < skew now time) :
    Fresh now time := by
  have low : -(2 ^ 63) < timeSub now time := by
    rw [timeSub]
    omega
  have clamped : timeSub now time = max (-(2 ^ 63)) (min (2 ^ 63 - 1) (now - time)) := rfl
  rw [skew] at within
  split at within
  · next pre =>
    rw [negate_exact low pre.le] at within
    rw [Fresh, authWindow] at *
    omega
  · rw [Fresh, authWindow] at *
    omega

/-- The shortest duration has no opposite: its negation is itself. -/
theorem skew_of_far (far : 2 ^ 63 ≤ time - now) : skew now time = -(2 ^ 63) := by
  have least : timeSub now time = -(2 ^ 63) := by
    rw [timeSub]
    omega
  rw [skew, least]
  decide

end

/-- A request passes only if it is fresh and signed, just when its timestamp is not so far ahead of
the clock that their difference has no 64-bit duration. -/
theorem request_fresh_iff (texts : TimeTexts) (key : Bytes) (method path header : String)
    (now time : Int) (parsed : texts.parse header = some time) :
    (∀ signature, verifyRequest texts ⟨method, path, header, signature⟩ key now = true →
      Fresh now time ∧ signature = sign texts key method path time) ↔ time - now < 2 ^ 63 := by
  constructor
  · intro passes
    by_contra far
    have ok : verifyRequest texts ⟨method, path, header, sign texts key method path time⟩ key now =
        true := by
      rw [verifyRequest, parsed]
      simp [skew_of_far (Int.not_lt.mp far), authWindow]
    have fresh := (passes _ ok).1
    rw [Fresh, authWindow] at fresh
    omega
  · intro near signature ok
    rw [verifyRequest, parsed] at ok
    dsimp only at ok
    split at ok
    · cases ok
    · next within => exact ⟨fresh_of_skew near within, (beq_iff_eq.mp ok).symm⟩

/-- Two timestamps, of the last second of the year 9999 and of the start of 2026. -/
def sampleTexts : TimeTexts where
  parse text :=
    if text = "9999-12-31T23:59:59Z" then some (253402300799 * 10 ^ 9)
    else if text = "2026-01-01T00:00:00Z" then some (1767225600 * 10 ^ 9)
    else none
  format time := if time = 253402300799 * 10 ^ 9 then "9999-12-31T23:59:59Z" else
    "2026-01-01T00:00:00Z"

/-- A request that is signed for the end of the year 9999 passes in 2026. -/
theorem far_future_request_passes :
    verifyRequest sampleTexts ⟨"GET", "/disks/disk-1", "9999-12-31T23:59:59Z",
        sign sampleTexts [7] "GET" "/disks/disk-1" (253402300799 * 10 ^ 9)⟩ [7]
          (1767225600 * 10 ^ 9) = true ∧
      ¬Fresh (1767225600 * 10 ^ 9) (253402300799 * 10 ^ 9) := by
  have parsed : sampleTexts.parse "9999-12-31T23:59:59Z" = some (253402300799 * 10 ^ 9) := rfl
  have far : ¬authWindow < skew (1767225600 * 10 ^ 9) (253402300799 * 10 ^ 9) := by decide
  constructor
  · rw [verifyRequest, parsed]
    dsimp only
    rw [if_neg far]
    exact beq_self_eq_true _
  · rw [Fresh, authWindow]
    omega

theorem request_fresh_now :
    sampleTexts.parse "2026-01-01T00:00:00Z" = some (1767225600 * 10 ^ 9) ∧ ∀ signature,
    verifyRequest sampleTexts ⟨"GET", "/disks/disk-1", "2026-01-01T00:00:00Z",
      signature⟩ [7] (1767225600 * 10 ^ 9) = true →
      Fresh (1767225600 * 10 ^ 9) (1767225600 * 10 ^ 9) ∧
        signature = sign sampleTexts [7] "GET" "/disks/disk-1" (1767225600 * 10 ^ 9) :=
  ⟨rfl, (request_fresh_iff sampleTexts [7] "GET" "/disks/disk-1" "2026-01-01T00:00:00Z"
    (1767225600 * 10 ^ 9) (1767225600 * 10 ^ 9) rfl).mpr (by decide)⟩

end Infrastructure.Replication
