import QuantumGo.Interleaving
import Mathlib.Algebra.Order.Field.Rat
import Mathlib.Data.List.Pairwise
import Mathlib.Tactic.Linarith

/-!
The token bucket of pkg/tunnel/limiter.go and how SetConfig of a listener installs one
(pkg/tunnel/transport.go). Times are seconds and, like the tokens, exact rationals.
-/

namespace QuantumGo.RateLimits

open Interleaving (run)

structure HandshakeLimiter where
  rate : ℚ
  burst : Int
  tokens : ℚ
  lastRefill : ℚ
  deriving DecidableEq

def newHandshakeLimiter (now rate : ℚ) (burst : Int) : HandshakeLimiter :=
  ⟨rate, burst, burst, now⟩

def refill (now : ℚ) (l : HandshakeLimiter) : HandshakeLimiter :=
  let tokens := l.tokens + (now - l.lastRefill) * l.rate
  { l with tokens := if tokens > l.burst then l.burst else tokens, lastRefill := now }

def allowHandshake (now : ℚ) (l : HandshakeLimiter) : Bool × HandshakeLimiter :=
  if l.rate ≤ 0 then (true, l)
  else if (refill now l).tokens ≥ 1 then
    (true, { refill now l with tokens := (refill now l).tokens - 1 })
  else (false, refill now l)

def after (times : List ℚ) (l : HandshakeLimiter) : HandshakeLimiter :=
  run (fun l now => (allowHandshake now l).2) times l

/-- How many of the calls are admitted in the interval. -/
def admittedIn (t₁ t₂ : ℚ) : List ℚ → HandshakeLimiter → Nat
  | [], _ => 0
  | now :: rest, l => (if (allowHandshake now l).1 ∧ t₁ ≤ now ∧ now ≤ t₂ then 1 else 0) +
      admittedIn t₁ t₂ rest (allowHandshake now l).2

/-- The limits of the configuration that the handshake limiter is made from. -/
structure RateLimitConfig where
  handshakeRateLimit : ℚ
  handshakeBurst : Int

/-- The listener's handshakeLimiter behind SetConfig. -/
def setConfig (now : ℚ) (config : RateLimitConfig) : Option HandshakeLimiter :=
  if config.handshakeRateLimit > 0 then
    some (newHandshakeLimiter now config.handshakeRateLimit config.handshakeBurst)
  else none

/-- A limiter as its calls leave it. -/
structure Sound (rate : ℚ) (burst : Int) (l : HandshakeLimiter) : Prop where
  rate : l.rate = rate
  burst : l.burst = burst
  tokens : 0 ≤ l.tokens

section Steps
variable {rate t₁ t₂ now : ℚ} {burst : Int} {l : HandshakeLimiter} {times : List ℚ}

theorem refill_tokens (sound : Sound rate burst l) : (refill now l).tokens =
    min (burst : ℚ) (l.tokens + (now - l.lastRefill) * rate) := by
  rw [← sound.rate, ← sound.burst, min_def]
  unfold refill
  grind

variable (positive : 0 < rate) (room : 0 ≤ burst)
include positive room

/-- A call is admitted for a token or refused without one. -/
theorem Sound.allow (sound : Sound rate burst l) (onwards : l.lastRefill ≤ now) :
    Sound rate burst (allowHandshake now l).2 ∧ (allowHandshake now l).2.lastRefill = now ∧
    (allowHandshake now l).2.tokens + (if (allowHandshake now l).1 then 1 else 0) =
      (refill now l).tokens := by
  have gained : 0 ≤ (now - l.lastRefill) * rate := mul_nonneg (sub_nonneg.mpr onwards) positive.le
  have refilled : 0 ≤ (refill now l).tokens := by
    rw [refill_tokens sound]
    exact le_min (Int.cast_nonneg room) (add_nonneg sound.tokens gained)
  rw [allowHandshake, if_neg (not_le.mpr (sound.rate.symm ▸ positive))]
  split
  · rename_i enough
    exact ⟨⟨sound.rate, sound.burst, sub_nonneg.mpr enough⟩, rfl, by simp⟩
  · exact ⟨⟨sound.rate, sound.burst, refilled⟩, rfl, by simp⟩

theorem Sound.after (sound : Sound rate burst l)
    (ordered : (l.lastRefill :: times).Pairwise (· ≤ ·)) :
    Sound rate burst (after times l) ∧
      (after times l).lastRefill = (l.lastRefill :: times).getLast (by simp) := by
  induction times generalizing l with
  | nil => exact ⟨sound, rfl⟩
  | cons now rest ih =>
    obtain ⟨onwards, ordered⟩ := List.pairwise_cons.mp ordered
    obtain ⟨kept, clock, -⟩ := sound.allow positive room (onwards now (by simp))
    rw [← clock] at ordered
    obtain ⟨done, last⟩ := ih kept ordered
    refine ⟨done, last.trans ?_⟩
    simp [clock]

omit positive room in
theorem admittedIn_late (ordered : (now :: times).Pairwise (· ≤ ·)) (late : t₂ < now) :
    admittedIn t₁ t₂ (now :: times) l = 0 := by
  have outside : ¬ ((allowHandshake now l).1 = true ∧ t₁ ≤ now ∧ now ≤ t₂) :=
    fun inside => not_le.mpr late inside.2.2
  induction times generalizing now l with
  | nil => rw [admittedIn, if_neg outside, admittedIn]
  | cons next rest ih =>
    obtain ⟨onwards, ordered⟩ := List.pairwise_cons.mp ordered
    have later : t₂ < next := late.trans_le (onwards next (by simp))
    rw [admittedIn, if_neg outside, ih ordered later fun inside => not_le.mpr later inside.2.2]

omit positive room in
theorem admittedIn_cons (t₁ t₂ now : ℚ) (times : List ℚ) (l : HandshakeLimiter) :
    (admittedIn t₁ t₂ (now :: times) l : ℚ) ≤ (if (allowHandshake now l).1 then 1 else 0) +
      (admittedIn t₁ t₂ times (allowHandshake now l).2 : ℚ) := by
  rw [admittedIn]
  split <;> split <;> simp_all

/-- The calls up to `t₂` spend the tokens there are and what is refilled until then. -/
theorem admittedIn_spend (sound : Sound rate burst l)
    (ordered : (l.lastRefill :: times).Pairwise (· ≤ ·)) (early : l.lastRefill ≤ t₂) :
    (admittedIn t₁ t₂ times l : ℚ) ≤ l.tokens + (t₂ - l.lastRefill) * rate := by
  have left : 0 ≤ (t₂ - l.lastRefill) * rate := mul_nonneg (sub_nonneg.mpr early) positive.le
  induction times generalizing l with
  | nil => exact add_nonneg sound.tokens left
  | cons now rest ih =>
    obtain ⟨onwards, ordered⟩ := List.pairwise_cons.mp ordered
    rcases le_or_gt now t₂ with inside | late
    · obtain ⟨kept, clock, spent⟩ := sound.allow positive room (onwards now (by simp))
      have later := ih kept (clock.symm ▸ ordered) (clock.symm ▸ inside)
        (mul_nonneg (sub_nonneg.mpr (clock.symm ▸ inside)) positive.le)
      have counted := admittedIn_cons t₁ t₂ now rest l
      have refilled : (refill now l).tokens ≤ l.tokens + (now - l.lastRefill) * rate :=
        (refill_tokens sound).trans_le (min_le_right _ _)
      rw [clock] at later
      linarith
    · rw [admittedIn_late ordered late]
      exact_mod_cast add_nonneg sound.tokens left

/-- An interval admits no more than the bucket holds and what is refilled in it. -/
theorem admittedIn_le (sound : Sound rate burst l)
    (ordered : (l.lastRefill :: times).Pairwise (· ≤ ·)) (interval : t₁ ≤ t₂) :
    (admittedIn t₁ t₂ times l : ℚ) ≤ burst + rate * (t₂ - t₁) := by
  have left : 0 ≤ burst + rate * (t₂ - t₁) :=
    add_nonneg (Int.cast_nonneg room) (mul_nonneg positive.le (sub_nonneg.mpr interval))
  induction times generalizing l with
  | nil => exact left
  | cons now rest ih =>
    obtain ⟨onwards, ordered⟩ := List.pairwise_cons.mp ordered
    obtain ⟨kept, clock, spent⟩ := sound.allow positive room (onwards now (by simp))
    rcases lt_or_ge now t₁ with before | reached
    · rw [admittedIn, if_neg fun inside => not_le.mpr before inside.2.1, Nat.zero_add]
      exact ih kept (clock.symm ▸ ordered)
    rcases le_or_gt now t₂ with inside | late
    · -- at the first call in the interval the bucket holds at most the burst
      have later : (admittedIn t₁ t₂ rest (allowHandshake now l).2 : ℚ) ≤ _ :=
        admittedIn_spend positive room kept (clock.symm ▸ ordered) (clock.symm ▸ inside)
      have counted := admittedIn_cons t₁ t₂ now rest l
      have refilled : (refill now l).tokens ≤ burst :=
        (refill_tokens sound).trans_le (min_le_left _ _)
      have shorter : (t₂ - now) * rate ≤ (t₂ - t₁) * rate :=
        mul_le_mul_of_nonneg_right (sub_le_sub_left reached _) positive.le
      rw [clock] at later
      linarith
    · rw [admittedIn_late ordered late]
      exact_mod_cast left

end Steps

/-- In any interval at most the burst and the rate times its length are admitted. -/
theorem handshakes_bounded (created rate t₁ t₂ : ℚ) (burst : Int) (times : List ℚ)
    (positive : 0 < rate) (room : 0 ≤ burst) (ordered : (created :: times).Pairwise (· ≤ ·))
    (interval : t₁ ≤ t₂) :
    (admittedIn t₁ t₂ times (newHandshakeLimiter created rate burst) : ℚ) ≤
      burst + rate * (t₂ - t₁) :=
  admittedIn_le positive room ⟨rfl, rfl, Int.cast_nonneg room⟩ ordered interval

theorem handshakes_bounded_burst :
    (admittedIn 1 2 [1, 1, 1, 2] (newHandshakeLimiter 0 1 2) : ℚ) ≤ (2 : Int) + 1 * (2 - 1) :=
  handshakes_bounded 0 1 1 2 2 [1, 1, 1, 2] (by decide) (by decide) (by decide) (by decide)

/-- Whatever was called since SetConfig, a call is admitted once the time of a token has passed
without one. -/
def NeverShut (config : RateLimitConfig) : Prop :=
  ∀ installed times l now, (installed :: times).Pairwise (· ≤ ·) →
    setConfig installed config = some l →
    (∀ time ∈ installed :: times, time + 1 / config.handshakeRateLimit ≤ now) →
    (allowHandshake now (after times l)).1 = true

/-- The listener stays open exactly when the bucket can hold a token: a burst of 0 is not 1. -/
theorem neverShut_iff (config : RateLimitConfig) (limited : 0 < config.handshakeRateLimit)
    (room : 0 ≤ config.handshakeBurst) : NeverShut config ↔ 1 ≤ config.handshakeBurst := by
  have admits {l : HandshakeLimiter} {now : ℚ}
      (sound : Sound config.handshakeRateLimit config.handshakeBurst l) :
      (allowHandshake now l).1 = true ↔ 1 ≤ min (config.handshakeBurst : ℚ)
        (l.tokens + (now - l.lastRefill) * config.handshakeRateLimit) := by
    rw [← refill_tokens sound, allowHandshake, if_neg (not_le.mpr (sound.rate.symm ▸ limited))]
    split
    · rename_i enough
      exact iff_of_true rfl enough
    · rename_i short
      exact iff_of_false (by simp) short
  have new (installed : ℚ) : Sound config.handshakeRateLimit config.handshakeBurst
      (newHandshakeLimiter installed config.handshakeRateLimit config.handshakeBurst) :=
    ⟨rfl, rfl, Int.cast_nonneg room⟩
  constructor
  · intro open'
    have first := open' 0 [] _ (1 / config.handshakeRateLimit) (by simp) (if_pos limited) (by simp)
    exact_mod_cast (le_min_iff.mp ((admits (new 0)).mp first)).1
  · rintro burst installed times l now ordered made passed
    obtain rfl : newHandshakeLimiter installed _ _ = l :=
      Option.some.inj ((if_pos limited).symm.trans made)
    obtain ⟨sound, last⟩ := (new installed).after limited room ordered
    have waited := passed _ (List.getLast_mem (List.cons_ne_nil installed times))
    refine (admits sound).mpr (le_min (by exact_mod_cast burst) ?_)
    rw [show (after times _).lastRefill = (installed :: times).getLast _ from last]
    have token : 1 / config.handshakeRateLimit * config.handshakeRateLimit = 1 :=
      one_div_mul_cancel limited.ne'
    have earned : 1 / config.handshakeRateLimit * config.handshakeRateLimit ≤ _ :=
      mul_le_mul_of_nonneg_right (le_sub_iff_add_le'.mpr waited) limited.le
    have := sound.tokens
    linarith

/-- One handshake a second with the burst left at 0: the call after a second is refused. -/
theorem unset_burst_shuts : ¬ NeverShut ⟨1, 0⟩ := by
  intro open'
  have first := open' 0 [] _ 1 (by simp) rfl (by simp)
  revert first
  decide +kernel

theorem neverShut_one : NeverShut ⟨1, 1⟩ :=
  (neverShut_iff ⟨1, 1⟩ (by decide) (by decide)).mpr le_rfl

end QuantumGo.RateLimits
