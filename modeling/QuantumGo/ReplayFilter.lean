import QuantumGo.ReplayWindow
import Mathlib.Data.Finset.Max

/-!
What the replay window is for: a filter that remembers every number it accepted and
refuses a number that it has accepted before or that lies a whole width behind the
largest one. The bitmap window answers every sequence of calls as this filter does.
-/

namespace QuantumGo.ReplayFilter

open Wire ReplayWindow
open WordBitmap (bitAt)

/-! The ideal filter. -/

/-- The number is new, and it is not too old: `high` is the largest number accepted. -/
def Admits (width : Nat) (accepted : Finset Nat) (seq : Nat) : Prop :=
  seq ∉ accepted ∧ (accepted = ∅ ∨
    ∃ high ∈ accepted, (∀ other ∈ accepted, other ≤ high) ∧ high < seq + width)

instance (width : Nat) (accepted : Finset Nat) (seq : Nat) :
    Decidable (Admits width accepted seq) :=
  inferInstanceAs (Decidable (_ ∧ _))

inductive Call where
  | check (seq : Nat)
  | admissible (seq : Nat)

def answer (width : Nat) (accepted : Finset Nat) : Call → Bool × Finset Nat
  | .check seq =>
    if Admits width accepted seq then (true, insert seq accepted) else (false, accepted)
  | .admissible seq => (decide (Admits width accepted seq), accepted)

def answers (width : Nat) : Finset Nat → List Call → List Bool
  | _, [] => []
  | accepted, c :: rest =>
    (answer width accepted c).1 :: answers width (answer width accepted c).2 rest

/-! The window. -/

def call (w : Window) : Call → Bool × Window
  | .check seq => check w seq
  | .admissible seq => (admissible w seq, w)

def calls : Window → List Call → List Bool
  | _, [] => []
  | w, c :: rest => (call w c).1 :: calls (call w c).2 rest

/-- A window without words: nothing is ever seen, and a Check indexes the empty bitmap. -/
def wordless : List Call → Except Fault (List Bool)
  | [] => .ok []
  | .check _ :: _ => .error .panic
  | .admissible _ :: rest => (wordless rest).map (true :: ·)

def run (longest : Nat) (size : UInt64) (requests : List Call) : Except Fault (List Bool) := do
  match ← newWindowSize longest size with
  | some w => return calls w requests
  | none => wordless requests

def roundedUp (size : UInt64) : Nat :=
  if size = 0 then 1024 else (size.toNat + 63) / 64 * 64

/-- The numbers that a window's bits stand for are those accepted, as far as it reaches. -/
structure Represents (w : Window) (accepted : Finset Nat) : Prop where
  unseen : w.seen = false → accepted = ∅ ∧ ∀ place < w.size, bitAt w.bitmap place = false
  highest : w.seen = true → w.highSeq ∈ accepted ∧ ∀ seq ∈ accepted, seq ≤ w.highSeq
  bits : w.seen = true → ∀ place < w.size,
    (bitAt w.bitmap place = true ↔ place ≤ w.highSeq ∧ w.highSeq - place ∈ accepted)

section Step
variable {w : Window} {accepted : Finset Nat} {seq : Nat}

theorem check_size : (check w seq).2.size = w.size := by
  unfold check
  split
  · rfl
  split
  · simp
  split
  · rfl
  dsimp only
  split
  · rfl
  split <;> rfl

theorem call_size (c : Call) : (call w c).2.size = w.size := by
  cases c with
  | check seq => exact check_size
  | admissible seq => rfl

variable (represents : Represents w accepted)
include represents

theorem admits_unseen (seen : w.seen = false) : Admits w.size accepted seq := by
  obtain ⟨empty, -⟩ := represents.unseen seen
  exact ⟨by simp [empty], .inl empty⟩

/-- Once something was accepted, only the largest number counts. -/
theorem admits_seen (seen : w.seen = true) :
    Admits w.size accepted seq ↔ seq ∉ accepted ∧ w.highSeq < seq + w.size := by
  obtain ⟨member, largest⟩ := represents.highest seen
  apply and_congr_right
  intro _
  constructor
  · rintro (empty | ⟨high, held, above, near⟩)
    · simp [empty] at member
    · rwa [Nat.le_antisymm (above _ member) (largest _ held)]
  · intro near
    exact .inr ⟨w.highSeq, member, largest, near⟩

theorem represents_first (seen : w.seen = false) :
    Represents (setBit { w with seen := true, highSeq := seq } 0) (insert seq accepted) := by
  obtain ⟨rfl, clear⟩ := represents.unseen seen
  refine ⟨nofun, fun _ => by simp, fun _ place inside => ?_⟩
  rw [bitAt_setBit (Window.word_positive _)]
  have zero := clear place inside
  simp only [setBit_highSeq, zero, Bool.or_false, decide_eq_true_eq, insert_empty_eq,
    Finset.mem_singleton]
  omega

theorem represents_newer (seen : w.seen = true) (newer : seq > w.highSeq) :
    Represents (setBit { advance w (seq - w.highSeq) with highSeq := seq } 0)
      (insert seq accepted) := by
  obtain ⟨member, largest⟩ := represents.highest seen
  refine ⟨fun unseen => ?_, fun _ => ?_, fun _ place inside => ?_⟩
  · have still : (advance w (seq - w.highSeq)).seen = false := unseen
    rw [advance_seen, seen] at still
    cases still
  · refine ⟨Finset.mem_insert_self _ _, fun other held => ?_⟩
    rcases Finset.mem_insert.mp held with rfl | old
    · exact le_rfl
    · exact (largest other old).trans newer.le
  · have reach : place < w.size := by simpa using inside
    have moved : bitAt (advance w (seq - w.highSeq)).bitmap place =
        if seq - w.highSeq ≤ place then bitAt w.bitmap (place - (seq - w.highSeq)) else false :=
      bitAt_advance reach
    rw [bitAt_setBit (Window.word_positive _)]
    change (decide (place = 0) || bitAt (advance w (seq - w.highSeq)).bitmap place) = true ↔
      place ≤ seq ∧ seq - place ∈ insert seq accepted
    rw [moved, Finset.mem_insert, Bool.or_eq_true, decide_eq_true_eq]
    by_cases head : place = 0
    · simp [head]
    by_cases old : seq - w.highSeq ≤ place
    · have carried := represents.bits seen (place - (seq - w.highSeq)) (by omega)
      rw [if_pos old, carried]
      have same : w.highSeq - (place - (seq - w.highSeq)) = seq - place := by omega
      rw [same]
      constructor
      · rintro (zero | ⟨low, held⟩)
        · exact absurd zero head
        · exact ⟨by omega, .inr held⟩
      · rintro ⟨low, equal | held⟩
        · omega
        · exact .inr ⟨by omega, held⟩
    · -- Between the old head and the new one nothing was accepted.
      rw [if_neg old]
      constructor
      · rintro (zero | impossible)
        · exact absurd zero head
        · cases impossible
      · rintro ⟨low, equal | held⟩
        · omega
        · have := largest _ held
          omega

theorem represents_older (seen : w.seen = true) (older : seq < w.highSeq)
    (near : w.highSeq - seq < w.size) :
    Represents (setBit w (w.highSeq - seq)) (insert seq accepted) := by
  obtain ⟨member, largest⟩ := represents.highest seen
  refine ⟨fun unseen => ?_, fun _ => ⟨Finset.mem_insert_of_mem member, fun other held => ?_⟩,
    fun _ place inside => ?_⟩
  · rw [setBit_seen, seen] at unseen
    cases unseen
  · rcases Finset.mem_insert.mp held with rfl | old
    · exact older.le
    · exact largest other old
  · rw [bitAt_setBit near, Bool.or_eq_true, decide_eq_true_eq, represents.bits seen place inside,
      setBit_highSeq, Finset.mem_insert]
    constructor
    · rintro (rfl | ⟨low, held⟩)
      · exact ⟨by omega, .inl (by omega)⟩
      · exact ⟨low, .inr held⟩
    · rintro ⟨low, equal | held⟩
      · exact .inl (by omega)
      · exact .inr ⟨low, held⟩

/-- One Check answers and records as the filter does. -/
theorem check_refines : (check w seq).1 = (answer w.size accepted (.check seq)).1 ∧
      Represents (check w seq).2 (answer w.size accepted (.check seq)).2 := by
  cases seen : w.seen with
  | false =>
    have first : check w seq = (true, setBit { w with seen := true, highSeq := seq } 0) := by
      simp [check, seen]
    rw [first, answer, if_pos (admits_unseen represents seen)]
    exact ⟨rfl, represents_first represents seen⟩
  | true =>
    obtain ⟨member, largest⟩ := represents.highest seen
    have admits : Admits w.size accepted seq ↔ seq ∉ accepted ∧ w.highSeq < seq + w.size :=
      admits_seen represents seen
    rcases Nat.lt_trichotomy w.highSeq seq with newer | rfl | older
    · have moved : check w seq =
          (true, setBit { advance w (seq - w.highSeq) with highSeq := seq } 0) := by
        simp [check, seen, newer]
      have fresh : seq ∉ accepted := fun held => by
        have := largest seq held
        omega
      rw [moved, answer, if_pos (admits.mpr ⟨fresh, by omega⟩)]
      exact ⟨rfl, represents_newer represents seen newer⟩
    · have head : check w w.highSeq = (false, w) := by simp [check, seen]
      rw [head, answer, if_neg fun holds => (admits.mp holds).1 member]
      exact ⟨rfl, represents⟩
    · have rest : check w seq = if w.highSeq - seq ≥ w.size then (false, w)
          else if testBit w (w.highSeq - seq) then (false, w)
          else (true, setBit w (w.highSeq - seq)) := by
        simp [check, seen, show ¬ w.highSeq < seq by omega, show ¬ seq = w.highSeq by omega]
      rw [rest]
      by_cases far : w.highSeq - seq ≥ w.size
      · rw [if_pos far, answer, if_neg fun holds => by have := (admits.mp holds).2; omega]
        exact ⟨rfl, represents⟩
      have held := represents.bits seen (w.highSeq - seq) (by omega)
      rw [show w.highSeq - (w.highSeq - seq) = seq by omega] at held
      rw [if_neg far, testBit_eq]
      by_cases duplicate : seq ∈ accepted
      · rw [if_pos (held.mpr ⟨by omega, duplicate⟩), answer, if_neg fun holds =>
          (admits.mp holds).1 duplicate]
        exact ⟨rfl, represents⟩
      · rw [if_neg fun bit => duplicate (held.mp bit).2, answer,
          if_pos (admits.mpr ⟨duplicate, by omega⟩)]
        exact ⟨rfl, represents_older represents seen older (by omega)⟩

theorem call_refines (c : Call) : (call w c).1 = (answer w.size accepted c).1 ∧
      Represents (call w c).2 (answer w.size accepted c).2 := by
  cases c with
  | check seq => exact check_refines represents
  | admissible seq =>
    refine ⟨?_, represents⟩
    rw [call, answer, admissible_eq_check, (check_refines represents).1, answer]
    split <;> simp [*]

end Step

theorem calls_refine {w : Window} {accepted : Finset Nat} (represents : Represents w accepted)
    (requests : List Call) : calls w requests = answers w.size accepted requests := by
  induction requests generalizing w accepted with
  | nil => rfl
  | cons c rest ih =>
    obtain ⟨same, after⟩ := call_refines represents c
    rw [calls, answers, same, ih after, call_size]

theorem ofWords_represents {words : Nat} (positive : 0 < words) :
    Represents (ofWords words positive) ∅ :=
  ⟨fun _ => ⟨rfl, fun place _ => WordBitmap.bitAt_replicate words place⟩, nofun, nofun⟩

theorem words_toNat (size : UInt64) :
    ((size + 64 - 1) / 64).toNat = (size.toNat + 63) % 2 ^ 64 / 64 := by
  have bound := size.toNat_lt
  simp only [UInt64.toNat_div, UInt64.toNat_sub, UInt64.toNat_add, UInt64.reduceToNat]
  omega

/-- A width that fits asks for the words of the width rounded up. -/
theorem newWindowSize_of_fits {size : UInt64} (fits : size.toNat ≤ 2 ^ 64 - 64) :
    ∃ words, ∃ positive : 0 < words, words * 64 = roundedUp size ∧ ∀ longest,
      newWindowSize longest size =
        if words > longest then .error .panic else .ok (some (ofWords words positive)) := by
  by_cases default : size = 0
  · exact ⟨16, by decide, by simp [roundedUp, default], fun _ => by rw [default]; rfl⟩
  have nonzero : size.toNat ≠ 0 := fun zero => default (UInt64.toNat_inj.mp zero)
  have words := words_toNat size
  rw [Nat.mod_eq_of_lt (by omega)] at words
  have positive : 0 < (size.toNat + 63) / 64 := by omega
  refine ⟨(size.toNat + 63) / 64, positive, by simp [roundedUp, default], fun longest => ?_⟩
  simp only [newWindowSize, if_neg default, words, dif_pos positive]

theorem newWindowSize_of_wraps (longest : Nat) {size : UInt64}
    (wraps : ¬ size.toNat ≤ 2 ^ 64 - 64) : newWindowSize longest size = .ok none := by
  have bound := size.toNat_lt
  have nonzero : ¬ size = 0 := by
    rintro rfl
    simp at wraps
  have words := words_toNat size
  have none : ((size + 64 - 1) / 64).toNat = 0 := by omega
  simp [newWindowSize, nonzero, none]

/-- A window of the requested width answers every sequence of calls as the ideal filter of
that width does, for exactly the widths whose rounding does not wrap and whose words can be
allocated. -/
theorem window_refines_filter_iff (longest : Nat) (size : UInt64) :
    (∀ requests, run longest size requests = .ok (answers (roundedUp size) ∅ requests)) ↔
      size.toNat ≤ 2 ^ 64 - 64 ∧ roundedUp size ≤ longest * 64 := by
  by_cases fits : size.toNat ≤ 2 ^ 64 - 64
  · obtain ⟨words, positive, width, made⟩ := newWindowSize_of_fits fits
    by_cases large : words > longest
    · refine iff_of_false (fun refines => ?_) fun fit => absurd fit.2 (by omega)
      have panics := refines []
      rw [run, made, if_pos large] at panics
      cases panics
    · refine iff_of_true (fun requests => ?_) ⟨fits, by omega⟩
      rw [run, made, if_neg large, ← width]
      exact congrArg Except.ok (calls_refine (ofWords_represents positive) requests)
  · refine iff_of_false (fun refines => ?_) fun fit => fits fit.1
    have panics := refines [.check 0]
    rw [run, newWindowSize_of_wraps longest fits] at panics
    cases panics

/-- The widest request: its rounding wraps to no words at all, and the first Check panics,
however much can be allocated. -/
theorem widest_window_panics : ∃ size : UInt64, size.toNat = 2 ^ 64 - 1 ∧
    (∀ longest, run longest size [.check 0] = .error .panic) ∧
      answers (roundedUp size) ∅ [.check 0] = [true] := by
  have widest : (UInt64.ofNat (2 ^ 64 - 1)).toNat = 2 ^ 64 - 1 := by decide
  refine ⟨UInt64.ofNat (2 ^ 64 - 1), widest, fun longest => ?_, rfl⟩
  rw [run, newWindowSize_of_wraps longest (by omega)]
  rfl

end QuantumGo.ReplayFilter
