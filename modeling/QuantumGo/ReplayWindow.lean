import QuantumGo.Wire
import QuantumGo.WordBitmap

/-!
pkg/tunnel/replay.go: the sliding bitmap that both transports use against
replays. Bit `i` stands for sequence number `highSeq - i`. A window always has
words; the constructor's wrapping arithmetic can leave it none, and then there is
no window here.
-/

namespace QuantumGo.ReplayWindow

open WordBitmap (bitAt)

abbrev replayWordBits : Nat := 64
def windowSize : UInt64 := 1024

structure Window where
  bitmap : List (BitVec replayWordBits)
  highSeq : Nat
  size : Nat
  seen : Bool
  nonempty : 0 < bitmap.length
  aligned : size = bitmap.length * replayWordBits
  deriving DecidableEq, Repr

def ofWords (words : Nat) (positive : 0 < words) : Window where
  bitmap := List.replicate words 0
  highSeq := 0
  size := words * replayWordBits
  seen := false
  nonempty := by simpa using positive
  aligned := by simp

/-- `longest` is the number of words that `make` can allocate; for more it panics. The sum
wraps for the widths above `2 ^ 64 - 64`, and the source then returns a window without words. -/
def newWindowSize (longest : Nat) (size : UInt64) : Except Wire.Fault (Option Window) :=
  let size := if size = 0 then windowSize else size
  let words := (size + 64 - 1) / 64
  if words.toNat > longest then .error .panic
  else if positive : 0 < words.toNat then .ok (some (ofWords words.toNat positive))
  else .ok none

def newWindow : Window := ofWords 16 (by decide)

def Window.withBitmap (w : Window) (bitmap : List (BitVec replayWordBits))
    (same : bitmap.length = w.bitmap.length) : Window :=
  { w with
    bitmap
    nonempty := same ▸ w.nonempty
    aligned := by rw [same]; exact w.aligned }

def setBit (w : Window) (pos : Nat) : Window :=
  w.withBitmap (WordBitmap.setBit w.bitmap pos) (WordBitmap.setBit_length _ _)

def testBit (w : Window) (pos : Nat) : Bool := WordBitmap.testBit w.bitmap pos

def advance (w : Window) (delta : Nat) : Window :=
  if delta ≥ w.size then w.withBitmap (WordBitmap.clear w.bitmap) (WordBitmap.clear_length _)
  else w.withBitmap (WordBitmap.shift w.bitmap delta) (WordBitmap.shift_length _ _)

def check (w : Window) (seq : Nat) : Bool × Window :=
  if !w.seen then (true, setBit { w with seen := true, highSeq := seq } 0)
  else if seq > w.highSeq then
    (true, setBit { advance w (seq - w.highSeq) with highSeq := seq } 0)
  else if seq = w.highSeq then (false, w)
  else
    let diff := w.highSeq - seq
    if diff ≥ w.size then (false, w)
    else if testBit w diff then (false, w)
    else (true, setBit w diff)

def admissible (w : Window) (seq : Nat) : Bool :=
  if !w.seen then true
  else if seq > w.highSeq then true
  else if seq = w.highSeq then false
  else
    let diff := w.highSeq - seq
    if diff ≥ w.size then false else !testBit w diff

theorem admissible_eq_check (w : Window) (seq : Nat) : admissible w seq = (check w seq).1 := by
  unfold admissible check
  split
  · rfl
  split
  · rfl
  split
  · rfl
  dsimp only
  split
  · rfl
  cases testBit w (w.highSeq - seq) <;> rfl

/-! What the operations do to the bits and to the other fields. -/

theorem Window.word_positive (w : Window) : 0 < w.size := by
  rw [w.aligned]
  exact Nat.mul_pos w.nonempty (by decide)

theorem testBit_eq (w : Window) (pos : Nat) : testBit w pos = bitAt w.bitmap pos :=
  WordBitmap.testBit_eq_bitAt (by decide) _ _

theorem bitAt_setBit {w : Window} {pos : Nat} (inside : pos < w.size) (place : Nat) :
    bitAt (setBit w pos).bitmap place = (decide (place = pos) || bitAt w.bitmap place) :=
  WordBitmap.bitAt_setBit (by decide) (w.aligned ▸ inside) place

@[simp] theorem setBit_seen (w : Window) (pos : Nat) : (setBit w pos).seen = w.seen := rfl
@[simp] theorem setBit_highSeq (w : Window) (pos : Nat) : (setBit w pos).highSeq = w.highSeq := rfl
@[simp] theorem setBit_size (w : Window) (pos : Nat) : (setBit w pos).size = w.size := rfl

@[simp] theorem advance_seen (w : Window) (delta : Nat) : (advance w delta).seen = w.seen := by
  unfold advance
  split <;> rfl

@[simp] theorem advance_size (w : Window) (delta : Nat) : (advance w delta).size = w.size := by
  unfold advance
  split <;> rfl

/-- Bit `place` moves to `place + delta`; a jump past the width clears the window. -/
theorem bitAt_advance {w : Window} {delta place : Nat} (inside : place < w.size) :
    bitAt (advance w delta).bitmap place =
      if delta ≤ place then bitAt w.bitmap (place - delta) else false := by
  unfold advance
  split
  · rw [if_neg (by omega)]
    exact WordBitmap.bitAt_clear _ _
  · exact WordBitmap.bitAt_shift (by decide) (w.aligned ▸ inside)

end QuantumGo.ReplayWindow
