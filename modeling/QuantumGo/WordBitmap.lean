import Mathlib.Data.BitVec
import Mathlib.Data.List.Basic

/-!
Bitmaps kept in words of a fixed width, lowest bits first: reading and setting one
bit, and moving all bits up in place. Position `pos` is bit `pos % width` of word
`pos / width`; a position past the last word reads as clear.
-/

namespace QuantumGo.WordBitmap

variable {width : Nat} {bit i wordShift bitShift : Nat} {bitmap : List (BitVec width)}

def bitAt (bitmap : List (BitVec width)) (pos : Nat) : Bool :=
  (bitmap.getD (pos / width) 0).getLsbD (pos % width)

def setBit (bitmap : List (BitVec width)) (pos : Nat) : List (BitVec width) :=
  bitmap.modify (pos / width) (· ||| BitVec.ofNat width 1 <<< (pos % width))

def testBit (bitmap : List (BitVec width)) (pos : Nat) : Bool :=
  (bitmap.getD (pos / width) 0) &&& (BitVec.ofNat width 1 <<< (pos % width)) != 0

def shiftedWord (bitmap : List (BitVec width)) (wordShift bitShift i : Nat) : BitVec width :=
  if i ≥ wordShift then
    let src := i - wordShift
    let v := bitmap.getD src 0 <<< bitShift
    if bitShift ≠ 0 ∧ src ≥ 1 then v ||| bitmap.getD (src - 1) 0 >>> (width - bitShift) else v
  else 0

def shiftWords (wordShift bitShift : Nat) : Nat → List (BitVec width) → List (BitVec width)
  | 0, bitmap => bitmap
  | i + 1, bitmap =>
    shiftWords wordShift bitShift i (bitmap.set i (shiftedWord bitmap wordShift bitShift i))

def shift (bitmap : List (BitVec width)) (delta : Nat) : List (BitVec width) :=
  shiftWords (delta / width) (delta % width) bitmap.length bitmap

def clear (bitmap : List (BitVec width)) : List (BitVec width) := bitmap.map fun _ => 0

/-! One bit. -/

theorem getLsbD_one_shiftLeft (inside : i < width) :
    (BitVec.ofNat width 1 <<< bit).getLsbD i = decide (i = bit) := by
  have positive : 0 < width := by omega
  rw [BitVec.getLsbD_shiftLeft, BitVec.getLsbD_one]
  by_cases same : i = bit
  · simp [same, positive]
    omega
  · have apart : i < bit ∨ i - bit ≠ 0 := by omega
    rcases apart with low | high <;> simp_all

theorem testBit_eq_bitAt (positive : 0 < width) (bitmap : List (BitVec width)) (pos : Nat) :
    testBit bitmap pos = bitAt bitmap pos := by
  have inside : pos % width < width := Nat.mod_lt _ positive
  unfold testBit bitAt
  generalize bitmap.getD (pos / width) 0 = word
  cases held : word.getLsbD (pos % width) with
  | true =>
    rw [bne_iff_ne]
    intro zero
    have bit := congrArg (fun v => v.getLsbD (pos % width)) zero
    simp [held, getLsbD_one_shiftLeft inside] at bit
  | false =>
    rw [bne_eq_false_iff_eq]
    apply BitVec.eq_of_getLsbD_eq
    intro i bound
    rw [BitVec.getLsbD_and, getLsbD_one_shiftLeft bound]
    by_cases same : i = pos % width
    · simp [same, held]
    · simp [same]

@[simp] theorem setBit_length (bitmap : List (BitVec width)) (pos : Nat) :
    (setBit bitmap pos).length = bitmap.length := by
  simp [setBit]

theorem bitAt_setBit {pos : Nat} (positive : 0 < width) (inside : pos < bitmap.length * width)
    (at' : Nat) : bitAt (setBit bitmap pos) at' = (decide (at' = pos) || bitAt bitmap at') := by
  have word : pos / width < bitmap.length := Nat.div_lt_of_lt_mul (by rwa [Nat.mul_comm])
  have bound : at' % width < width := Nat.mod_lt _ positive
  unfold bitAt setBit
  by_cases sameWord : at' / width = pos / width
  · have updated : (bitmap.modify (pos / width) (· ||| BitVec.ofNat width 1 <<< (pos % width))).getD
        (at' / width) 0 = bitmap.getD (at' / width) 0 ||| BitVec.ofNat width 1 <<<
        (pos % width) := by
      simp [List.getD_eq_getElem?_getD, sameWord, word]
    rw [updated, BitVec.getLsbD_or, getLsbD_one_shiftLeft bound, Bool.or_comm]
    congr 1
    have samePlace : at' % width = pos % width ↔ at' = pos := by
      constructor
      · intro same
        rw [← Nat.div_add_mod at' width, ← Nat.div_add_mod pos width, sameWord, same]
      · rintro rfl
        rfl
    simp [samePlace]
  · have apart : at' ≠ pos := by
      rintro rfl
      exact sameWord rfl
    have kept : (bitmap.modify (pos / width) (· ||| BitVec.ofNat width 1 <<< (pos % width))).getD
        (at' / width) 0 = bitmap.getD (at' / width) 0 := by
      simp [List.getD_eq_getElem?_getD, Ne.symm sameWord]
    rw [kept]
    simp [apart]

/-! The shift. -/

@[simp] theorem shiftWords_length (wordShift bitShift count : Nat) (bitmap : List (BitVec width)) :
    (shiftWords wordShift bitShift count bitmap).length = bitmap.length := by
  induction count generalizing bitmap with
  | zero => rfl
  | succ i ih => simp [shiftWords, ih]

@[simp] theorem shift_length (bitmap : List (BitVec width)) (delta : Nat) :
    (shift bitmap delta).length = bitmap.length :=
  shiftWords_length _ _ _ _

/-- A word reads only words at or below its own place. -/
theorem shiftedWord_congr {bitmap' : List (BitVec width)}
    (below : ∀ j ≤ i, bitmap.getD j 0 = bitmap'.getD j 0) :
    shiftedWord bitmap wordShift bitShift i = shiftedWord bitmap' wordShift bitShift i := by
  unfold shiftedWord
  by_cases reaches : i ≥ wordShift
  · simp only [if_pos reaches, below (i - wordShift) (by omega), below (i - wordShift - 1)
      (by omega)]
  · simp only [if_neg reaches]

/-- What the loop leaves in place `j`: the words it has passed hold what they would have
been given from the bitmap it started with. -/
theorem shiftWords_getD (wordShift bitShift count : Nat) (bitmap : List (BitVec width)) (j : Nat)
    (inside : j < bitmap.length) :
    (shiftWords wordShift bitShift count bitmap).getD j 0 =
      if j < count then shiftedWord bitmap wordShift bitShift j else bitmap.getD j 0 := by
  induction count generalizing bitmap with
  | zero => simp [shiftWords]
  | succ i ih =>
    -- The words below `i` are as they were when the loop comes to them.
    have below : ∀ k < i, (bitmap.set i (shiftedWord bitmap wordShift bitShift i)).getD k 0 =
        bitmap.getD k 0 := by
      intro k low
      simp [List.getD_eq_getElem?_getD, show i ≠ k by omega]
    rw [shiftWords, ih _ (by simpa using inside)]
    rcases Nat.lt_trichotomy j i with low | rfl | high
    · rw [if_pos low, if_pos (by omega)]
      exact shiftedWord_congr fun k bound => below k (by omega)
    · rw [if_neg (by omega), if_pos (by omega)]
      simp [List.getD_eq_getElem?_getD, inside]
    · rw [if_neg (by omega), if_neg (by omega)]
      simp [List.getD_eq_getElem?_getD, show i ≠ j by omega]

theorem bitAt_word {word : Nat} (bound : bit < width) :
    bitAt bitmap (word * width + bit) = (bitmap.getD word 0).getLsbD bit := by
  have positive : 0 < width := by omega
  rw [bitAt, Nat.mul_comm, Nat.mul_add_div positive, Nat.mul_add_mod, Nat.div_eq_of_lt bound,
    Nat.mod_eq_of_lt bound, Nat.add_zero]

/-- Bit `bit` of the word that moves to place `wordShift + src`: its own word's bit, or one
carried over from the word below. -/
theorem getLsbD_shiftedWord {src : Nat} (small : bitShift < width) (bound : bit < width) :
    (shiftedWord bitmap wordShift bitShift (wordShift + src)).getLsbD bit =
      if bitShift ≤ bit then (bitmap.getD src 0).getLsbD (bit - bitShift)
      else if 1 ≤ src then (bitmap.getD (src - 1) 0).getLsbD (width - bitShift + bit)
      else false := by
  unfold shiftedWord
  rw [if_pos (Nat.le_add_right _ _), Nat.add_sub_cancel_left]
  by_cases high : bitShift ≤ bit
  · have carry : (bitmap.getD (src - 1) 0 >>> (width - bitShift)).getLsbD bit = false := by
      rw [BitVec.getLsbD_ushiftRight]
      exact BitVec.getLsbD_of_ge _ _ (by omega)
    have own : (bitmap.getD src 0 <<< bitShift).getLsbD bit =
        (bitmap.getD src 0).getLsbD (bit - bitShift) := by
      rw [BitVec.getLsbD_shiftLeft]
      simp [bound, show ¬ bit < bitShift by omega]
    rw [if_pos high]
    dsimp only
    split_ifs
    · rw [BitVec.getLsbD_or, own, carry, Bool.or_false]
    · exact own
  · have own : (bitmap.getD src 0 <<< bitShift).getLsbD bit = false := by
      rw [BitVec.getLsbD_shiftLeft]
      simp [show bit < bitShift by omega]
    rw [if_neg high]
    dsimp only
    by_cases above : 1 ≤ src
    · rw [if_pos ⟨by omega, above⟩, if_pos above, BitVec.getLsbD_or, own, Bool.false_or,
        BitVec.getLsbD_ushiftRight]
    · rw [if_neg (fun both => above both.2), if_neg above, own]

theorem getLsbD_shiftedWord_eq_bitAt (small : bitShift < width) (bound : bit < width) :
    (shiftedWord bitmap wordShift bitShift i).getLsbD bit =
      if wordShift * width + bitShift ≤ i * width + bit then
        bitAt bitmap (i * width + bit - (wordShift * width + bitShift))
      else false := by
  by_cases reaches : wordShift ≤ i
  · obtain ⟨src, rfl⟩ := Nat.exists_eq_add_of_le reaches
    rw [getLsbD_shiftedWord small bound, Nat.add_mul]
    by_cases high : bitShift ≤ bit
    · have place : wordShift * width + src * width + bit - (wordShift * width + bitShift) =
          src * width + (bit - bitShift) := by omega
      rw [if_pos high, if_pos (by omega), place, bitAt_word (by omega)]
    · rw [if_neg high]
      cases src with
      | zero => rw [if_neg (by omega), if_neg (by omega)]
      | succ prior =>
        have place : wordShift * width + (prior + 1) * width +
            bit - (wordShift * width + bitShift) = prior * width + (width - bitShift + bit) := by
          rw [Nat.add_mul]
          omega
        have enough : wordShift * width + bitShift ≤ wordShift * width + (prior + 1) * width +
            bit := by
          rw [Nat.add_mul]
          omega
        rw [if_pos (by omega), if_pos enough, place, bitAt_word (by omega), Nat.add_sub_cancel]
  · have upper : (i + 1) * width ≤ wordShift * width := Nat.mul_le_mul_right _ (by omega)
    rw [Nat.add_mul] at upper
    rw [shiftedWord, if_neg reaches, if_neg (by omega)]
    simp

/-- Bit `pos` of the shifted bitmap is bit `pos - delta` of the old one. -/
theorem bitAt_shift {delta pos : Nat} (positive : 0 < width)
    (inside : pos < bitmap.length * width) :
    bitAt (shift bitmap delta) pos = if delta ≤ pos then bitAt bitmap (pos - delta) else false := by
  have word : pos / width < bitmap.length := Nat.div_lt_of_lt_mul (by rwa [Nat.mul_comm])
  have whole : pos / width * width + pos % width = pos := Nat.div_add_mod' pos width
  have parts : delta / width * width + delta % width = delta := Nat.div_add_mod' delta width
  rw [bitAt, shift, shiftWords_getD _ _ _ _ _ word, if_pos word,
    getLsbD_shiftedWord_eq_bitAt (Nat.mod_lt _ positive) (Nat.mod_lt _ positive), whole, parts]

@[simp] theorem clear_length (bitmap : List (BitVec width)) :
    (clear bitmap).length = bitmap.length := by
  simp [clear]

theorem bitAt_clear (bitmap : List (BitVec width)) (pos : Nat) :
    bitAt (clear bitmap) pos = false := by
  rw [bitAt, clear, List.getD_eq_getElem?_getD, List.getElem?_map]
  cases bitmap[pos / width]? <;> simp

theorem bitAt_replicate (words pos : Nat) :
    bitAt (List.replicate words (0 : BitVec width)) pos = false := by
  rw [bitAt, List.getD_eq_getElem?_getD, List.getElem?_replicate]
  split_ifs <;> simp

end QuantumGo.WordBitmap
