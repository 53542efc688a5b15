import Mathlib.Data.List.Basic
import Mathlib.Data.Nat.ModEq
import Mathlib.Tactic.Ring

/-!
Byte strings over an alphabet of octets. A letter has the byte value that a
program reads from it, every byte value has a letter, and letters can be
compared. `UInt8` is the alphabet of a running program. Larger alphabets add letters with no other
meaning than themselves: over those a fixed-length digest can be injective,
which no function into strings over `UInt8` of one length is.
-/

namespace QuantumGo.Octets

class Octet (Byte : Type) where
  lit : UInt8 → Byte
  val : Byte → UInt8
  val_lit : ∀ b, val (lit b) = b
  decEq : DecidableEq Byte

attribute [simp] Octet.val_lit
attribute [reducible, instance] Octet.decEq

instance : Octet UInt8 := ⟨id, id, fun _ => rfl, inferInstance⟩

export Octet (lit val)

variable {Byte : Type} [Octet Byte]

/-! Big-endian numbers of a fixed width. -/

def ofBE : List Byte → Nat
  | [] => 0
  | b :: rest => (val b).toNat * 256 ^ rest.length + ofBE rest

def toBE : Nat → Nat → List Byte
  | 0, _ => []
  | width + 1, value => lit (UInt8.ofNat (value / 256 ^ width)) :: toBE width value

@[simp] theorem toBE_length (width value : Nat) :
    (toBE width value : List Byte).length = width := by
  induction width with
  | zero => rfl
  | succ width ih => simp [toBE, ih]

theorem ofBE_toBE (width value : Nat) :
    ofBE (toBE width value : List Byte) = value % 256 ^ width := by
  induction width with
  | zero => simp [toBE, ofBE, Nat.mod_one]
  | succ width ih =>
    have digits := Nat.mod_pow_succ (x := value) (b := 256) (k := width)
    have digit : (UInt8.ofNat (value / 256 ^ width)).toNat = value / 256 ^ width % 256 := by
      simp
    simp only [toBE, ofBE, toBE_length, Octet.val_lit, ih, digit, digits]
    ring

theorem ofBE_toBE_of_lt {width value : Nat} (fits : value < 256 ^ width) :
    ofBE (toBE width value : List Byte) = value := by
  rw [ofBE_toBE, Nat.mod_eq_of_lt fits]

theorem toBE_injective {width left right : Nat} (leftFits : left < 256 ^ width)
    (rightFits : right < 256 ^ width)
    (same : (toBE width left : List Byte) = toBE width right) : left = right := by
  have read := congrArg ofBE same
  rwa [ofBE_toBE_of_lt leftFits, ofBE_toBE_of_lt rightFits] at read

theorem ofBE_lt (digits : List Byte) : ofBE digits < 256 ^ digits.length := by
  induction digits with
  | nil => simp [ofBE]
  | cons b rest ih =>
    have digit : (val b).toNat < 256 := (val b).toNat_lt
    calc ofBE (b :: rest) < (val b).toNat * 256 ^ rest.length + 256 ^ rest.length := by
          simpa [ofBE] using ih
      _ = ((val b).toNat + 1) * 256 ^ rest.length := by ring
      _ ≤ 256 * 256 ^ rest.length := Nat.mul_le_mul_right _ digit
      _ = 256 ^ (b :: rest).length := by simp [pow_succ']

/-! A cursor into a byte string: what stands at an offset, and what follows. -/
section Cursor
variable {Letter : Type}

def slice (data : List Letter) (lo hi : Nat) : List Letter := (data.drop lo).take (hi - lo)

variable {data : List Letter} {field rest : List Letter} {offset : Nat}

theorem slice_length {lo hi : Nat} (inside : hi ≤ data.length) :
    (slice data lo hi).length = hi - lo := by
  simp [slice]
  omega

theorem slice_at {width : Nat} (here : data.drop offset = field ++ rest)
    (size : field.length = width) : slice data offset (offset + width) = field := by
  subst size
  simp [slice, here]

theorem drop_at {width : Nat} (here : data.drop offset = field ++ rest)
    (size : field.length = width) : data.drop (offset + width) = rest := by
  subst size
  rw [← List.drop_drop, here, List.drop_left]

theorem length_at (nonempty : field ≠ []) (here : data.drop offset = field ++ rest) :
    data.length = offset + field.length + rest.length := by
  have size := congrArg List.length here
  have positive := List.length_pos_iff.mpr nonempty
  simp only [List.length_drop, List.length_append] at size
  omega

end Cursor

/-! Self-delimiting frames: a frame's first `header` letters determine its
whole length, so a concatenation of frames can be cut in one way only. -/
section Frames
variable {Letter : Type}

def Framed (header : Nat) (size : List Letter → Nat) (frame : List Letter) : Prop :=
  header ≤ frame.length ∧ frame.length = size (frame.take header)

theorem framed_append_inj {header : Nat} {size : List Letter → Nat}
    {left right leftRest rightRest : List Letter} (leftFramed : Framed header size left)
    (rightFramed : Framed header size right)
    (same : left ++ leftRest = right ++ rightRest) : left = right ∧ leftRest = rightRest := by
  have heads : left.take header = right.take header := by
    have cut := congrArg (List.take header) same
    rwa [List.take_append_of_le_length leftFramed.1,
      List.take_append_of_le_length rightFramed.1] at cut
  apply List.append_inj same
  rw [leftFramed.2, rightFramed.2, heads]

end Frames

/-! Length-prefixed strings and lists of them, as absorbed by a hash. -/
section Prefixed
variable {Byte : Type} [Octet Byte] {width : Nat}

def prefixed (width : Nat) (field : List Byte) : List Byte :=
  toBE width field.length ++ field

theorem prefixed_framed {field : List Byte} (fits : field.length < 256 ^ width) :
    Framed width (fun head => width + ofBE head) (prefixed width field) := by
  refine ⟨by simp [prefixed], ?_⟩
  simp [ofBE_toBE_of_lt fits, prefixed]

theorem prefixed_append_inj {left right leftRest rightRest : List Byte}
    (leftFits : left.length < 256 ^ width) (rightFits : right.length < 256 ^ width)
    (same : prefixed width left ++ leftRest = prefixed width right ++ rightRest) :
    left = right ∧ leftRest = rightRest := by
  obtain ⟨fields, rests⟩ :=
    framed_append_inj (prefixed_framed leftFits) (prefixed_framed rightFits) same
  exact ⟨(List.append_inj' fields (by
    have sizes := congrArg List.length fields
    simpa [prefixed] using sizes)).2, rests⟩

/-- Lists of the same number of fields are read back field by field. -/
theorem prefixed_flatMap_inj {left right : List (List Byte)}
    (leftFits : ∀ field ∈ left, field.length < 256 ^ width)
    (rightFits : ∀ field ∈ right, field.length < 256 ^ width) (count : left.length = right.length)
    (same : left.flatMap (prefixed width) = right.flatMap (prefixed width)) : left = right := by
  induction left generalizing right with
  | nil => exact (List.length_eq_zero_iff.mp count.symm).symm
  | cons field rest ih =>
    cases right with
    | nil => simp at count
    | cons other others =>
      simp only [List.flatMap_cons] at same
      obtain ⟨rfl, rests⟩ := prefixed_append_inj (leftFits field (by simp))
        (rightFits other (by simp)) same
      rw [ih (fun f member => leftFits f (List.mem_cons_of_mem _ member))
        (fun f member => rightFits f (List.mem_cons_of_mem _ member))
        (by simpa using count) rests]

end Prefixed

/-! Signed machine integers. -/

/-- What is left of a sum or product in an `int` or a `time.Duration`. -/
def int64 (n : Int) : Int := n.bmod (2 ^ 64)

def maxInt : Int := 2 ^ 63 - 1

theorem int64_low (n : Int) : -2 ^ 63 ≤ int64 n := by
  have := Int.le_bmod (x := n) (m := 2 ^ 64) (by decide)
  unfold int64
  omega

theorem int64_high (n : Int) : int64 n ≤ maxInt := by
  have := Int.bmod_lt (x := n) (m := 2 ^ 64) (by decide)
  unfold int64 maxInt
  omega

theorem int64_of_bounded {n : Int} (low : -2 ^ 63 ≤ n) (high : n ≤ maxInt) : int64 n = n := by
  unfold maxInt at high
  exact Int.bmod_eq_of_le (by omega) (by omega)

theorem int64_add (a b : Int) : int64 (int64 a + b) = int64 (a + b) := by
  unfold int64
  exact Int.bmod_add_bmod

end QuantumGo.Octets
