import QuantumGo.Octets
import Mathlib.Logic.Function.Basic

/-!
Hash and cipher primitives as parameters, what it means for them to be ideal,
and an alphabet over which ideal ones exist. The symbolic alphabet adds to the
byte values one letter for every position of every symbolic term, so an output
of a fixed length still determines everything that went into it.
-/

namespace QuantumGo.Symbolic

open Octets

/-- The primitives a program takes from elsewhere. `sealText` and `openText` take the
suite, the key, the nonce, the text and the associated data. -/
structure Primitives (Byte : Type) where
  xof : List Byte → Nat → List Byte
  digest : List Byte → List Byte
  sealText : UInt16 → List Byte → List Byte → List Byte → List Byte → List Byte
  openText : UInt16 → List Byte → List Byte → List Byte → List Byte → Option (List Byte)

variable {Byte : Type}

def XofSized (xof : List Byte → Nat → List Byte) : Prop :=
  ∀ input size, (xof input size).length = size

/-- The output has the requested length, and every block of `width` letters of
it determines the input and the place of the block. -/
structure XofIdeal (width : Nat) (xof : List Byte → Nat → List Byte) : Prop where
  length : XofSized xof
  block : ∀ left right size size' place place', place + width ≤ size → place' + width ≤ size' →
    slice (xof left size) place (place + width) = slice (xof right size') place' (place' + width) →
    left = right ∧ place = place'

structure DigestIdeal (width : Nat) (digest : List Byte → List Byte) : Prop where
  length : ∀ input, (digest input).length = width
  injective : Function.Injective digest

/-- A sealed text opens under the key, nonce and data it was sealed with. What
opens was sealed so, and it was sealed in one way only. -/
structure SealIdeal (tag : Nat) (prims : Primitives Byte) : Prop where
  length : ∀ suite key nonce text data,
    (prims.sealText suite key nonce text data).length = text.length + tag
  opens : ∀ suite key nonce text data,
    prims.openText suite key nonce (prims.sealText suite key nonce text data) data = some text
  sound : ∀ suite key nonce sealedText data text,
    prims.openText suite key nonce sealedText data = some text →
    sealedText = prims.sealText suite key nonce text data
  injective : ∀ suite key nonce text data suite' key' nonce' text' data',
    prims.sealText suite key nonce text data = prims.sealText suite' key' nonce' text' data' →
    suite = suite' ∧ key = key' ∧ nonce = nonce' ∧ text = text' ∧ data = data'

/-- Opening somebody's ciphertext gives that party's text, under that party's key. -/
theorem SealIdeal.unseal_sealed {tag : Nat} {prims : Primitives Byte} (ideal : SealIdeal tag prims)
    {suite suite' : UInt16} {key key' nonce nonce' text text' data data' : List Byte}
    (opened : prims.openText suite key nonce
      (prims.sealText suite' key' nonce' text' data') data = some text) :
    suite = suite' ∧ key = key' ∧ nonce = nonce' ∧ text = text' ∧ data = data' := by
  have same := ideal.sound _ _ _ _ _ _ opened
  obtain ⟨suites, keys, nonces, texts, datas⟩ := ideal.injective _ _ _ _ _ _ _ _ _ _ same
  exact ⟨suites.symm, keys.symm, nonces.symm, texts.symm, datas.symm⟩

/-! The symbolic alphabet. -/

inductive Letter where
  | byte (b : UInt8)
  | term (head : List Nat) (args : List (List Letter)) (position : Nat)

-- Equality is decided along the nesting: letters, strings of letters, lists of strings.
mutual
def decideLetter : (left right : Letter) → Decidable (left = right)
  | .byte b, .byte c =>
    if same : b = c then .isTrue (by rw [same]) else .isFalse (by simpa using same)
  | .byte _, .term .. => .isFalse (by simp)
  | .term .., .byte _ => .isFalse (by simp)
  | .term head args position, .term head' args' position' =>
    if same : head = head' ∧ position = position' then
      match decideArgs args args' with
      | .isTrue rest => .isTrue (by rw [same.1, same.2, rest])
      | .isFalse differ => .isFalse (fun eq => differ (by cases eq; rfl))
    else .isFalse (fun eq => same (by cases eq; exact ⟨rfl, rfl⟩))

def decideArg : (left right : List Letter) → Decidable (left = right)
  | [], [] => .isTrue rfl
  | [], _ :: _ => .isFalse (by simp)
  | _ :: _, [] => .isFalse (by simp)
  | l :: ls, r :: rs =>
    match decideLetter l r, decideArg ls rs with
    | .isTrue head, .isTrue tail => .isTrue (by rw [head, tail])
    | .isFalse head, _ => .isFalse (fun eq => head (by cases eq; rfl))
    | _, .isFalse tail => .isFalse (fun eq => tail (by cases eq; rfl))

def decideArgs : (left right : List (List Letter)) → Decidable (left = right)
  | [], [] => .isTrue rfl
  | [], _ :: _ => .isFalse (by simp)
  | _ :: _, [] => .isFalse (by simp)
  | l :: ls, r :: rs =>
    match decideArg l r, decideArgs ls rs with
    | .isTrue head, .isTrue tail => .isTrue (by rw [head, tail])
    | .isFalse head, _ => .isFalse (fun eq => head (by cases eq; rfl))
    | _, .isFalse tail => .isFalse (fun eq => tail (by cases eq; rfl))
end

instance : DecidableEq Letter := decideLetter

def Letter.value : Letter → UInt8
  | .byte b => b
  | .term .. => 0

instance : Octet Letter := ⟨.byte, Letter.value, fun _ => rfl, inferInstance⟩

def symbols (head : List Nat) (args : List (List Letter)) (size : Nat) : List Letter :=
  (List.range size).map (Letter.term head args)

@[simp] theorem symbols_length (head : List Nat) (args : List (List Letter)) (size : Nat) :
    (symbols head args size).length = size := by
  simp [symbols]

/-- One letter of the string is enough to read the term and the place back. -/
theorem symbols_slice_inj {head head' : List Nat} {args args' : List (List Letter)}
    {size size' place place' width : Nat} (positive : 0 < width)
    (inside : place + width ≤ size) (inside' : place' + width ≤ size')
    (same : slice (symbols head args size) place (place + width) =
      slice (symbols head' args' size') place' (place' + width)) :
    head = head' ∧ args = args' ∧ place = place' := by
  have first := congrArg List.head? same
  have here : place < size := by omega
  have here' : place' < size' := by omega
  have nonzero : width ≠ 0 := by omega
  simpa [slice, symbols, List.head?_take, List.head?_drop, here, here', nonzero] using first

theorem symbols_inj {head head' : List Nat} {args args' : List (List Letter)} {size size' : Nat}
    (positive : 0 < size) (same : symbols head args size = symbols head' args' size') :
    head = head' ∧ args = args' := by
  have sizes : size = size' := by simpa using congrArg List.length same
  subst sizes
  have aligned : slice (symbols head args size) 0 (0 + size) =
      slice (symbols head' args' size) 0 (0 + size) := by rw [same]
  obtain ⟨heads, arguments, -⟩ := symbols_slice_inj positive (by omega) (by omega) aligned
  exact ⟨heads, arguments⟩

def symbolicSeal (suite : UInt16) (key nonce text data : List Letter) : List Letter :=
  symbols [2, suite.toNat] [key, nonce, text, data] (text.length + 16)

def symbolicUnseal (suite : UInt16) (key nonce sealedText data : List Letter) :
    Option (List Letter) :=
  match sealedText with
  | .term _ [_, _, text, _] _ :: _ =>
    if sealedText = symbolicSeal suite key nonce text data then some text else none
  | _ => none

def symbolic : Primitives Letter where
  xof input size := symbols [0] [input] size
  digest input := symbols [1] [input] 32
  sealText := symbolicSeal
  openText := symbolicUnseal

theorem symbolic_xof (width : Nat) (positive : 0 < width) : XofIdeal width symbolic.xof where
  length input size := symbols_length [0] [input] size
  block left right size size' place place' inside inside' same := by
    obtain ⟨-, args, places⟩ := symbols_slice_inj positive inside inside' same
    exact ⟨by simpa using args, places⟩

theorem symbolic_digest : DigestIdeal 32 symbolic.digest where
  length input := symbols_length [1] [input] 32
  injective left right same := by
    obtain ⟨-, args⟩ := symbols_inj (by omega) same
    simpa using args

theorem symbolicSeal_inj {suite suite' : UInt16}
    {key nonce text data key' nonce' text' data' : List Letter}
    (same : symbolicSeal suite key nonce text data = symbolicSeal suite' key' nonce' text' data') :
    suite = suite' ∧ key = key' ∧ nonce = nonce' ∧ text = text' ∧ data = data' := by
  obtain ⟨heads, args⟩ := symbols_inj (by omega) same
  have suites : suite = suite' := UInt16.toNat_inj.mp (by simpa using heads)
  exact ⟨suites, by simpa using args⟩

theorem symbolicUnseal_seal (suite : UInt16) (key nonce text data : List Letter) :
    symbolicUnseal suite key nonce (symbolicSeal suite key nonce text data) data = some text := by
  have shape : symbolicSeal suite key nonce text data =
      .term [2, suite.toNat] [key, nonce, text, data] 0 ::
        (symbolicSeal suite key nonce text data).tail := by
    simp [symbolicSeal, symbols, List.range_succ_eq_map]
  rw [shape, symbolicUnseal, if_pos shape.symm]

theorem symbolic_seal : SealIdeal 16 symbolic where
  length suite key nonce text data := symbols_length _ _ _
  opens := symbolicUnseal_seal
  sound suite key nonce sealedText data text opened := by
    change symbolicUnseal suite key nonce sealedText data = some text at opened
    unfold symbolicUnseal at opened
    split at opened
    · split at opened
      · rename_i matched
        obtain rfl := Option.some.inj opened
        exact matched
      · cases opened
    · cases opened
  injective _ _ _ _ _ _ _ _ _ _ same := symbolicSeal_inj same

end QuantumGo.Symbolic
