import QuantumGo.Aead
import QuantumGo.StreamFraming
import Mathlib.Data.List.Nodup

/-!
pkg/crypto/buffer_pool.go and the two ways to seal under the nonce counter. Seal allocates its
buffer, SealPooled takes buffers from sync.Pools, which hand out whatever stands in them. Both
copy the nonce to the front and let the cipher append behind it in place. Open has a minimum
length of its own, one above what either makes of an empty plaintext.
-/

namespace QuantumGo.SealPooled

open Octets Effect Symbolic Wire Aead
open StreamFraming (copyAt)

def smallCryptoBufferSize : Nat := 1024 + aesNonceSize + aesTagSize
def mediumCryptoBufferSize : Nat := 16 * 1024 + aesNonceSize + aesTagSize
def largeCryptoBufferSize : Nat := 64 * 1024 + aesNonceSize + aesTagSize

/-- What the pools hand out to a call. A buffer has the size of its class, and any bytes. -/
structure BufferPool (Byte : Type) where
  nonce : List Byte
  small : List Byte
  medium : List Byte
  large : List Byte
  nonce_size : nonce.length = aesNonceSize
  small_size : small.length = smallCryptoBufferSize
  medium_size : medium.length = mediumCryptoBufferSize
  large_size : large.length = largeCryptoBufferSize

/-- The error of SealPooled, which is not the one that Seal returns. -/
structure NonceExhaustedError where

variable {Byte : Type} [Octet Byte]

def getNonce (pool : BufferPool Byte) : List Byte := pool.nonce.map fun _ => lit 0

/-- The array behind the slice of `size` bytes that the pool returns. -/
def getCiphertext (pool : BufferPool Byte) (size : Nat) : List Byte :=
  if size = 0 then []
  else if size ≤ smallCryptoBufferSize then pool.small
  else if size ≤ mediumCryptoBufferSize then pool.medium
  else if size ≤ largeCryptoBufferSize then pool.large
  else List.replicate size (lit 0)

/-- The twelve assignments of `nextNoncePooled`. -/
def putCounter (counter : Nat) (nonce : List Byte) : List Byte :=
  let byte shift := lit (UInt8.ofNat (counter >>> shift))
  copyAt 0 [lit 0, lit 0, lit 0, lit 0,
    byte 56, byte 48, byte 40, byte 32, byte 24, byte 16, byte 8, byte 0] nonce

def nextNoncePooled (pool : BufferPool Byte) :
    Prog (Cipher Byte) NonceExhaustedError (List Byte) := do
  let a ← read
  reject (a.counter ≥ a.maxSeq) ⟨⟩
  write fun a => { a with counter := a.counter + 1 }
  return putCounter a.counter (getNonce pool)

/-- The nonce is copied to the front of the array, and the cipher appends to the empty slice
behind it: in place if the array has room for all it makes, elsewhere otherwise. -/
def sealInto (crypto : Crypto Byte) (a : Cipher Byte) (nonce plaintext additionalData : List Byte)
    (size : Nat) (array : List Byte) : List Byte :=
  let array := copyAt 0 nonce array
  let made := crypto.sealText a.suite a.key nonce plaintext additionalData
  let array :=
    if aesNonceSize + made.length ≤ array.length then copyAt aesNonceSize made array else array
  array.take size

/-- Both ways to seal return the nonce they used beside the ciphertext. -/
def sealFresh (crypto : Crypto Byte) (plaintext additionalData : List Byte) :
    Prog (Cipher Byte) Fault (List Byte × List Byte) := do
  let nonce ← nextNonce
  let a ← read
  let size := aesNonceSize + plaintext.length + aesTagSize
  return (nonce,
    sealInto crypto a nonce plaintext additionalData size (List.replicate size (lit 0)))

def sealPooled (crypto : Crypto Byte) (pool : BufferPool Byte)
    (plaintext additionalData : List Byte) :
    Prog (Cipher Byte) NonceExhaustedError (List Byte × List Byte) := do
  let nonce ← nextNoncePooled pool
  let a ← read
  let size := aesNonceSize + plaintext.length + aesTagSize
  return (nonce, sealInto crypto a nonce plaintext additionalData size (getCiphertext pool size))

/-- The cipher opens what it sealed, and its tag has the length that the buffers allow for. -/
structure SealCorrect (prims : Primitives Byte) : Prop where
  length : ∀ suite key nonce text data,
    (prims.sealText suite key nonce text data).length = text.length + aesTagSize
  opens : ∀ suite key nonce text data,
    prims.openText suite key nonce (prims.sealText suite key nonce text data) data = some text

/-- A call of Seal, or of SealPooled with what it finds in the pools. -/
structure Call (Byte : Type) where
  pool : Option (BufferPool Byte)
  plaintext : List Byte
  additionalData : List Byte

def perform (crypto : Crypto Byte) (call : Call Byte) (a : Cipher Byte) :
    Option (List Byte × List Byte) × Cipher Byte :=
  match call.pool with
  | none =>
    let (result, a) := sealFresh crypto call.plaintext call.additionalData a
    (result.toOption, a)
  | some pool =>
    let (result, a) := sealPooled crypto pool call.plaintext call.additionalData a
    (result.toOption, a)

/-- The calls of a sequence that return no error, each with its nonce and its ciphertext. -/
def run (crypto : Crypto Byte) : List (Call Byte) → Cipher Byte →
    List (Call Byte × List Byte × List Byte)
  | [], _ => []
  | call :: rest, a =>
    (perform crypto call a).1.toList.map (call, ·) ++ run crypto rest (perform crypto call a).2

section Sequences
variable {crypto : Crypto Byte} {a b : Cipher Byte}

theorem putCounter_eq (counter : Nat) (pool : BufferPool Byte) :
    putCounter counter (getNonce pool) = counterNonce counter := by
  have size : (getNonce pool).length = 12 := (List.length_map _).trans pool.nonce_size
  simp only [putCounter, copyAt, counterNonce, toBE, Nat.shiftRight_eq_div_pow]
  rw [List.drop_eq_nil_of_le (by simp [size])]
  simp

theorem getCiphertext_room (pool : BufferPool Byte) (size : Nat) :
    size ≤ (getCiphertext pool size).length := by
  unfold getCiphertext
  split
  · omega
  split
  · rwa [pool.small_size]
  split
  · rwa [pool.medium_size]
  split
  · rwa [pool.large_size]
  · simp

/-- The nonce and the ciphertext of a call that finds the counter at `n`. -/
def made (crypto : Crypto Byte) (a : Cipher Byte) (n : Nat) (call : Call Byte) :
    List Byte × List Byte :=
  (counterNonce n, counterNonce n ++ crypto.sealText a.suite a.key (counterNonce n) call.plaintext
    call.additionalData)

theorem perform_past (call : Call Byte) (past : a.maxSeq ≤ a.counter) :
    perform crypto call a = (none, a) := by
  unfold perform
  cases call.pool with
  | none =>
    simp only [sealFresh, nextNonce, run_bind, run_read, run_reject, ge_iff_le, if_pos past]
    rfl
  | some pool =>
    simp only [sealPooled, nextNoncePooled, run_bind, run_read, run_reject, ge_iff_le, if_pos past]
    rfl

theorem counterNonce_inj {n n' : Nat} (fits : n < 2 ^ 64) (fits' : n' < 2 ^ 64)
    (same : (counterNonce n : List Byte) = counterNonce n') : n = n' :=
  toBE_injective fits fits' (List.append_cancel_left same)

section Correct
variable (correct : SealCorrect crypto.toPrimitives)
include correct

omit [Octet Byte] in
/-- Old bytes of the array do not show: the nonce and the sealed text fill the slice. -/
theorem sealInto_eq {nonce plaintext additionalData array : List Byte}
    (width : nonce.length = aesNonceSize)
    (room : aesNonceSize + plaintext.length + aesTagSize ≤ array.length) :
    sealInto crypto a nonce plaintext additionalData
        (aesNonceSize + plaintext.length + aesTagSize) array =
      nonce ++ crypto.sealText a.suite a.key nonce plaintext additionalData := by
  have size := correct.length a.suite a.key nonce plaintext additionalData
  have front : copyAt 0 nonce array = nonce ++ array.drop aesNonceSize := by
    simp [copyAt, width]
  simp only [sealInto, front]
  rw [if_pos (by simp only [List.length_append, List.length_drop]; omega), copyAt,
    List.take_left' width, List.take_left' (by rw [List.length_append, width, size]; omega)]

/-- The buffer does not show in what Seal returns. -/
theorem sealFresh_eq (plaintext additionalData : List Byte) :
    sealFresh crypto plaintext additionalData a =
      ((sealNext crypto plaintext additionalData a).1.map (counterNonce a.counter, ·),
        (sealNext crypto plaintext additionalData a).2) := by
  have filled := @sealInto_eq _ crypto { a with counter := a.counter + 1 } correct
    (counterNonce a.counter) plaintext additionalData
    (List.replicate (aesNonceSize + plaintext.length + aesTagSize) (lit 0))
    (counterNonce_length _) (by simp)
  by_cases past : a.maxSeq ≤ a.counter
  · simp [sealFresh, sealNext, nextNonce, run_bind, run_reject, past, Except.map]
  · simp [sealFresh, sealNext, nextNonce, run_bind, run_reject, past, Except.map, filled]

theorem perform_left (call : Call Byte) (left : a.counter < a.maxSeq) : perform crypto call a =
      (some (made crypto a a.counter call), { a with counter := a.counter + 1 }) := by
  unfold perform
  cases call.pool with
  | none =>
    rw [sealFresh_eq correct, run_sealNext _ _ left]
    rfl
  | some pool =>
    simp only [sealPooled, nextNoncePooled, run_bind, run_read, run_reject, ge_iff_le,
      if_neg (not_le.mpr left), run_write, run_pure, putCounter_eq]
    rw [sealInto_eq correct (counterNonce_length _) (getCiphertext_room pool _)]
    rfl

/-- The calls take the counter values in turn, as far as there are any. -/
theorem run_eq (calls : List (Call Byte)) :
    run crypto calls a = ((calls.take (a.maxSeq - a.counter)).zipIdx a.counter).map fun entry =>
      (entry.1, made crypto a entry.2 entry.1) := by
  induction calls generalizing a with
  | nil => simp [run]
  | cons call rest ih =>
    by_cases left : a.counter < a.maxSeq
    · have more : a.maxSeq - a.counter = a.maxSeq - (a.counter + 1) + 1 := by omega
      rw [run, perform_left correct call left, ih, more, List.take_succ_cons, List.zipIdx_cons]
      rfl
    · have none : a.maxSeq - a.counter = 0 := by omega
      rw [run, perform_past call (by omega), ih, none]
      rfl

theorem openNext_made_iff (suite : b.suite = a.suite) (key : b.key = a.key) (call : Call Byte)
    (n : Nat) :
    openNext crypto b (made crypto a n call).2 call.additionalData = .ok call.plaintext ↔
      call.plaintext ≠ [] := by
  rw [openNext_ok_iff, suite, key, made, List.take_left' (counterNonce_length _),
    List.drop_left' (counterNonce_length _), correct.opens, and_iff_left rfl, List.length_append,
    counterNonce_length, correct.length, ← List.length_pos_iff]
  unfold minPacketSize
  omega

theorem run_nonces (fits : a.maxSeq < 2 ^ 64) (calls : List (Call Byte)) :
    ((run crypto calls a).map (·.2.1)).Nodup := by
  have counted : (run crypto calls a).map (·.2.1) =
      (List.range' a.counter (calls.take (a.maxSeq - a.counter)).length).map counterNonce := by
    rw [run_eq correct, List.map_map, ← List.zipIdx_map_snd, List.map_map]
    rfl
  have few : (calls.take (a.maxSeq - a.counter)).length ≤ a.maxSeq - a.counter :=
    List.length_take_le _ _
  rw [counted]
  refine List.Nodup.map_on (fun n inside n' inside' same => ?_) List.nodup_range'
  rw [List.mem_range'_1] at inside inside'
  exact counterNonce_inj (by omega) (by omega) same

end Correct

/-- Every ciphertext of a sequence of calls opens to its plaintext and no nonce comes twice,
exactly if no call seals an empty plaintext. -/
theorem sequence_opens_iff (correct : SealCorrect crypto.toPrimitives) (fits : a.maxSeq < 2 ^ 64)
    (suite : b.suite = a.suite) (key : b.key = a.key) (calls : List (Call Byte)) :
    (((run crypto calls a).map (·.2.1)).Nodup ∧ ∀ entry ∈ run crypto calls a,
        openNext crypto b entry.2.2 entry.1.additionalData = .ok entry.1.plaintext) ↔
      ∀ call ∈ calls.take (a.maxSeq - a.counter), call.plaintext ≠ [] := by
  have entries (p : Call Byte → Prop) : (∀ call ∈ calls.take (a.maxSeq - a.counter), p call) ↔
      ∀ entry ∈ (calls.take (a.maxSeq - a.counter)).zipIdx a.counter, p entry.1 := by
    conv_lhs => rw [← List.zipIdx_map_fst a.counter (calls.take (a.maxSeq - a.counter))]
    exact List.forall_mem_map
  rw [and_iff_right (run_nonces correct fits calls), run_eq correct, List.forall_mem_map, entries]
  exact forall₂_congr fun entry _ => openNext_made_iff correct suite key entry.1 entry.2

end Sequences

section Symbolic

def crypto : Crypto Letter := { symbolic with fips := false }

theorem crypto_correct : SealCorrect crypto.toPrimitives :=
  ⟨symbolic_seal.length, symbolic_seal.opens⟩

/-- Pools whose buffers are full of old bytes. -/
def pool : BufferPool Letter where
  nonce := List.replicate _ (lit 7)
  small := List.replicate _ (lit 7)
  medium := List.replicate _ (lit 7)
  large := List.replicate _ (lit 7)
  nonce_size := List.length_replicate
  small_size := List.length_replicate
  medium_size := List.length_replicate
  large_size := List.length_replicate

/-- Seal and SealPooled in turn on a new cipher, and what the peer's cipher reads. -/
theorem sequence_opens_mixed : ∃ a, newAEAD crypto cipherSuiteAES256GCM
      (List.replicate 32 (lit 0)) = .ok a ∧
    let calls : List (Call Letter) := [⟨none, [lit 1], []⟩, ⟨some pool, [lit 2], [lit 3]⟩]
    (run crypto calls a).length = 2 ∧ ((run crypto calls a).map (·.2.1)).Nodup ∧
      ∀ entry ∈ run crypto calls a,
        openNext crypto a entry.2.2 entry.1.additionalData = .ok entry.1.plaintext := by
  exact ⟨_, rfl, by decide +kernel,
    (sequence_opens_iff crypto_correct (by decide) rfl rfl _).mpr (by decide)⟩

/-- What either call makes of an empty plaintext is too short for Open. -/
theorem empty_not_opened : ∃ a, newAEAD crypto cipherSuiteAES256GCM
      (List.replicate 32 (lit 0)) = .ok a ∧
    (run crypto [⟨none, [], []⟩, ⟨some pool, [], []⟩] a).map (fun entry =>
      openNext crypto a entry.2.2 entry.1.additionalData) =
        [.error (.err .ciphertextTooShort), .error (.err .ciphertextTooShort)] :=
  ⟨_, rfl, by decide +kernel⟩

end Symbolic

end QuantumGo.SealPooled
