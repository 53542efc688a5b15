import QuantumGo.Effect
import QuantumGo.Symbolic
import QuantumGo.Wire

/-!
pkg/crypto/aead.go: a cipher with its own nonce counter. A new cipher starts at
counter zero, so a nonce is fresh only among the messages of one cipher object.
-/

namespace QuantumGo.Aead

open Octets Effect Symbolic Wire

structure Crypto (Byte : Type) extends Primitives Byte where
  fips : Bool

variable {Byte : Type} [Octet Byte]

def aesKeySize : Nat := 32
def aesNonceSize : Nat := 12
def aesTagSize : Nat := 16
def minPacketSize : Nat := aesNonceSize + aesTagSize + 1

abbrev AeadIdeal (crypto : Crypto Byte) : Prop := SealIdeal aesTagSize crypto.toPrimitives
def maxPacketsBeforeRekey : Nat := 2 ^ 28

structure Cipher (Byte : Type) where
  suite : UInt16
  key : List Byte
  counter : Nat
  maxSeq : Nat
  deriving DecidableEq

def newAEAD (crypto : Crypto Byte) (suite : UInt16) (key : List Byte) :
    Except Fault (Cipher Byte) :=
  if crypto.fips && !isFIPSApproved suite then .error (.err .cipherSuiteNotFIPSApproved)
  else if key.length ≠ aesKeySize then .error (.err .invalidKeySize)
  else if isSupported suite then .ok ⟨suite, key, 0, maxPacketsBeforeRekey⟩
  else .error (.err .unsupportedCipherSuite)

def counterNonce (counter : Nat) : List Byte :=
  List.replicate 4 (lit 0) ++ toBE 8 counter

def nextNonce : Prog (Cipher Byte) Fault (List Byte) := do
  let a ← read
  reject (a.counter ≥ a.maxSeq) (.err .nonceExhausted)
  write fun a => { a with counter := a.counter + 1 }
  return counterNonce a.counter

def sealNext (crypto : Crypto Byte) (plaintext additionalData : List Byte) :
    Prog (Cipher Byte) Fault (List Byte) := do
  let nonce ← nextNonce
  let a ← read
  return nonce ++ crypto.sealText a.suite a.key nonce plaintext additionalData

def sealWithNonce (crypto : Crypto Byte) (a : Cipher Byte)
    (nonce plaintext additionalData : List Byte) : Except Fault (List Byte) :=
  if nonce.length ≠ aesNonceSize then .error (.err .invalidNonce)
  else .ok (crypto.sealText a.suite a.key nonce plaintext additionalData)

def openNext (crypto : Crypto Byte) (a : Cipher Byte) (ciphertext additionalData : List Byte) :
    Except Fault (List Byte) :=
  if ciphertext.length < minPacketSize then .error (.err .ciphertextTooShort)
  else
    match crypto.openText a.suite a.key (ciphertext.take aesNonceSize)
      (ciphertext.drop aesNonceSize) additionalData with
    | some plaintext => .ok plaintext
    | none => .error (.err .authenticationFailed)

def openWithNonce (crypto : Crypto Byte) (a : Cipher Byte)
    (nonce ciphertext additionalData : List Byte) : Except Fault (List Byte) :=
  if nonce.length ≠ aesNonceSize then .error (.err .invalidNonce)
  else if ciphertext.length < aesTagSize then .error (.err .ciphertextTooShort)
  else
    match crypto.openText a.suite a.key nonce ciphertext additionalData with
    | some plaintext => .ok plaintext
    | none => .error (.err .authenticationFailed)

@[simp] theorem counterNonce_length (counter : Nat) :
    (counterNonce counter : List Byte).length = aesNonceSize := by
  simp [counterNonce, aesNonceSize]

variable {crypto : Crypto Byte}

omit [Octet Byte] in
theorem newAEAD_ok_iff {suite : UInt16} {key : List Byte} {cipher : Cipher Byte} :
    newAEAD crypto suite key = .ok cipher ↔
      (crypto.fips = true → isFIPSApproved suite = true) ∧ key.length = aesKeySize ∧
      isSupported suite = true ∧ cipher = ⟨suite, key, 0, maxPacketsBeforeRekey⟩ := by
  unfold newAEAD
  by_cases approved : crypto.fips && !isFIPSApproved suite
  · have refused : ¬ (crypto.fips = true → isFIPSApproved suite = true) := by
      simpa using approved
    simp [approved, refused]
  · have allowed : crypto.fips = true → isFIPSApproved suite = true := by
      simpa using approved
    by_cases size : key.length = aesKeySize
    · by_cases known : isSupported suite
      · simp only [approved, size, known, Bool.false_eq_true, if_false, if_true, ne_eq,
          not_true_eq_false, Except.ok.injEq, true_and]
        exact ⟨fun same => ⟨allowed, same.symm⟩, fun same => same.2.symm⟩
      · simp [approved, size, known]
    · simp [approved, size]

theorem run_sealNext {a : Cipher Byte} (plaintext additionalData : List Byte)
    (left : a.counter < a.maxSeq) :
    sealNext crypto plaintext additionalData a = (.ok (counterNonce a.counter ++
          crypto.sealText a.suite a.key (counterNonce a.counter) plaintext additionalData),
        { a with counter := a.counter + 1 }) := by
  have passed : ¬ a.maxSeq ≤ a.counter := by omega
  simp [sealNext, nextNonce, run_bind, run_reject, passed]

omit [Octet Byte] in
theorem openNext_ok_iff {a : Cipher Byte} {ciphertext additionalData plaintext : List Byte} :
    openNext crypto a ciphertext additionalData = .ok plaintext ↔
      minPacketSize ≤ ciphertext.length ∧
      crypto.openText a.suite a.key (ciphertext.take aesNonceSize)
        (ciphertext.drop aesNonceSize) additionalData = some plaintext := by
  unfold openNext
  rw [guard_ok_iff, Nat.not_lt]
  cases crypto.openText a.suite a.key (ciphertext.take aesNonceSize)
    (ciphertext.drop aesNonceSize) additionalData <;> simp

theorem sealNext_ok_iff {a a' : Cipher Byte} {plaintext additionalData ciphertext : List Byte} :
    sealNext crypto plaintext additionalData a = (.ok ciphertext, a') ↔ a.counter < a.maxSeq ∧
      ciphertext = counterNonce a.counter ++
        crypto.sealText a.suite a.key (counterNonce a.counter) plaintext additionalData ∧
      a' = { a with counter := a.counter + 1 } := by
  by_cases left : a.counter < a.maxSeq
  · rw [run_sealNext plaintext additionalData left]
    simp only [Prod.mk.injEq, Except.ok.injEq, left, true_and]
    exact ⟨fun ⟨text, moved⟩ => ⟨text.symm, moved.symm⟩,
      fun ⟨text, moved⟩ => ⟨text.symm, moved.symm⟩⟩
  · have past : a.maxSeq ≤ a.counter := by omega
    simp [sealNext, nextNonce, run_bind, run_reject, past, left]

end QuantumGo.Aead
