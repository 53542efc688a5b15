import QuantumGo.Effect
import QuantumGo.Wire

/-!
The KEM suites of pkg/chkem. A suite is the Go interface with its size contract
carried as fields; its randomness is an argument. The registry holds the two
suites this build knows, and a session may be started on any other.
-/

namespace QuantumGo.Kem

open Wire

inductive Role where
  | initiator
  | responder
  deriving DecidableEq, Repr

def Role.peer : Role → Role
  | .initiator => .responder
  | .responder => .initiator

structure PublicKey (Byte : Type) where
  suite : UInt16
  raw : List Byte
  deriving DecidableEq

structure Ciphertext (Byte : Type) where
  suite : UInt16
  raw : List Byte
  deriving DecidableEq

structure KeyPair (Byte : Type) where
  suite : UInt16
  publicRaw : List Byte
  seed : List Byte
  publicRaw_fits : publicRaw.length < 2 ^ 16
  deriving DecidableEq

variable {Byte : Type}

def KeyPair.publicKey (kp : KeyPair Byte) : PublicKey Byte := ⟨kp.suite, kp.publicRaw⟩

structure Suite (Byte : Type) where
  id : UInt16
  publicKeySize : Nat
  ciphertextSize : Nat
  generateKeyPair : List Byte → Except QError (KeyPair Byte)
  encapsulate : PublicKey Byte → Role → List Byte → Except QError (Ciphertext Byte × List Byte)
  decapsulate : Ciphertext Byte → KeyPair Byte → Role → Except QError (List Byte)
  parsePublicKey : List Byte → Except QError (PublicKey Byte)
  parseCiphertext : List Byte → Except QError (Ciphertext Byte)
  publicKeySize_bound : 0 < publicKeySize ∧ publicKeySize < 2 ^ 16
  ciphertextSize_bound : 0 < ciphertextSize ∧ ciphertextSize < 2 ^ 16
  keyPair_size : ∀ coins kp, generateKeyPair coins = .ok kp → kp.publicRaw.length = publicKeySize
  ciphertext_size : ∀ pk role coins ct secret, encapsulate pk role coins = .ok (ct, secret) →
    ct.raw.length = ciphertextSize ∧ secret.length = 32
  decapsulated_size : ∀ ct kp role secret, decapsulate ct kp role = .ok secret → secret.length = 32
  parsed_size : ∀ data ct, parseCiphertext data = .ok ct → data.length = ciphertextSize

def suiteCHKEMv1 : UInt16 := 0x0001
def suiteXWing : UInt16 := 0x0002

structure Registry (Byte : Type) where
  chkemV1 : Suite Byte
  xwing : Suite Byte
  chkemV1_id : chkemV1.id = suiteCHKEMv1
  xwing_id : xwing.id = suiteXWing
  chkemV1_sizes : chkemV1.publicKeySize = 1600 ∧ chkemV1.ciphertextSize = 1600
  xwing_sizes : xwing.publicKeySize = 1216 ∧ xwing.ciphertextSize = 1120

def getSuite (registry : Registry Byte) (id : UInt16) : Option (Suite Byte) :=
  if id = suiteCHKEMv1 then some registry.chkemV1
  else if id = suiteXWing then some registry.xwing
  else none

def defaultSuite (registry : Registry Byte) : Suite Byte := registry.chkemV1

def supportedSuites : List UInt16 := [suiteCHKEMv1, suiteXWing]

theorem getSuite_default (registry : Registry Byte) :
    getSuite registry (defaultSuite registry).id = some (defaultSuite registry) := by
  unfold getSuite defaultSuite
  rw [if_pos registry.chkemV1_id]

theorem getSuite_isSome_iff (registry : Registry Byte) (id : UInt16) :
    (getSuite registry id).isSome ↔ id ∈ supportedSuites := by
  unfold getSuite supportedSuites
  by_cases first : id = suiteCHKEMv1
  · simp [first]
  · by_cases second : id = suiteXWing
    · rw [if_neg first, if_pos second]
      simp [second]
    · simp [first, second]

/-- Registered suites are told apart by their ciphertext size alone. -/
theorem getSuite_eq_of_ciphertextSize {registry : Registry Byte} {id id' : UInt16}
    {suite suite' : Suite Byte} (found : getSuite registry id = some suite)
    (found' : getSuite registry id' = some suite')
    (same : suite.ciphertextSize = suite'.ciphertextSize) : suite = suite' := by
  have sizes := registry.chkemV1_sizes.2
  have sizes' := registry.xwing_sizes.2
  unfold getSuite at found found'
  split at found <;> split at found'
  · exact Option.some.inj (found.symm.trans found')
  · split at found' <;> simp_all
  · split at found <;> simp_all
  · split at found <;> split at found' <;> simp_all

theorem getSuite_sizes {registry : Registry Byte} {id : UInt16} {suite : Suite Byte}
    (found : getSuite registry id = some suite) :
    suite.publicKeySize ≤ 1600 ∧ suite.ciphertextSize ≤ 1600 := by
  have sizes := registry.chkemV1_sizes
  have sizes' := registry.xwing_sizes
  unfold getSuite at found
  split at found
  · cases found
    omega
  · split at found
    · cases found
      omega
    · cases found

structure Correct (suite : Suite Byte) : Prop where
  generates : ∀ coins, ∃ kp, suite.generateKeyPair coins = .ok kp
  parses : ∀ coins kp, suite.generateKeyPair coins = .ok kp →
    suite.parsePublicKey kp.publicRaw = .ok kp.publicKey
  encapsulates : ∀ coins kp, suite.generateKeyPair coins = .ok kp → ∀ role coins', ∃ ct secret,
      suite.encapsulate kp.publicKey role coins' = .ok (ct, secret) ∧
      suite.parseCiphertext ct.raw = .ok ct ∧ suite.decapsulate ct kp role.peer = .ok secret

/-- Implicit rejection: what another key pair makes of a ciphertext is another
secret. -/
def Rejects (suite : Suite Byte) : Prop :=
  ∀ pk role coins ct secret ct' kp other, suite.encapsulate pk role coins = .ok (ct, secret) →
    suite.parseCiphertext ct.raw = .ok ct' → suite.decapsulate ct' kp role.peer = .ok other →
    kp.publicKey ≠ pk → other ≠ secret

end QuantumGo.Kem
