import QuantumGo.Aead

/-!
pkg/crypto/kdf.go: what each derivation absorbs, and which secrets its output
determines when the extendable-output function is ideal. Every derivation puts
its length-prefixed domain first, so derivations under different domains never
collide.
-/

namespace QuantumGo.KeySchedule

open Octets Effect Symbolic Wire Aead

variable {Byte : Type} [Octet Byte] (crypto : Crypto Byte)

inductive Domain where
  | chkem
  | handshake
  | traffic
  | rekey
  | resumption
  | datagramNonce
  | authentication
  | psk
  | streamNonce
  | serverFinished
  | clientFinished
  deriving DecidableEq, Repr

def Domain.text : Domain → String
  | .chkem => "CH-KEM-v1-SharedSecret"
  | .handshake => "CH-KEM-Tunnel-Handshake"
  | .traffic => "CH-KEM-Tunnel-Traffic"
  | .rekey => "CH-KEM-Tunnel-Rekey"
  | .resumption => "CH-KEM-Tunnel-Resumption"
  | .datagramNonce => "CH-KEM-Tunnel-Datagram-Nonce"
  | .authentication => "CH-KEM-Tunnel-Authentication"
  | .psk => "CH-KEM-Tunnel-PSK"
  | .streamNonce => "CH-KEM-Tunnel-Stream-Nonce"
  | .serverFinished => "CH-KEM-Tunnel-ServerFinished"
  | .clientFinished => "CH-KEM-Tunnel-ClientFinished"

def Domain.octets (domain : Domain) : List UInt8 :=
  domain.text.toList.map fun c => UInt8.ofNat c.toNat

def Domain.bytes (domain : Domain) : List Byte := domain.octets.map lit

def sharedSecretSize : Nat := 32
def x25519SharedSecretSize : Nat := 32
def mlkemSharedSecretSize : Nat := 32
def transcriptHashSize : Nat := 32
def noncePrefixSize : Nat := 4
def maxUint32 : Nat := 2 ^ 32 - 1
def maxOutputLen : Nat := 2 ^ 20

/-- `safeUint32` refuses a length that does not fit its prefix. -/
def deriveKey (domain : Domain) (input : List Byte) (outputLen : Nat) :
    Except Fault (List Byte) :=
  if outputLen = 0 ∨ outputLen > maxOutputLen then .error (.err .invalidKeySize)
  else if input.length > maxUint32 then .error (.err .invalidKeySize)
  else .ok (crypto.xof (prefixed 4 domain.bytes ++ prefixed 4 input) outputLen)

def absorbed (domain : Domain) (inputs : List (List Byte)) : List Byte :=
  prefixed 4 domain.bytes ++ (toBE 4 inputs.length ++ inputs.flatMap (prefixed 4))

def deriveKeyMultiple (domain : Domain) (inputs : List (List Byte))
    (outputLen : Nat) : Except Fault (List Byte) :=
  if outputLen = 0 ∨ outputLen > maxOutputLen then .error (.err .invalidKeySize)
  else if inputs.length > maxUint32 then .error (.err .invalidKeySize)
  else if inputs.any (fun input => decide (input.length > maxUint32)) then
    .error (.err .invalidKeySize)
  else .ok (crypto.xof (absorbed domain inputs) outputLen)

def transcriptHash (components : List (List Byte)) :
    Except Fault (List Byte) :=
  if components.length > maxUint32 then .error (.err .invalidKeySize)
  else if components.any (fun component => decide (component.length > maxUint32)) then
    .error (.err .invalidKeySize)
  else .ok (crypto.digest (toBE 4 components.length ++ components.flatMap (prefixed 4)))

def deriveFromMaster (domain : Domain) (masterSecret : List Byte)
    (outputLen : Nat) : Except Fault (List Byte) :=
  if masterSecret.length ≠ sharedSecretSize then .error (.err .invalidKeySize)
  else deriveKey crypto domain masterSecret outputLen

/-- The initiator's key and the responder's key. The two IVs that the source
derives behind them are used nowhere. -/
def deriveHandshakeKeys (masterSecret : List Byte) :
    Except Fault (List Byte × List Byte) := do
  let keyMaterial ← deriveFromMaster crypto .handshake masterSecret
    (2 * aesKeySize + 2 * aesNonceSize)
  return (slice keyMaterial 0 32, slice keyMaterial 32 64)

def deriveTrafficKeys (masterSecret : List Byte) :
    Except Fault (List Byte × List Byte) := do
  let keyMaterial ← deriveFromMaster crypto .traffic masterSecret (2 * aesKeySize)
  return (slice keyMaterial 0 32, slice keyMaterial 32 64)

def deriveNoncePrefixes (domain : Domain) (crypto : Crypto Byte) (masterSecret : List Byte) :
    Except Fault (List Byte × List Byte) := do
  let material ← deriveFromMaster crypto domain masterSecret (2 * noncePrefixSize)
  return (material.take noncePrefixSize, material.drop noncePrefixSize)

def deriveDatagramNoncePrefixes (masterSecret : List Byte) :=
  deriveNoncePrefixes .datagramNonce crypto masterSecret

def deriveStreamNoncePrefixes (masterSecret : List Byte) :=
  deriveNoncePrefixes .streamNonce crypto masterSecret

/-- Two secrets of the right size folded into one. -/
def foldSecrets (domain : Domain) (crypto : Crypto Byte) (first second : List Byte) :
    Except Fault (List Byte) :=
  if first.length ≠ sharedSecretSize then .error (.err .invalidKeySize)
  else if second.length ≠ sharedSecretSize then .error (.err .invalidKeySize)
  else deriveKeyMultiple crypto domain [first, second] sharedSecretSize

def deriveResumptionSecret (psk freshSecret : List Byte) :=
  foldSecrets .resumption crypto psk freshSecret

def deriveAuthenticatedSecret (ephemeralSecret staticSecret : List Byte) :=
  foldSecrets .authentication crypto ephemeralSecret staticSecret

def derivePSKSecret (masterSecret psk : List Byte) :=
  foldSecrets .psk crypto masterSecret psk

/-- Unlike the other folds this one does not look at its second input's size. -/
def deriveRekeySecret (currentSecret additionalData : List Byte) :
    Except Fault (List Byte) :=
  if currentSecret.length ≠ sharedSecretSize then .error (.err .invalidKeySize)
  else deriveKeyMultiple crypto .rekey [currentSecret, additionalData] sharedSecretSize

def deriveCHKEMSecret (x25519Secret mlkemSecret transcriptHash : List Byte) :
    Except Fault (List Byte) :=
  if x25519Secret.length ≠ x25519SharedSecretSize then .error (.err .invalidKeySize)
  else if mlkemSecret.length ≠ mlkemSharedSecretSize then .error (.err .invalidKeySize)
  else if transcriptHash.length ≠ transcriptHashSize then .error (.err .invalidKeySize)
  else deriveKeyMultiple crypto .chkem [x25519Secret, mlkemSecret, transcriptHash] sharedSecretSize

def verifyData (domain : Domain) (sharedSecret transcript : List Byte) :
    Except Fault (List Byte) :=
  deriveKeyMultiple crypto domain [sharedSecret, transcript] 32

/-! What the outputs determine. -/

variable {domain domain' : Domain}

theorem Domain.octets_injective (same : domain.octets = domain'.octets) : domain = domain' := by
  revert same
  cases domain <;> cases domain' <;> decide

theorem Domain.bytes_injective (same : (domain.bytes : List Byte) = domain'.bytes) :
    domain = domain' := by
  have read := congrArg (List.map val) same
  simp only [Domain.bytes, List.map_map] at read
  exact Domain.octets_injective (by simpa [Function.comp_def] using read)

theorem Domain.bytes_length (domain : Domain) : (domain.bytes : List Byte).length < 256 ^ 4 := by
  have short : domain.octets.length < 256 ^ 4 := by cases domain <;> decide
  simpa [Domain.bytes] using short

variable {crypto : Crypto Byte} {inputs : List (List Byte)} {output : List Byte}

theorem deriveKeyMultiple_ok_iff {outputLen : Nat} :
    deriveKeyMultiple crypto domain inputs outputLen = .ok output ↔
      (0 < outputLen ∧ outputLen ≤ maxOutputLen) ∧ inputs.length ≤ maxUint32 ∧
      (∀ input ∈ inputs, input.length ≤ maxUint32) ∧
      output = crypto.xof (absorbed domain inputs) outputLen := by
  unfold deriveKeyMultiple
  rw [guard_ok_iff, guard_ok_iff, guard_ok_iff]
  simp only [not_or, Nat.not_lt, gt_iff_lt, List.any_eq_true, decide_eq_true_eq, not_exists,
    not_and, Except.ok.injEq, Nat.pos_iff_ne_zero, ne_eq]
  exact ⟨fun ⟨size, count, short, same⟩ => ⟨size, count, short, same.symm⟩,
    fun ⟨size, count, short, same⟩ => ⟨size, count, short, same.symm⟩⟩

theorem transcriptHash_ok_iff {components : List (List Byte)} {hash : List Byte} :
    transcriptHash crypto components = .ok hash ↔
      components.length ≤ maxUint32 ∧ (∀ component ∈ components, component.length ≤ maxUint32) ∧
      hash = crypto.digest (toBE 4 components.length ++ components.flatMap (prefixed 4)) := by
  unfold transcriptHash
  rw [guard_ok_iff, guard_ok_iff]
  simp only [Nat.not_lt, gt_iff_lt, List.any_eq_true, decide_eq_true_eq, not_exists, not_and,
    Except.ok.injEq]
  exact ⟨fun ⟨count, short, same⟩ => ⟨count, short, same.symm⟩,
    fun ⟨count, short, same⟩ => ⟨count, short, same.symm⟩⟩

theorem deriveKey_ok_iff {input : List Byte} {outputLen : Nat} :
    deriveKey crypto domain input outputLen = .ok output ↔
      (0 < outputLen ∧ outputLen ≤ maxOutputLen) ∧ input.length ≤ maxUint32 ∧
      output = crypto.xof (prefixed 4 domain.bytes ++ prefixed 4 input) outputLen := by
  unfold deriveKey
  rw [guard_ok_iff, guard_ok_iff]
  simp only [not_or, Nat.not_lt, gt_iff_lt, Except.ok.injEq, Nat.pos_iff_ne_zero, ne_eq]
  exact ⟨fun ⟨size, short, same⟩ => ⟨size, short, same.symm⟩,
    fun ⟨size, short, same⟩ => ⟨size, short, same.symm⟩⟩

theorem fits_of_le_maxUint32 {size : Nat} (small : size ≤ maxUint32) : size < 256 ^ 4 := by
  unfold maxUint32 at small
  omega

variable {inputs' : List (List Byte)}

theorem absorbed_injective (count : inputs.length ≤ maxUint32) (count' : inputs'.length ≤ maxUint32)
    (short : ∀ input ∈ inputs, input.length ≤ maxUint32)
    (short' : ∀ input ∈ inputs', input.length ≤ maxUint32)
    (same : absorbed domain inputs = absorbed domain' inputs') :
    domain = domain' ∧ inputs = inputs' := by
  obtain ⟨domains, rests⟩ := prefixed_append_inj domain.bytes_length domain'.bytes_length same
  obtain ⟨counts, fields⟩ := List.append_inj rests (by simp)
  refine ⟨Domain.bytes_injective domains, ?_⟩
  exact prefixed_flatMap_inj (fun input member => fits_of_le_maxUint32 (short input member))
    (fun input member => fits_of_le_maxUint32 (short' input member))
    (toBE_injective (fits_of_le_maxUint32 count) (fits_of_le_maxUint32 count') counts) fields

section IdealXof
variable {crypto : Crypto Byte} (ideal : XofIdeal 32 crypto.xof)
include ideal

omit [Octet Byte] in
/-- An output that covers one block, read as that block. -/
theorem xof_injective {left right : List Byte}
    (same : crypto.xof left 32 = crypto.xof right 32) : left = right := by
  have aligned : slice (crypto.xof left 32) 0 (0 + 32) =
      slice (crypto.xof right 32) 0 (0 + 32) := by rw [same]
  exact (ideal.block _ _ _ _ _ _ (by omega) (by omega) aligned).1

/-- A 32-byte derivation determines its domain and all its inputs. -/
theorem deriveKeyMultiple_injective {domain : Domain}
    (derived : deriveKeyMultiple crypto domain inputs 32 = .ok output)
    (derived' : deriveKeyMultiple crypto domain' inputs' 32 = .ok output) :
    domain = domain' ∧ inputs = inputs' := by
  obtain ⟨-, count, short, read⟩ := deriveKeyMultiple_ok_iff.mp derived
  obtain ⟨-, count', short', read'⟩ := deriveKeyMultiple_ok_iff.mp derived'
  have same := xof_injective ideal (read.symm.trans read')
  exact absorbed_injective count count' short short' same

end IdealXof

theorem deriveKeyMultiple_length (sized : XofSized crypto.xof) {size : Nat}
    (derived : deriveKeyMultiple crypto domain inputs size = .ok output) :
    output.length = size := by
  obtain ⟨-, -, -, read⟩ := deriveKeyMultiple_ok_iff.mp derived
  rw [read, sized]

end QuantumGo.KeySchedule
