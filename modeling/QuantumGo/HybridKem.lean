import QuantumGo.SymbolicKem

/-!
pkg/chkem/chkem.go: the cascade of X25519 and ML-KEM-1024. The two parts are parameters with
the correctness of their specifications; their randomness is an argument, and a public key is
its encoding. The encapsulator builds the transcript from the ephemeral key it made, the
decapsulator from what it parsed and from its own public key.
-/

namespace QuantumGo.HybridKem

open Octets Effect Symbolic Wire Aead KeySchedule
open Kem (Role)

variable {Byte : Type} [Octet Byte]

def x25519PublicKeySize : Nat := 32
def mlkemPublicKeySize : Nat := 1568
def mlkemCiphertextSize : Nat := 1568
def chkemPublicKeySize : Nat := x25519PublicKeySize + mlkemPublicKeySize
def chkemCiphertextSize : Nat := x25519PublicKeySize + mlkemCiphertextSize
def protocolVersion : Nat := 0x0002

/-- `publicOf` and `exchange` are X25519, which fails on a point of low order. `generate` makes
the encapsulation and the decapsulation key from a seed, and `unpacks` says which encodings of
an encapsulation key are accepted. -/
structure Parts (Byte : Type) where
  publicOf : List Byte → List Byte
  exchange : List Byte → List Byte → Except Fault (List Byte)
  generate : List Byte → List Byte × List Byte
  unpacks : List Byte → Bool
  encapsulateTo : List Byte → List Byte → List Byte × List Byte
  decapsulateTo : List Byte → List Byte → List Byte

structure Parts.Correct (parts : Parts Byte) : Prop where
  publicOf_length : ∀ key, (parts.publicOf key).length = x25519PublicKeySize
  exchanges : ∀ key key', ∃ secret, parts.exchange key (parts.publicOf key') = .ok secret ∧
    parts.exchange key' (parts.publicOf key) = .ok secret ∧ secret.length = 32
  unpacks : ∀ seed, (parts.generate seed).1.length = mlkemPublicKeySize ∧
    parts.unpacks (parts.generate seed).1 = true
  sizes : ∀ key coins, (parts.encapsulateTo key coins).1.length = mlkemCiphertextSize ∧
    (parts.encapsulateTo key coins).2.length = 32
  opens : ∀ seed coins, parts.decapsulateTo (parts.generate seed).2
    (parts.encapsulateTo (parts.generate seed).1 coins).1 =
      (parts.encapsulateTo (parts.generate seed).1 coins).2

@[ext] structure PublicKey (Byte : Type) where
  x25519 : List Byte
  mlkem : List Byte
  deriving DecidableEq

@[ext] structure Ciphertext (Byte : Type) where
  x25519Ephemeral : List Byte
  mlkemCiphertext : List Byte
  deriving DecidableEq

structure KeyPair (Byte : Type) where
  x25519Public : List Byte
  x25519Private : List Byte
  mlkemPublic : List Byte
  mlkemPrivate : List Byte
  deriving DecidableEq

def KeyPair.publicKey (kp : KeyPair Byte) : PublicKey Byte := ⟨kp.x25519Public, kp.mlkemPublic⟩

def generateKeyPair (parts : Parts Byte) (x25519Key mlkemSeed : List Byte) : KeyPair Byte :=
  ⟨parts.publicOf x25519Key, x25519Key, (parts.generate mlkemSeed).1, (parts.generate mlkemSeed).2⟩

/-- A copy into a fresh slice of this size. -/
def copied (size : Nat) (data : List Byte) : List Byte :=
  data.take size ++ List.replicate (size - data.length) (lit 0)

def PublicKey.bytes (pk : PublicKey Byte) : List Byte :=
  copied x25519PublicKeySize pk.x25519 ++ copied mlkemPublicKeySize pk.mlkem

def Ciphertext.bytes (ct : Ciphertext Byte) : List Byte :=
  copied x25519PublicKeySize ct.x25519Ephemeral ++ copied mlkemCiphertextSize ct.mlkemCiphertext

def parseX25519PublicKey (data : List Byte) : Except Fault (List Byte) :=
  if data.length ≠ x25519PublicKeySize then .error (.err .invalidPublicKey) else .ok data

def parseMLKEMPublicKey (parts : Parts Byte) (data : List Byte) : Except Fault (List Byte) :=
  if data.length ≠ mlkemPublicKeySize ∨ parts.unpacks data = false then
    .error (.err .invalidPublicKey)
  else .ok data

def parsePublicKey (parts : Parts Byte) (data : List Byte) : Except Fault (PublicKey Byte) :=
  if data.length ≠ chkemPublicKeySize then .error (.err .invalidPublicKey)
  else do
    let x25519 ← parseX25519PublicKey (data.take x25519PublicKeySize)
    let mlkem ← parseMLKEMPublicKey parts (data.drop x25519PublicKeySize)
    return ⟨x25519, mlkem⟩

def parseCiphertext (data : List Byte) : Except Fault (Ciphertext Byte) :=
  if data.length ≠ chkemCiphertextSize then .error (.err .invalidCiphertext)
  else .ok ⟨data.take x25519PublicKeySize, data.drop x25519PublicKeySize⟩

def mlkemDecapsulate (parts : Parts Byte) (key ciphertext : List Byte) :
    Except Fault (List Byte) :=
  if ciphertext.length ≠ mlkemCiphertextSize then .error (.err .invalidCiphertext)
  else .ok (parts.decapsulateTo key ciphertext)

def roleByte : Role → UInt8
  | .initiator => 0x01
  | .responder => 0x02

def components (pk : PublicKey Byte) (ct : Ciphertext Byte) (role : Role) : List (List Byte) :=
  [pk.x25519, pk.mlkem, ct.x25519Ephemeral, ct.mlkemCiphertext, toBE 2 protocolVersion,
    [lit (roleByte role)]]

/-- The last steps of both directions; `role` is that of the encapsulating party. -/
def combine (crypto : Crypto Byte) (pk : PublicKey Byte) (ct : Ciphertext Byte) (role : Role)
    (x25519Secret mlkemSecret : List Byte) : Except Fault (List Byte) := do
  let transcript ← transcriptHash crypto (components pk ct role)
  deriveCHKEMSecret crypto x25519Secret mlkemSecret transcript

def encapsulate (parts : Parts Byte) (crypto : Crypto Byte) (recipientPublic : PublicKey Byte)
    (role : Role) (ephemeral seed : List Byte) : Except Fault (Ciphertext Byte × List Byte) := do
  let x25519Secret ← parts.exchange ephemeral recipientPublic.x25519
  let (mlkemCiphertext, mlkemSecret) := parts.encapsulateTo recipientPublic.mlkem seed
  let ct := ⟨parts.publicOf ephemeral, mlkemCiphertext⟩
  let sharedSecret ← combine crypto recipientPublic ct role x25519Secret mlkemSecret
  return (ct, sharedSecret)

def decapsulate (parts : Parts Byte) (crypto : Crypto Byte) (ct : Ciphertext Byte)
    (kp : KeyPair Byte) (role : Role) : Except Fault (List Byte) :=
  if ct.x25519Ephemeral.length = 0 ∨ ct.mlkemCiphertext.length = 0 then
    .error (.err .invalidCiphertext)
  else do
    let ephemeralPublic ← parseX25519PublicKey ct.x25519Ephemeral
    let x25519Secret ← parts.exchange kp.x25519Private ephemeralPublic
    let mlkemSecret ← mlkemDecapsulate parts kp.mlkemPrivate ct.mlkemCiphertext
    combine crypto kp.publicKey ct role.peer x25519Secret mlkemSecret

/-- A run in either direction: for which recipient, with which ciphertext and which role of the
encapsulating party a secret came out. -/
inductive Run (parts : Parts Byte) (crypto : Crypto Byte) :
    PublicKey Byte → Ciphertext Byte → Role → List Byte → Prop
  | encapsulates (pk role ephemeral seed ct secret)
      (done : encapsulate parts crypto pk role ephemeral seed = .ok (ct, secret)) :
      Run parts crypto pk ct role secret
  | decapsulates (ct kp role secret) (done : decapsulate parts crypto ct kp role = .ok secret) :
      Run parts crypto kp.publicKey ct role.peer secret

section Encodings
variable {parts : Parts Byte}

theorem copied_exact {size : Nat} {data : List Byte} (fits : data.length = size) :
    copied size data = data := by
  simp [copied, ← fits]

theorem parsePublicKey_bytes (correct : parts.Correct) (x25519Key mlkemSeed : List Byte) :
    let pk := (generateKeyPair parts x25519Key mlkemSeed).publicKey
    parsePublicKey parts pk.bytes = .ok pk := by
  have width := correct.publicOf_length x25519Key
  obtain ⟨length, unpacks⟩ := correct.unpacks mlkemSeed
  simp only [KeyPair.publicKey, generateKeyPair, PublicKey.bytes, copied_exact width,
    copied_exact length, parsePublicKey, List.length_append, width, length, chkemPublicKeySize,
    List.take_left' width, List.drop_left' width, parseX25519PublicKey,
    parseMLKEMPublicKey, unpacks]
  rfl

theorem parseCiphertext_bytes {ct : Ciphertext Byte}
    (width : ct.x25519Ephemeral.length = x25519PublicKeySize)
    (length : ct.mlkemCiphertext.length = mlkemCiphertextSize) :
    parseCiphertext ct.bytes = .ok ct := by
  simp only [Ciphertext.bytes, copied_exact width, copied_exact length, parseCiphertext,
    List.length_append, width, length, chkemCiphertextSize, List.take_left' width,
    List.drop_left' width]
  rfl

end Encodings

section Combination
variable {parts : Parts Byte} {crypto : Crypto Byte} {pk pk' : PublicKey Byte}
  {ct ct' : Ciphertext Byte} {role role' : Role} {secret x25519Secret mlkemSecret : List Byte}

theorem combine_ok_iff : combine crypto pk ct role x25519Secret mlkemSecret = .ok secret ↔
    ∃ transcript, transcriptHash crypto (components pk ct role) = .ok transcript ∧
      x25519Secret.length = x25519SharedSecretSize ∧ mlkemSecret.length = mlkemSharedSecretSize ∧
      transcript.length = transcriptHashSize ∧ deriveKeyMultiple crypto .chkem
        [x25519Secret, mlkemSecret, transcript] sharedSecretSize = .ok secret := by
  unfold combine deriveCHKEMSecret
  simp only [except_bind_ok_iff, guard_ok_iff, not_not]

/-- The secret determines everything that went into the transcript. -/
theorem combine_injective (digest : DigestIdeal 32 crypto.digest) (xof : XofIdeal 32 crypto.xof)
    {x25519Secret' mlkemSecret' : List Byte}
    (made : combine crypto pk ct role x25519Secret mlkemSecret = .ok secret)
    (made' : combine crypto pk' ct' role' x25519Secret' mlkemSecret' = .ok secret) :
    pk = pk' ∧ ct = ct' ∧ role = role' := by
  obtain ⟨transcript, hashed, -, -, -, derived⟩ := combine_ok_iff.mp made
  obtain ⟨transcript', hashed', -, -, -, derived'⟩ := combine_ok_iff.mp made'
  obtain ⟨-, inputs⟩ := deriveKeyMultiple_injective xof derived derived'
  obtain ⟨-, short, hash⟩ := transcriptHash_ok_iff.mp hashed
  obtain ⟨-, short', hash'⟩ := transcriptHash_ok_iff.mp hashed'
  obtain ⟨-, -, rfl⟩ : _ ∧ _ ∧ transcript = transcript' := by simpa using inputs
  have absorbed := digest.injective (hash.symm.trans hash')
  have fields := (List.append_inj absorbed (by simp)).2
  have same : components pk ct role = components pk' ct' role' :=
    prefixed_flatMap_inj (fun field member => fits_of_le_maxUint32 (short field member))
      (fun field member => fits_of_le_maxUint32 (short' field member)) rfl fields
  obtain ⟨x25519, mlkem, ephemeral, ciphertext, roles⟩ : pk.x25519 = pk'.x25519 ∧
      pk.mlkem = pk'.mlkem ∧ ct.x25519Ephemeral = ct'.x25519Ephemeral ∧
      ct.mlkemCiphertext = ct'.mlkemCiphertext ∧
      (lit (roleByte role) : Byte) = lit (roleByte role') := by
    simpa [components] using same
  have bytes : roleByte role = roleByte role' := by simpa using congrArg val roles
  refine ⟨PublicKey.ext x25519 mlkem, Ciphertext.ext ephemeral ciphertext, ?_⟩
  revert bytes
  cases role <;> cases role' <;> decide

theorem combine_total (digest : DigestIdeal 32 crypto.digest)
    (short : ∀ component ∈ components pk ct role, component.length ≤ maxUint32)
    (x25519Size : x25519Secret.length = 32) (mlkemSize : mlkemSecret.length = 32) :
    ∃ secret, combine crypto pk ct role x25519Secret mlkemSecret = .ok secret := by
  have count : (components pk ct role).length ≤ maxUint32 := (by decide : 6 ≤ maxUint32)
  refine ⟨_, combine_ok_iff.mpr ⟨_, transcriptHash_ok_iff.mpr ⟨count, short, rfl⟩, x25519Size,
    mlkemSize, digest.length _,
    deriveKeyMultiple_ok_iff.mpr ⟨by decide, (by decide : 3 ≤ maxUint32), ?_, rfl⟩⟩⟩
  simp [x25519Size, mlkemSize, digest.length, maxUint32]

theorem Run.combined (run : Run parts crypto pk ct role secret) :
    ∃ x25519Secret mlkemSecret, combine crypto pk ct role x25519Secret mlkemSecret =
      .ok secret := by
  cases run with
  | encapsulates _ _ ephemeral seed _ _ done =>
    obtain ⟨x25519Secret, -, rest⟩ := except_bind_ok_iff.mp done
    obtain ⟨_, combined, returned⟩ := except_bind_ok_iff.mp rest
    cases returned
    exact ⟨x25519Secret, _, combined⟩
  | decapsulates _ kp _ _ done =>
    obtain ⟨-, done⟩ := guard_ok_iff.mp done
    obtain ⟨_, -, done⟩ := except_bind_ok_iff.mp done
    obtain ⟨x25519Secret, -, done⟩ := except_bind_ok_iff.mp done
    obtain ⟨mlkemSecret, -, combined⟩ := except_bind_ok_iff.mp done
    exact ⟨x25519Secret, mlkemSecret, combined⟩

end Combination

/-- Whoever has the key pair gets the encapsulator's secret under the peer role, and key and
ciphertext are what their encodings parse to. The secrets of two runs for different recipients,
ciphertexts or roles are different. -/
theorem hybrid_agrees_and_binds (parts : Parts Byte) (crypto : Crypto Byte)
    (correct : parts.Correct) (digest : DigestIdeal 32 crypto.digest)
    (xof : XofIdeal 32 crypto.xof) :
    (∀ x25519Key mlkemSeed role ephemeral seed,
      let kp := generateKeyPair parts x25519Key mlkemSeed
      parsePublicKey parts kp.publicKey.bytes = .ok kp.publicKey ∧
      ∃ ct secret, encapsulate parts crypto kp.publicKey role ephemeral seed = .ok (ct, secret) ∧
        parseCiphertext ct.bytes = .ok ct ∧ decapsulate parts crypto ct kp role.peer = .ok secret) ∧
    ∀ pk pk' ct ct' role role' secret secret', Run parts crypto pk ct role secret →
      Run parts crypto pk' ct' role' secret' →
      pk ≠ pk' ∨ ct ≠ ct' ∨ role ≠ role' → secret ≠ secret' := by
  refine ⟨fun x25519Key mlkemSeed role ephemeral seed => ?_, ?_⟩
  · intro kp
    refine ⟨parsePublicKey_bytes correct x25519Key mlkemSeed, ?_⟩
    obtain ⟨x25519Secret, sent, received, x25519Size⟩ := correct.exchanges ephemeral x25519Key
    let ct : Ciphertext Byte :=
      ⟨parts.publicOf ephemeral, (parts.encapsulateTo kp.mlkemPublic seed).1⟩
    have width : ct.x25519Ephemeral.length = x25519PublicKeySize :=
      correct.publicOf_length ephemeral
    have length : ct.mlkemCiphertext.length = mlkemCiphertextSize := (correct.sizes _ seed).1
    have short : ∀ component ∈ components kp.publicKey ct role, component.length ≤ maxUint32 := by
      have own : kp.publicKey.x25519.length = x25519PublicKeySize :=
        correct.publicOf_length x25519Key
      have key : kp.publicKey.mlkem.length = mlkemPublicKeySize := (correct.unpacks mlkemSeed).1
      simp [components, own, key, width, length, x25519PublicKeySize, mlkemPublicKeySize,
        mlkemCiphertextSize, maxUint32]
    obtain ⟨secret, combined⟩ := combine_total digest short x25519Size (correct.sizes _ seed).2
    refine ⟨ct, secret, ?_, parseCiphertext_bytes width length, ?_⟩
    · exact except_bind_ok_iff.mpr ⟨x25519Secret, sent,
        except_bind_ok_iff.mpr ⟨secret, combined, rfl⟩⟩
    · -- The decapsulator gets the same two secrets and hashes its own public key.
      have opened : mlkemDecapsulate parts kp.mlkemPrivate ct.mlkemCiphertext = .ok _ :=
        (if_neg (not_not.mpr length)).trans (congrArg Except.ok (correct.opens mlkemSeed seed))
      have own : role.peer.peer = role := by cases role <;> rfl
      refine guard_ok_iff.mpr ⟨?_, except_bind_ok_iff.mpr ⟨_, if_neg (not_not.mpr width),
        except_bind_ok_iff.mpr ⟨_, received, except_bind_ok_iff.mpr ⟨_, opened, ?_⟩⟩⟩⟩
      · rw [width, length]
        decide
      · rw [own]
        exact combined
  · rintro pk pk' ct ct' role role' secret _ run run' differ rfl
    obtain ⟨_, _, combined⟩ := run.combined
    obtain ⟨_, _, combined'⟩ := run'.combined
    obtain ⟨rfl, rfl, rfl⟩ := combine_injective digest xof combined combined'
    simp at differ

/-- Parts over the symbolic alphabet. The exponents of the exchange are lengths. -/
def symbolicParts : Parts Letter where
  publicOf key := List.replicate 32 (.term [key.length] [] 0)
  exchange key peer := .ok (peer.map fun
    | .term [base] _ _ => .term [key.length * base] [] 0
    | letter => letter)
  generate seed := (List.replicate 1568 (.term [] [seed] 0), seed)
  unpacks _ := true
  encapsulateTo key coins :=
    (List.replicate 1568 (.term [0] [key, coins] 0), List.replicate 32 (.term [1] [key, coins] 0))
  decapsulateTo _ ciphertext := (ciphertext.take 32).map fun
    | .term _ args _ => .term [1] args 0
    | letter => letter

theorem symbolicParts_correct : symbolicParts.Correct where
  publicOf_length _ := List.length_replicate
  exchanges key key' := by
    refine ⟨List.replicate 32 (.term [key.length * key'.length] [] 0), ?_, ?_,
      List.length_replicate⟩
    · simp only [symbolicParts, List.map_replicate]
    · simp only [symbolicParts, List.map_replicate, Nat.mul_comm]
  unpacks _ := ⟨List.length_replicate, rfl⟩
  sizes _ _ := ⟨List.length_replicate, List.length_replicate⟩
  opens _ _ := by simp only [symbolicParts, List.take_replicate, List.map_replicate]; rfl

open SymbolicKem (env env_ideal secretOf)

/-- One recipient and one ciphertext under the two roles. -/
theorem hybrid_agrees_symbolic : ∃ (kp : KeyPair Letter) (ct ct' : Ciphertext Letter)
    (secret secret' : List Letter),
    kp = generateKeyPair symbolicParts (secretOf 1) (secretOf 2 ++ secretOf 3) ∧
    encapsulate symbolicParts env.toCrypto kp.publicKey .responder (secretOf 4) (secretOf 5) =
      .ok (ct, secret) ∧ decapsulate symbolicParts env.toCrypto ct kp .initiator = .ok secret ∧
    encapsulate symbolicParts env.toCrypto kp.publicKey .initiator (secretOf 4) (secretOf 5) =
      .ok (ct', secret') ∧ secret ≠ secret' := by
  obtain ⟨agrees, binds⟩ := hybrid_agrees_and_binds symbolicParts env.toCrypto symbolicParts_correct
    env_ideal.digest env_ideal.xof
  obtain ⟨-, ct, secret, made, -, opened⟩ :=
    agrees (secretOf 1) (secretOf 2 ++ secretOf 3) .responder (secretOf 4) (secretOf 5)
  obtain ⟨-, ct', secret', made', -⟩ :=
    agrees (secretOf 1) (secretOf 2 ++ secretOf 3) .initiator (secretOf 4) (secretOf 5)
  refine ⟨_, ct, ct', secret, secret', rfl, made, opened, made', ?_⟩
  exact binds _ _ _ _ _ _ _ _ (.encapsulates _ _ _ _ _ _ made) (.encapsulates _ _ _ _ _ _ made')
    (.inr (.inr (by decide)))

end QuantumGo.HybridKem
