import QuantumGo.Agreement

/-!
An ideal KEM over the symbolic alphabet: a ciphertext names the key it was made
for, and another key pair turns it into an unrelated secret. With the symbolic
hash and cipher it makes a build in which every idealisation holds.
-/

namespace QuantumGo.SymbolicKem

open Octets Symbolic Wire HelloCodec Kem Tunnel Agreement

def secretFor (suite : UInt16) (key coins : List Letter) : List Letter :=
  symbols [5, suite.toNat] [key, coins] 32

def rejected (ciphertext key : List Letter) : List Letter := symbols [6] [ciphertext, key] 32

def decapsulate (ct : Ciphertext Letter) (kp : KeyPair Letter) : List Letter :=
  match ct.raw with
  | .term [4, suite] [key, coins] _ :: _ =>
    if suite = kp.suite.toNat ∧ key = kp.publicRaw then secretFor kp.suite key coins
    else rejected ct.raw kp.publicRaw
  | _ => rejected ct.raw kp.publicRaw

def suite (id : UInt16) (keySize ctSize : Nat) (keyBound : 0 < keySize ∧ keySize < 2 ^ 16)
    (ctBound : 0 < ctSize ∧ ctSize < 2 ^ 16) : Suite Letter where
  id := id
  publicKeySize := keySize
  ciphertextSize := ctSize
  generateKeyPair coins :=
    .ok ⟨id, symbols [3, id.toNat] [coins] keySize, coins, by simpa using keyBound.2⟩
  encapsulate pk _ coins :=
    .ok (⟨id, symbols [4, pk.suite.toNat] [pk.raw, coins] ctSize⟩, secretFor pk.suite pk.raw coins)
  decapsulate ct kp _ := .ok (decapsulate ct kp)
  parsePublicKey data :=
    if data.length = keySize then .ok ⟨id, data⟩ else .error .invalidPublicKey
  parseCiphertext data :=
    if data.length = ctSize then .ok ⟨id, data⟩ else .error .invalidCiphertext
  publicKeySize_bound := keyBound
  ciphertextSize_bound := ctBound
  keyPair_size := by
    rintro coins kp ⟨⟩
    exact symbols_length _ _ _
  ciphertext_size := by
    rintro pk role coins ct secret ⟨⟩
    exact ⟨symbols_length _ _ _, symbols_length _ _ _⟩
  decapsulated_size := by
    rintro ct kp role secret ⟨⟩
    unfold decapsulate
    split
    · split <;> exact symbols_length _ _ _
    · exact symbols_length _ _ _
  parsed_size := by
    intro data ct parsed
    split at parsed
    · assumption
    · cases parsed

section Laws
variable {id : UInt16} {keySize ctSize : Nat} {keyBound : 0 < keySize ∧ keySize < 2 ^ 16}
  {ctBound : 0 < ctSize ∧ ctSize < 2 ^ 16}

theorem decapsulate_symbols {target : UInt16} {key coins : List Letter} {kp : KeyPair Letter}
    (positive : 0 < ctSize) :
    decapsulate ⟨id, symbols [4, target.toNat] [key, coins] ctSize⟩ kp =
      if target.toNat = kp.suite.toNat ∧ key = kp.publicRaw then secretFor kp.suite key coins
      else rejected (symbols [4, target.toNat] [key, coins] ctSize) kp.publicRaw := by
  obtain ⟨rest, shape⟩ : ∃ rest, symbols [4, target.toNat] [key, coins] ctSize =
      .term [4, target.toNat] [key, coins] 0 :: rest := by
    obtain ⟨size, rfl⟩ := Nat.exists_eq_succ_of_ne_zero (Nat.pos_iff_ne_zero.mp positive)
    exact ⟨_, by rw [symbols, List.range_succ_eq_map]; rfl⟩
  simp only [decapsulate, shape]

theorem suite_correct : Correct (suite id keySize ctSize keyBound ctBound) where
  generates coins := ⟨_, rfl⟩
  parses := by
    rintro coins kp ⟨⟩
    exact if_pos (symbols_length _ _ _)
  encapsulates := by
    rintro coins kp ⟨⟩ role coins'
    refine ⟨_, _, rfl, if_pos (symbols_length _ _ _), congrArg Except.ok ?_⟩
    exact (decapsulate_symbols ctBound.1).trans (if_pos ⟨rfl, rfl⟩)

theorem suite_rejects : Rejects (suite id keySize ctSize keyBound ctBound) := by
  rintro pk role coins ct secret ct' kp other ⟨⟩ parsed opened differ
  obtain rfl : ⟨id, symbols [4, pk.suite.toNat] [pk.raw, coins] ctSize⟩ = ct' := by
    simpa [suite] using parsed
  obtain rfl : decapsulate _ kp = other := Except.ok.inj opened
  rw [decapsulate_symbols ctBound.1]
  split
  · rename_i same
    obtain ⟨suites, keys⟩ := same
    refine absurd ?_ differ
    simp only [KeyPair.publicKey, ← keys, ← UInt16.toNat_inj.mp suites]
  · intro equal
    have heads := (symbols_inj (by decide) equal).1
    simp at heads

end Laws

def registry : Registry Letter where
  chkemV1 := suite suiteCHKEMv1 1600 1600 (by decide) (by decide)
  xwing := suite suiteXWing 1216 1120 (by decide) (by decide)
  chkemV1_id := rfl
  xwing_id := rfl
  chkemV1_sizes := ⟨rfl, rfl⟩
  xwing_sizes := ⟨rfl, rfl⟩

def env : Env Letter := { symbolic with fips := false, registry := registry }

theorem env_ideal : IdealEnv env where
  xof := symbolic_xof 32 (by decide)
  digest := symbolic_digest
  aead := symbolic_seal
  hashNeverHello := by
    rintro input hello message read ⟨rest, rfl⟩
    obtain ⟨-, kind, -, -⟩ := decodeClientHello_wellFramed read
    -- The first letter of a hash value is no byte, so it reads as zero.
    have first : slice (env.digest input ++ rest) 0 1 = [.term [1] [input] 0] := rfl
    rw [first] at kind
    exact absurd kind (by simp [ofBE, messageTypeClientHello, val, Letter.value])

theorem env_correct (id : UInt16) (found : Suite Letter)
    (registered : getSuite env.registry id = some found) : Correct found ∧ Rejects found := by
  unfold getSuite at registered
  split at registered
  · cases registered
    exact ⟨suite_correct, suite_rejects⟩
  · split at registered
    · cases registered
      exact ⟨suite_correct, suite_rejects⟩
    · cases registered

/-! Sessions of this build. -/

def secretOf (value : UInt8) : List Letter := List.replicate 32 (lit value)

def IsNew (role : Role) (s : Session Letter) : Prop :=
  newSession registry.chkemV1 role [] [] = .ok s

def IsStream (role : Role) (s : Session Letter) : Prop := ∃ new, IsNew role new ∧
  initializeKeys env.toCrypto 0 (secretOf 0) cipherSuiteAES256GCM new = (.ok (), s)

def IsDatagram (role : Role) (s : Session Letter) : Prop := ∃ new, IsNew role new ∧
  initializeDatagramKeys env.toCrypto 0 (secretOf 0) cipherSuiteAES256GCM new = (.ok (), s)

end QuantumGo.SymbolicKem
