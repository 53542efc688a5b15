import QuantumGo.DatagramSession
import QuantumGo.RecordTypes

/-!
What the methods of a keyed datagram session do: one equation or inversion for each, in
terms of the master secret and the epoch the session is at.
-/

namespace QuantumGo.DatagramSpecs

open Octets Effect Symbolic Wire Aead KeySchedule Kem Tunnel Records RecordTypes DatagramSession
open FlightSpecs (liftErr_bind_ok_iff run_liftErr_bind)

variable {Byte : Type} [Octet Byte] {crypto : Crypto Byte}

def trafficKey (crypto : Crypto Byte) (role : Role) (secret : List Byte) : List Byte :=
  let material := crypto.xof (prefixed 4 Domain.traffic.bytes ++ prefixed 4 secret) 64
  match role with
  | .initiator => slice material 0 32
  | .responder => slice material 32 64

def cipherOf (suite : UInt16) (key : List Byte) : Cipher Byte :=
  ⟨suite, key, 0, maxPacketsBeforeRekey⟩

def Usable (crypto : Crypto Byte) (suite : UInt16) : Prop :=
  isSupported suite = true ∧ (crypto.fips = true → isFIPSApproved suite = true)

theorem trafficKey_length (sized : XofSized crypto.xof) (role : Role) (secret : List Byte) :
    (trafficKey crypto role secret).length = aesKeySize := by
  cases role <;> simp [trafficKey, slice, sized _ _, aesKeySize]

variable {secret : List Byte}

/-- A traffic key names its direction and its secret. -/
theorem trafficKey_injective (ideal : XofIdeal 32 crypto.xof) {role role' : Role}
    {secret' : List Byte} (size : secret.length = sharedSecretSize)
    (size' : secret'.length = sharedSecretSize)
    (same : trafficKey crypto role secret = trafficKey crypto role' secret') :
    role = role' ∧ secret = secret' := by
  -- Either half of the material determines the input and which half it is.
  have half {place place' : Nat} (inside : place + 32 ≤ 64) (inside' : place' + 32 ≤ 64)
      (halves : slice (crypto.xof (prefixed 4 Domain.traffic.bytes ++ prefixed 4 secret) 64) place
          (place + 32) =
        slice (crypto.xof (prefixed 4 Domain.traffic.bytes ++ prefixed 4 secret') 64) place'
          (place' + 32)) : secret = secret' ∧ place = place' := by
    obtain ⟨inputs, places⟩ := ideal.block _ _ 64 64 place place' inside inside' halves
    have small : secret.length < 256 ^ 4 := by rw [size]; decide
    have small' : secret'.length < 256 ^ 4 := by rw [size']; decide
    have tails := List.append_cancel_left inputs
    have ended : prefixed 4 secret ++ [] = prefixed 4 secret' ++ [] := by simpa using tails
    exact ⟨(prefixed_append_inj small small' ended).1, places⟩
  cases role <;> cases role'
  · exact ⟨rfl, (half (by decide) (by decide) same).1⟩
  · exact absurd (half (by decide) (by decide) same).2 (by decide)
  · exact absurd (half (by decide) (by decide) same).2 (by decide)
  · exact ⟨rfl, (half (by decide) (by decide) same).1⟩

theorem deriveDatagramCiphers_ok_iff (sized : XofSized crypto.xof) {role : Role} {suite : UInt16}
    {ciphers : Cipher Byte × Cipher Byte} :
    deriveDatagramCiphers crypto role secret suite = .ok ciphers ↔
      secret.length = sharedSecretSize ∧ Usable crypto suite ∧
      ciphers = (cipherOf suite (trafficKey crypto role secret),
        cipherOf suite (trafficKey crypto role.peer secret)) := by
  simp only [deriveDatagramCiphers, except_bind_ok_iff, except_pure_ok_iff, newAEAD_ok_iff]
  constructor
  · rintro ⟨_, derived, _, ⟨approved, -, supported, rfl⟩, _, ⟨-, -, -, rfl⟩, rfl⟩
    obtain ⟨size, -, rfl⟩ := deriveTrafficKeys_ok_iff.mp derived
    exact ⟨size, ⟨supported, approved⟩, by cases role <;> rfl⟩
  · rintro ⟨size, ⟨supported, approved⟩, rfl⟩
    refine ⟨_, deriveTrafficKeys_ok_iff.mpr ⟨size, by rw [size]; decide, rfl⟩, ?_⟩
    have first := trafficKey_length sized .initiator secret
    have second := trafficKey_length sized .responder secret
    cases role with
    | initiator =>
      exact ⟨_, ⟨approved, first, supported, rfl⟩, _, ⟨approved, second, supported, rfl⟩, rfl⟩
    | responder =>
      exact ⟨_, ⟨approved, second, supported, rfl⟩, _, ⟨approved, first, supported, rfl⟩, rfl⟩

/-! A session at an epoch. -/

structure Keyed (crypto : Crypto Byte) (suite : UInt16) (s : Session Byte) (secret : List Byte)
    (epoch : UInt8) (prev : Option (DatagramEpoch Byte)) : Prop where
  masterSecret : s.masterSecret = some secret
  size : secret.length = sharedSecretSize
  cipherSuite : s.cipherSuite = suite
  usable : Usable crypto suite
  epochs : ∃ startSeq startedAt, s.dgramEpochs = some ⟨⟨epoch,
    cipherOf suite (trafficKey crypto s.role secret),
    cipherOf suite (trafficKey crypto s.role.peer secret), startSeq, startedAt, none⟩, prev⟩

def controlBody (crypto : Crypto Byte) (suite : UInt16) (key noncePrefix : List Byte)
    (msgType epoch : UInt8) (seq : Nat) (payload : List Byte) : List Byte :=
  toBE 8 seq ++ crypto.sealText suite key (buildAEADNonce noncePrefix seq) payload
    (rekeyAAD msgType epoch seq)

variable {ciphertext : List Byte} {secrets : List (List Byte)}

section Methods
variable {suite : UInt16} {s s' : Session Byte} {epoch newEpoch : UInt8} {newSecret : List Byte}
  {prev : Option (DatagramEpoch Byte)} {now : Int} {stop : Fault}

omit [Octet Byte] in
theorem epochsOf_ok_iff {epochs : DatagramEpochState Byte} :
    epochsOf s = .ok epochs ↔ s.dgramEpochs = some epochs := by
  unfold epochsOf
  cases s.dgramEpochs <;> simp

theorem datagramSeal_ok_iff {aad plaintext : List Byte} {seq : Nat} :
    datagramSeal crypto aad seq plaintext s = (.ok ciphertext, s') ↔
      s' = s ∧ ∃ epochs, s.dgramEpochs = some epochs ∧ epochAge epochs seq < maxPacketsBeforeRekey ∧
        ciphertext = crypto.sealText epochs.cur.sendCipher.suite epochs.cur.sendCipher.key
          (buildAEADNonce s.sendNoncePrefix seq) plaintext aad := by
  simp only [datagramSeal, read_bind, lift_bind_ok_iff, epochsOf_ok_iff, reject_bind_ok_iff,
    lift_ok_iff, sealWithNonce, buildAEADNonce_length, ne_eq, not_true_eq_false, if_false,
    Except.ok.injEq, ge_iff_le, not_le]
  constructor
  · rintro ⟨epochs, present, young, rfl, rfl⟩
    exact ⟨rfl, epochs, present, young, rfl⟩
  · rintro ⟨rfl, epochs, present, young, rfl⟩
    exact ⟨epochs, present, young, rfl, rfl⟩

/-- What opens was sealed under the cipher it opened with. -/
theorem openUnder_sealed (ideal : AeadIdeal crypto) {cipher : Option (Cipher Byte)}
    {noncePrefix aad text : List Byte} {seq : Nat}
    (opened : openUnder crypto cipher noncePrefix seq ciphertext aad = .ok text) :
    ∃ live, cipher = some live ∧ ciphertext = crypto.sealText live.suite live.key
      (buildAEADNonce noncePrefix seq) text aad := by
  cases cipher with
  | none => cases opened
  | some live =>
    refine ⟨live, rfl, ?_⟩
    simp only [openUnder, openWithNonce, buildAEADNonce_length, ne_eq, not_true_eq_false,
      if_false] at opened
    split at opened
    · cases opened
    split at opened
    · rename_i unsealed
      cases opened
      exact ideal.sound _ _ _ _ _ _ unsealed
    · cases opened

theorem advanceDatagramEpoch_ok_iff (sized : XofSized crypto.xof) :
    advanceDatagramEpoch crypto now newSecret s = (.ok newEpoch, s') ↔
      newSecret.length = sharedSecretSize ∧ Usable crypto s.cipherSuite ∧
      ∃ epochs, s.dgramEpochs = some epochs ∧ newEpoch = epochs.cur.epoch + 1 ∧ s' = { s with
          dgramEpochs := some ⟨⟨epochs.cur.epoch + 1,
            cipherOf s.cipherSuite (trafficKey crypto s.role newSecret),
            cipherOf s.cipherSuite (trafficKey crypto s.role.peer newSecret), s.sendSeq, now, none⟩,
            some { epochs.cur with retireAfter := some (now + datagramPrevEpochRetain) }⟩
          masterSecret := some newSecret
          sendCipher := some (cipherOf s.cipherSuite (trafficKey crypto s.role newSecret))
          recvCipher := some (cipherOf s.cipherSuite
            (trafficKey crypto s.role.peer newSecret)) } := by
  rw [advanceDatagramEpoch, reject_bind_ok_iff, not_not, read_bind]
  apply and_congr_right
  intro size
  cases present : s.dgramEpochs with
  | none => simp
  | some epochs =>
    simp only [lift_bind_ok_iff, deriveDatagramCiphers_ok_iff sized, Option.some.injEq,
      exists_eq_left', write_bind, pure_ok_iff]
    constructor
    · rintro ⟨_, ⟨-, usable, rfl⟩, rfl, rfl⟩
      exact ⟨usable, rfl, rfl⟩
    · rintro ⟨usable, rfl, rfl⟩
      exact ⟨_, ⟨size, usable, rfl⟩, rfl, rfl⟩

theorem advanceDatagramEpoch_stopped
    (stopped : advanceDatagramEpoch crypto now newSecret s = (.error stop, s')) : s' = s := by
  rw [advanceDatagramEpoch, reject_bind_error_iff] at stopped
  rcases stopped with ⟨-, -, rfl⟩ | ⟨-, stopped⟩
  · rfl
  rw [read_bind] at stopped
  cases present : s.dgramEpochs with
  | none =>
    rw [present] at stopped
    exact (Prod.mk.inj stopped).2.symm
  | some epochs =>
    rw [present] at stopped
    rcases lift_bind_error_iff.mp stopped with ⟨-, rfl⟩ | ⟨_, -, written⟩
    · rfl
    · cases written

theorem completeDatagramRekey_stopped {respBody : List Byte} {kp : KeyPair Byte}
    (stopped : completeDatagramRekey crypto now epoch respBody kp s = (.error stop, s')) :
    s' = s := by
  simp only [completeDatagramRekey, read_bind, lift_bind_error_iff, run_liftErr_bind] at stopped
  rcases stopped with ⟨-, rfl⟩ | ⟨ctBytes, -, stopped⟩
  · rfl
  split at stopped
  · exact (Prod.mk.inj stopped).2.symm
  split at stopped
  · exact (Prod.mk.inj stopped).2.symm
  rcases lift_bind_error_iff.mp stopped with ⟨-, rfl⟩ | ⟨newSecret, -, stopped⟩
  · rfl
  rcases bind_error_iff.mp stopped with stopped | ⟨_, _, -, returned⟩
  · exact advanceDatagramEpoch_stopped stopped
  · cases returned

section Keys
variable (keyed : Keyed crypto suite s secret epoch prev)
include keyed

theorem Keyed.withSeq (seq : Nat) :
    Keyed crypto suite { s with sendSeq := seq } secret epoch prev :=
  ⟨keyed.masterSecret, keyed.size, keyed.cipherSuite, keyed.usable, keyed.epochs⟩

theorem sealRekeyControl_eq (msgType : UInt8) (payload : List Byte) :
    sealRekeyControl crypto msgType payload s =
      (.ok (controlBody crypto suite (trafficKey crypto s.role secret) s.sendNoncePrefix msgType
        epoch s.sendSeq payload, epoch), { s with sendSeq := (s.sendSeq + 1) % seqLimit }) := by
  obtain ⟨startSeq, startedAt, epochs⟩ := keyed.epochs
  simp [sealRekeyControl, nextDatagramSeq, run_bind, epochsOf, epochs, sealWithNonce, controlBody,
    cipherOf]

/-- What opens under the current epoch was sealed by the peer's key of that epoch. -/
theorem openRekeyControl_sealed (ideal : AeadIdeal crypto) {msgType : UInt8}
    {body payload : List Byte}
    (opened : openRekeyControl crypto now msgType epoch body s = .ok payload) :
    body.drop 8 = crypto.sealText suite (trafficKey crypto s.role.peer secret)
      (buildAEADNonce s.recvNoncePrefix (ofBE (body.take 8))) payload
      (rekeyAAD msgType epoch (ofBE (body.take 8))) := by
  obtain ⟨startSeq, startedAt, epochs⟩ := keyed.epochs
  unfold openRekeyControl at opened
  split at opened
  · cases opened
  · obtain ⟨live, found, sealed⟩ := openUnder_sealed ideal opened
    simp only [datagramRecvCipher, epochs, if_true, Option.some.injEq] at found
    rw [sealed, ← found]
    rfl

theorem advanceDatagramEpoch_keyed (sized : XofSized crypto.xof)
    (advanced : advanceDatagramEpoch crypto now newSecret s = (.ok newEpoch, s')) :
    newSecret.length = sharedSecretSize ∧ ∃ startSeq startedAt startSeq' startedAt', s' = { s with
        dgramEpochs := some ⟨⟨epoch + 1, cipherOf suite (trafficKey crypto s.role newSecret),
          cipherOf suite (trafficKey crypto s.role.peer newSecret), startSeq', startedAt', none⟩,
          some ⟨epoch, cipherOf suite (trafficKey crypto s.role secret),
            cipherOf suite (trafficKey crypto s.role.peer secret), startSeq, startedAt,
            some (now + datagramPrevEpochRetain)⟩⟩
        masterSecret := some newSecret
        sendCipher := some (cipherOf suite (trafficKey crypto s.role newSecret))
        recvCipher := some (cipherOf suite (trafficKey crypto s.role.peer newSecret)) } := by
  obtain ⟨size, -, epochs, present, -, rfl⟩ := (advanceDatagramEpoch_ok_iff sized).mp advanced
  obtain ⟨startSeq, startedAt, epochs'⟩ := keyed.epochs
  rw [present] at epochs'
  cases epochs'
  rw [keyed.cipherSuite]
  exact ⟨size, startSeq, startedAt, _, _, rfl⟩

/-! The rekey. -/

/-- An answer: the payload of the RekeyInit was a key, the response carries a ciphertext
for it, and the new secret is ratcheted from the old one with the encapsulated one. -/
theorem respondToDatagramRekey_ok {coins : List Byte} {initBody body : List Byte}
    {respEpoch : UInt8} (answered : respondToDatagramRekey crypto coins now epoch initBody s =
      (.ok (body, respEpoch), s')) :
    ∃ pubBytes pub ct fresh newSecret newEpoch,
      openRekeyControl crypto now messageTypeDatagramRekeyInit epoch initBody s = .ok pubBytes ∧
      s.kemSuite.parsePublicKey pubBytes = .ok pub ∧
      s.kemSuite.encapsulate pub .responder coins = .ok (ct, fresh) ∧
      body = controlBody crypto suite (trafficKey crypto s.role secret) s.sendNoncePrefix
        messageTypeDatagramRekeyResponse epoch s.sendSeq ct.raw ∧
      deriveRekeySecret crypto secret fresh = .ok newSecret ∧
      advanceDatagramEpoch crypto now newSecret
        { s with sendSeq := (s.sendSeq + 1) % seqLimit } = (.ok newEpoch, s') := by
  simp only [respondToDatagramRekey, read_bind, lift_bind_ok_iff, liftErr_bind_ok_iff, Prod.exists,
    run_bind_ok (sealRekeyControl_eq keyed _ _)] at answered
  obtain ⟨pubBytes, opened, pub, parsed, ct, fresh, encapsulated, newSecret, derived, answered⟩ :=
    answered
  obtain ⟨newEpoch, t, advanced, returned⟩ := bind_ok_iff.mp answered
  obtain ⟨rfl, rfl⟩ := Prod.mk.inj (pure_ok_iff.mp returned).1
  obtain rfl := (pure_ok_iff.mp returned).2
  rw [deriveNextDatagramSecret, keyed.masterSecret] at derived
  exact ⟨pubBytes, pub, ct, fresh, newSecret, newEpoch, opened, parsed, encapsulated, rfl, derived,
    advanced⟩

/-- A refused RekeyInit costs the responder a number at most. -/
theorem respondToDatagramRekey_stopped {coins : List Byte} {initBody : List Byte}
    (stopped : respondToDatagramRekey crypto coins now epoch initBody s = (.error stop, s')) :
    ∃ seq, s' = { s with sendSeq := seq } := by
  simp only [respondToDatagramRekey, read_bind, lift_bind_error_iff, run_liftErr_bind] at stopped
  rcases stopped with ⟨-, rfl⟩ | ⟨pubBytes, -, stopped⟩
  · exact ⟨s'.sendSeq, rfl⟩
  split at stopped
  · exact ⟨s.sendSeq, (Prod.mk.inj stopped).2.symm⟩
  split at stopped
  · exact ⟨s.sendSeq, (Prod.mk.inj stopped).2.symm⟩
  rw [run_bind_ok (sealRekeyControl_eq keyed _ _), read_bind, lift_bind_error_iff] at stopped
  rcases stopped with ⟨-, rfl⟩ | ⟨newSecret, -, stopped⟩
  · exact ⟨_, rfl⟩
  rcases bind_error_iff.mp stopped with stopped | ⟨_, _, -, returned⟩
  · exact ⟨_, advanceDatagramEpoch_stopped stopped⟩
  · cases returned

/-- A completed rekey: the response carried a ciphertext, and the new secret is ratcheted
with what the attempt's key pair makes of it. -/
theorem completeDatagramRekey_ok {respBody : List Byte} {kp : KeyPair Byte}
    (completed : completeDatagramRekey crypto now epoch respBody kp s = (.ok (), s')) :
    ∃ ctBytes ct fresh newSecret newEpoch,
      openRekeyControl crypto now messageTypeDatagramRekeyResponse epoch respBody s = .ok ctBytes ∧
      s.kemSuite.parseCiphertext ctBytes = .ok ct ∧
      s.kemSuite.decapsulate ct kp .initiator = .ok fresh ∧
      deriveRekeySecret crypto secret fresh = .ok newSecret ∧
      advanceDatagramEpoch crypto now newSecret s = (.ok newEpoch, s') := by
  simp only [completeDatagramRekey, read_bind, lift_bind_ok_iff, liftErr_bind_ok_iff] at completed
  obtain ⟨ctBytes, opened, ct, parsed, fresh, decapsulated, newSecret, derived, completed⟩ :=
    completed
  obtain ⟨newEpoch, t, advanced, returned⟩ := bind_ok_iff.mp completed
  obtain rfl := (pure_ok_iff.mp returned).2
  rw [deriveNextDatagramSecret, keyed.masterSecret] at derived
  exact ⟨ctBytes, ct, fresh, newSecret, newEpoch, opened, parsed, decapsulated, derived, advanced⟩

end Keys

/-! A session with its past. -/

def Follows (crypto : Crypto Byte) (suite : UInt16) (role : Role) (epoch : UInt8) :
    List (List Byte) → Option (DatagramEpoch Byte) → Prop
  | [], none => True
  | secret :: _, some prev => prev.epoch + 1 = epoch ∧
      prev.sendCipher = cipherOf suite (trafficKey crypto role secret) ∧
      prev.recvCipher = cipherOf suite (trafficKey crypto role.peer secret)
  | _, _ => False

def Standing (crypto : Crypto Byte) (suite : UInt16) (s : Session Byte) (secrets : List (List Byte))
    (epoch : UInt8) : Prop :=
  ∃ secret older prev, secrets = secret :: older ∧ Keyed crypto suite s secret epoch prev ∧
    Follows crypto suite s.role epoch older prev

theorem Standing.withSeq (standing : Standing crypto suite s secrets epoch) (seq : Nat) :
    Standing crypto suite { s with sendSeq := seq } secrets epoch := by
  obtain ⟨secret, older, prev, same, keyed, follows⟩ := standing
  exact ⟨secret, older, prev, same, keyed.withSeq seq, follows⟩

theorem Standing.advanced (sized : XofSized crypto.xof)
    (standing : Standing crypto suite s secrets epoch)
    (advanced : advanceDatagramEpoch crypto now newSecret s = (.ok newEpoch, s')) :
    Standing crypto suite s' (newSecret :: secrets) (epoch + 1) ∧ s'.role = s.role ∧
      s'.kemSuite = s.kemSuite ∧ s'.sendNoncePrefix = s.sendNoncePrefix ∧
      s'.recvNoncePrefix = s.recvNoncePrefix ∧ s'.masterSecret = some newSecret ∧
      newSecret.length = sharedSecretSize := by
  obtain ⟨secret, older, prev, rfl, keyed, -⟩ := standing
  obtain ⟨size, startSeq, startedAt, startSeq', startedAt', rfl⟩ :=
    advanceDatagramEpoch_keyed keyed sized advanced
  refine ⟨⟨newSecret, secret :: older, _, rfl,
    ⟨rfl, size, keyed.cipherSuite, keyed.usable, startSeq', startedAt', rfl⟩, ?_⟩,
    rfl, rfl, rfl, rfl, rfl, size⟩
  exact ⟨rfl, rfl, rfl⟩

end Methods

end QuantumGo.DatagramSpecs
