import QuantumGo.HelloCodec
import QuantumGo.Tunnel

/-!
The records of an established stream session: their encoding
(pkg/protocol/codec.go), sealing and opening, and the steps of a rekey
(pkg/tunnel/session.go). Byte and packet statistics are left out. Both kinds of
record are sealed by one routine, with the sequence number as associated data.
-/

namespace QuantumGo.Records

open Octets Effect Wire HelloCodec Aead KeySchedule Tunnel

variable {Byte : Type} [Octet Byte]

def maxPayloadSize : Nat := 65507
def seqLimit : Nat := 2 ^ 64

/-! Encoding. -/

def encodeData (seq : Nat) (payload : List Byte) : Except Fault (List Byte) :=
  if payload.length > maxPayloadSize then .error (.err .messageTooLarge)
  else .ok (frame messageTypeData (toBE 8 seq ++ payload))

def encodeRekey (seq : Nat) (ciphertext : List Byte) : List Byte :=
  frame messageTypeRekey (toBE 8 seq ++ ciphertext)

def decodeRecord (messageType : UInt8) (data : List Byte) : Except Fault (Nat × List Byte) :=
  if data.length < headerSize + 8 then .error (.err .invalidMessage)
  else if data.head?.map val ≠ some messageType then .error (.err .invalidMessage)
  else .ok (ofBE (slice data headerSize (headerSize + 8)), data.drop (headerSize + 8))

def decodeData (data : List Byte) : Except Fault (Nat × List Byte) :=
  decodeRecord messageTypeData data

def decodeRekey (data : List Byte) : Except Fault (Nat × List Byte) :=
  decodeRecord messageTypeRekey data

/-- The length of the key is written in two bytes, whatever it is. -/
def encodeRekeyPayload (newPublicKey : List Byte) (activationSeq : Nat) :
    Except Fault (List Byte) :=
  if newPublicKey.length = 0 ∨ newPublicKey.length > maxMessageSize then
    .error (.err .invalidPublicKey)
  else .ok (prefixed 2 newPublicKey ++ toBE 8 activationSeq)

def decodeRekeyPayload (data : List Byte) : Except Fault (List Byte × Nat) :=
  if data.length < 2 then .error (.err .invalidMessage)
  else
    let size := ofBE (data.take 2)
    if data.length < 2 + size + 8 then .error (.err .invalidMessage)
    else .ok (slice data 2 (2 + size), ofBE (slice data (2 + size) (2 + size + 8)))

section RekeyPayload
variable {key text : List Byte} {seq : Nat}

theorem decodeRekeyPayload_encoded (small : key.length < 2 ^ 16)
    (encoded : encodeRekeyPayload key seq = .ok text) :
    decodeRekeyPayload text = .ok (key, seq % seqLimit) := by
  rw [encodeRekeyPayload, guard_ok_iff] at encoded
  obtain rfl := Except.ok.inj encoded.2
  have here : (prefixed 2 key ++ toBE 8 seq : List Byte).drop 2 = key ++ toBE 8 seq := by
    rw [prefixed, List.append_assoc, List.drop_left' (by simp)]
  have size : ofBE ((prefixed 2 key ++ toBE 8 seq : List Byte).take 2) = key.length := by
    rw [prefixed, List.append_assoc, List.take_left' (by simp), ofBE_toBE_of_lt small]
  have whole : (prefixed 2 key ++ toBE 8 seq : List Byte).length = 2 + key.length + 8 := by
    simp [prefixed, Nat.add_assoc]
  have number : slice (prefixed 2 key ++ toBE 8 seq) (2 + key.length) (2 + key.length + 8) =
      (toBE 8 seq : List Byte) :=
    slice_at ((drop_at here rfl).trans (List.append_nil _).symm) (by simp)
  rw [decodeRekeyPayload, if_neg (by omega)]
  simp only [size, whole, lt_irrefl, if_false, slice_at here rfl, number, ofBE_toBE]
  rfl

theorem decodeRekeyPayload_small (read : decodeRekeyPayload text = .ok (key, seq)) :
    key.length < 2 ^ 16 := by
  rw [decodeRekeyPayload, guard_ok_iff] at read
  obtain ⟨-, read⟩ := read
  dsimp only at read
  rw [guard_ok_iff] at read
  obtain ⟨rfl, -⟩ := Prod.mk.inj (Except.ok.inj read.2)
  have two : ofBE (text.take 2) < 256 ^ (text.take 2).length := ofBE_lt _
  have most : 256 ^ (text.take 2).length ≤ 256 ^ 2 := Nat.pow_le_pow_right (by decide) (by simp)
  simp only [slice, List.length_take]
  omega

/-- A payload is read back exactly when the two bytes of the prefix hold the key's length. -/
theorem rekeyPayload_roundTrip_iff (fits : seq < seqLimit)
    (encoded : encodeRekeyPayload key seq = .ok text) :
    decodeRekeyPayload text = .ok (key, seq) ↔ key.length < 2 ^ 16 := by
  refine ⟨decodeRekeyPayload_small, fun small => ?_⟩
  rw [decodeRekeyPayload_encoded small encoded, Nat.mod_eq_of_lt fits]

theorem rekeyPayload_roundTrip_short :
    decodeRekeyPayload [0, 1, 7, 0, 0, 0, 0, 0, 0, 0, 5] = .ok (([7] : List UInt8), 5) ↔
      ([7] : List UInt8).length < 2 ^ 16 :=
  rekeyPayload_roundTrip_iff (by decide) rfl

/-- The longest key that is accepted. -/
theorem longest_rekeyPayload_truncated : ∃ key text : List UInt8,
    encodeRekeyPayload key 0 = .ok text ∧ decodeRekeyPayload text ≠ .ok (key, 0) := by
  have size : (List.replicate maxMessageSize (0 : UInt8)).length = maxMessageSize :=
    List.length_replicate
  refine ⟨List.replicate maxMessageSize 0, _, if_neg (by rw [size]; decide), fun read => ?_⟩
  have small := decodeRekeyPayload_small read
  rw [size] at small
  exact absurd small (by decide)

end RekeyPayload

/-! Sealing and opening. -/

/-- A missing prefix leaves its four bytes zero. -/
def buildAEADNonce (noncePrefix : List Byte) (seq : Nat) : List Byte :=
  (noncePrefix ++ List.replicate noncePrefixSize (lit 0)).take noncePrefixSize ++ toBE 8 seq

def encrypt (crypto : Crypto Byte) (plaintext : List Byte) :
    SessionProg Byte (List Byte × Nat) := do
  let s ← read
  let seq := s.sendSeq
  write fun s => { s with sendSeq := (s.sendSeq + 1) % seqLimit }
  match s.sendCipher with
  | none => fail (.err .invalidState)
  | some cipher =>
    reject (seq ≥ s.sendEpochStartSeq ∧ seq - s.sendEpochStartSeq ≥ maxPacketsBeforeRekey)
      (.err .nonceExhausted)
    let ciphertext ← lift (sealWithNonce crypto cipher (buildAEADNonce s.sendNoncePrefix seq)
      plaintext (toBE 8 seq))
    return (ciphertext, seq)

def promotePendingRecvCipher : SessionProg Byte Unit := do
  let s ← read
  match s.pendingRecvCipher with
  | none => pure ()
  | some pending => write fun s => { s with recvCipher := some pending, pendingRecvCipher := none }

def promoteIf (promoted : Bool) : SessionProg Byte Unit :=
  if promoted then promotePendingRecvCipher else pure ()

/-- A record that the current cipher refuses is tried with the pending one. The flag
says that the pending one opened it. -/
def trialOpen (crypto : Crypto Byte) (cipher : Cipher Byte) (pending : Option (Cipher Byte))
    (nonce ciphertext aad : List Byte) : Except Fault (List Byte × Bool) :=
  match openWithNonce crypto cipher nonce ciphertext aad with
  | .ok plaintext => .ok (plaintext, false)
  | .error refused =>
    match pending.map fun pending => openWithNonce crypto pending nonce ciphertext aad with
    | some (.ok plaintext) => .ok (plaintext, true)
    | _ => .error refused

/-- The replay window records the number before the record is opened. -/
def decrypt (crypto : Crypto Byte) (ciphertext : List Byte) (seq : Nat) :
    SessionProg Byte (List Byte) := do
  let s ← read
  match s.recvCipher with
  | none => fail (.err .invalidState)
  | some cipher =>
    let (fresh, window) := ReplayWindow.check s.replayWindow seq
    write fun s => { s with replayWindow := window }
    reject (fresh = false) (.err .replayDetected)
    let (plaintext, promoted) ← lift (trialOpen crypto cipher s.pendingRecvCipher
      (buildAEADNonce s.recvNoncePrefix seq) ciphertext (toBE 8 seq))
    promoteIf promoted
    return plaintext

/-! Rekeying. -/

def datagramRekeyHighWater : Nat := maxPacketsBeforeRekey * 9 / 10

/-- `worn` stands for the limits on bytes, packets and time. -/
def needsRekey (worn : Bool) (s : Session Byte) : Bool :=
  s.sendCipher.isSome &&
    (decide ((s.sendSeq + seqLimit - s.sendEpochStartSeq) % seqLimit ≥ datagramRekeyHighWater) ||
      worn)

def initiateRekey (coins : List Byte) : SessionProg Byte (List Byte × Nat) := do
  let s ← read
  reject (s.rekeyInProgress = true) (.err .rekeyInProgress)
  reject (s.state ≠ .established) (.err .invalidState)
  let newKeyPair ← liftErr (s.kemSuite.generateKeyPair coins)
  let activationSeq := (s.sendSeq + 16) % seqLimit
  write fun s => { s with
    rekeyInProgress := true, pendingRekeyKeyPair := some newKeyPair
    rekeyActivationSeq := activationSeq, state := .rekeying }
  return (newKeyPair.publicRaw, activationSeq)

/-- The responder's half: the new receive key is the initiator's. -/
def prepareRekeyResponse (crypto : Crypto Byte) (coins newPublicKeyBytes : List Byte)
    (activationSeq : Nat) : SessionProg Byte (List Byte) := do
  let s ← read
  reject (s.state ≠ .established ∧ s.state ≠ .rekeying) (.err .invalidState)
  let newPublicKey ← liftErr (s.kemSuite.parsePublicKey newPublicKeyBytes)
  let (ciphertext, freshSecret) ← liftErr (s.kemSuite.encapsulate newPublicKey .responder coins)
  let newSecret ← lift (deriveRekeySecret crypto (s.masterSecret.getD []) freshSecret)
  let (initiatorKey, responderKey) ← lift (deriveTrafficKeys crypto newSecret)
  let newRecvCipher ← lift (newAEAD crypto s.cipherSuite initiatorKey)
  let newSendCipher ← lift (newAEAD crypto s.cipherSuite responderKey)
  write fun s => { s with
    rekeyInProgress := true, rekeyActivationSeq := activationSeq
    pendingRecvCipher := some newRecvCipher, pendingSendCipher := some newSendCipher
    pendingRekeySecret := some newSecret, state := .rekeying }
  return ciphertext.raw

def finalizeRekeyState (now : Int) : SessionProg Byte Unit :=
  write fun s => { s with
    masterSecret := s.pendingRekeySecret.or s.masterSecret, pendingRekeySecret := none
    rekeyInProgress := false, rekeyActivationSeq := 0
    establishedAt := some now, state := .established }

/-- The initiator's half: it sends with the new key from here on and receives with
it once the peer's first record under it arrives. -/
def processRekeyResponse (crypto : Crypto Byte) (now : Int) (ciphertextBytes : List Byte) :
    SessionProg Byte Unit := do
  let s ← read
  match s.pendingRekeyKeyPair with
  | none => fail (.err .invalidState)
  | some keyPair =>
    reject (s.rekeyInProgress = false) (.err .invalidState)
    let ciphertext ← liftErr (s.kemSuite.parseCiphertext ciphertextBytes)
    let freshSecret ← liftErr (s.kemSuite.decapsulate ciphertext keyPair .initiator)
    let newSecret ← lift (deriveRekeySecret crypto (s.masterSecret.getD []) freshSecret)
    let (initiatorKey, responderKey) ← lift (deriveTrafficKeys crypto newSecret)
    let newSendCipher ← lift (newAEAD crypto s.cipherSuite initiatorKey)
    let newRecvCipher ← lift (newAEAD crypto s.cipherSuite responderKey)
    write fun s => { s with
      sendCipher := some newSendCipher, sendEpochStartSeq := s.sendSeq
      pendingRecvCipher := some newRecvCipher, pendingRekeySecret := some newSecret
      pendingRekeyKeyPair := none }
    finalizeRekeyState now

def activateRekeySend (now : Int) : SessionProg Byte Unit := do
  let s ← read
  match s.pendingSendCipher with
  | none => pure ()
  | some pending => write fun s => { s with
      sendCipher := some pending, pendingSendCipher := none, sendEpochStartSeq := s.sendSeq }
  finalizeRekeyState now

/-- The combined activation, which the transport no longer calls. -/
def activatePendingKeys (now : Int) : SessionProg Byte Unit := do
  let s ← read
  if s.rekeyInProgress then
    write fun s => { s with
      recvCipher := s.pendingRecvCipher.or s.recvCipher, pendingRecvCipher := none
      sendCipher := s.pendingSendCipher.or s.sendCipher, pendingSendCipher := none
      sendEpochStartSeq := if s.pendingSendCipher.isSome then s.sendSeq else s.sendEpochStartSeq
      replayWindow := ReplayWindow.newWindow }
    finalizeRekeyState now
  else pure ()

/-- `Session.Rekey`: new keys at once, whatever the state of the session. -/
def rekey (crypto : Crypto Byte) (now : Int) (newMasterSecret : List Byte) :
    SessionProg Byte Unit := do
  let s ← read
  reject (newMasterSecret.length ≠ sharedSecretSize) (.err .invalidKeySize)
  let keys ← lift (deriveTrafficKeys crypto newMasterSecret)
  let (sendKey, recvKey) := byRole s.role keys
  let newSendCipher ← lift (newAEAD crypto s.cipherSuite sendKey)
  let newRecvCipher ← lift (newAEAD crypto s.cipherSuite recvKey)
  write fun s => { s with
    sendCipher := some newSendCipher, recvCipher := some newRecvCipher,
    sendEpochStartSeq := s.sendSeq
    masterSecret := some newMasterSecret, replayWindow := ReplayWindow.newWindow,
    establishedAt := some now }

/-- `Session.Close` forgets the live ciphers; a pending one stays. -/
def closeSession : SessionProg Byte Unit :=
  write fun s => { s with
    state := .closed, masterSecret := none, localKeyPair := none
    sendCipher := none, recvCipher := none }

end QuantumGo.Records
