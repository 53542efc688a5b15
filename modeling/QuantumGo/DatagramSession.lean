import QuantumGo.Records

/-!
The datagram half of a session: the common frame header (pkg/protocol/datagram_codec.go),
sealing and opening by epoch (pkg/tunnel/dgram_session.go, dgram_session_inplace.go) and
the session's part in a rekey (pkg/tunnel/dgram_rekey.go). Clock readings are
nanoseconds. A session that was never keyed for datagrams has no epochs; sealing on it
dereferences a nil pointer.
-/

namespace QuantumGo.DatagramSession

open Octets Effect Wire Aead KeySchedule Kem Tunnel Records

variable {Byte : Type} (crypto : Crypto Byte)

/-! The common header. -/

def datagramFrameHandshake : UInt8 := 0x01
def datagramFrameData : UInt8 := 0x02
def datagramFrameClose : UInt8 := 0x03
def datagramFrameRetry : UInt8 := 0x04

def datagramHeaderSize : Nat := 1 + 1 + 4 + 8

structure DatagramHeader where
  frameType : UInt8
  epoch : UInt8
  recvIndex : UInt32
  seq : Nat
  deriving DecidableEq, Repr

section Header
variable [Octet Byte]

def encodeDatagramHeader (h : DatagramHeader) : List Byte :=
  lit h.frameType :: lit h.epoch :: (toBE 4 h.recvIndex.toNat ++ toBE 8 h.seq)

def peekDatagramType (data : List Byte) : Except Fault UInt8 :=
  match data.head? with
  | some first => if data.length < datagramHeaderSize then .error (.err .invalidMessage)
      else .ok (val first)
  | none => .error (.err .invalidMessage)

def parseDatagramHeader (data : List Byte) : Except Fault (DatagramHeader × List Byte) :=
  match data with
  | frameType :: epoch :: rest =>
    if data.length < datagramHeaderSize then .error (.err .invalidMessage)
    else .ok (⟨val frameType, val epoch, UInt32.ofNat (ofBE (rest.take 4)),
      ofBE (slice rest 4 12)⟩, data.drop datagramHeaderSize)
  | _ => .error (.err .invalidMessage)

def datagramAAD (data : List Byte) : List Byte := data.take datagramHeaderSize

@[simp] theorem encodeDatagramHeader_length (h : DatagramHeader) :
    (encodeDatagramHeader h : List Byte).length = datagramHeaderSize := by
  simp [encodeDatagramHeader, datagramHeaderSize]

theorem parse_encode {h : DatagramHeader} (fits : h.seq < seqLimit) (body : List Byte) :
    parseDatagramHeader (encodeDatagramHeader h ++ body) = .ok (h, body) := by
  have index : UInt32.ofNat (ofBE (toBE 4 h.recvIndex.toNat : List Byte)) = h.recvIndex := by
    rw [ofBE_toBE_of_lt (by simpa using h.recvIndex.toNat_lt), UInt32.ofNat_toNat]
  have seq : ofBE (toBE 8 h.seq : List Byte) = h.seq :=
    ofBE_toBE_of_lt (by simpa [seqLimit] using fits)
  have body' : (encodeDatagramHeader h ++ body).drop datagramHeaderSize = body :=
    List.drop_left' (encodeDatagramHeader_length h)
  unfold parseDatagramHeader
  simp only [encodeDatagramHeader, List.cons_append, List.append_assoc] at body' ⊢
  rw [if_neg (by simp [datagramHeaderSize]; omega), body', Octet.val_lit, Octet.val_lit,
    List.take_left' (toBE_length 4 _), index]
  have place : slice (toBE 4 h.recvIndex.toNat ++ (toBE 8 h.seq ++ body)) 4 12 = toBE 8 h.seq :=
    slice_at (List.drop_left' (toBE_length 4 _)) (toBE_length 8 _)
  rw [place, seq]

theorem datagramAAD_append (h : DatagramHeader) (body : List Byte) :
    datagramAAD (encodeDatagramHeader h ++ body) = encodeDatagramHeader h :=
  List.take_left' (encodeDatagramHeader_length h)

end Header

/-! Sealing and opening. -/

def nextDatagramSeq : SessionProg Byte Nat := do
  let s ← read
  write fun s => { s with sendSeq := (s.sendSeq + 1) % seqLimit }
  return s.sendSeq

def epochsOf (s : Session Byte) : Except Fault (DatagramEpochState Byte) :=
  match s.dgramEpochs with
  | none => .error .panic
  | some epochs => .ok epochs

def datagramSendEpoch : SessionProg Byte UInt8 := do
  let s ← read
  let epochs ← lift (epochsOf s)
  return epochs.cur.epoch

def epochAge (epochs : DatagramEpochState Byte) (seq : Nat) : Nat :=
  (seq + seqLimit - epochs.cur.startSeq) % seqLimit

def datagramRecvCipher (now : Int) (epoch : UInt8) (s : Session Byte) : Option (Cipher Byte) :=
  match s.dgramEpochs with
  | none => none
  | some epochs =>
    if epochs.cur.epoch = epoch then some epochs.cur.recvCipher
    else
      match epochs.prev with
      | none => none
      | some prev =>
        if prev.epoch = epoch ∧ prev.retireAfter.any (now < ·) = true then some prev.recvCipher
        else none

def datagramPrevEpochRetain : Int := 30 * 10 ^ 9

variable [Octet Byte]

def datagramSeal (aad : List Byte) (seq : Nat) (plaintext : List Byte) :
    SessionProg Byte (List Byte) := do
  let s ← read
  let epochs ← lift (epochsOf s)
  reject (epochAge epochs seq ≥ maxPacketsBeforeRekey) (.err .nonceExhausted)
  lift (sealWithNonce crypto epochs.cur.sendCipher (buildAEADNonce s.sendNoncePrefix seq)
    plaintext aad)

def datagramSealTo (dst aad : List Byte) (seq : Nat)
    (plaintext : List Byte) : SessionProg Byte (List Byte) := do
  let ciphertext ← datagramSeal crypto aad seq plaintext
  return dst ++ ciphertext

def openUnder (cipher : Option (Cipher Byte)) (noncePrefix : List Byte) (seq : Nat)
    (ciphertext aad : List Byte) : Except Fault (List Byte) :=
  match cipher with
  | none => .error (.err .authenticationFailed)
  | some cipher => openWithNonce crypto cipher (buildAEADNonce noncePrefix seq) ciphertext aad

def datagramOpen (now : Int) (epoch : UInt8) (seq : Nat) (ciphertext aad : List Byte)
    (s : Session Byte) : Except Fault (List Byte) :=
  openUnder crypto (datagramRecvCipher now epoch s) s.recvNoncePrefix seq ciphertext aad

def advanceDatagramEpoch (now : Int) (newSecret : List Byte) :
    SessionProg Byte UInt8 := do
  reject (newSecret.length ≠ sharedSecretSize) (.err .invalidKeySize)
  let s ← read
  match s.dgramEpochs with
  | none => fail (.err .invalidState)
  | some epochs =>
    let (send, recv) ← lift (deriveDatagramCiphers crypto s.role newSecret s.cipherSuite)
    let old := { epochs.cur with retireAfter := some (now + datagramPrevEpochRetain) }
    let newEpoch := old.epoch + 1
    write fun s => { s with
      dgramEpochs := some ⟨⟨newEpoch, send, recv, s.sendSeq, now, none⟩, some old⟩
      masterSecret := some newSecret, sendCipher := some send, recvCipher := some recv }
    return newEpoch

/-! Control messages of a rekey. -/

def rekeyAAD (msgType epoch : UInt8) (seq : Nat) : List Byte :=
  lit msgType :: lit epoch :: toBE 8 seq

/-- Sealed under the current epoch, with a number of the data frames' counter and
without their limit on an epoch. -/
def sealRekeyControl (msgType : UInt8) (payload : List Byte) :
    SessionProg Byte (List Byte × UInt8) := do
  let seq ← nextDatagramSeq
  let s ← read
  let epochs ← lift (epochsOf s)
  let ciphertext ← lift (sealWithNonce crypto epochs.cur.sendCipher
    (buildAEADNonce s.sendNoncePrefix seq) payload (rekeyAAD msgType epochs.cur.epoch seq))
  return (toBE 8 seq ++ ciphertext, epochs.cur.epoch)

def openRekeyControl (now : Int) (msgType epoch : UInt8) (body : List Byte)
    (s : Session Byte) : Except Fault (List Byte) :=
  if body.length < 8 then .error (.err .invalidMessage)
  else
    let seq := ofBE (body.take 8)
    openUnder crypto (datagramRecvCipher now epoch s) s.recvNoncePrefix seq (body.drop 8)
      (rekeyAAD msgType epoch seq)

def deriveNextDatagramSecret (fresh : List Byte) (s : Session Byte) :
    Except Fault (List Byte) :=
  deriveRekeySecret crypto (s.masterSecret.getD []) fresh

def buildDatagramRekeyInit (kp : KeyPair Byte) :
    SessionProg Byte (List Byte × UInt8) :=
  sealRekeyControl crypto messageTypeDatagramRekeyInit kp.publicRaw

/-- The responder seals its answer under the old epoch and then advances. -/
def respondToDatagramRekey (coins : List Byte) (now : Int) (epoch : UInt8)
    (initBody : List Byte) : SessionProg Byte (List Byte × UInt8) := do
  let s ← read
  let pubBytes ← lift (openRekeyControl crypto now messageTypeDatagramRekeyInit epoch initBody s)
  let pub ← liftErr (s.kemSuite.parsePublicKey pubBytes)
  let (ct, fresh) ← liftErr (s.kemSuite.encapsulate pub .responder coins)
  let response ← sealRekeyControl crypto messageTypeDatagramRekeyResponse ct.raw
  let s ← read
  let newSecret ← lift (deriveNextDatagramSecret crypto fresh s)
  let _ ← advanceDatagramEpoch crypto now newSecret
  return response

/-- The initiator opens the answer under the epoch of its own message. -/
def completeDatagramRekey (now : Int) (epoch : UInt8) (respBody : List Byte)
    (kp : KeyPair Byte) : SessionProg Byte Unit := do
  let s ← read
  let ctBytes ← lift (openRekeyControl crypto now messageTypeDatagramRekeyResponse epoch respBody s)
  let ct ← liftErr (s.kemSuite.parseCiphertext ctBytes)
  let fresh ← liftErr (s.kemSuite.decapsulate ct kp .initiator)
  let newSecret ← lift (deriveNextDatagramSecret crypto fresh s)
  let _ ← advanceDatagramEpoch crypto now newSecret
  return ()

end QuantumGo.DatagramSession
