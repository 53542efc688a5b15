import QuantumGo.Records

/-!
The stream transport (pkg/tunnel/transport.go) between two peers. Beside its own
fields a transport carries a log of the records it sealed and of the records it
opened, with the purpose of each; the program never reads them. A message is a frame
as `ReadMessageInto` returns it.
-/

namespace QuantumGo.StreamTransport

open Octets Effect Wire HelloCodec Aead Tunnel Records

inductive Kind where
  | data
  | rekey
  deriving DecidableEq, Repr

def Kind.messageType : Kind → UInt8
  | .data => messageTypeData
  | .rekey => messageTypeRekey

structure Sealing (Byte : Type) where
  kind : Kind
  seq : Nat
  key : List Byte
  plaintext : List Byte
  ciphertext : List Byte
  deriving DecidableEq

structure Opening (Byte : Type) where
  kind : Kind
  seq : Nat
  plaintext : List Byte
  ciphertext : List Byte
  deriving DecidableEq

structure Transport (Byte : Type) where
  session : Session Byte
  closed : Bool
  written : List (List Byte)
  sealings : List (Sealing Byte)
  openings : List (Opening Byte)

abbrev TransportProg (Byte α : Type) := Prog (Transport Byte) Fault α

variable {Byte : Type} (crypto : Crypto Byte)

def onSession {α : Type} (method : SessionProg Byte α) : TransportProg Byte α := fun t =>
  match method t.session with
  | (outcome, session) => (outcome, { t with session })

def writeFrame (msg : List Byte) : TransportProg Byte Unit :=
  write fun t => { t with written := t.written ++ [msg] }

def checkClosed : TransportProg Byte Unit := do
  let t ← read
  reject (t.closed = true) (.err .tunnelClosed)

def markClosed : TransportProg Byte Unit := write fun t => { t with closed := true }

variable [Octet Byte]

def sealAs (kind : Kind) (plaintext : List Byte) :
    TransportProg Byte (List Byte × Nat) := do
  let t ← read
  let (ciphertext, seq) ← onSession (encrypt crypto plaintext)
  let key := (t.session.sendCipher.map Cipher.key).getD []
  write fun t => { t with sealings := t.sealings ++ [⟨kind, seq, key, plaintext, ciphertext⟩] }
  return (ciphertext, seq)

def openAs (kind : Kind) (ciphertext : List Byte) (seq : Nat) :
    TransportProg Byte (List Byte) := do
  let plaintext ← onSession (decrypt crypto ciphertext seq)
  write fun t => { t with openings := t.openings ++ [⟨kind, seq, plaintext, ciphertext⟩] }
  return plaintext

/-! Sending. -/

def sealAndWrite (data : List Byte) : TransportProg Byte Unit := do
  let (ciphertext, seq) ← sealAs crypto .data data
  let msg ← lift (encodeData seq ciphertext)
  writeFrame msg

def sendRekey (coins : List Byte) : TransportProg Byte Unit := do
  checkClosed
  let (newPublicKey, activationSeq) ← onSession (initiateRekey coins)
  let innerPayload ← lift (encodeRekeyPayload newPublicKey activationSeq)
  let (ciphertext, seq) ← sealAs crypto .rekey innerPayload
  writeFrame (encodeRekey seq ciphertext)

def sendRekeyResponse (responseCT : List Byte) (activationSeq : Nat) :
    TransportProg Byte Unit := do
  let innerPayload ← lift (encodeRekeyPayload responseCT activationSeq)
  let (ciphertext, seq) ← sealAs crypto .rekey innerPayload
  writeFrame (encodeRekey seq ciphertext)

def checkAndRekey (worn : Bool) (coins : List Byte) :
    TransportProg Byte Unit := do
  let t ← read
  if t.session.role = .initiator ∧ t.session.rekeyInProgress = false ∧
      needsRekey worn t.session = true then
    sendRekey crypto coins
  else pure ()

/-- An error return is dropped; a panic is not. -/
def ignoringErrors (program : TransportProg Byte Unit) : TransportProg Byte Unit := fun t =>
  match program t with
  | (.error (.err _), t') => (.ok (), t')
  | (outcome, t') => (outcome, t')

def send (worn : Bool) (coins data : List Byte) :
    TransportProg Byte Unit := do
  checkClosed
  reject (data.length > maxPayloadSize) (.err .messageTooLarge)
  sealAndWrite crypto data
  ignoringErrors (checkAndRekey crypto worn coins)

def sendPing : TransportProg Byte Unit := do
  checkClosed
  writeFrame (frame messageTypePing [])

def sendPong : TransportProg Byte Unit := writeFrame (frame messageTypePong [])

def alertLevelWarning : UInt8 := 0x01
def alertCodeCloseNotify : UInt8 := 0x08

def closeNotice : List Byte :=
  encodeAlert alertLevelWarning alertCodeCloseNotify
    ("connection closed".toList.map fun c => lit (UInt8.ofNat c.toNat))

def close : TransportProg Byte Unit := do
  let t ← read
  if t.closed then pure ()
  else
    markClosed
    if t.session.state = .established then writeFrame closeNotice else pure ()
    onSession closeSession

/-! Receiving. -/

def alertCode (msg : List Byte) : UInt8 :=
  if msg.length < headerSize + 3 then 0
  else
    let descLen := ofBE (slice msg (headerSize + 2) (headerSize + 3))
    if msg.length < headerSize + 3 + descLen then 0
    else UInt8.ofNat (ofBE (slice msg (headerSize + 1) (headerSize + 2)))

def handleAlert (msg : List Byte) : TransportProg Byte (Option (List Byte)) := do
  if alertCode msg = alertCodeCloseNotify then
    markClosed
    fail (.err .tunnelClosed)
  else fail (.err .peerAlert)

def handleData (msg : List Byte) : TransportProg Byte (List Byte) := do
  let (seq, ciphertext) ← lift (decodeData msg)
  openAs crypto .data ciphertext seq

/-- A responder in no rekey answers; an initiator in a rekey completes it; every other
payload is dropped. -/
def applyRekeyPayload (coins : List Byte) (now : Int) (newPublicKey : List Byte)
    (activationSeq : Nat) : TransportProg Byte Unit := do
  let t ← read
  if t.session.role = .responder ∧ t.session.rekeyInProgress = false then
    let responseCT ← onSession (prepareRekeyResponse crypto coins newPublicKey activationSeq)
    sendRekeyResponse crypto responseCT activationSeq
    onSession (activateRekeySend now)
  else if t.session.role = .initiator ∧ t.session.rekeyInProgress = true then
    onSession (processRekeyResponse crypto now newPublicKey)
  else pure ()

def handleRekey (coins : List Byte) (now : Int) (msg : List Byte) :
    TransportProg Byte Unit := do
  let (seq, ciphertext) ← lift (decodeRekey msg)
  let plaintext ← openAs crypto .rekey ciphertext seq
  let (newPublicKey, activationSeq) ← lift (decodeRekeyPayload plaintext)
  applyRekeyPayload crypto coins now newPublicKey activationSeq

/-- One round of the loop in `Receive`: a value ends the loop. -/
def receiveMessage (coins : List Byte) (now : Int) (msg : List Byte) :
    TransportProg Byte (Option (List Byte)) := do
  checkClosed
  let messageType := msg.head?.map val
  if messageType = some messageTypeData then
    let plaintext ← handleData crypto msg
    return some plaintext
  else if messageType = some messageTypePing then
    sendPong
    return none
  else if messageType = some messageTypePong then return none
  else if messageType = some messageTypeClose then
    markClosed
    fail (.err .tunnelClosed)
  else if messageType = some messageTypeRekey then
    handleRekey crypto coins now msg
    return none
  else if messageType = some messageTypeAlert then handleAlert msg
  else fail (.err .invalidMessage)

end QuantumGo.StreamTransport
