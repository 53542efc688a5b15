import QuantumGo.HelloCodec
import QuantumGo.Tunnel

/-!
The flight builders of pkg/tunnel/handshake.go. Each method is a program over the
handshake's fields: an error return keeps what was written before it. Randomness
and the clock reading of one step are its `Coins`.
-/

namespace QuantumGo.Flights

open Octets Effect Wire HelloCodec Aead Kem Ticket Tunnel
open KeySchedule hiding deriveHandshakeKeys

inductive HandshakeState where
  | initial
  | clientHelloSent
  | serverHelloSent
  | serverHelloReceived
  | serverFinishedSent
  | serverFinishedReceived
  | complete
  | failed
  deriving DecidableEq, Repr

structure Handshake (Byte : Type) where
  session : Session Byte
  state : HandshakeState
  clientRandom : Option (List Byte)
  serverRandom : Option (List Byte)
  sharedSecret : List Byte
  staticSecret : Option (List Byte)
  foldPSK : Bool
  pskKey : List Byte
  sendCipher : Option (Cipher Byte)
  recvCipher : Option (Cipher Byte)
  transcript : List Byte
  firstClientHello : Option (List Byte)
  sendHRR : Bool
  hrrSuite : UInt16
  hrrDone : Bool
  ticket : Option (List Byte)
  ticketSecret : List Byte
  ticketManager : Option (TicketManager Byte)
  resumed : Bool
  datagram : Bool
  /-- What was sealed under a handshake key, with the key. The code keeps no such record. -/
  sealed : List (List Byte × List Byte)

def newHandshake {Byte : Type} (session : Session Byte) : Handshake Byte where
  session := session
  state := .initial
  clientRandom := none
  serverRandom := none
  sharedSecret := []
  staticSecret := none
  foldPSK := false
  pskKey := []
  sendCipher := none
  recvCipher := none
  transcript := []
  firstClientHello := none
  sendHRR := false
  hrrSuite := 0
  hrrDone := false
  ticket := none
  ticketSecret := []
  ticketManager := none
  resumed := false
  datagram := false
  sealed := []

/-- What one step draws. `random` and `dummyPSK` are empty where the entropy
source fails. -/
structure Coins (Byte : Type) where
  random : Option { bytes : List Byte // bytes.length = 32 }
  staticEnc : List Byte
  keyGen : List Byte
  enc : List Byte
  dummyPSK : Option { bytes : List Byte // bytes.length = 32 }
  now : Int

variable {Byte : Type} [Octet Byte] (env : Env Byte)

abbrev HandshakeProg (Byte α : Type) := Prog (Handshake Byte) Fault α

def onSession {α : Type} (method : SessionProg Byte α) : HandshakeProg Byte α := fun h =>
  match method h.session with
  | (outcome, session) => (outcome, { h with session })

def mustRandom (coins : Coins Byte) : HandshakeProg Byte (List Byte) :=
  match coins.random with
  | some bytes => pure bytes.1
  | none => fail .panic

/-! Negotiation helpers. -/

def supportedCipherSuites : List UInt16 :=
  if env.fips then [cipherSuiteAES256GCM]
  else [cipherSuiteAES256GCM, cipherSuiteChaCha20Poly1305]

def selectCipherSuite (offered : List UInt16) : UInt16 :=
  (offered.find? fun suite => suite ∈ supportedCipherSuites env).getD 0

def resolveKEMSuite (wireID : UInt16) : Except QError (Suite Byte) :=
  match getSuite env.registry wireID with
  | some suite => .ok suite
  | none => .error .unsupportedKEMSuite

def selectMutualKEMSuite (clientSuites : List UInt16) : Option UInt16 :=
  supportedSuites.find? fun suite => suite ∈ clientSuites

/-! Folding secrets and deriving the handshake's own keys. -/

def foldStaticSecret : HandshakeProg Byte Unit := do
  let h ← read
  match h.staticSecret with
  | none => pure ()
  | some staticSecret =>
    let mixed ← lift (deriveAuthenticatedSecret env.toCrypto h.sharedSecret staticSecret)
    write fun h => { h with sharedSecret := mixed, staticSecret := none }

def foldPSKSecret : HandshakeProg Byte Unit := do
  let h ← read
  if h.foldPSK then
    let mixed ← lift (derivePSKSecret env.toCrypto h.sharedSecret h.pskKey)
    write fun h => { h with sharedSecret := mixed }
  else pure ()

/-- A failed `NewAEAD` leaves its field empty. -/
def deriveHandshakeKeys : HandshakeProg Byte Unit := do
  let h ← read
  let keys ← lift (KeySchedule.deriveHandshakeKeys env.toCrypto h.sharedSecret)
  let (sendKey, recvKey) := byRole h.session.role keys
  let send := newAEAD env.toCrypto h.session.cipherSuite sendKey
  write fun h => { h with sendCipher := send.toOption }
  let _ ← lift send
  let recv := newAEAD env.toCrypto h.session.cipherSuite recvKey
  write fun h => { h with recvCipher := recv.toOption }
  let _ ← lift recv

def deriveHandshakeSecrets : HandshakeProg Byte Unit := do
  foldStaticSecret env
  foldPSKSecret env
  deriveHandshakeKeys env

/-- A fresh KEM secret becomes the shared secret, mixed with the ticket's when
the session is resumed. -/
def installSharedSecret (freshSecret : List Byte) :
    HandshakeProg Byte Unit := do
  let h ← read
  if h.resumed then
    let mixed := deriveResumptionSecret env.toCrypto h.ticketSecret freshSecret
    write fun h => { h with sharedSecret := mixed.toOption.getD [] }
    let _ ← lift mixed
  else write fun h => { h with sharedSecret := freshSecret }

/-- The synthetic transcript after a HelloRetryRequest. -/
def replaceFirstHelloWithHash (hrrFrame : List Byte) :
    HandshakeProg Byte Unit := do
  let h ← read
  let ch1Hash ← lift (transcriptHash env.toCrypto [h.firstClientHello.getD []])
  write fun h => { h with transcript := ch1Hash ++ hrrFrame }

def initializeSessionKeys (coins : Coins Byte) : HandshakeProg Byte Unit := do
  let h ← read
  if h.datagram then
    onSession (initializeDatagramKeys env.toCrypto coins.now h.sharedSecret h.session.cipherSuite)
  else onSession (initializeKeys env.toCrypto coins.now h.sharedSecret h.session.cipherSuite)

def cleanup : HandshakeProg Byte Unit :=
  write fun h => { h with
    sharedSecret := [], clientRandom := none, serverRandom := none
    sendCipher := none, recvCipher := none, transcript := [] }

def sealFinished (plaintext : List Byte) : HandshakeProg Byte (List Byte) := do
  let h ← read
  match h.sendCipher with
  | none => fail (.err .invalidState)
  | some cipher =>
    let (outcome, moved) := sealNext env.toCrypto plaintext [] cipher
    write fun h => { h with
      sendCipher := some moved, sealed := h.sealed ++ [(cipher.key, plaintext)] }
    lift outcome

def openFinished (domain : Domain) (cipher : Cipher Byte) (data : List Byte) :
    HandshakeProg Byte (List Byte) := do
  let plaintext ← match openNext env.toCrypto cipher data [] with
    | .ok plaintext => pure plaintext
    | .error _ => fail (.err .authenticationFailed)
  let received ← lift (decodeFinished plaintext)
  let h ← read
  let expected ← lift (verifyData env.toCrypto domain h.sharedSecret h.transcript)
  reject (received ≠ expected) (.err .authenticationFailed)
  return plaintext

/-! The initiator's builders. -/

def encapsulateToPin (coins : Coins Byte) : HandshakeProg Byte (List Byte) := do
  let h ← read
  match h.session.pinnedServerKey with
  | none => return []
  | some pin =>
    let staticSuite ← liftErr (resolveKEMSuite env pin.suite)
    let (staticCT, staticSecret) ←
      liftErr (staticSuite.encapsulate pin .initiator coins.staticEnc)
    write fun h => { h with staticSecret := some staticSecret }
    return staticCT.raw

def advertisePSK : HandshakeProg Byte (List Byte) := do
  let h ← read
  match h.session.psk with
  | none => return []
  | some psk =>
    write fun h => { h with foldPSK := true, pskKey := psk }
    return h.session.pskIdentity

def stableClientRandom (coins : Coins Byte) : HandshakeProg Byte (List Byte) := do
  let h ← read
  match h.clientRandom with
  | some random => return random
  | none =>
    let random ← mustRandom coins
    write fun h => { h with clientRandom := some random }
    return random

def createClientHello (coins : Coins Byte) : HandshakeProg Byte (List Byte) := do
  let h ← read
  reject (h.state ≠ .initial) (.err .invalidState)
  let random ← stableClientRandom coins
  match h.session.localKeyPair with
  | none => fail .panic
  | some keyPair =>
    let staticCT ← encapsulateToPin env coins
    let identity ← advertisePSK
    let data ← lift (encodeClientHello {
      version := current
      random
      sessionID := h.ticket.getD []
      kemSuite := h.session.kemSuite.id
      kemSuites := supportedSuites
      chkemPublicKey := keyPair.publicRaw
      cipherSuites := supportedCipherSuites env
      chkemStaticCiphertext := staticCT
      pskIdentity := identity })
    write fun h => { h with
      transcript := h.transcript ++ data
      firstClientHello := some (h.firstClientHello.getD data)
      state := .clientHelloSent
      session := { h.session with state := .handshaking } }
    return data

def processHelloRetryRequest (coins : Coins Byte) (data : List Byte) :
    HandshakeProg Byte Unit := do
  let h ← read
  reject (h.state ≠ .clientHelloSent) (.err .invalidState)
  reject (h.hrrDone = true) (.err .unsupportedKEMSuite)
  let msg ← lift (decodeHelloRetryRequest data)
  reject (msg.version.isCompatible current = false) (.err .unsupportedVersion)
  let suite ← liftErr (resolveKEMSuite env msg.kemSuite)
  reject (msg.kemSuite ∉ supportedSuites) (.err .unsupportedKEMSuite)
  let newKeyPair ← liftErr (suite.generateKeyPair coins.keyGen)
  write fun h => { h with
    session := { h.session with kemSuite := suite, localKeyPair := some newKeyPair } }
  replaceFirstHelloWithHash env data
  write fun h => { h with hrrDone := true, state := .initial }

def decapsulateFresh (ciphertext : List Byte) : HandshakeProg Byte (List Byte) := do
  let h ← read
  let ct ← liftErr (h.session.kemSuite.parseCiphertext ciphertext)
  match h.session.localKeyPair with
  | none => fail (.err .invalidPrivateKey)
  | some keyPair => liftErr (h.session.kemSuite.decapsulate ct keyPair .initiator)

def processServerHello (data : List Byte) : HandshakeProg Byte Unit := do
  let h ← read
  reject (h.state ≠ .clientHelloSent) (.err .invalidState)
  let msg ← lift (decodeServerHello data)
  reject (msg.version.isCompatible current = false) (.err .unsupportedVersion)
  reject (msg.kemSuite ≠ h.session.kemSuite.id) (.err .unsupportedKEMSuite)
  write fun h => { h with
    resumed := h.resumed || (decide (msg.sessionID.length > 0) && h.ticket == some msg.sessionID)
    serverRandom := some msg.random }
  let freshSecret ← decapsulateFresh msg.chkemCiphertext
  installSharedSecret env freshSecret
  write fun h => { h with
    transcript := h.transcript ++ data
    session := { h.session with
      id := msg.sessionID, version := msg.version, cipherSuite := msg.cipherSuite } }
  deriveHandshakeSecrets env
  write fun h => { h with state := .serverHelloReceived }

def processServerFinished (data : List Byte) : HandshakeProg Byte Unit := do
  let h ← read
  reject (h.state ≠ .serverHelloReceived) (.err .invalidState)
  match h.recvCipher with
  | none => fail (.err .invalidState)
  | some cipher =>
    let plaintext ← openFinished env .serverFinished cipher data
    write fun h => { h with
      transcript := h.transcript ++ plaintext, state := .serverFinishedReceived }

def createClientFinished (coins : Coins Byte) :
    HandshakeProg Byte (List Byte) := do
  let h ← read
  reject (h.state ≠ .serverFinishedReceived ∨ h.sendCipher.isNone) (.err .invalidState)
  let verify ← lift (verifyData env.toCrypto .clientFinished h.sharedSecret h.transcript)
  let plaintext ← lift (encodeFinished messageTypeClientFinished verify)
  let ciphertext ← sealFinished env plaintext
  initializeSessionKeys env coins
  write fun h => { h with state := .complete }
  cleanup
  return ciphertext

/-! The responder's builders. -/

/-- A lookup function takes precedence over the single configured key. -/
def responderPSK (session : Session Byte) (identity : List Byte) : Option (List Byte) :=
  if identity.length = 0 then none
  else match session.pskLookup with
    | some lookup =>
      let key := lookup identity
      if key.length = sharedSecretSize then some key else none
    | none => if identity = session.pskIdentity then session.psk else none

/-- A ticket that does not decrypt is ignored. -/
def tryResume (coins : Coins Byte) (sessionID : List Byte) :
    HandshakeProg Byte Unit := do
  let h ← read
  match h.ticketManager with
  | none => pure ()
  | some tm =>
    if sessionID.length > 0 then
      match resume env.toCrypto coins.now sessionID tm h.session with
      | (.ok secret, session) =>
        write fun h => { h with
          resumed := true, ticketSecret := secret
          session := { session with id := sessionID } }
      | (.error _, session) => write fun h => { h with session }
    else pure ()

/-- The static leg: open the client's ciphertext with our static identity. -/
def decapsulateStatic (ciphertext : List Byte) : HandshakeProg Byte Unit := do
  let h ← read
  match h.session.staticKeyPair with
  | none => pure ()
  | some keyPair =>
    if ciphertext.length > 0 then
      let staticSuite ← liftErr (resolveKEMSuite env keyPair.suite)
      let staticCT ← liftErr (staticSuite.parseCiphertext ciphertext)
      let staticSecret ← liftErr (staticSuite.decapsulate staticCT keyPair .responder)
      write fun h => { h with staticSecret := some staticSecret }
    else pure ()

/-- Under `RequirePSK` an unknown identity folds a random key instead of failing. -/
def selectPSK (coins : Coins Byte) (identity : List Byte) : HandshakeProg Byte Unit := do
  let h ← read
  match responderPSK h.session identity with
  | some key => write fun h => { h with foldPSK := true, pskKey := key }
  | none =>
    if h.session.requirePSK then
      match coins.dummyPSK with
      | none => fail (.err .entropy)
      | some dummy => write fun h => { h with foldPSK := true, pskKey := dummy.1 }
    else pure ()

/-- What follows once the client's KEM suite is known to be ours. -/
def acceptClientHello (coins : Coins Byte) (data : List Byte) (msg : ClientHello Byte)
    (suite : Suite Byte) : HandshakeProg Byte Unit := do
  write fun h => { h with
    session := { h.session with kemSuite := suite }, clientRandom := some msg.random }
  tryResume env coins msg.sessionID
  let clientPublicKey ← liftErr (suite.parsePublicKey msg.chkemPublicKey)
  write fun h => { h with session := { h.session with remotePublicKey := some clientPublicKey } }
  let h ← read
  reject (h.session.requireStaticAuth = true ∧ msg.chkemStaticCiphertext.length = 0)
    (.err .staticAuthRequired)
  decapsulateStatic env msg.chkemStaticCiphertext
  selectPSK coins msg.pskIdentity
  let cipherSuite := selectCipherSuite env msg.cipherSuites
  write fun h => { h with session := { h.session with cipherSuite } }
  reject (isSupported cipherSuite = false) (.err .unsupportedCipherSuite)
  write fun h => { h with
    transcript := h.transcript ++ data
    session := { h.session with version := msg.version, state := .handshaking } }

/-- A hello in an unknown suite asks for a retry once. -/
def steerClient (data : List Byte) (msg : ClientHello Byte) : HandshakeProg Byte Unit := do
  let h ← read
  reject (h.hrrDone = true) (.err .unsupportedKEMSuite)
  match selectMutualKEMSuite msg.kemSuites with
  | none => fail (.err .unsupportedKEMSuite)
  | some suite =>
    write fun h => { h with
      firstClientHello := some data, hrrSuite := suite, sendHRR := true }

def processClientHello (coins : Coins Byte) (data : List Byte) :
    HandshakeProg Byte Unit := do
  let h ← read
  reject (h.state ≠ .initial) (.err .invalidState)
  let msg ← lift (decodeClientHello data)
  reject (msg.version.isCompatible current = false) (.err .unsupportedVersion)
  match getSuite env.registry msg.kemSuite with
  | none => steerClient data msg
  | some suite => acceptClientHello env coins data msg suite

def createHelloRetryRequest : HandshakeProg Byte (List Byte) := do
  let h ← read
  reject (h.sendHRR = false) (.err .invalidState)
  let data := encodeHelloRetryRequest ⟨current, h.hrrSuite⟩
  replaceFirstHelloWithHash env data
  write fun h => { h with sendHRR := false, hrrDone := true }
  return data

def createServerHello (coins : Coins Byte) : HandshakeProg Byte (List Byte) := do
  let h ← read
  match h.session.remotePublicKey with
  | none => fail (.err .invalidState)
  | some remote =>
    let random ← mustRandom coins
    write fun h => { h with serverRandom := some random }
    let (ct, freshSecret) ← liftErr (h.session.kemSuite.encapsulate remote .responder coins.enc)
    installSharedSecret env freshSecret
    let data ← lift (encodeServerHello {
      version := current
      random
      sessionID := h.session.id
      kemSuite := h.session.kemSuite.id
      chkemCiphertext := ct.raw
      cipherSuite := h.session.cipherSuite })
    write fun h => { h with transcript := h.transcript ++ data }
    deriveHandshakeSecrets env
    write fun h => { h with state := .serverHelloSent }
    return data

def createServerFinished : HandshakeProg Byte (List Byte) := do
  let h ← read
  reject (h.state ≠ .serverHelloSent ∨ h.sendCipher.isNone) (.err .invalidState)
  let verify ← lift (verifyData env.toCrypto .serverFinished h.sharedSecret h.transcript)
  let plaintext ← lift (encodeFinished messageTypeServerFinished verify)
  let ciphertext ← sealFinished env plaintext
  write fun h => { h with
    transcript := h.transcript ++ plaintext, state := .serverFinishedSent }
  return ciphertext

/-- There is no check for a missing cipher here: opening with none panics. -/
def processClientFinished (coins : Coins Byte) (data : List Byte) :
    HandshakeProg Byte Unit := do
  let h ← read
  reject (h.state ≠ .serverFinishedSent) (.err .invalidState)
  match h.recvCipher with
  | none => fail .panic
  | some cipher =>
    let _ ← openFinished env .clientFinished cipher data
    initializeSessionKeys env coins
    write fun h => { h with state := .complete }
    cleanup

end QuantumGo.Flights
