import QuantumGo.Kem
import QuantumGo.KeySchedule
import QuantumGo.ReplayWindow
import QuantumGo.Ticket

/-!
The tunnel session (pkg/tunnel/session.go, dgram_session.go): its fields and how
the keys of both transports are installed. Counters, observers and the time of
the last activity are left out: nothing modelled reads them. A clock reading is
an argument of the call that makes it.
-/

namespace QuantumGo.Tunnel

open Octets Effect Wire Aead KeySchedule Kem Ticket

inductive SessionState where
  | new
  | handshaking
  | established
  | rekeying
  | closed
  deriving DecidableEq, Repr

/-- The cipher pair of one datagram epoch. `retireAfter` is unset for the
current epoch. -/
structure DatagramEpoch (Byte : Type) where
  epoch : UInt8
  sendCipher : Cipher Byte
  recvCipher : Cipher Byte
  startSeq : Nat
  startedAt : Int
  retireAfter : Option Int
  deriving DecidableEq

structure DatagramEpochState (Byte : Type) where
  cur : DatagramEpoch Byte
  prev : Option (DatagramEpoch Byte)
  deriving DecidableEq

structure Session (Byte : Type) where
  id : List Byte
  role : Role
  state : SessionState
  version : Version
  cipherSuite : UInt16
  kemSuite : Suite Byte
  localKeyPair : Option (KeyPair Byte)
  remotePublicKey : Option (PublicKey Byte)
  staticKeyPair : Option (KeyPair Byte)
  pinnedServerKey : Option (PublicKey Byte)
  requireStaticAuth : Bool
  psk : Option (List Byte)
  pskIdentity : List Byte
  pskLookup : Option (List Byte → List Byte)
  requirePSK : Bool
  masterSecret : Option (List Byte)
  sendCipher : Option (Cipher Byte)
  recvCipher : Option (Cipher Byte)
  sendSeq : Nat
  sendEpochStartSeq : Nat
  replayWindow : ReplayWindow.Window
  establishedAt : Option Int
  rekeyInProgress : Bool
  pendingRekeyKeyPair : Option (KeyPair Byte)
  pendingRekeySecret : Option (List Byte)
  rekeyActivationSeq : Nat
  pendingRecvCipher : Option (Cipher Byte)
  pendingSendCipher : Option (Cipher Byte)
  sendNoncePrefix : List Byte
  recvNoncePrefix : List Byte
  dgramEpochs : Option (DatagramEpochState Byte)
  dgramReplay : Option ReplayWindow.Window

structure Env (Byte : Type) extends Crypto Byte where
  registry : Registry Byte

variable {Byte : Type} [Octet Byte]

abbrev SessionProg (Byte α : Type) := Prog (Session Byte) Fault α

def liftErr {σ α : Type} (outcome : Except QError α) : Prog σ Fault α :=
  lift (outcome.mapError .err)

/-- A responder never reads its own key pair, so it gets none. -/
def newSession (suite : Suite Byte) (role : Role) (sessionID coins : List Byte) :
    Except QError (Session Byte) := do
  let keyPair ← match role with
    | .initiator => some <$> suite.generateKeyPair coins
    | .responder => pure none
  return {
    id := sessionID, role, state := .new, version := ⟨0, 0⟩, cipherSuite := 0
    kemSuite := suite, localKeyPair := keyPair, remotePublicKey := none
    staticKeyPair := none, pinnedServerKey := none, requireStaticAuth := false
    psk := none, pskIdentity := [], pskLookup := none, requirePSK := false
    masterSecret := none, sendCipher := none, recvCipher := none
    sendSeq := 0, sendEpochStartSeq := 0
    replayWindow := ReplayWindow.newWindow
    establishedAt := none, rekeyInProgress := false, pendingRekeyKeyPair := none
    pendingRekeySecret := none, rekeyActivationSeq := 0, pendingRecvCipher := none
    pendingSendCipher := none, sendNoncePrefix := [], recvNoncePrefix := []
    dgramEpochs := none, dgramReplay := none }

def byRole {α : Type} (role : Role) (pair : α × α) : α × α :=
  match role with
  | .initiator => pair
  | .responder => (pair.2, pair.1)

def initializeKeys (crypto : Crypto Byte) (now : Int) (masterSecret : List Byte)
    (cipherSuite : UInt16) : SessionProg Byte Unit := do
  let s ← read
  reject (s.state = .closed) (.err .tunnelClosed)
  reject (masterSecret.length ≠ sharedSecretSize) (.err .invalidKeySize)
  write fun s => { s with masterSecret := some masterSecret, cipherSuite }
  let keys ← lift (deriveTrafficKeys crypto masterSecret)
  let (sendKey, recvKey) := byRole s.role keys
  let send := newAEAD crypto cipherSuite sendKey
  write fun s => { s with sendCipher := send.toOption }
  let _ ← lift send
  let recv := newAEAD crypto cipherSuite recvKey
  write fun s => { s with recvCipher := recv.toOption }
  let _ ← lift recv
  let prefixes ← lift (deriveStreamNoncePrefixes crypto masterSecret)
  let (sendNoncePrefix, recvNoncePrefix) := byRole s.role prefixes
  write fun s => { s with
    sendNoncePrefix, recvNoncePrefix, sendEpochStartSeq := s.sendSeq
    establishedAt := some now, state := .established }

def deriveDatagramCiphers (crypto : Crypto Byte) (role : Role) (masterSecret : List Byte)
    (cipherSuite : UInt16) : Except Fault (Cipher Byte × Cipher Byte) := do
  let keys ← deriveTrafficKeys crypto masterSecret
  let (sendKey, recvKey) := byRole role keys
  let send ← newAEAD crypto cipherSuite sendKey
  let recv ← newAEAD crypto cipherSuite recvKey
  return (send, recv)

def initializeDatagramKeys (crypto : Crypto Byte) (now : Int) (masterSecret : List Byte)
    (cipherSuite : UInt16) : SessionProg Byte Unit := do
  let s ← read
  reject (s.state = .closed) (.err .tunnelClosed)
  reject (masterSecret.length ≠ sharedSecretSize) (.err .invalidKeySize)
  write fun s => { s with masterSecret := some masterSecret, cipherSuite }
  let (send, recv) ← lift (deriveDatagramCiphers crypto s.role masterSecret cipherSuite)
  let prefixes ← lift (deriveDatagramNoncePrefixes crypto masterSecret)
  let (sendNoncePrefix, recvNoncePrefix) := byRole s.role prefixes
  write fun s => { s with
    sendNoncePrefix, recvNoncePrefix, sendCipher := some send, recvCipher := some recv
    dgramEpochs := some ⟨⟨0, send, recv, 0, now, none⟩, none⟩
    dgramReplay := some (ReplayWindow.newWindow)
    establishedAt := some now, state := .established }

def resume (crypto : Crypto Byte) (now : Int) (ticketBytes : List Byte)
    (tm : TicketManager Byte) : SessionProg Byte (List Byte) := do
  let ticket ← lift (decryptTicket crypto tm now ticketBytes)
  write fun s => { s with cipherSuite := ticket.cipherSuite }
  return ticket.masterSecret

end QuantumGo.Tunnel
