import QuantumGo.Octets

/-!
The messages of pkg/protocol/messages.go with their validity checks, the error
values of internal/errors, and the constants both use. A field whose absence the
code recognises by its length alone is a list; `nil` and empty are then one value.
-/

namespace QuantumGo.Wire

/-- The error values of internal/errors that the modelled functions return. The
wrappers around them carry only text for a log. -/
inductive QError where
  | invalidKeySize
  | invalidCiphertext
  | decapsulationFailed
  | keyGenerationFailed
  | encapsulationFailed
  | invalidPublicKey
  | invalidPrivateKey
  | authenticationFailed
  | invalidNonce
  | ciphertextTooShort
  | nonceExhausted
  | invalidMessage
  | unsupportedVersion
  | unsupportedCipherSuite
  | invalidState
  | messageTooLarge
  | replayDetected
  | cipherSuiteNotFIPSApproved
  | invalidTicket
  | expiredTicket
  | serverKeyMismatch
  | staticAuthRequired
  | staticAuthMisconfigured
  | pskMisconfigured
  | invalidPSK
  | unsupportedKEMSuite
  | tunnelClosed
  | rekeyInProgress
  | entropy
  | endOfStream
  | peerAlert
  deriving DecidableEq, Repr

/-- How a call ends without a value: an error return, or a run-time panic. -/
inductive Fault where
  | err (error : QError)
  | panic
  deriving DecidableEq, Repr

structure Version where
  major : UInt8
  minor : UInt8
  deriving DecidableEq, Repr

def current : Version := ⟨6, 0⟩

def Version.isCompatible (version other : Version) : Bool := version.major == other.major

def messageTypeClientHello : UInt8 := 0x01
def messageTypeServerHello : UInt8 := 0x02
def messageTypeClientFinished : UInt8 := 0x03
def messageTypeServerFinished : UInt8 := 0x04
def messageTypeHelloRetryRequest : UInt8 := 0x05
def messageTypeData : UInt8 := 0x10
def messageTypeRekey : UInt8 := 0x11
def messageTypePing : UInt8 := 0x12
def messageTypePong : UInt8 := 0x13
def messageTypeClose : UInt8 := 0x14
def messageTypeDatagramRekeyInit : UInt8 := 0x15
def messageTypeDatagramRekeyResponse : UInt8 := 0x16
def messageTypeAlert : UInt8 := 0xF0

def headerSize : Nat := 5
def maxMessageSize : Nat := 65536
def maxSessionIDLen : Nat := 255
def maxPSKIdentitySize : Nat := 255

def cipherSuiteAES256GCM : UInt16 := 0x0001
def cipherSuiteChaCha20Poly1305 : UInt16 := 0x0002

def isSupported (suite : UInt16) : Bool :=
  suite == cipherSuiteAES256GCM || suite == cipherSuiteChaCha20Poly1305

def isFIPSApproved (suite : UInt16) : Bool := suite == cipherSuiteAES256GCM

structure ClientHello (Byte : Type) where
  version : Version
  random : List Byte
  sessionID : List Byte
  kemSuite : UInt16
  kemSuites : List UInt16
  chkemPublicKey : List Byte
  cipherSuites : List UInt16
  chkemStaticCiphertext : List Byte
  pskIdentity : List Byte
  deriving DecidableEq

structure ServerHello (Byte : Type) where
  version : Version
  random : List Byte
  sessionID : List Byte
  kemSuite : UInt16
  chkemCiphertext : List Byte
  cipherSuite : UInt16
  deriving DecidableEq

structure HelloRetryRequest where
  version : Version
  kemSuite : UInt16
  deriving DecidableEq, Repr

variable {Byte : Type}

/-- A run of `if bad { return err }` statements: the first failing check decides
the error. -/
def firstFailure : List (Bool × QError) → Except Fault Unit
  | [] => .ok ()
  | (bad, error) :: rest => if bad then .error (.err error) else firstFailure rest

theorem firstFailure_ok_iff (checks : List (Bool × QError)) :
    firstFailure checks = .ok () ↔ ∀ check ∈ checks, check.1 = false := by
  induction checks with
  | nil => simp [firstFailure]
  | cons check rest ih => cases bad : check.1 <;> simp [firstFailure, bad, ih]

theorem firstFailure_no_panic (checks : List (Bool × QError)) :
    firstFailure checks ≠ .error .panic := by
  induction checks with
  | nil => simp [firstFailure]
  | cons check rest ih => cases bad : check.1 <;> simp [firstFailure, bad, ih]

def ClientHello.validate (m : ClientHello Byte) : Except Fault Unit :=
  firstFailure [ (!m.version.isCompatible current, .unsupportedVersion),
    (m.random.length != 32, .invalidMessage),
    (m.chkemPublicKey.length == 0, .invalidPublicKey),
    (decide (m.sessionID.length > maxSessionIDLen), .invalidMessage),
    (m.cipherSuites.length == 0, .invalidMessage),
    (m.cipherSuites.any (fun suite => !isSupported suite), .unsupportedCipherSuite),
    (decide (m.pskIdentity.length > maxPSKIdentitySize), .invalidMessage)]

def ServerHello.validate (m : ServerHello Byte) : Except Fault Unit :=
  firstFailure [ (!m.version.isCompatible current, .unsupportedVersion),
    (m.random.length != 32, .invalidMessage),
    (decide (m.sessionID.length > maxSessionIDLen), .invalidMessage),
    (m.chkemCiphertext.length == 0, .invalidCiphertext),
    (!isSupported m.cipherSuite, .unsupportedCipherSuite)]

theorem ClientHello.validate_ok_iff (m : ClientHello Byte) : m.validate = .ok () ↔
      m.version.major = current.major ∧ m.random.length = 32 ∧ m.chkemPublicKey ≠ [] ∧
      m.sessionID.length ≤ maxSessionIDLen ∧ m.cipherSuites ≠ [] ∧
      (∀ suite ∈ m.cipherSuites, isSupported suite = true) ∧
      m.pskIdentity.length ≤ maxPSKIdentitySize := by
  simp [ClientHello.validate, firstFailure_ok_iff, Version.isCompatible]

theorem ServerHello.validate_ok_iff (m : ServerHello Byte) : m.validate = .ok () ↔
      m.version.major = current.major ∧ m.random.length = 32 ∧
      m.sessionID.length ≤ maxSessionIDLen ∧ m.chkemCiphertext ≠ [] ∧
      isSupported m.cipherSuite = true := by
  simp [ServerHello.validate, firstFailure_ok_iff, Version.isCompatible]

end QuantumGo.Wire
