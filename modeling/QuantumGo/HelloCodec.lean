import QuantumGo.Effect
import QuantumGo.Wire

/-!
Encoding and decoding of the handshake messages (pkg/protocol/codec.go). The
decoders run over a log of the spans of the input they read, so that an
out-of-range slice shows as a panic and a read past the declared payload shows in
the log. An input is a byte string with no spare capacity behind it, as
`ReadMessage` allocates it: slicing past its length then panics.
-/

namespace QuantumGo.HelloCodec

open Octets Effect Wire

variable {Byte : Type} [Octet Byte]

/-! Encoding. -/

def encodeUint16 (value : UInt16) : List Byte := toBE 2 value.toNat

def frame (messageType : UInt8) (payload : List Byte) : List Byte :=
  lit messageType :: (toBE 4 payload.length ++ payload)

def optionalField (width : Nat) (field : List Byte) : List Byte :=
  if field.length > 0 then lit 1 :: prefixed width field else [lit 0]

def helloFields (version : Version) (random sessionID : List Byte) : List Byte :=
  lit version.major :: lit version.minor :: (random ++ prefixed 1 sessionID)

def clientHelloPayload (m : ClientHello Byte) : List Byte :=
  helloFields m.version m.random m.sessionID ++
    (encodeUint16 m.kemSuite ++ (lit (UInt8.ofNat m.kemSuites.length) ::
      (m.kemSuites.flatMap encodeUint16 ++ (prefixed 2 m.chkemPublicKey ++
        (toBE 2 m.cipherSuites.length ++ (m.cipherSuites.flatMap encodeUint16 ++
          (optionalField 2 m.chkemStaticCiphertext ++ optionalField 1 m.pskIdentity)))))))

def encodeClientHello (m : ClientHello Byte) : Except Fault (List Byte) := do
  m.validate
  return frame messageTypeClientHello (clientHelloPayload m)

def serverHelloPayload (m : ServerHello Byte) : List Byte :=
  helloFields m.version m.random m.sessionID ++
    (encodeUint16 m.kemSuite ++ (prefixed 2 m.chkemCiphertext ++ encodeUint16 m.cipherSuite))

def encodeServerHello (m : ServerHello Byte) : Except Fault (List Byte) := do
  m.validate
  return frame messageTypeServerHello (serverHelloPayload m)

def encodeHelloRetryRequest (m : HelloRetryRequest) : List Byte :=
  frame messageTypeHelloRetryRequest
    (lit m.version.major :: lit m.version.minor :: encodeUint16 m.kemSuite)

def encodeFinished (messageType : UInt8) (verifyData : List Byte) : Except Fault (List Byte) :=
  if verifyData.length ≠ 32 then .error (.err .invalidMessage)
  else .ok (frame messageType verifyData)

def alertLevelFatal : UInt8 := 0x02
def alertCodeHandshakeFailure : UInt8 := 0x03

/-- The description is cut to what its one-byte length can say. -/
def encodeAlert (level code : UInt8) (description : List Byte) : List Byte :=
  let text := description.take 255
  frame messageTypeAlert (lit level :: lit code :: prefixed 1 text)

/-! Reading. -/

/-- The half-open range of input offsets that one access touches. -/
structure Span where
  lo : Nat
  hi : Nat
  deriving DecidableEq, Repr

abbrev Reader (α : Type) := Prog (List Span) Fault α

def bytesAt (data : List Byte) (lo hi : Nat) : Reader (List Byte) :=
  if lo ≤ hi ∧ hi ≤ data.length then do
    write (⟨lo, hi⟩ :: ·)
    return slice data lo hi
  else fail .panic

def byteAt (data : List Byte) (offset : Nat) : Reader UInt8 := do
  let field ← bytesAt data offset (offset + 1)
  return UInt8.ofNat (ofBE field)

def uint16At (data : List Byte) (offset : Nat) : Reader UInt16 := do
  let field ← bytesAt data offset (offset + 2)
  return UInt16.ofNat (ofBE field)

def uint16sAt (data : List Byte) : Nat → Nat → Reader (List UInt16)
  | _, 0 => return []
  | offset, count + 1 => do
    let first ← uint16At data offset
    let rest ← uint16sAt data (offset + 2) count
    return first :: rest

def readLenPrefixed (data : List Byte) (offset payloadEnd : Nat) :
    Reader (List Byte × Nat) := do
  reject (offset + 2 > payloadEnd) (.err .invalidMessage)
  let n ← uint16At data offset
  let offset := offset + 2
  reject (offset + n.toNat > payloadEnd) (.err .invalidMessage)
  let out ← bytesAt data offset (offset + n.toNat)
  return (out, offset + n.toNat)

def payloadLen (data : List Byte) : Nat := ofBE (slice data 1 5)

/-- The checks both hello decoders begin with; returns `payloadEnd`. -/
def openFrame (messageType : UInt8) (minPayloadLen : Nat) (data : List Byte) :
    Reader Nat := do
  reject (data.length < headerSize) (.err .invalidMessage)
  let kind ← byteAt data 0
  reject (kind ≠ messageType) (.err .invalidMessage)
  let length ← bytesAt data 1 5
  reject (data.length < headerSize + ofBE length) (.err .invalidMessage)
  reject (ofBE length < minPayloadLen) (.err .invalidMessage)
  return headerSize + ofBE length

/-- Version, random and session id, and the offset behind them. The session id
is sliced by the length byte alone: no check against `payloadEnd` precedes it. -/
def readHelloFields (data : List Byte) :
    Reader (Version × List Byte × List Byte × Nat) := do
  let offset := headerSize
  let major ← byteAt data offset
  let minor ← byteAt data (offset + 1)
  let offset := offset + 2
  let random ← bytesAt data offset (offset + 32)
  let offset := offset + 32
  let sessionIDLen ← byteAt data offset
  let offset := offset + 1
  if sessionIDLen.toNat > 0 then
    let sessionID ← bytesAt data offset (offset + sessionIDLen.toNat)
    return (⟨major, minor⟩, random, sessionID, offset + sessionIDLen.toNat)
  else return (⟨major, minor⟩, random, [], offset)

def readStaticCiphertext (data : List Byte) (offset payloadEnd : Nat) :
    Reader (List Byte × Nat) := do
  if offset < payloadEnd then
    let present ← byteAt data offset
    if present = 1 then readLenPrefixed data (offset + 1) payloadEnd
    else return ([], offset + 1)
  else return ([], offset)

def readPSKIdentity (data : List Byte) (offset payloadEnd : Nat) : Reader (List Byte) := do
  if offset < payloadEnd then
    let present ← byteAt data offset
    let offset := offset + 1
    if present = 1 then
      reject (offset + 1 > payloadEnd) (.err .invalidMessage)
      let idLen ← byteAt data offset
      let offset := offset + 1
      reject (idLen = 0 ∨ offset + idLen.toNat > payloadEnd) (.err .invalidMessage)
      bytesAt data offset (offset + idLen.toNat)
    else return []
  else return []

def clientHelloMinPayload : Nat := 2 + 32 + 1 + 2 + 1 + 2 + 2 + 2

def readClientHello (data : List Byte) : Reader (ClientHello Byte) := do
  let payloadEnd ← openFrame messageTypeClientHello clientHelloMinPayload data
  let (version, random, sessionID, offset) ← readHelloFields data
  reject (offset + 3 > payloadEnd) (.err .invalidMessage)
  let kemSuite ← uint16At data offset
  let offset := offset + 2
  let kemSuiteCount ← byteAt data offset
  let offset := offset + 1
  reject (offset + 2 * kemSuiteCount.toNat > payloadEnd) (.err .invalidMessage)
  let kemSuites ← uint16sAt data offset kemSuiteCount.toNat
  let offset := offset + 2 * kemSuiteCount.toNat
  let (pk, offset) ← readLenPrefixed data offset payloadEnd
  reject (offset + 2 > payloadEnd) (.err .invalidMessage)
  let cipherSuiteCount ← uint16At data offset
  let offset := offset + 2
  reject (offset + 2 * cipherSuiteCount.toNat > payloadEnd) (.err .invalidMessage)
  let cipherSuites ← uint16sAt data offset cipherSuiteCount.toNat
  let offset := offset + 2 * cipherSuiteCount.toNat
  let (ct, offset) ← readStaticCiphertext data offset payloadEnd
  let identity ← readPSKIdentity data offset payloadEnd
  let m : ClientHello Byte :=
    ⟨version, random, sessionID, kemSuite, kemSuites, pk, cipherSuites, ct, identity⟩
  lift m.validate
  return m

def serverHelloMinPayload : Nat := 2 + 32 + 1 + 2 + 2 + 2

def readServerHello (data : List Byte) : Reader (ServerHello Byte) := do
  let payloadEnd ← openFrame messageTypeServerHello serverHelloMinPayload data
  let (version, random, sessionID, offset) ← readHelloFields data
  reject (offset + 2 > payloadEnd) (.err .invalidMessage)
  let kemSuite ← uint16At data offset
  let (ct, offset) ← readLenPrefixed data (offset + 2) payloadEnd
  reject (offset + 2 > payloadEnd) (.err .invalidMessage)
  let cipherSuite ← uint16At data offset
  let m : ServerHello Byte := ⟨version, random, sessionID, kemSuite, ct, cipherSuite⟩
  lift m.validate
  return m

/-- A decoder's result, the log forgotten. -/
def decodeClientHello (data : List Byte) : Except Fault (ClientHello Byte) :=
  (readClientHello data []).1

def decodeServerHello (data : List Byte) : Except Fault (ServerHello Byte) :=
  (readServerHello data []).1

def readHelloRetryRequest (data : List Byte) : Reader HelloRetryRequest := do
  reject (data.length < headerSize + 4) (.err .invalidMessage)
  let kind ← byteAt data 0
  reject (kind ≠ messageTypeHelloRetryRequest) (.err .invalidMessage)
  let major ← byteAt data headerSize
  let minor ← byteAt data (headerSize + 1)
  let kemSuite ← uint16At data (headerSize + 2)
  return ⟨⟨major, minor⟩, kemSuite⟩

def decodeHelloRetryRequest (data : List Byte) : Except Fault HelloRetryRequest :=
  (readHelloRetryRequest data []).1

def readFinished (data : List Byte) : Reader (List Byte) := do
  reject (data.length < headerSize + 32) (.err .invalidMessage)
  let kind ← byteAt data 0
  reject (kind ≠ messageTypeClientFinished ∧ kind ≠ messageTypeServerFinished)
    (.err .invalidMessage)
  bytesAt data headerSize (headerSize + 32)

def decodeFinished (data : List Byte) : Except Fault (List Byte) := (readFinished data []).1

/-! Reads inside the input finish with what stands there. -/

variable {data : List Byte}

omit [Octet Byte] in
theorem bytesAt_yields {lo hi : Nat} (order : lo ≤ hi)
    (inside : hi ≤ data.length) : Yields (bytesAt data lo hi) (slice data lo hi) := by
  intro log
  exact ⟨⟨lo, hi⟩ :: log, by simp [bytesAt, order, inside, run_bind]⟩

theorem byteAt_yields {offset : Nat} (inside : offset + 1 ≤ data.length) :
    Yields (byteAt data offset) (UInt8.ofNat (ofBE (slice data offset (offset + 1)))) :=
  .bind (bytesAt_yields (by omega) inside) (.pure _)

def WellFramed (messageType : UInt8) (minPayloadLen : Nat) (data : List Byte) : Prop :=
  headerSize ≤ data.length ∧ UInt8.ofNat (ofBE (slice data 0 1)) = messageType ∧
    headerSize + payloadLen data ≤ data.length ∧ minPayloadLen ≤ payloadLen data

theorem openFrame_yields {messageType : UInt8} {minPayloadLen : Nat}
    (framed : WellFramed messageType minPayloadLen data) :
    Yields (openFrame messageType minPayloadLen data) (headerSize + payloadLen data) := by
  obtain ⟨header, kind, whole, enough⟩ := framed
  apply Yields.bind (.reject (Nat.not_lt.mpr header))
  apply Yields.bind (byteAt_yields (Nat.le_trans (by decide) header))
  apply Yields.bind (.reject (by simpa using kind))
  apply Yields.bind (bytesAt_yields (show 1 ≤ 5 by decide) header)
  apply Yields.bind (.reject (Nat.not_lt.mpr whole))
  apply Yields.bind (.reject (Nat.not_lt.mpr enough))
  exact .pure _

omit [Octet Byte] in
theorem bytesAt_ok_iff {field : List Byte} {lo hi : Nat} {log log' : List Span} :
    bytesAt data lo hi log = (.ok field, log') ↔
      (lo ≤ hi ∧ hi ≤ data.length) ∧ field = slice data lo hi ∧ log' = ⟨lo, hi⟩ :: log := by
  unfold bytesAt
  by_cases inside : lo ≤ hi ∧ hi ≤ data.length
  · rw [if_pos inside, write_bind, pure_ok_iff]
    exact ⟨fun read => ⟨inside, read⟩, And.right⟩
  · simp [inside]

theorem wellFramed_of_openFrame {messageType : UInt8} {minPayloadLen payloadEnd : Nat}
    {log log' : List Span}
    (opened : openFrame messageType minPayloadLen data log = (.ok payloadEnd, log')) :
    WellFramed messageType minPayloadLen data := by
  unfold openFrame byteAt at opened
  simp only [bind_ok_iff, reject_ok_iff, pure_ok_iff, bytesAt_ok_iff] at opened
  obtain ⟨_, _, ⟨header, -⟩, kind, _, ⟨_, _, ⟨-, rfl, -⟩, rfl, -⟩, _, _, ⟨same, -⟩, length, _,
    ⟨-, rfl, -⟩, _, _, ⟨whole, -⟩, _, _, ⟨enough, -⟩, -⟩ := opened
  exact ⟨Nat.not_lt.mp header, not_not.mp same, Nat.not_lt.mp whole, Nat.not_lt.mp enough⟩

theorem decodeClientHello_wellFramed {message : ClientHello Byte}
    (read : decodeClientHello data = .ok message) :
    WellFramed messageTypeClientHello clientHelloMinPayload data := by
  rcases run : readClientHello data [] with ⟨outcome, log⟩
  have finished : outcome = .ok message := by simpa [decodeClientHello, run] using read
  rw [finished] at run
  unfold readClientHello at run
  obtain ⟨_, _, opened, -⟩ := bind_ok_iff.mp run
  exact wellFramed_of_openFrame opened

end QuantumGo.HelloCodec
