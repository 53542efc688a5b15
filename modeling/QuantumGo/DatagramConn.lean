import QuantumGo.DatagramRekey

/-!
An established datagram session in its endpoint: the state of datagramSession
(pkg/tunnel/datagram.go), the sealing of a frame and Send (dgram_conn.go), the two ends of a
rekey (dgram_rekey.go), and the receive path of DATA and CLOSE frames in routeDatagram.
Datagrams are logged with their destination as they are written. A rekey message is one entry
of the log; its fragments are left out.
-/

namespace QuantumGo.DatagramConn

open Octets Effect Wire Aead Tunnel Records DatagramSession
open DatagramRekey (Attempt)

def datagramMTU : Nat := 1200
def datagramMaxDataPayload : Nat := datagramMTU - (datagramHeaderSize + aesTagSize)
def dataInboxCap : Nat := 64
def datagramHandshakeMaxRetries : Nat := 8

/-- `rekey` is the `Rekey` call in its loop with the number of flights it has sent,
`answered` the cached response with the epoch it answers. -/
structure Conn (Byte Addr : Type) where
  session : Session Byte
  index : UInt32
  peerIndex : UInt32
  peerAddr : Addr
  registered : Bool
  closed : Bool
  recvCh : List (List Byte)
  bytesReceived : Nat
  packetsRecv : Nat
  rekey : Option (Attempt Byte × Nat)
  answered : Option (UInt8 × List Byte)
  written : List (Addr × List Byte)

abbrev ConnProg (Byte Addr α : Type) := Prog (Conn Byte Addr) Fault α

variable {Byte Addr : Type} (crypto : Crypto Byte)

def onSession {α : Type} (method : SessionProg Byte α) : ConnProg Byte Addr α := fun c =>
  match method c.session with
  | (outcome, session) => (outcome, { c with session })

def writeTo (frame : List Byte) : ConnProg Byte Addr Unit :=
  write fun c => { c with written := c.written ++ [(c.peerAddr, frame)] }

def closeSession : ConnProg Byte Addr Unit := onSession Records.closeSession

def teardown : ConnProg Byte Addr Unit :=
  write fun c => { c with registered := false, closed := true }

variable [Octet Byte]

/-! Sending. -/

def sealFrame (frameType : UInt8) (payload : List Byte) :
    ConnProg Byte Addr (List Byte) := do
  let seq ← onSession nextDatagramSeq
  let epoch ← onSession datagramSendEpoch
  let c ← read
  let header := encodeDatagramHeader ⟨frameType, epoch, c.peerIndex, seq⟩
  onSession (datagramSealTo crypto header header seq payload)

def send (p : List Byte) : ConnProg Byte Addr Unit := do
  reject (p.length > datagramMaxDataPayload) (.err .messageTooLarge)
  let frame ← sealFrame crypto datagramFrameData p
  writeTo frame

def sealFrames (crypto : Crypto Byte) : List (List Byte) → ConnProg Byte Addr (List (List Byte))
  | [] => pure []
  | p :: rest => do
    let frame ← sealFrame crypto datagramFrameData p
    let frames ← sealFrames crypto rest
    return frame :: frames

/-- An error return gives nothing; a panic goes through. -/
def ifOk {α : Type} (program : ConnProg Byte Addr α) : ConnProg Byte Addr (Option α) := fun c =>
  match program c with
  | (.ok value, c') => (.ok (some value), c')
  | (.error (.err _), c') => (.ok none, c')
  | (.error .panic, c') => (.error .panic, c')

/-! The initiator's rekey. -/

def beginRekey (coins : List Byte) : ConnProg Byte Addr Unit := do
  let c ← read
  reject (c.session.role ≠ .initiator) (.err .invalidState)
  reject (c.rekey.isSome = true) (.err .rekeyInProgress)
  let keyPair ← liftErr (c.session.kemSuite.generateKeyPair coins)
  let (body, epoch) ← onSession (buildDatagramRekeyInit crypto keyPair)
  write fun c => { c with rekey := some (⟨keyPair, epoch, body⟩, 0) }

/-! The responder's half: a RekeyInit that names this session. -/

def answerRekeyInit (coins : List Byte) (now : Int) (epoch : UInt8)
    (body : List Byte) : ConnProg Byte Addr Unit := do
  let current ← onSession datagramSendEpoch
  if epoch ≠ current then pure ()
  else
    let response ← ifOk (onSession (respondToDatagramRekey crypto coins now epoch body))
    match response with
    | none => pure ()
    | some (respBody, _) =>
      write fun c => { c with answered := some (epoch, respBody) }
      writeTo respBody

def handleRekeyInit (coins : List Byte) (now : Int) (epoch : UInt8)
    (body : List Byte) : ConnProg Byte Addr Unit := do
  let c ← read
  if c.registered = false then pure ()
  else
    match c.answered with
    | some (source, response) =>
      if source = epoch then writeTo response
      else answerRekeyInit crypto coins now epoch body
    | none => answerRekeyInit crypto coins now epoch body

/-! The receive path. -/

inductive Stage (Byte : Type) where
  | arrived
  | found (h : DatagramHeader) (body : List Byte)
  | admitted (h : DatagramHeader) (body : List Byte)
  | opened (h : DatagramHeader) (plaintext : List Byte)
  | accepted (h : DatagramHeader) (plaintext : List Byte)
  | roamed (plaintext : List Byte)
  | counted (plaintext : List Byte)
  | leaving
  | done
  deriving DecidableEq

/-- Frames of another kind, and those that name no session, go elsewhere. -/
def lookup (data : List Byte) (c : Conn Byte Addr) : Stage Byte :=
  match peekDatagramType data, parseDatagramHeader data with
  | .ok frameType, .ok (h, body) =>
    if (frameType = datagramFrameData ∨ frameType = datagramFrameClose) ∧
        h.recvIndex = c.index ∧ c.registered = true then .found h body
    else .done
  | _, _ => .done

def advance [DecidableEq Addr] (now : Int) (src : Addr) (data : List Byte) :
    Stage Byte → Conn Byte Addr → Stage Byte × Conn Byte Addr
  | .arrived, c => (lookup data c, c)
  | .found h body, c =>
    if (c.session.dgramReplay.map (ReplayWindow.admissible · h.seq)) = some true then
      (.admitted h body, c)
    else (.done, c)
  | .admitted h body, c =>
    match datagramOpen crypto now h.epoch h.seq body (datagramAAD data) c.session with
    | .ok plaintext => (.opened h plaintext, c)
    | .error _ => (.done, c)
  | .opened h plaintext, c =>
    match c.session.dgramReplay with
    | none => (.done, c)
    | some window =>
      let (fresh, window') := ReplayWindow.check window h.seq
      let c' := { c with session := { c.session with dgramReplay := some window' } }
      if fresh then (.accepted h plaintext, c') else (.done, c')
  | .accepted h plaintext, c =>
    if h.frameType = datagramFrameClose then (.leaving, (closeSession c).2)
    else (.roamed plaintext, if c.peerAddr = src then c else { c with peerAddr := src })
  | .roamed plaintext, c => (.counted plaintext, { c with
      bytesReceived := c.bytesReceived + plaintext.length, packetsRecv := c.packetsRecv + 1 })
  | .counted plaintext, c =>
    (.done, if c.recvCh.length < dataInboxCap then { c with recvCh := c.recvCh ++ [plaintext] }
      else c)
  | .leaving, c => (.done, (teardown c).2)
  | .done, c => (.done, c)

end QuantumGo.DatagramConn
