import QuantumGo.DatagramSpecs
import QuantumGo.Interleaving
import QuantumGo.ReplayFilter

/-!
A rekey of the stream transport between two peers that send at the same time. The lock
sections of a session and the writes of frames are the steps of a run; a reliable stream
carries the frames of each direction in the order they were written. Records of the
application are numbered, sealed and written under the write lock, records of a rekey are
numbered and sealed outside it. A receiving goroutine opens a record in one step: nothing
else touches the receive ciphers and the window.
-/

namespace QuantumGo.StreamRekey

open Octets Effect Interleaving Wire Aead Kem Tunnel Records RecordTypes
open StreamTransport (Kind)

variable {Byte : Type} (crypto : Crypto Byte)

/-- A record with what was sealed in it. `generation` counts the send keys that its
sender had before the one it was sealed with. -/
structure Entry (Byte : Type) where
  kind : Kind
  generation : Nat
  seq : Nat
  text : List Byte
  ciphertext : List Byte
  msg : List Byte

inductive Stage (Byte : Type) where
  | free
  | begun (text : List Byte)
  | numbered (text : List Byte) (seq : Nat)
  | ready (e : Entry Byte)

/-- What a receiving goroutine does with a rekey payload: it has decoded one, or it
replies and switches its send key behind that. -/
inductive Handling (Byte : Type) where
  | idle
  | payload (key : List Byte) (activationSeq : Nat)
  | replying

/-- `sender` holds the write lock unless it is free. `log` is everything written, `taken`
counts what was read of the peer's. -/
structure Side (Byte : Type) where
  session : Session Byte
  generation : Nat
  sender : Stage Byte
  rekeyer : Stage Byte
  handling : Handling Byte
  log : List (Entry Byte)
  taken : Nat

structure System (Byte : Type) where
  initiator : Side Byte
  responder : Side Byte

def System.side (sys : System Byte) : Role → Side Byte
  | .initiator => sys.initiator
  | .responder => sys.responder

def System.update (sys : System Byte) (role : Role) (side : Side Byte) : System Byte :=
  match role with
  | .initiator => { sys with initiator := side }
  | .responder => { sys with responder := side }

def takeNumber : SessionProg Byte Nat := do
  let s ← read
  write fun s => { s with sendSeq := (s.sendSeq + 1) % seqLimit }
  return s.sendSeq

section Model
variable [Octet Byte]

/-- The rest of an Encrypt: the cipher is read in one lock section. -/
def sealNumbered (plaintext : List Byte) (seq : Nat) (s : Session Byte) :
    Except Fault (List Byte) :=
  match s.sendCipher with
  | none => .error (.err .invalidState)
  | some cipher =>
    if seq ≥ s.sendEpochStartSeq ∧ seq - s.sendEpochStartSeq ≥ maxPacketsBeforeRekey then
      .error (.err .nonceExhausted)
    else sealWithNonce crypto cipher (buildAEADNonce s.sendNoncePrefix seq) plaintext (toBE 8 seq)

/-- The two steps without anything in between are the Encrypt. -/
theorem encrypt_eq (plaintext : List Byte) : encrypt crypto plaintext = (do
      let seq ← takeNumber
      let s ← read
      let ciphertext ← lift (sealNumbered crypto plaintext seq s)
      return (ciphertext, seq)) := by
  funext s
  rw [encrypt, read_bind, write_bind]
  simp only [takeNumber, run_bind, run_read, run_write, run_pure, sealNumbered, run_lift]
  cases s.sendCipher with
  | none => rfl
  | some cipher =>
    dsimp only
    by_cases spent : s.sendSeq ≥ s.sendEpochStartSeq ∧
        s.sendSeq - s.sendEpochStartSeq ≥ maxPacketsBeforeRekey
    · rw [run_bind_error (run_reject_pos _ spent), if_pos spent]
    · rw [run_bind_ok (run_reject_neg _ spent), if_neg spent]
      rfl

def encode (kind : Kind) (seq : Nat) (ciphertext : List Byte) : Except Fault (List Byte) :=
  match kind with
  | .data => encodeData seq ciphertext
  | .rekey => .ok (encodeRekey seq ciphertext)

def Side.stage (side : Side Byte) : Kind → Stage Byte
  | .data => side.sender
  | .rekey => side.rekeyer

def Side.withStage (side : Side Byte) (kind : Kind) (stage : Stage Byte) : Side Byte :=
  match kind with
  | .data => { side with sender := stage }
  | .rekey => { side with rekeyer := stage }

def lock (data : List Byte) (side : Side Byte) : Side Byte :=
  match side.sender with
  | .free => { side with sender := .begun data }
  | _ => side

def number (kind : Kind) (side : Side Byte) : Side Byte :=
  match side.stage kind with
  | .begun text => { side with session := (takeNumber side.session).2 }.withStage kind
      (.numbered text side.session.sendSeq)
  | _ => side

/-- A record that is not sealed ends its call; a reply is then given up. -/
def abandon (kind : Kind) (side : Side Byte) : Side Byte :=
  match kind, side.handling with
  | .rekey, .replying => { side with rekeyer := .free, handling := .idle }
  | kind, _ => side.withStage kind .free

def sealStage (kind : Kind) (side : Side Byte) : Side Byte :=
  match side.stage kind with
  | .numbered text seq =>
    match sealNumbered crypto text seq side.session with
    | .error _ => abandon kind side
    | .ok ciphertext =>
      match encode kind seq ciphertext with
      | .error _ => abandon kind side
      | .ok msg => side.withStage kind (.ready ⟨kind, side.generation, seq, text, ciphertext, msg⟩)
  | _ => side

/-- The sender writes and gives the lock back; a rekey record waits for it. -/
def writeStage (kind : Kind) (side : Side Byte) : Side Byte :=
  match kind, side.stage kind, side.sender with
  | .data, .ready e, _ => { side with log := side.log ++ [e], sender := .free }
  | .rekey, .ready e, .free => { side with log := side.log ++ [e], rekeyer := .free }
  | _, _, _ => side

def initiate (coins : List Byte) (side : Side Byte) : Side Byte :=
  match initiateRekey coins side.session with
  | (.ok (newPublicKey, activationSeq), session) =>
    match encodeRekeyPayload newPublicKey activationSeq with
    | .ok text => { side with session, rekeyer := .begun text }
    | .error _ => { side with session }
  | (.error _, session) => { side with session }

def openRecord (kind : Kind) (msg : List Byte) (s : Session Byte) :
    Except Fault (List Byte) × Session Byte :=
  match decodeRecord kind.messageType msg with
  | .error stop => (.error stop, s)
  | .ok (seq, ciphertext) => decrypt crypto ciphertext seq s

/-- A round of Receive takes the next record of the peer. The payload of a rekey record
is decoded, data is handed over. -/
def receive (peer side : Side Byte) : Side Byte :=
  match side.handling, peer.log[side.taken]? with
  | .idle, some e =>
    let side := { side with taken := side.taken + 1 }
    if e.msg.head?.map val = some messageTypeRekey then
      match openRecord crypto .rekey e.msg side.session with
      | (.error _, session) => { side with session }
      | (.ok plaintext, session) =>
        match decodeRekeyPayload plaintext with
        | .error _ => { side with session }
        | .ok (key, activationSeq) => { side with session, handling := .payload key activationSeq }
    else { side with session := (openRecord crypto .data e.msg side.session).2 }
  | _, _ => side

/-- `handleRekey` behind its decoding: a responder in no rekey prepares its reply, an
initiator in one completes it. -/
def apply (coins : List Byte) (now : Int) (side : Side Byte) : Side Byte :=
  match side.handling with
  | .payload key activationSeq =>
    let s := side.session
    if s.role = .responder ∧ s.rekeyInProgress = false then
      match prepareRekeyResponse crypto coins key activationSeq s with
      | (.error _, session) => { side with session, handling := .idle }
      | (.ok responseCT, session) =>
        match encodeRekeyPayload responseCT activationSeq with
        | .error _ => { side with session, handling := .idle }
        | .ok text => { side with session, rekeyer := .begun text, handling := .replying }
    else if s.role = .initiator ∧ s.rekeyInProgress = true then
      match processRekeyResponse crypto now key s with
      | (.error _, session) => { side with session, handling := .idle }
      | (.ok (), session) =>
        { side with session, generation := side.generation + 1, handling := .idle }
    else { side with handling := .idle }
  | _ => side

def activate (now : Int) (side : Side Byte) : Side Byte :=
  match side.handling, side.rekeyer with
  | .replying, .free =>
    let switched := if side.session.pendingSendCipher.isSome then 1 else 0
    { side with
      session := (activateRekeySend now side.session).2
      generation := side.generation + switched, handling := .idle }
  | _, _ => side

inductive Event (Byte : Type) where
  | lock (role : Role) (data : List Byte)
  | number (role : Role) (kind : Kind)
  | seals (role : Role) (kind : Kind)
  | writes (role : Role) (kind : Kind)
  | initiate (coins : List Byte)
  | receive (role : Role)
  | apply (role : Role) (coins : List Byte) (now : Int)
  | activate (role : Role) (now : Int)

def perform (sys : System Byte) : Event Byte → System Byte
  | .lock role data => sys.update role (lock data (sys.side role))
  | .number role kind => sys.update role (number kind (sys.side role))
  | .seals role kind => sys.update role (sealStage crypto kind (sys.side role))
  | .writes role kind => sys.update role (writeStage kind (sys.side role))
  | .initiate coins => sys.update .initiator (initiate coins sys.initiator)
  | .receive role => sys.update role (receive crypto (sys.side role.peer) (sys.side role))
  | .apply role coins now => sys.update role (apply crypto coins now (sys.side role))
  | .activate role now => sys.update role (activate now (sys.side role))

def after (events : List (Event Byte)) (sys : System Byte) : System Byte :=
  run (perform crypto) events sys

omit [Octet Byte] in
def side (session : Session Byte) : Side Byte := ⟨session, 0, .free, .free, .idle, [], 0⟩

omit [Octet Byte] in
def start (initiator responder : Session Byte) : System Byte := ⟨side initiator, side responder⟩

/-! What the results say. -/

/-- No record under an older key is written behind one under a newer key, and the next
record of the peer opens to what was sealed in it. -/
structure Lossless (crypto : Crypto Byte) (sys : System Byte) : Prop where
  ordered : ∀ role, (sys.side role).log.Pairwise fun e e' => e.generation ≤ e'.generation
  opens : ∀ role e, (sys.side role).handling = .idle →
    (sys.side role.peer).log[(sys.side role).taken]? = some e →
    (openRecord crypto e.kind e.msg (sys.side role).session).1 = .ok e.text

def Stage.Prompt (log : List (Entry Byte)) : Stage Byte → Prop
  | .ready e => ∀ e' ∈ log, e'.seq < e.seq + 1024
  | _ => True

omit [Octet Byte] in
instance (log : List (Entry Byte)) : (stage : Stage Byte) → Decidable (stage.Prompt log)
  | .free | .begun _ | .numbered .. => inferInstanceAs (Decidable True)
  | .ready e => inferInstanceAs (Decidable (∀ e' ∈ log, e'.seq < e.seq + 1024))

/-- The counter of the numbers does not wrap, and a rekey record is written before a
record numbered 1024 or more behind it. -/
def Prompt (sys : System Byte) : Event Byte → Prop
  | .number role _ => (sys.side role).session.sendSeq + 1 < seqLimit
  | .writes role .rekey => (sys.side role).rekeyer.Prompt (sys.side role).log
  | _ => True

instance (sys : System Byte) : (e : Event Byte) → Decidable (Prompt sys e)
  | .lock .. => inferInstanceAs (Decidable True)
  | .number role _ => inferInstanceAs (Decidable ((sys.side role).session.sendSeq + 1 < seqLimit))
  | .seals .. | .writes _ .data => inferInstanceAs (Decidable True)
  | .writes role .rekey =>
    inferInstanceAs (Decidable ((sys.side role).rekeyer.Prompt (sys.side role).log))
  | .initiate _ | .receive _ | .apply .. | .activate .. => inferInstanceAs (Decidable True)

end Model

end QuantumGo.StreamRekey
