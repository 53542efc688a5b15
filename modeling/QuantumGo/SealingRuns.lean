import QuantumGo.DatagramConn
import QuantumGo.StreamRekey
import QuantumGo.SessionReplay

/-!
The sealing operations of one session, interleaved. Encrypt, Send, SendBatch, Close and
sealRekeyControl draw a number with an atomic addition, and read the cipher and the nonce
prefix later, in a lock section of their own; between the two Send, SendBatch and Close
read the epoch they write into the header. Any number of such calls, and any rekeys or
epoch advances, may run between these steps. What was sealed is logged. The send lock of a
connection, which keeps its Sends and SendBatches apart, is left out: it only takes
interleavings away.
-/

namespace QuantumGo.SealingRuns

open Octets Effect Interleaving Wire Aead KeySchedule Tunnel Records DatagramSession SymbolicKem
open StreamRekey (takeNumber sealNumbered)
open DatagramSpecs (datagramSeal_ok_iff)
open RecordTypes (buildAEADNonce_length decrypt_decrypts initiateRekey_cases
  prepareRekeyResponse_prepares processRekeyResponse_completes)

inductive Mode where
  | stream
  | datagram
  deriving DecidableEq, Repr

inductive FrameKind where
  | data
  | close
  deriving DecidableEq, Repr

inductive ControlKind where
  | init
  | response
  deriving DecidableEq, Repr

/-- What a sealed text is for. Data and rekey records of a stream look the same here. -/
inductive Kind where
  | record
  | frame (kind : FrameKind)
  | control (kind : ControlKind)
  deriving DecidableEq, Repr

def FrameKind.frameType : FrameKind → UInt8
  | .data => datagramFrameData
  | .close => datagramFrameClose

def ControlKind.msgType : ControlKind → UInt8
  | .init => messageTypeDatagramRekeyInit
  | .response => messageTypeDatagramRekeyResponse

/-- A successful seal. `headerEpoch` is the epoch written in the header, `epoch` the one whose
cipher was used. A stream has neither. -/
structure Sealing (Byte : Type) where
  kind : Kind
  cipher : Cipher Byte
  noncePrefix : List Byte
  seq : Nat
  aad : List Byte
  text : List Byte
  headerEpoch : UInt8
  epoch : UInt8


variable {Byte : Type} [Octet Byte] {mode : Mode}

def Sealing.nonce (e : Sealing Byte) : List Byte := buildAEADNonce e.noncePrefix e.seq

def Sealing.ciphertext (crypto : Crypto Byte) (e : Sealing Byte) : List Byte :=
  crypto.sealText e.cipher.suite e.cipher.key e.nonce e.text e.aad

/-! The last step of each call, as what it seals. -/

def recordSealing (text : List Byte) (seq : Nat) (s : Session Byte) : Option (Sealing Byte) :=
  match s.sendCipher with
  | none => none
  | some cipher =>
    if seq ≥ s.sendEpochStartSeq ∧ seq - s.sendEpochStartSeq ≥ maxPacketsBeforeRekey then none
    else some ⟨.record, cipher, s.sendNoncePrefix, seq, toBE 8 seq, text, 0, 0⟩

def frameHeader (kind : FrameKind) (index : UInt32) (seq : Nat) (epoch : UInt8) : DatagramHeader :=
  ⟨kind.frameType, epoch, index, seq⟩

def frameSealing (kind : FrameKind) (index : UInt32) (payload : List Byte) (seq : Nat)
    (headerEpoch : UInt8) (s : Session Byte) : Option (Sealing Byte) :=
  match s.dgramEpochs with
  | none => none
  | some epochs =>
    if epochAge epochs seq ≥ maxPacketsBeforeRekey then none
    else some ⟨.frame kind, epochs.cur.sendCipher, s.sendNoncePrefix, seq,
      encodeDatagramHeader (frameHeader kind index seq headerEpoch), payload, headerEpoch,
      epochs.cur.epoch⟩

/-- There is no limit here. -/
def controlSealing (kind : ControlKind) (payload : List Byte) (seq : Nat) (s : Session Byte) :
    Option (Sealing Byte) :=
  match s.dgramEpochs with
  | none => none
  | some epochs => some ⟨.control kind, epochs.cur.sendCipher, s.sendNoncePrefix, seq,
      rekeyAAD kind.msgType epochs.cur.epoch seq, payload, epochs.cur.epoch, epochs.cur.epoch⟩

variable {s : Session Byte} {seq : Nat} {e : Sealing Byte}

theorem recordSealing_some_iff {text : List Byte} : recordSealing text seq s = some e ↔
      ∃ cipher, s.sendCipher = some cipher ∧
        ¬ (seq ≥ s.sendEpochStartSeq ∧ seq - s.sendEpochStartSeq ≥ maxPacketsBeforeRekey) ∧
        e = ⟨.record, cipher, s.sendNoncePrefix, seq, toBE 8 seq, text, 0, 0⟩ := by
  unfold recordSealing
  cases s.sendCipher with
  | none => simp
  | some cipher =>
    dsimp only
    split
    · rename_i spent
      exact ⟨nofun, fun ⟨_, _, fresh, _⟩ => absurd spent fresh⟩
    · rename_i fresh
      simp only [Option.some.injEq, exists_eq_left', eq_comm (b := e)]
      exact ⟨fun same => ⟨fresh, same⟩, And.right⟩

variable {payload : List Byte} {kind : FrameKind} {index : UInt32}

theorem frameSealing_some_iff {headerEpoch : UInt8} :
    frameSealing kind index payload seq headerEpoch s = some e ↔
      ∃ epochs, s.dgramEpochs = some epochs ∧ epochAge epochs seq < maxPacketsBeforeRekey ∧
        e = ⟨.frame kind, epochs.cur.sendCipher, s.sendNoncePrefix, seq,
          encodeDatagramHeader (frameHeader kind index seq headerEpoch), payload, headerEpoch,
          epochs.cur.epoch⟩ := by
  unfold frameSealing
  cases s.dgramEpochs with
  | none => simp
  | some epochs =>
    dsimp only
    split
    · rename_i old
      exact ⟨nofun, fun ⟨_, same, young, _⟩ =>
        absurd (Option.some.inj same ▸ young) (not_lt.mpr old)⟩
    · rename_i young
      simp only [Option.some.injEq, exists_eq_left', eq_comm (b := e)]
      exact ⟨fun same => ⟨not_le.mp young, same⟩, And.right⟩

theorem controlSealing_some_iff {kind : ControlKind} : controlSealing kind payload seq s = some e ↔
      ∃ epochs, s.dgramEpochs = some epochs ∧
        e = ⟨.control kind, epochs.cur.sendCipher, s.sendNoncePrefix, seq,
          rekeyAAD kind.msgType epochs.cur.epoch seq, payload, epochs.cur.epoch,
          epochs.cur.epoch⟩ := by
  unfold controlSealing
  cases s.dgramEpochs with
  | none => simp
  | some epochs => simp [eq_comm]

variable {crypto : Crypto Byte} {epoch : UInt8} {s' : Session Byte} {ciphertext : List Byte}

/-- Encrypt behind its number returns the ciphertext of what is logged. -/
theorem sealNumbered_ok_iff {text : List Byte} : sealNumbered crypto text seq s = .ok ciphertext ↔
      ∃ e, recordSealing text seq s = some e ∧ ciphertext = e.ciphertext crypto := by
  simp only [recordSealing_some_iff]
  unfold sealNumbered
  cases s.sendCipher with
  | none => simp
  | some cipher =>
    dsimp only
    split
    · rename_i spent
      exact ⟨nofun, fun ⟨_, ⟨_, _, fresh, _⟩, _⟩ => absurd spent fresh⟩
    · rename_i fresh
      simp only [sealWithNonce, buildAEADNonce_length, ne_eq, not_true_eq_false, if_false,
        Except.ok.injEq]
      constructor
      · rintro rfl
        exact ⟨_, ⟨cipher, rfl, fresh, rfl⟩, rfl⟩
      · rintro ⟨_, ⟨_, same, -, rfl⟩, rfl⟩
        cases same
        rfl

/-- What DatagramSeal and DatagramSealTo return under the header of a frame. -/
theorem datagramSeal_frame_iff :
    datagramSeal crypto (encodeDatagramHeader (frameHeader kind index seq epoch)) seq payload s =
        (.ok ciphertext, s') ↔
      s' = s ∧ ∃ e, frameSealing kind index payload seq epoch s = some e ∧
        ciphertext = e.ciphertext crypto := by
  simp only [datagramSeal_ok_iff, frameSealing_some_iff]
  refine and_congr_right fun _ => ?_
  constructor
  · rintro ⟨epochs, present, young, rfl⟩
    exact ⟨_, ⟨epochs, present, young, rfl⟩, rfl⟩
  · rintro ⟨_, ⟨epochs, present, young, rfl⟩, rfl⟩
    exact ⟨epochs, present, young, rfl⟩

/-- sealRekeyControl draws its number and then seals what is logged. -/
theorem sealRekeyControl_iff {kind : ControlKind} {body : List Byte} :
    sealRekeyControl crypto kind.msgType payload s = (.ok (body, epoch), s') ↔
      s' = (nextDatagramSeq s).2 ∧ ∃ e, controlSealing kind payload s.sendSeq s' = some e ∧
        body = toBE 8 e.seq ++ e.ciphertext crypto ∧ epoch = e.epoch := by
  have drawn : nextDatagramSeq s = (.ok s.sendSeq, (nextDatagramSeq s).2) := rfl
  rw [sealRekeyControl, run_bind_ok drawn, read_bind]
  generalize (nextDatagramSeq s).2 = next
  simp only [lift_bind_ok_iff, pure_ok_iff, Prod.mk.injEq, controlSealing_some_iff,
    DatagramSpecs.epochsOf_ok_iff, sealWithNonce, buildAEADNonce_length, ne_eq, not_true_eq_false,
    if_false, Except.ok.injEq]
  constructor
  · rintro ⟨epochs, present, _, rfl, ⟨rfl, rfl⟩, rfl⟩
    exact ⟨rfl, _, ⟨epochs, present, rfl⟩, rfl, rfl⟩
  · rintro ⟨rfl, _, ⟨epochs, present, rfl⟩, rfl, rfl⟩
    exact ⟨epochs, present, _, rfl, ⟨rfl, rfl⟩, rfl⟩

omit [Octet Byte] in
theorem datagramSendEpoch_ok_iff : datagramSendEpoch s = (.ok epoch, s') ↔
      s' = s ∧ ∃ epochs, s.dgramEpochs = some epochs ∧ epoch = epochs.cur.epoch := by
  simp only [datagramSendEpoch, read_bind, lift_bind_ok_iff, DatagramSpecs.epochsOf_ok_iff,
    pure_ok_iff]
  constructor
  · rintro ⟨epochs, present, rfl, rfl⟩
    exact ⟨rfl, epochs, present, rfl⟩
  · rintro ⟨rfl, epochs, present, rfl⟩
    exact ⟨epochs, present, rfl, rfl⟩

def Sealing.frame (crypto : Crypto Byte) (e : Sealing Byte) : List Byte :=
  e.aad ++ e.ciphertext crypto

omit [Octet Byte] in
theorem onSession_returns {Addr α : Type} {method : SessionProg Byte α} {value : α}
    {c c' : DatagramConn.Conn Byte Addr}
    (finished : DatagramConn.onSession method c = (.ok value, c')) :
    ∃ s, method c.session = (.ok value, s) ∧ c' = { c with session := s } := by
  obtain ⟨outcome, rfl⟩ := Prod.mk.inj finished
  exact ⟨_, Prod.ext outcome rfl, rfl⟩

/-- A Send, an entry of a SendBatch or a Close with nothing in between returns the frame of what
is logged. -/
theorem sealFrame_returns {Addr : Type} {frame : List Byte} {c c' : DatagramConn.Conn Byte Addr}
    (finished : DatagramConn.sealFrame crypto kind.frameType payload c = (.ok frame, c')) :
    c' = { c with session := (nextDatagramSeq c.session).2 } ∧
      ∃ epoch e, datagramSendEpoch c'.session = (.ok epoch, c'.session) ∧
        frameSealing kind c.peerIndex payload c.session.sendSeq epoch c'.session = some e ∧
        frame = e.frame crypto := by
  have drawn : DatagramConn.onSession nextDatagramSeq c = (.ok c.session.sendSeq,
      { c with session := (nextDatagramSeq c.session).2 }) := rfl
  rw [DatagramConn.sealFrame, run_bind_ok drawn] at finished
  obtain ⟨epoch, _, headed, finished⟩ := bind_ok_iff.mp finished
  obtain ⟨next, read, rfl⟩ := onSession_returns headed
  obtain ⟨rfl, epochs, present, rfl⟩ := datagramSendEpoch_ok_iff.mp read
  rw [read_bind] at finished
  obtain ⟨_, sealed, rfl⟩ := onSession_returns finished
  obtain ⟨ciphertext, s, made, rest⟩ := bind_ok_iff.mp sealed
  obtain ⟨rfl, e, entry, rfl⟩ := datagramSeal_frame_iff.mp made
  obtain ⟨rfl, rfl⟩ := pure_ok_iff.mp rest
  refine ⟨rfl, _, e, read, entry, ?_⟩
  obtain ⟨_, -, -, rfl⟩ := frameSealing_some_iff.mp entry
  rfl

/-! Calls on their way. -/

/-- How far a call has come. A number is drawn first; the header of a frame gets its epoch
next; the seal is last. `rest` are the payloads of a batch behind the present one. -/
inductive Task (Byte : Type) : Mode → Type where
  | encrypt (text : List Byte) : Task Byte .stream
  | encryptNumbered (text : List Byte) (seq : Nat) : Task Byte .stream
  | frames (kind : FrameKind) (payloads : List (List Byte)) : Task Byte .datagram
  | frameNumbered (kind : FrameKind) (payload : List Byte) (rest : List (List Byte)) (seq : Nat) :
      Task Byte .datagram
  | frameHeaded (kind : FrameKind) (payload : List Byte) (rest : List (List Byte)) (seq : Nat)
      (epoch : UInt8) : Task Byte .datagram
  | control (kind : ControlKind) (payload : List Byte) : Task Byte .datagram
  | controlNumbered (kind : ControlKind) (payload : List Byte) (seq : Nat) : Task Byte .datagram
  | done {m : Mode} : Task Byte m

inductive Request (Byte : Type) : Mode → Type where
  | encrypt (text : List Byte) : Request Byte .stream
  | send (payload : List Byte) : Request Byte .datagram
  | sendBatch (payloads : List (List Byte)) : Request Byte .datagram
  | close : Request Byte .datagram
  | control (kind : ControlKind) (payload : List Byte) : Request Byte .datagram

/-- Payloads that are too large are turned away before anything is drawn. -/
def batch (payloads : List (List Byte)) : Task Byte .datagram :=
  if ∃ p ∈ payloads, p.length > DatagramConn.datagramMaxDataPayload then .done
  else .frames .data payloads

def Request.task : Request Byte mode → Task Byte mode
  | .encrypt text => .encrypt text
  | .send payload => batch [payload]
  | .sendBatch payloads => batch payloads
  | .close => .frames .close [[]]
  | .control kind payload => .control kind payload

def Task.step (index : UInt32) :
    Task Byte mode → Session Byte → Task Byte mode × Session Byte × Option (Sealing Byte)
  | .encrypt text, s => (.encryptNumbered text s.sendSeq, (takeNumber s).2, none)
  | .encryptNumbered text seq, s => (.done, s, recordSealing text seq s)
  | .frames _ [], s => (.done, s, none)
  | .frames kind (p :: rest), s =>
    (.frameNumbered kind p rest s.sendSeq, (nextDatagramSeq s).2, none)
  | .frameNumbered kind p rest seq, s =>
    match (datagramSendEpoch s).1 with
    | .ok epoch => (.frameHeaded kind p rest seq epoch, s, none)
    | .error _ => (.done, s, none)
  | .frameHeaded kind p rest seq epoch, s =>
    match frameSealing kind index p seq epoch s with
    | some e => (.frames kind rest, s, some e)
    | none => (.done, s, none)
  | .control kind payload, s =>
    (.controlNumbered kind payload s.sendSeq, (nextDatagramSeq s).2, none)
  | .controlNumbered kind payload seq, s => (.done, s, controlSealing kind payload seq s)
  | .done, s => (.done, s, none)

/-- The tasks that seal at their next step. -/
inductive Seals (index : UInt32) (s : Session Byte) : {mode : Mode} → Task Byte mode →
    Sealing Byte → Prop where
  | record (text : List Byte) (seq : Nat) {e : Sealing Byte}
      (made : recordSealing text seq s = some e) : Seals index s (.encryptNumbered text seq) e
  | frame (kind : FrameKind) (payload : List Byte) (rest : List (List Byte)) (seq : Nat)
      (epoch : UInt8) {e : Sealing Byte} (made : frameSealing kind index payload seq epoch s =
        some e) :
      Seals index s (.frameHeaded kind payload rest seq epoch) e
  | control (kind : ControlKind) (payload : List Byte) (seq : Nat) {e : Sealing Byte}
      (made : controlSealing kind payload seq s = some e) :
      Seals index s (.controlNumbered kind payload seq) e

theorem step_seals {task : Task Byte mode} (made : (task.step index s).2.2 = some e) :
    Seals index s task e := by
  cases task with
  | encryptNumbered text seq => exact .record text seq made
  | frameHeaded kind payload rest seq epoch =>
    cases sealed : frameSealing kind index payload seq epoch s with
    | none => simp [Task.step, sealed] at made
    | some e' =>
      obtain rfl : e' = e := by simpa [Task.step, sealed] using made
      exact .frame kind payload rest seq epoch sealed
  | controlNumbered kind payload seq => exact .control kind payload seq made
  | frameNumbered kind payload rest seq =>
    exfalso
    revert made
    simp only [Task.step]
    split <;> rintro ⟨⟩
  | frames kind payloads => cases payloads <;> cases made
  | encrypt | control | done => cases made

def Task.number : Task Byte mode → Option Nat
  | .encryptNumbered _ seq => some seq
  | .frameNumbered _ _ _ seq => some seq
  | .frameHeaded _ _ _ seq _ => some seq
  | .controlNumbered _ _ seq => some seq
  | _ => none

def Task.draws : Task Byte mode → Nat
  | .encrypt _ => 1
  | .frames _ (_ :: _) => 1
  | .control _ _ => 1
  | _ => 0

/-- The calls that change keys, each one lock section; and Decrypt, which may. A datagram
session advances with a secret that its rekey derived. -/
inductive KeyOp (Byte : Type) : Mode → Type where
  | decrypt (ciphertext : List Byte) (seq : Nat) : KeyOp Byte .stream
  | initiateRekey (coins : List Byte) : KeyOp Byte .stream
  | prepareRekeyResponse (coins newPublicKey : List Byte) (activationSeq : Nat) : KeyOp Byte .stream
  | processRekeyResponse (now : Int) (ciphertext : List Byte) : KeyOp Byte .stream
  | activateRekeySend (now : Int) : KeyOp Byte .stream
  | activatePendingKeys (now : Int) : KeyOp Byte .stream
  | rekey (now : Int) (newMasterSecret : List Byte) : KeyOp Byte .stream
  | advance (now : Int) (newSecret : List Byte) : KeyOp Byte .datagram
  | close {m : Mode} : KeyOp Byte m

def changeKeys (crypto : Crypto Byte) : KeyOp Byte mode → Session Byte → Session Byte
  | .decrypt ciphertext seq, s => (decrypt crypto ciphertext seq s).2
  | .initiateRekey coins, s => (initiateRekey coins s).2
  | .prepareRekeyResponse coins newPublicKey activationSeq, s =>
    (prepareRekeyResponse crypto coins newPublicKey activationSeq s).2
  | .processRekeyResponse now ciphertext, s => (processRekeyResponse crypto now ciphertext s).2
  | .activateRekeySend now, s => (activateRekeySend now s).2
  | .activatePendingKeys now, s => (activatePendingKeys now s).2
  | .rekey now newMasterSecret, s => (rekey crypto now newMasterSecret s).2
  | .advance now newSecret, s => (advanceDatagramEpoch crypto now newSecret s).2
  | .close, s => (closeSession s).2

/-- `index` is the peer's receive index, `draws` counts the numbers drawn since the start. -/
structure World (Byte : Type) (mode : Mode) where
  session : Session Byte
  index : UInt32
  tasks : List (Task Byte mode)
  log : List (Sealing Byte)
  draws : Nat

inductive Event (Byte : Type) (mode : Mode) where
  | call (request : Request Byte mode)
  | step (i : Nat)
  | keys (op : KeyOp Byte mode)

def perform (crypto : Crypto Byte) (w : World Byte mode) : Event Byte mode → World Byte mode
  | .call request => { w with tasks := w.tasks ++ [request.task] }
  | .step i =>
    match w.tasks[i]? with
    | none => w
    | some task =>
      let (task', session, sealing) := task.step w.index w.session
      { w with session, tasks := w.tasks.set i task', log := w.log ++ sealing.toList
               draws := w.draws + task.draws }
  | .keys op => { w with session := changeKeys crypto op w.session }

def after (crypto : Crypto Byte) (events : List (Event Byte mode)) (w : World Byte mode) :
    World Byte mode :=
  run (perform crypto) events w

def start (mode : Mode) (session : Session Byte) (index : UInt32) : World Byte mode :=
  ⟨session, index, [], [], 0⟩

/-! Numbers. -/

section Numbers
variable {crypto : Crypto Byte} {w : World Byte mode} {base i : Nat}

omit [Octet Byte] in
theorem takeNumber_run (s : Session Byte) :
    (takeNumber s).2 = { s with sendSeq := (s.sendSeq + 1) % seqLimit } := rfl

omit [Octet Byte] in
theorem nextDatagramSeq_run (s : Session Byte) :
    (nextDatagramSeq s).2 = { s with sendSeq := (s.sendSeq + 1) % seqLimit } := rfl

/-- A step draws a number and holds it, or it keeps the session and hands the number it holds
to its next stage or to a seal, or drops it. -/
theorem Task.step_cases (task : Task Byte mode) (index : UInt32) (s : Session Byte) :
    (task.draws = 1 ∧ task.number = none ∧ (task.step index s).2.2 = none ∧
      (task.step index s).1.number = some s.sendSeq ∧
      (task.step index s).2.1 = { s with sendSeq := (s.sendSeq + 1) % seqLimit }) ∨
    (task.draws = 0 ∧ (task.step index s).2.1 = s ∧
      ((task.step index s).2.2.toList.map Sealing.seq ++
        (task.step index s).1.number.toList).Sublist task.number.toList) := by
  cases task with
  | encrypt text => exact .inl ⟨rfl, rfl, rfl, rfl, takeNumber_run s⟩
  | control kind payload => exact .inl ⟨rfl, rfl, rfl, rfl, nextDatagramSeq_run s⟩
  | frames kind payloads =>
    cases payloads with
    | nil => exact .inr ⟨rfl, rfl, .refl _⟩
    | cons p rest => exact .inl ⟨rfl, rfl, rfl, rfl, nextDatagramSeq_run s⟩
  | encryptNumbered text seq =>
    refine .inr ⟨rfl, rfl, ?_⟩
    rcases made : recordSealing text seq s with _ | e
    · simp [Task.step, Task.number, made]
    · obtain ⟨cipher, -, -, rfl⟩ := recordSealing_some_iff.mp made
      simp [Task.step, Task.number, made]
  | frameNumbered kind p rest seq =>
    refine .inr ⟨rfl, ?_⟩
    simp only [Task.step]
    split <;> simp [Task.number]
  | frameHeaded kind p rest seq epoch =>
    refine .inr ⟨rfl, ?_⟩
    rcases made : frameSealing kind index p seq epoch s with _ | e
    · simp [Task.step, Task.number, made]
    · obtain ⟨epochs, -, -, rfl⟩ := frameSealing_some_iff.mp made
      simp [Task.step, Task.number, made]
  | controlNumbered kind payload seq =>
    refine .inr ⟨rfl, rfl, ?_⟩
    rcases made : controlSealing kind payload seq s with _ | e
    · simp [Task.step, Task.number, made]
    · obtain ⟨epochs, -, rfl⟩ := controlSealing_some_iff.mp made
      simp [Task.step, Task.number, made]
  | done => exact .inr ⟨rfl, rfl, .refl _⟩

def sending (s : Session Byte) :=
  (s.sendSeq, s.sendCipher, s.sendEpochStartSeq, s.sendNoncePrefix, s.dgramEpochs)

inductive Switches (s s' : Session Byte) : Mode → Prop
  | still {m : Mode} (same : sending s' = sending s) : Switches s s' m
  | switched (cipher : Cipher Byte)
      (now : sending s' = (s.sendSeq, some cipher, s.sendSeq, s.sendNoncePrefix, s.dgramEpochs)) :
      Switches s s' .stream
  | advanced (cipher : Option (Cipher Byte)) (before later : DatagramEpochState Byte)
      (present : s.dgramEpochs = some before) (next : later.cur.epoch = before.cur.epoch + 1)
      (begins : later.cur.startSeq = s.sendSeq)
      (now : sending s' = (s.sendSeq, cipher, s.sendEpochStartSeq, s.sendNoncePrefix, some later)) :
      Switches s s' .datagram
  | closed {m : Mode} (now : sending s' =
      (s.sendSeq, none, s.sendEpochStartSeq, s.sendNoncePrefix, s.dgramEpochs)) : Switches s s' m

theorem decrypt_keeps (ciphertext : List Byte) (seq : Nat) :
    Keeps sending (decrypt crypto ciphertext seq) := by
  intro s
  have outcome := decrypt_decrypts crypto s ciphertext seq
  generalize decrypt crypto ciphertext seq s = run at outcome ⊢
  cases outcome <;> rfl

omit [Octet Byte] in
theorem initiateRekey_keeps (coins : List Byte) :
    Keeps sending (initiateRekey coins : SessionProg Byte _) := by
  intro s
  obtain ⟨stop, run⟩ | ⟨keyPair, -, -, -, run⟩ := initiateRekey_cases s coins
  · rw [run]
  · rw [run]
    rfl

theorem prepareRekeyResponse_keeps (coins newPublicKey : List Byte) (activationSeq : Nat) :
    Keeps sending (prepareRekeyResponse crypto coins newPublicKey activationSeq) := by
  intro s
  have outcome := prepareRekeyResponse_prepares crypto s coins newPublicKey activationSeq
  generalize prepareRekeyResponse crypto coins newPublicKey activationSeq s = run at outcome ⊢
  cases outcome <;> rfl

theorem processRekeyResponse_switches (now : Int) (ciphertext : List Byte) (s : Session Byte) :
    Switches s (processRekeyResponse crypto now ciphertext s).2 .stream := by
  have outcome := processRekeyResponse_completes crypto s ciphertext now
  generalize processRekeyResponse crypto now ciphertext s = run at outcome ⊢
  cases outcome with
  | refused => exact .still rfl
  | completed _ _ _ _ _ send => exact .switched send rfl

theorem rekey_switches (now : Int) (secret : List Byte) (s : Session Byte) :
    Switches s (rekey crypto now secret s).2 .stream := by
  rcases run : rekey crypto now secret s with ⟨stop | done, s'⟩
  · exact .still (congrArg sending (SessionReplay.rekey_restores now secret s stop s' run))
  · simp only [rekey, read_bind, reject_bind_ok_iff, lift_bind_ok_iff, write_ok_iff] at run
    obtain ⟨-, _, -, send, -, _, -, rfl⟩ := run
    exact .switched send rfl

omit [Octet Byte] in
theorem activateRekeySend_switches (now : Int) (s : Session Byte) :
    Switches s (activateRekeySend now s).2 .stream := by
  rw [activateRekeySend, read_bind]
  cases s.pendingSendCipher with
  | none => exact .still rfl
  | some pending => exact .switched pending rfl

omit [Octet Byte] in
theorem activatePendingKeys_switches (now : Int) (s : Session Byte) :
    Switches s (activatePendingKeys now s).2 .stream := by
  rw [activatePendingKeys, read_bind]
  split
  · cases ready : s.pendingSendCipher with
    | none => exact .still (by simp [sending, write_bind, finalizeRekeyState, ready])
    | some pending =>
      exact .switched pending (by simp [sending, write_bind, finalizeRekeyState, ready])
  · exact .still rfl

theorem advanceDatagramEpoch_advances (now : Int) {secret : List Byte}
    {epochs : DatagramEpochState Byte} {send recv : Cipher Byte}
    (size : secret.length = sharedSecretSize) (present : s.dgramEpochs = some epochs)
    (derived : deriveDatagramCiphers crypto s.role secret s.cipherSuite = .ok (send, recv)) :
    (advanceDatagramEpoch crypto now secret s).2 = { s with
      dgramEpochs := some ⟨⟨epochs.cur.epoch + 1, send, recv, s.sendSeq, now, none⟩,
        some { epochs.cur with retireAfter := some (now + datagramPrevEpochRetain) }⟩
      masterSecret := some secret, sendCipher := some send, recvCipher := some recv } := by
  rw [advanceDatagramEpoch, run_bind_ok (run_reject_neg _ (not_ne_iff.mpr size)), read_bind]
  simp only [present, run_bind, run_lift, derived]
  rfl

/-- An advance that fails leaves the session as it is. -/
theorem advanceDatagramEpoch_cases (crypto : Crypto Byte) (now : Int) (secret : List Byte)
    (s : Session Byte) :
    (advanceDatagramEpoch crypto now secret s).2 = s ∨
    ∃ epochs send recv, s.dgramEpochs = some epochs ∧ secret.length = sharedSecretSize ∧
      deriveDatagramCiphers crypto s.role secret s.cipherSuite = .ok (send, recv) := by
  by_cases size : secret.length = sharedSecretSize
  · cases present : s.dgramEpochs with
    | none =>
      rw [advanceDatagramEpoch, run_bind_ok (run_reject_neg _ (not_ne_iff.mpr size)), read_bind]
      simp only [present]
      exact .inl rfl
    | some epochs =>
      cases derived : deriveDatagramCiphers crypto s.role secret s.cipherSuite with
      | error stop =>
        rw [advanceDatagramEpoch, run_bind_ok (run_reject_neg _ (not_ne_iff.mpr size)),
          read_bind]
        simp only [present, run_bind, run_lift, derived]
        exact .inl trivial
      | ok ciphers => exact .inr ⟨epochs, ciphers.1, ciphers.2, rfl, size, rfl⟩
  · rw [advanceDatagramEpoch, run_bind_error (run_reject_pos _ size)]
    exact .inl rfl

theorem changeKeys_switches (op : KeyOp Byte mode) (s : Session Byte) :
    Switches s (changeKeys crypto op s) mode := by
  cases op with
  | decrypt ciphertext seq => exact .still (decrypt_keeps ciphertext seq s)
  | initiateRekey coins => exact .still (initiateRekey_keeps coins s)
  | prepareRekeyResponse coins newPublicKey activationSeq =>
    exact .still (prepareRekeyResponse_keeps coins newPublicKey activationSeq s)
  | processRekeyResponse now ciphertext => exact processRekeyResponse_switches now ciphertext s
  | activateRekeySend now => exact activateRekeySend_switches now s
  | activatePendingKeys now => exact activatePendingKeys_switches now s
  | rekey now secret => exact rekey_switches now secret s
  | advance now secret =>
    simp only [changeKeys]
    obtain same | ⟨epochs, send, recv, present, size, derived⟩ :=
      advanceDatagramEpoch_cases crypto now secret s
    · exact .still (congrArg sending same)
    · rw [advanceDatagramEpoch_advances now size present derived]
      exact .advanced (some send) epochs _ present rfl rfl rfl
  | close => exact .closed rfl

omit [Octet Byte] in
/-- Nothing but a draw moves the counter. -/
theorem Switches.sendSeq {s' : Session Byte} (change : Switches s s' mode) :
    s'.sendSeq = s.sendSeq := by
  cases change with
  | still same => exact congrArg Prod.fst same
  | switched cipher now | advanced cipher before later present next begins now | closed now =>
    exact congrArg Prod.fst now

def World.numbers (w : World Byte mode) : List Nat :=
  w.log.map Sealing.seq ++ w.tasks.filterMap Task.number

structure Numbered (base : Nat) (w : World Byte mode) : Prop where
  counter : w.session.sendSeq = (base + w.draws) % seqLimit
  drawn : ∀ seq ∈ w.numbers, ∃ i < w.draws, seq = (base + i) % seqLimit
  distinct : w.numbers.Nodup

theorem fresh_number {draws : Nat} (below : draws < seqLimit) (earlier : i < draws) :
    (base + i) % seqLimit ≠ (base + draws) % seqLimit := by
  intro same
  have : (base + i) ≡ (base + draws) [MOD seqLimit] := same
  have : i ≡ draws [MOD seqLimit] := Nat.ModEq.add_left_cancel' base this
  have : i = draws := Nat.ModEq.eq_of_lt_of_lt this (by omega) below
  omega

theorem filterMap_at {α γ : Type} (f : α → Option γ) {l : List α} {a : α}
    (present : l[i]? = some a) :
    (l.filterMap f).Perm ((f a).toList ++ (l.eraseIdx i).filterMap f) := by
  obtain ⟨inside, rfl⟩ := List.getElem?_eq_some_iff.mp present
  have shuffled := (List.getElem_cons_eraseIdx_perm inside).filterMap f
  refine shuffled.symm.trans ?_
  cases held : f l[i] <;> simp [held]

omit [Octet Byte] in
/-- The numbers in use around a step of one call. -/
theorem numbers_step {task : Task Byte mode} (present : w.tasks[i]? = some task)
    (task' : Task Byte mode) (session : Session Byte) (sealing : Option (Sealing Byte))
    (draws : Nat) :
    let others := w.log.map Sealing.seq ++ (w.tasks.eraseIdx i).filterMap Task.number
    w.numbers.Perm (task.number.toList ++ others) ∧
    ({ w with session, tasks := w.tasks.set i task', log := w.log ++ sealing.toList
              draws } : World Byte mode).numbers.Perm
      ((sealing.toList.map Sealing.seq ++ task'.number.toList) ++ others) := by
  have inside : i < w.tasks.length := (List.getElem?_eq_some_iff.mp present).1
  have before := filterMap_at Task.number present
  have later := filterMap_at Task.number
    (show (w.tasks.set i task')[i]? = some task' by simp [inside])
  rw [List.eraseIdx_set_eq] at later
  constructor
  · unfold World.numbers
    exact (List.Perm.append_left _ before).trans (List.perm_append_comm_assoc _ _ _)
  · unfold World.numbers
    simp only [List.map_append, List.append_assoc]
    refine (List.Perm.append_left _ (List.Perm.append_left _ later)).trans ?_
    refine (List.perm_append_comm_assoc _ _ _).trans (List.Perm.append_left _ ?_)
    exact List.perm_append_comm_assoc _ _ _

omit [Octet Byte] in
theorem request_number (request : Request Byte mode) : request.task.number = none := by
  cases request with
  | encrypt text => rfl
  | send payload | sendBatch payloads => simp only [Request.task, batch]; split <;> rfl
  | close | control kind payload => rfl

theorem Numbered.step (numbered : Numbered base w) (e : Event Byte mode)
    (below : (perform crypto w e).draws ≤ seqLimit) : Numbered base (perform crypto w e) := by
  cases e with
  | call request =>
    have same : (perform crypto w (.call request)).numbers = w.numbers := by
      simp [perform, World.numbers, request_number]
    exact ⟨numbered.counter, same ▸ numbered.drawn, same ▸ numbered.distinct⟩
  | keys op =>
    exact ⟨(changeKeys_switches op _).sendSeq.trans numbered.counter, numbered.drawn,
      numbered.distinct⟩
  | step i =>
    cases present : w.tasks[i]? with
    | none => simpa only [perform, present] using numbered
    | some task =>
      simp only [perform, present] at below ⊢
      obtain ⟨before, later⟩ := numbers_step present (task.step w.index w.session).1
        (task.step w.index w.session).2.1 (task.step w.index w.session).2.2
        (w.draws + task.draws)
      obtain ⟨one, free, quiet, held, drew⟩ | ⟨zero, same, fewer⟩ :=
        task.step_cases w.index w.session
      · -- a number is drawn: it is none of those in use
        have fresh : w.session.sendSeq ∉ w.numbers := by
          intro used
          obtain ⟨j, earlier, same⟩ := numbered.drawn _ used
          exact fresh_number (by omega) earlier (same ▸ numbered.counter)
        rw [free] at before
        have added : (task.step w.index w.session).2.2.toList.map Sealing.seq ++
            (task.step w.index w.session).1.number.toList = [w.session.sendSeq] := by
          rw [quiet, held]
          rfl
        rw [added] at later
        have grown : List.Perm _ (w.session.sendSeq :: w.numbers) :=
          later.trans (before.symm.cons _)
        refine ⟨?_, fun seq used => ?_, grown.nodup_iff.mpr (numbered.distinct.cons fresh)⟩
        · simp only [drew, one, numbered.counter, Nat.mod_add_mod, Nat.add_assoc]
        · dsimp only
          rcases List.mem_cons.mp (grown.mem_iff.mp used) with rfl | older
          · exact ⟨w.draws, by omega, numbered.counter⟩
          · obtain ⟨j, earlier, same⟩ := numbered.drawn seq older
            exact ⟨j, by omega, same⟩
      · -- the number held moves on or is lost
        have shrunk := (fewer.append_right _).subperm.trans before.symm.subperm
        have within := later.subperm.trans shrunk
        obtain ⟨kept, shuffled, part⟩ := within
        refine ⟨?_, fun seq used => ?_, shuffled.nodup_iff.mp (numbered.distinct.sublist part)⟩
        · simpa only [same, zero, Nat.add_zero] using numbered.counter
        · simpa only [zero, Nat.add_zero] using numbered.drawn seq
            (part.subset (shuffled.mem_iff.mpr used))

theorem after_append (first second : List (Event Byte mode)) (w : World Byte mode) :
    after crypto (first ++ second) w = after crypto second (after crypto first w) :=
  run_append _ first second w

theorem after_index (events : List (Event Byte mode)) (w : World Byte mode) :
    (after crypto events w).index = w.index := by
  have keeps (w' : World Byte mode) (e : Event Byte mode) (same : w'.index = w.index) :
      (perform crypto w' e).index = w.index := by
    cases e with
    | call request | keys op => exact same
    | step i =>
      rw [perform]
      split <;> exact same
  exact kept_run keeps events rfl

theorem draws_le_perform (w : World Byte mode) (e : Event Byte mode) :
    w.draws ≤ (perform crypto w e).draws := by
  cases e with
  | call request | keys op => exact le_rfl
  | step i =>
    cases present : w.tasks[i]? with
    | none => simp only [perform, present, le_refl]
    | some task => simp only [perform, present, Nat.le_add_right]

theorem draws_le_after (events : List (Event Byte mode)) (w : World Byte mode) :
    w.draws ≤ (after crypto events w).draws := by
  have keeps (w' : World Byte mode) (e : Event Byte mode) (below : w.draws ≤ w'.draws) :
      w.draws ≤ (perform crypto w' e).draws := below.trans (draws_le_perform w' e)
  exact kept_run keeps events le_rfl

theorem Numbered.run (events : List (Event Byte mode))
    (below : (after crypto events w).draws ≤ seqLimit) (numbered : Numbered base w) :
    Numbered base (after crypto events w) := by
  induction events generalizing w with
  | nil => exact numbered
  | cons e rest ih => exact ih below (numbered.step e ((draws_le_after rest _).trans below))

omit [Octet Byte] in
theorem numbered_start (fits : s.sendSeq < seqLimit) (index : UInt32) :
    Numbered s.sendSeq (start mode s index) :=
  ⟨(Nat.mod_eq_of_lt fits).symm, nofun, .nil⟩

theorem buildAEADNonce_seq {noncePrefix noncePrefix' : List Byte} {seq' : Nat}
    (fits : seq < seqLimit) (fits' : seq' < seqLimit)
    (same : buildAEADNonce noncePrefix seq = buildAEADNonce noncePrefix' seq') : seq = seq' := by
  have tails := List.append_inj_right' same (by simp)
  exact toBE_injective (by simpa [seqLimit] using fits) (by simpa [seqLimit] using fits') tails

omit [Octet Byte] in
theorem Numbered.fits (numbered : Numbered base w) (logged : e ∈ w.log) : e.seq < seqLimit := by
  obtain ⟨i, -, same⟩ := numbered.drawn e.seq (List.mem_append_left _ (List.mem_map_of_mem logged))
  rw [same]
  exact Nat.mod_lt _ (by simp [seqLimit])

end Numbers

/-- No two seals of a session have the same key and the same nonce, in whatever order the
steps of its calls and its rekeys come, while fewer than 2^64 numbers are drawn. -/
theorem nonces_distinct (crypto : Crypto Byte) (s : Session Byte) (index : UInt32)
    (fits : s.sendSeq < seqLimit) (events : List (Event Byte mode))
    (below : (after crypto events (start mode s index)).draws < seqLimit) :
    ((after crypto events (start mode s index)).log.map fun e => (e.cipher.key, e.nonce)).Nodup ∧
      ∀ e ∈ (after crypto events (start mode s index)).log, e.nonce.length = aesNonceSize := by
  have numbered := (numbered_start fits index).run events below.le
  refine ⟨?_, fun e _ => buildAEADNonce_length _ _⟩
  have numbers : ((after crypto events (start mode s index)).log.map Sealing.seq).Nodup :=
    (List.nodup_append.mp numbered.distinct).1
  refine List.Nodup.map_on (fun e logged e' logged' same => ?_) (List.Nodup.of_map _ numbers)
  have seqs : e.seq = e'.seq := buildAEADNonce_seq (numbered.fits logged) (numbered.fits logged')
    (Prod.mk.inj same).2
  exact List.inj_on_of_nodup_map numbers logged logged' seqs

/-- A rekey message and a Send draw, the epoch advances, both seal, and a Close follows. The
Send is refused. -/
theorem nonces_distinct_datagram : ∃ s, IsDatagram .initiator s ∧
    ((after env.toCrypto [.call (.send [lit 1]), .call (.control .init [lit 2]),
      .step 0, .step 1, .step 0, .keys (.advance 1 (secretOf 1)), .step 1, .step 0,
      .call .close, .step 2, .step 2, .step 2] (start .datagram s 7)).log.map
        fun e => (e.cipher.key, e.nonce)).Nodup := by
  refine ⟨_, ⟨_, rfl, rfl⟩, (nonces_distinct env.toCrypto _ 7 ?_ _ ?_).1⟩
  · decide +kernel
  · decide +kernel

end QuantumGo.SealingRuns
