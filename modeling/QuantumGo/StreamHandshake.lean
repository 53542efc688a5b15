import QuantumGo.HelloRuns

/-!
The handshake drivers over a byte stream (pkg/tunnel/handshake.go). What the
network delivers is the `incoming` string of a side, any string at all: an active
attacker is a choice of that string. Writes are recorded and do not fail; a run
that could not write has no outcome to speak about. The nth builder of a driver
draws from `coins n`.
-/

namespace QuantumGo.StreamHandshake

open Octets Effect Wire HelloCodec HelloRoundTrip Tunnel Flights
open FlightSpecs ResponderSpecs HelloRuns
open KeySchedule hiding deriveHandshakeKeys

structure Conn (Byte : Type) where
  handshake : Handshake Byte
  incoming : List Byte
  outgoing : List Byte

abbrev ConnProg (Byte α : Type) := Prog (Conn Byte) Fault α

variable {Byte : Type}

def build {α : Type} (builder : HandshakeProg Byte α) : ConnProg Byte α := fun c =>
  match builder c.handshake with
  | (outcome, h) => (outcome, { c with handshake := h })

def readFull (size : Nat) : ConnProg Byte (List Byte) := fun c =>
  if c.incoming.length < size then (.error (.err .endOfStream), { c with incoming := [] })
  else (.ok (c.incoming.take size), { c with incoming := c.incoming.drop size })

def send (data : List Byte) : ConnProg Byte Unit :=
  write fun c => { c with outgoing := c.outgoing ++ data }

variable [Octet Byte]

def readMessage : ConnProg Byte (List Byte) := do
  let header ← readFull headerSize
  reject (payloadLen header > maxMessageSize) (.err .messageTooLarge)
  let payload ← readFull (payloadLen header)
  return header ++ payload

def encryptedRecord (ciphertext : List Byte) : List Byte := prefixed 4 ciphertext

def readEncryptedRecord : ConnProg Byte (List Byte) := do
  let lenBuf ← readFull 4
  reject (ofBE lenBuf > maxMessageSize) (.err .messageTooLarge)
  readFull (ofBE lenBuf)

def handshakeAlert : List Byte :=
  encodeAlert alertLevelFatal alertCodeHandshakeFailure
    ("handshake failed".toList.map fun c => lit (UInt8.ofNat c.toNat))

/-- An error return sends the alert first; a panic does not get that far. -/
def orAlert {α : Type} (program : ConnProg Byte α) : ConnProg Byte α := fun c =>
  match program c with
  | (.error (.err error), c') =>
    (.error (.err error), { c' with outgoing := c'.outgoing ++ handshakeAlert })
  | (outcome, c') => (outcome, c')

/-- A pinned client reports any failure past the hellos as a key mismatch. -/
def orKeyMismatch {α : Type} (program : ConnProg Byte α) : ConnProg Byte α := fun c =>
  match program c with
  | (.error (.err error), c') =>
    (.error (.err (if c'.handshake.session.pinnedServerKey.isSome then .serverKeyMismatch
      else error)), c')
  | (outcome, c') => (outcome, c')


def initiatorExchangeHellos (env : Env Byte) (coins : Nat → Coins Byte) : ConnProg Byte Unit := do
  let clientHello ← build (createClientHello env (coins 0))
  send clientHello
  let msg ← readMessage
  if msg.head?.map val = some messageTypeHelloRetryRequest then
    orAlert (build (processHelloRetryRequest env (coins 1) msg))
    let retry ← build (createClientHello env (coins 2))
    send retry
    let msg ← readMessage
    orAlert (build (processServerHello env msg))
  else
    orAlert (build (processServerHello env msg))

def responderHellos (env : Env Byte) (coins : Nat → Coins Byte) :
    ConnProg Byte (List Byte) := do
  let clientHello ← readMessage
  orAlert (build (processClientHello env (coins 0) clientHello))
  let c ← read
  if c.handshake.sendHRR then
    let hrr ← build (createHelloRetryRequest env)
    send hrr
    let retry ← readMessage
    orAlert (build (processClientHello env (coins 1) retry))
    build (createServerHello env (coins 2))
  else build (createServerHello env (coins 2))

def responderExchangeHellos (env : Env Byte) (coins : Nat → Coins Byte) :
    ConnProg Byte Unit := do
  let serverHello ← responderHellos env coins
  let serverFinished ← build (createServerFinished env)
  send (serverHello ++ encryptedRecord serverFinished)

def initiatorFinish (env : Env Byte) (coins : Nat → Coins Byte) : ConnProg Byte Unit := do
  let serverFinished ← orKeyMismatch readEncryptedRecord
  orKeyMismatch (orAlert (build (processServerFinished env serverFinished)))
  let clientFinished ← build (createClientFinished env (coins 3))
  send (encryptedRecord clientFinished)

def initiatorHandshake (env : Env Byte) (coins : Nat → Coins Byte) : ConnProg Byte Unit := do
  initiatorExchangeHellos env coins
  initiatorFinish env coins

variable {data msg clientHello : List Byte}

/-! A driver that finished leaves the chain of its builders behind. -/
section Runs
variable {env : Env Byte} {coins : Nat → Coins Byte} {c c' : Conn Byte} {done : Unit}

omit [Octet Byte] in
theorem build_ok_iff {α : Type} {builder : HandshakeProg Byte α} {value : α} :
    build builder c = (.ok value, c') ↔
      ∃ h, builder c.handshake = (.ok value, h) ∧ c' = { c with handshake := h } :=
  run_part_iff (builder c.handshake) fun handshake => { c with handshake }

theorem orAlert_ok_iff {α : Type} {program : ConnProg Byte α} {value : α} :
    orAlert program c = (.ok value, c') ↔ program c = (.ok value, c') := by
  unfold orAlert
  rcases program c with ⟨(error | _) | _, _⟩ <;> simp

omit [Octet Byte] in
theorem readFull_ok_iff {size : Nat} :
    readFull size c = (.ok data, c') ↔ size ≤ c.incoming.length ∧ data = c.incoming.take size ∧
      c' = { c with incoming := c.incoming.drop size } := by
  unfold readFull
  by_cases short : c.incoming.length < size
  · simp [short, Nat.not_le.mpr short]
  · simp only [if_neg short, Prod.mk.injEq, Except.ok.injEq, Nat.not_lt.mp short, true_and]
    exact ⟨fun ⟨text, moved⟩ => ⟨text.symm, moved.symm⟩,
      fun ⟨text, moved⟩ => ⟨text.symm, moved.symm⟩⟩

/-- What the stream reader returns is an exact frame. -/
theorem readMessage_exact (finished : readMessage c = (.ok msg, c')) :
    Exact msg ∧ c'.handshake = c.handshake := by
  unfold readMessage at finished
  simp only [bind_ok_iff, readFull_ok_iff, reject_ok_iff, pure_ok_iff] at finished
  obtain ⟨header, c₁, ⟨enough, rfl, rfl⟩, _, c₂, ⟨-, rfl⟩, payload, c₃, ⟨whole, rfl, rfl⟩,
      rfl, rfl⟩ :=
    finished
  have width : (c.incoming.take headerSize).length = headerSize := by
    rw [List.length_take, Nat.min_eq_left enough]
  have size : payloadLen (c.incoming.take headerSize ++
      (c.incoming.drop headerSize).take (payloadLen (c.incoming.take headerSize))) =
      payloadLen (c.incoming.take headerSize) := by
    rw [← payloadLen_take (_ ++ _), List.take_left' width]
  refine ⟨⟨by rw [List.length_append, width]; omega, ?_⟩, rfl⟩
  rw [size, List.length_append, width, List.length_take, Nat.min_eq_left whole]

theorem readMessage_frame (h : Handshake Byte) (rest outgoing : List Byte) (exact : Exact msg)
    (small : payloadLen msg ≤ maxMessageSize) :
    readMessage ⟨h, msg ++ rest, outgoing⟩ = (.ok msg, ⟨h, rest, outgoing⟩) := by
  obtain ⟨enough, whole⟩ := exact
  have body : (msg.drop headerSize).length = payloadLen msg := by
    rw [List.length_drop]
    omega
  unfold readMessage
  simp only [bind_ok_iff, readFull_ok_iff, reject_ok_iff, pure_ok_iff]
  refine ⟨msg.take headerSize, ⟨h, msg.drop headerSize ++ rest, outgoing⟩,
    ⟨?_, (List.take_append_of_le_length enough).symm, ?_⟩, (), _, ⟨?_, rfl⟩, msg.drop headerSize,
    ⟨h, rest, outgoing⟩, ⟨?_, ?_, ?_⟩, (List.take_append_drop _ _).symm, rfl⟩
  · exact enough.trans (by simp)
  · rw [List.drop_append_of_le_length enough]
  · rw [payloadLen_take]
    omega
  · rw [payloadLen_take, ← body]
    simp
  · rw [payloadLen_take, List.take_left' body]
  · rw [payloadLen_take, List.drop_left' body]

omit [Octet Byte] in
theorem send_ok_iff :
    send data c = (.ok done, c') ↔ c' = { c with outgoing := c.outgoing ++ data } := write_ok_iff

omit [Octet Byte] in
theorem orKeyMismatch_ok_iff {α : Type} {program : ConnProg Byte α} {value : α} :
    orKeyMismatch program c = (.ok value, c') ↔ program c = (.ok value, c') := by
  unfold orKeyMismatch
  rcases program c with ⟨(error | _) | _, _⟩ <;> simp

theorem readEncryptedRecord_record (h : Handshake Byte) (rest outgoing : List Byte)
    (small : data.length ≤ maxMessageSize) :
    readEncryptedRecord ⟨h, encryptedRecord data ++ rest, outgoing⟩ =
      (.ok data, ⟨h, rest, outgoing⟩) := by
  have width : (toBE 4 data.length : List Byte).length = 4 := by simp
  have value : ofBE (toBE 4 data.length : List Byte) = data.length :=
    ofBE_toBE_of_lt (small.trans_lt (by decide))
  unfold readEncryptedRecord encryptedRecord prefixed
  simp only [bind_ok_iff, readFull_ok_iff, reject_ok_iff, List.append_assoc]
  refine ⟨toBE 4 data.length, ⟨h, data ++ rest, outgoing⟩, ⟨by simp, ?_, ?_⟩, (), _,
    ⟨?_, rfl⟩, ?_, ?_, ?_⟩
  · rw [List.take_left' width]
  · rw [List.drop_left' width]
  · rw [value]
    omega
  · rw [value]
    simp
  · rw [value, List.take_left' rfl]
  · rw [value, List.drop_left' rfl]

variable {h : Handshake Byte} {serverHello : List Byte}

theorem initiatorExchangeHellos_frame
    (rest : List Byte) (exact : Exact serverHello) (small : payloadLen serverHello ≤ maxMessageSize)
    (kind : serverHello.head?.map val ≠ some messageTypeHelloRetryRequest) :
    initiatorExchangeHellos env coins ⟨h, serverHello ++ rest, []⟩ = (.ok done, c') ↔
      ∃ clientHello sent received, createClientHello env (coins 0) h = (.ok clientHello, sent) ∧
        processServerHello env serverHello sent = (.ok (), received) ∧
        c' = ⟨received, rest, clientHello⟩ := by
  unfold initiatorExchangeHellos
  simp only [bind_ok_iff, build_ok_iff, send_ok_iff]
  simp only [existsAndEq, true_and, and_assoc, exists_const, exists_and_left,
    readMessage_frame _ _ _ exact small, Prod.mk.injEq, Except.ok.injEq, if_neg kind,
    orAlert_ok_iff,
    build_ok_iff]
  rfl

theorem initiatorHandshake_frames {serverFinished : List Byte} (exact : Exact serverHello)
    (small : payloadLen serverHello ≤ maxMessageSize)
    (kind : serverHello.head?.map val ≠ some messageTypeHelloRetryRequest)
    (short : serverFinished.length ≤ maxMessageSize) :
    initiatorHandshake env coins ⟨h, serverHello ++ encryptedRecord serverFinished, []⟩ =
        (.ok done, c') ↔
      ∃ clientHello sent received initiator clientFinished keyed,
        createClientHello env (coins 0) h = (.ok clientHello, sent) ∧
        processServerHello env serverHello sent = (.ok (), received) ∧
        processServerFinished env serverFinished received = (.ok (), initiator) ∧
        createClientFinished env (coins 3) initiator = (.ok clientFinished, keyed) ∧
        c' = ⟨keyed, [], clientHello ++ encryptedRecord clientFinished⟩ := by
  unfold initiatorHandshake initiatorFinish
  simp only [bind_ok_iff, initiatorExchangeHellos_frame _ exact small kind, orKeyMismatch_ok_iff,
    orAlert_ok_iff, build_ok_iff, send_ok_iff]
  have whole (received : Handshake Byte) (written : List Byte) := by
    simpa using readEncryptedRecord_record received [] written short
  simp only [existsAndEq, true_and, and_assoc, exists_and_left, whole, Prod.mk.injEq,
    Except.ok.injEq, Unique.exists_iff]

theorem readMessage_nothing {written : List Byte} :
    readMessage ⟨h, [], written⟩ ≠ (.ok msg, c') := by
  intro got
  simp only [readMessage, bind_ok_iff, readFull_ok_iff] at got
  obtain ⟨_, _, ⟨enough, -⟩, -⟩ := got
  simp [headerSize] at enough

theorem responderHellos_frame (exact : Exact clientHello)
    (small : payloadLen clientHello ≤ maxMessageSize) :
    responderHellos env coins ⟨h, clientHello, []⟩ = (.ok serverHello, c') ↔ ∃ accepted helloSent,
        processClientHello env (coins 0) clientHello h = (.ok (), accepted) ∧
        accepted.sendHRR = false ∧
        createServerHello env (coins 2) accepted = (.ok serverHello, helloSent) ∧
        c' = ⟨helloSent, [], []⟩ := by
  have delivered := readMessage_frame h [] [] exact small
  rw [List.append_nil] at delivered
  unfold responderHellos
  simp only [bind_ok_iff, build_ok_iff, orAlert_ok_iff, delivered, Prod.mk.injEq, Except.ok.injEq,
    read_bind]
  simp only [existsAndEq, true_and, and_assoc, Unique.exists_iff, exists_and_left]
  refine exists_congr fun accepted => and_congr_right fun _ => ?_
  by_cases retry : accepted.sendHRR = true
  · simp only [retry, if_true, bind_ok_iff, build_ok_iff, send_ok_iff, existsAndEq,
      readMessage_nothing, false_and, and_false, exists_false, Bool.true_eq_false]
  · simp only [retry, Bool.false_eq_true, if_false, build_ok_iff, true_and]

theorem responderExchangeHellos_frame (exact : Exact clientHello)
    (small : payloadLen clientHello ≤ maxMessageSize) :
    responderExchangeHellos env coins ⟨h, clientHello, []⟩ = (.ok done, c') ↔
      ∃ serverHello accepted helloSent serverFinished responder,
        processClientHello env (coins 0) clientHello h = (.ok (), accepted) ∧
        accepted.sendHRR = false ∧
        createServerHello env (coins 2) accepted = (.ok serverHello, helloSent) ∧
        createServerFinished env helloSent = (.ok serverFinished, responder) ∧
        c' = ⟨responder, [], serverHello ++ encryptedRecord serverFinished⟩ := by
  unfold responderExchangeHellos
  simp only [bind_ok_iff, build_ok_iff, send_ok_iff, responderHellos_frame exact small]
  simp only [existsAndEq, true_and, and_assoc, exists_and_left]
  rfl

theorem initiatorExchangeHellos_run
    (finished : initiatorExchangeHellos env coins c = (.ok done, c')) :
    Nonempty (InitiatorHellos env c.handshake c'.handshake) := by
  unfold initiatorExchangeHellos at finished
  simp only [bind_ok_iff, build_ok_iff, send_ok_iff] at finished
  obtain ⟨first, c₁, ⟨sent, created, rfl⟩, _, c₂, rfl, msg, c₃, got, rest⟩ := finished
  obtain ⟨exact, same⟩ := readMessage_exact got
  by_cases retry : msg.head?.map val = some messageTypeHelloRetryRequest
  · simp only [if_pos retry, bind_ok_iff, orAlert_ok_iff, build_ok_iff, send_ok_iff] at rest
    obtain ⟨_, c₄, ⟨before, steered, rfl⟩, again, c₅, ⟨sent', created', rfl⟩, _, c₆, rfl, msg', c₇,
      got', final, processed, rfl⟩ := rest
    rw [same] at steered
    rw [(readMessage_exact got').2] at processed
    exact ⟨⟨before, sent', coins 2, again, msg', .retried created exact steered, created',
      processed⟩⟩
  · rw [if_neg retry, orAlert_ok_iff, build_ok_iff] at rest
    obtain ⟨final, processed, rfl⟩ := rest
    rw [same] at processed
    exact ⟨⟨c.handshake, sent, coins 0, first, msg, .straight, created, processed⟩⟩

/-- A second ClientHello is not steered again. -/
theorem answers_after_retry {coins : Coins Byte} {steered before accepted : Handshake Byte}
    {retry hello : List Byte} (asked : createHelloRetryRequest env steered = (.ok retry, before))
    (processed : processClientHello env coins hello before = (.ok done, accepted)) :
    accepted.sendHRR = false := by
  obtain ⟨-, -, hash, -, rfl⟩ := createHelloRetryRequest_ok_iff.mp asked
  obtain ⟨-, msg, -, -, steer | ⟨chosen, -, -, rfl⟩⟩ := processClientHello_ok_iff.mp processed
  · exact absurd steer.2.1 (by simp)
  · rfl

theorem responderHellos_run (finished : responderHellos env coins c = (.ok serverHello, c')) :
    ∃ run : ResponderHellos env c.handshake c'.handshake, run.serverHello = serverHello := by
  unfold responderHellos at finished
  simp only [bind_ok_iff, orAlert_ok_iff, build_ok_iff] at finished
  obtain ⟨hello, c₁, got, _, c₂, ⟨accepted, processed, rfl⟩, c₃, c₄, shown, rest⟩ := finished
  obtain ⟨rfl, rfl⟩ : c₄ = c₃ ∧ c₃ = { c₁ with handshake := accepted } := by
    simp only [run_read, Prod.mk.injEq, Except.ok.injEq] at shown
    exact ⟨shown.2.symm.trans shown.1, shown.1.symm⟩
  obtain ⟨exact, same⟩ := readMessage_exact got
  rw [same] at processed
  by_cases retry : accepted.sendHRR = true
  · simp only [if_pos retry, bind_ok_iff, orAlert_ok_iff, build_ok_iff, send_ok_iff] at rest
    obtain ⟨hrr, c₅, ⟨before, asked, rfl⟩, _, c₆, rfl, again, c₇, got', _, c₈,
      ⟨accepted', processed', rfl⟩, final, created, rfl⟩ := rest
    obtain ⟨exact', same'⟩ := readMessage_exact got'
    rw [same'] at processed'
    exact ⟨⟨before, accepted', coins 1, coins 2, again, serverHello,
      .retried processed asked, exact', processed', answers_after_retry asked processed', created⟩,
      rfl⟩
  · rw [if_neg retry, build_ok_iff] at rest
    obtain ⟨final, created, rfl⟩ := rest
    exact ⟨⟨c.handshake, accepted, coins 0, coins 2, hello, serverHello, .straight, exact,
      processed, by simpa using retry, created⟩, rfl⟩

end Runs

end QuantumGo.StreamHandshake
