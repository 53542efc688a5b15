import QuantumGo.DatagramConn

/-!
A datagram session behind its Close. Close clears the ciphers of the stream path, while
the datagram path seals with those of the epochs, and no sending call looks at the state.
So the calls go on emitting, except where something else refuses them. A call stands between
two lock sections, and Session.Close may fall between any two. `sendMu` and `rekeyRespMu` are
left out: they order some of the calls, and every order of the sections is considered.
-/

namespace QuantumGo.ClosedDatagram

open Octets Effect Symbolic Interleaving Wire Aead KeySchedule Kem Tunnel Records DatagramSession
open DatagramSpecs DatagramConn SymbolicKem

/-- Frames that a call seals one by one and then writes. SendBatch has read the peer's address
before that, the others read it for the write. -/
structure Burst (Byte Addr : Type) where
  closes : Bool
  dst : Option Addr
  frames : List (List Byte)
  payloads : List (List Byte)

/-- Where a call stands. The responder of a rekey carries its sealed answer with the epoch it
answers; the initiator carries none. -/
inductive Task (Byte Addr : Type) where
  | send (p : List Byte)
  | sendBatch (payloads : List (List Byte))
  | close
  | numbering (b : Burst Byte Addr)
  | heading (b : Burst Byte Addr) (seq : Nat)
  | sealing (b : Burst Byte Addr) (seq : Nat) (epoch : UInt8)
  | writing (b : Burst Byte Addr)
  | closing
  | teardown
  | reap
  | route (src : Addr) (data : List Byte) (stage : Stage Byte)
  | beginRekey (coins : List Byte)
  | rekeyTimer
  | rekeyResponse (body : List Byte)
  | endRekey
  | rekeyInit (coins : List Byte) (epoch : UInt8) (body : List Byte)
  | looking (coins : List Byte) (epoch : UInt8) (body : List Byte)
  | comparing (coins : List Byte) (epoch : UInt8) (body : List Byte)
  | opening (coins : List Byte) (epoch : UInt8) (body : List Byte)
  | answering (epoch : UInt8) (ct : Ciphertext Byte) (fresh : List Byte)
  | nextSecret (answer : Option (UInt8 × List Byte)) (fresh : List Byte)
  | advancing (answer : Option (UInt8 × List Byte)) (newSecret : List Byte)
  | caching (epoch : UInt8) (response : List Byte)
  | done

section Tasks
variable {Byte Addr α : Type}

/-- The places at which a call begins. -/
def Task.initial : Task Byte Addr → Bool
  | .send _ | .sendBatch _ | .close | .teardown | .reap | .route _ _ .arrived | .beginRekey _
  | .rekeyTimer | .rekeyResponse _ | .endRekey | .rekeyInit .. => true
  | _ => false

/-- What is still to be written is sealed, or a new secret is still to be installed. -/
def Task.loaded : Task Byte Addr → Bool
  | .numbering b | .heading b _ | .sealing b _ _ | .writing b => !b.frames.isEmpty
  | .advancing _ _ | .caching _ _ => true
  | _ => false

def orDone (outcome : Except Fault α) (next : α → Task Byte Addr) : Task Byte Addr :=
  match outcome with
  | .ok value => next value
  | .error _ => .done

def Burst.ends (b : Burst Byte Addr) : Task Byte Addr := if b.closes then .closing else .done

/-- A rekey message goes out as it is. -/
def resend (body : List Byte) : Task Byte Addr := .writing ⟨false, none, [body], []⟩

end Tasks

structure World (Byte Addr : Type) where
  conn : Conn Byte Addr
  tasks : List (Task Byte Addr)

/-- `now` is the clock that the section reads. -/
inductive Event (Byte Addr : Type) where
  | call (task : Task Byte Addr)
  | step (i : Nat) (now : Int)


variable {Byte Addr : Type} [Octet Byte] [DecidableEq Addr] (crypto : Crypto Byte)

def openInit (coins : List Byte) (now : Int) (epoch : UInt8) (body : List Byte) (s : Session Byte) :
    Except Fault (Ciphertext Byte × List Byte) := do
  let pubBytes ← openRekeyControl crypto now messageTypeDatagramRekeyInit epoch body s
  let pub ← (s.kemSuite.parsePublicKey pubBytes).mapError .err
  (s.kemSuite.encapsulate pub .responder coins).mapError .err

def openResponse (now : Int) (attempt : DatagramRekey.Attempt Byte) (body : List Byte)
    (s : Session Byte) : Except Fault (List Byte) := do
  let ctBytes ← openRekeyControl crypto now messageTypeDatagramRekeyResponse attempt.epoch body s
  let ct ← (s.kemSuite.parseCiphertext ctBytes).mapError .err
  (s.kemSuite.decapsulate ct attempt.keyPair .initiator).mapError .err

def sealNext (b : Burst Byte Addr) (seq : Nat) (epoch : UInt8) (c : Conn Byte Addr) :
    Except Fault (List Byte) :=
  let frameType := if b.closes then datagramFrameClose else datagramFrameData
  let header := encodeDatagramHeader ⟨frameType, epoch, c.peerIndex, seq⟩
  (datagramSealTo crypto header header seq (b.payloads.headD []) c.session).1

def stepTask (now : Int) : Task Byte Addr → Conn Byte Addr → Task Byte Addr × Conn Byte Addr
  | .send p, c =>
    (if p.length > datagramMaxDataPayload then .done else .numbering ⟨false, none, [], [p]⟩, c)
  | .sendBatch payloads, c => (if ∃ p ∈ payloads, p.length > datagramMaxDataPayload then .done
      else .numbering ⟨false, some c.peerAddr, [], payloads⟩, c)
  | .close, c => (.numbering ⟨true, none, [], [[]]⟩, c)
  | .numbering b, c =>
    if b.payloads = [] then (.writing b, c)
    else
      let (seq, c) := onSession nextDatagramSeq c
      (orDone seq (.heading b), c)
  | .heading b seq, c => (orDone (datagramSendEpoch c.session).1 (.sealing b seq), c)
  | .sealing b seq epoch, c =>
    match sealNext crypto b seq epoch c with
    | .ok frame =>
      (.numbering { b with frames := b.frames ++ [frame], payloads := b.payloads.tail }, c)
    | .error (.err _) => (b.ends, c)
    | .error .panic => (.done, c)
  | .writing b, c =>
    match b.frames with
    | [] => (b.ends, c)
    | frame :: rest => (.writing { b with frames := rest },
        { c with written := c.written ++ [(b.dst.getD c.peerAddr, frame)] })
  | .closing, c => (.teardown, (DatagramConn.closeSession c).2)
  | .teardown, c => (.done, (DatagramConn.teardown c).2)
  | .reap, c => (if c.registered then .closing else .done, c)
  | .route src data stage, c =>
    let (stage, c) := advance crypto now src data stage c
    (.route src data stage, c)
  | .beginRekey coins, c => (.done, (beginRekey crypto coins c).2)
  | .rekeyTimer, c =>
    match c.rekey with
    | none => (.done, c)
    | some (attempt, sent) =>
      if sent > datagramHandshakeMaxRetries then (.done, { c with rekey := none })
      else (resend attempt.body, { c with rekey := some (attempt, sent + 1) })
  | .rekeyResponse body, c =>
    match c.rekey with
    | none => (.done, c)
    | some (attempt, _) =>
      (orDone (openResponse crypto now attempt body c.session) (.nextSecret none), c)
  -- The loop sees the session or the endpoint closed.
  | .endRekey, c => (.done, { c with rekey := none })
  | .rekeyInit coins epoch body, c => (if c.registered then .looking coins epoch body else .done, c)
  | .looking coins epoch body, c =>
    match c.answered with
    | some (source, response) =>
      (if source = epoch then resend response else .comparing coins epoch body, c)
    | none => (.comparing coins epoch body, c)
  | .comparing coins epoch body, c => (orDone (datagramSendEpoch c.session).1 fun current =>
      if epoch = current then .opening coins epoch body else .done, c)
  | .opening coins epoch body, c =>
    (orDone (openInit crypto coins now epoch body c.session) fun (ct, fresh) =>
      .answering epoch ct fresh, c)
  | .answering epoch ct fresh, c =>
    let (sealed, c) := onSession (sealRekeyControl crypto messageTypeDatagramRekeyResponse ct.raw) c
    (orDone sealed fun (response, _) => .nextSecret (some (epoch, response)) fresh, c)
  | .nextSecret answer fresh, c =>
    (orDone (deriveNextDatagramSecret crypto fresh c.session) (.advancing answer), c)
  | .advancing answer newSecret, c =>
    let (outcome, c) := onSession (advanceDatagramEpoch crypto now newSecret) c
    match answer with
    | some (epoch, response) => (orDone outcome fun _ => .caching epoch response, c)
    | none => (.done, if outcome.toOption.isSome then { c with rekey := none } else c)
  | .caching epoch response, c => (resend response, { c with answered := some (epoch, response) })
  | .done, c => (.done, c)

def perform (w : World Byte Addr) : Event Byte Addr → World Byte Addr
  | .call task => if task.initial then { w with tasks := w.tasks ++ [task] } else w
  | .step i now =>
    match w.tasks[i]? with
    | none => w
    | some task =>
      let (task, conn) := stepTask crypto now task w.conn
      ⟨conn, w.tasks.set i task⟩

def after (events : List (Event Byte Addr)) (w : World Byte Addr) : World Byte Addr :=
  run (perform crypto) events w

/-! When a section leads to no frame. -/

def SpentAt (seq : Nat) (s : Session Byte) : Prop :=
  ∀ epochs ∈ s.dgramEpochs, epochAge epochs seq ≥ maxPacketsBeforeRekey

def Spent (c : Conn Byte Addr) : Prop := SpentAt c.session.sendSeq c.session

def drawn (c : Conn Byte Addr) : Conn Byte Addr :=
  { c with session := { c.session with sendSeq := (c.session.sendSeq + 1) % seqLimit } }

/-- The number to seal with is past the limit of the epoch; the timer finds no flight, or the
retries used up; no response to the epoch is cached. -/
def Task.Silent (c : Conn Byte Addr) : Task Byte Addr → Prop
  | .sealing _ seq _ => SpentAt seq c.session
  | .rekeyTimer => ∀ flight ∈ c.rekey, flight.2 > datagramHandshakeMaxRetries
  | .looking _ epoch _ => ∀ answer ∈ c.answered, answer.1 ≠ epoch
  | _ => True

def Silent (w : World Byte Addr) : Event Byte Addr → Prop
  | .call _ => True
  | .step i _ => ∀ task ∈ w.tasks[i]?, task.Silent w.conn

instance (c : Conn Byte Addr) (task : Task Byte Addr) : Decidable (task.Silent c) := by
  cases task with
  | sealing b seq epoch => exact inferInstanceAs (Decidable (∀ epochs ∈ c.session.dgramEpochs, _))
  | rekeyTimer => exact inferInstanceAs (Decidable (∀ flight ∈ c.rekey, _))
  | looking coins epoch body => exact inferInstanceAs (Decidable (∀ answer ∈ c.answered, _))
  | _ => exact .isTrue trivial

instance (w : World Byte Addr) (e : Event Byte Addr) : Decidable (Silent w e) :=
  match e with
  | .call _ => .isTrue trivial
  | .step i _ => inferInstanceAs (Decidable (∀ task ∈ w.tasks[i]?, task.Silent w.conn))

section Sealing
variable {crypto : Crypto Byte} {c : Conn Byte Addr}
omit [DecidableEq Addr]

theorem sealFrame_eq (frameType : UInt8) (payload : List Byte) {epochs : DatagramEpochState Byte}
    (present : c.session.dgramEpochs = some epochs) :
    sealFrame crypto frameType payload c =
      let header := encodeDatagramHeader ⟨frameType, epochs.cur.epoch, c.peerIndex,
        c.session.sendSeq⟩
      onSession (datagramSealTo crypto header header c.session.sendSeq payload) (drawn c) := by
  have drew : onSession nextDatagramSeq c = (.ok c.session.sendSeq, drawn c) := rfl
  have epoch : onSession datagramSendEpoch (drawn c) = (.ok epochs.cur.epoch, drawn c) := by
    have same : (drawn c).session.dgramEpochs = some epochs := present
    simp [onSession, datagramSendEpoch, epochsOf, same, run_bind]
  rw [sealFrame, run_bind_ok drew, run_bind_ok epoch, read_bind]
  rfl

theorem sealFrame_ready (crypto : Crypto Byte) (frameType : UInt8) (payload : List Byte)
    (ready : ¬ Spent c) : ∃ frame, sealFrame crypto frameType payload c = (.ok frame, drawn c) := by
  simp only [Spent, SpentAt, Option.mem_def, not_forall, exists_prop, not_le] at ready
  obtain ⟨epochs, present, young⟩ := ready
  rw [sealFrame_eq frameType payload present]
  dsimp only
  have sealed : datagramSeal crypto (encodeDatagramHeader ⟨frameType, epochs.cur.epoch, c.peerIndex,
      c.session.sendSeq⟩) c.session.sendSeq payload (drawn c).session =
        (.ok _, (drawn c).session) :=
    datagramSeal_ok_iff.mpr ⟨rfl, epochs, present, young, rfl⟩
  rw [onSession, datagramSealTo, run_bind_ok sealed]
  exact ⟨_, rfl⟩

theorem datagramSealTo_spent (crypto : Crypto Byte) (dst aad payload : List Byte) {seq : Nat}
    {s : Session Byte} (spent : SpentAt seq s) :
    ∃ stop, datagramSealTo crypto dst aad seq payload s = (.error stop, s) := by
  cases present : s.dgramEpochs with
  | none => exact ⟨.panic, by simp [datagramSealTo, datagramSeal, epochsOf, present, run_bind]⟩
  | some epochs =>
    have refused : datagramSeal crypto aad seq payload s = (.error (.err .nonceExhausted), s) := by
      rw [datagramSeal, read_bind, epochsOf, present, run_bind_ok (run_lift _ _),
        run_bind_error (run_reject_pos _ (spent epochs present))]
    exact ⟨_, run_bind_error refused⟩

theorem sealFrame_spent (crypto : Crypto Byte) (frameType : UInt8) (payload : List Byte)
    (spent : Spent c) : ∃ stop, sealFrame crypto frameType payload c = (.error stop, drawn c) := by
  cases present : c.session.dgramEpochs with
  | none =>
    have drew : onSession nextDatagramSeq c = (.ok c.session.sendSeq, drawn c) := rfl
    have epoch : onSession datagramSendEpoch (drawn c) = (.error .panic, drawn c) := by
      have same : (drawn c).session.dgramEpochs = none := present
      simp [onSession, datagramSendEpoch, epochsOf, same, run_bind]
    rw [sealFrame, run_bind_ok drew, run_bind_error epoch]
    exact ⟨_, rfl⟩
  | some epochs =>
    have spent' : SpentAt c.session.sendSeq (drawn c).session := spent
    rw [sealFrame_eq frameType payload present]
    dsimp only
    obtain ⟨stop, refused⟩ := datagramSealTo_spent crypto (encodeDatagramHeader ⟨frameType,
      epochs.cur.epoch, c.peerIndex, c.session.sendSeq⟩) (encodeDatagramHeader ⟨frameType,
      epochs.cur.epoch, c.peerIndex, c.session.sendSeq⟩) payload spent'
    exact ⟨stop, by rw [onSession, refused]⟩

end Sealing

/-! What a section does to the session. -/
section Sections
variable {crypto : Crypto Byte} {now : Int} {c : Conn Byte Addr} {task : Task Byte Addr}

/-- A number is drawn or recorded, at most; the session is closed; or a new secret is installed. -/
inductive Turns (crypto : Crypto Byte) (now : Int) (task : Task Byte Addr) (s : Session Byte) :
    Session Byte → Prop
  | numbers (seq : Nat) : Turns crypto now task s { s with sendSeq := seq }
  | records (replay : Option ReplayWindow.Window) (src : Addr) (data : List Byte)
      (stage : Stage Byte) (at' : task = .route src data stage) :
      Turns crypto now task s { s with dgramReplay := replay }
  | closes : Turns crypto now task s (Records.closeSession s).2
  | advances (answer : Option (UInt8 × List Byte)) (secret : List Byte)
      (at' : task = .advancing answer secret) :
      Turns crypto now task s (advanceDatagramEpoch crypto now secret s).2

/-- What the calls beside routeDatagram do not touch. -/
def receiving (c : Conn Byte Addr) : Option ReplayWindow.Window × Addr × List (List Byte) :=
  (c.session.dgramReplay, c.peerAddr, c.recvCh)

theorem sealRekeyControl_session (msgType : UInt8) (payload : List Byte)
    (s : Session Byte) : (sealRekeyControl crypto msgType payload s).2 =
      { s with sendSeq := (s.sendSeq + 1) % seqLimit } := by
  rw [sealRekeyControl, run_bind_ok (show nextDatagramSeq s = (.ok s.sendSeq, _) from rfl),
    read_bind]
  cases epochsOf { s with sendSeq := (s.sendSeq + 1) % seqLimit } with
  | error stop => rfl
  | ok epochs =>
    rw [run_bind_ok (run_lift _ _)]
    simp [sealWithNonce, run_bind]

theorem advanceDatagramEpoch_keeps (now : Int) (secret : List Byte) :
    Keeps (fun s => (s.state, s.dgramReplay)) (advanceDatagramEpoch crypto now secret) := by
  refine .reject_bind fun _ => .read_bind fun s => ?_
  cases s.dgramEpochs with
  | none => exact .fail _
  | some epochs =>
    exact .lift_bind fun _ => .write_bind (fun _ => rfl) fun _ => .pure _

omit [Octet Byte] [DecidableEq Addr] in
theorem onSession_run {α : Type} (method : SessionProg Byte α) (c : Conn Byte Addr) :
    (onSession method c).2 = { c with session := (method c.session).2 } := rfl

omit [DecidableEq Addr] in
theorem beginRekey_keeps (crypto : Crypto Byte) (coins : List Byte) :
    Keeps (fun c : Conn Byte Addr => ({ c.session with sendSeq := 0 }, c.peerAddr, c.recvCh,
      c.written)) (beginRekey crypto coins) := by
  refine .read_bind fun _ => .reject_bind fun _ => .reject_bind fun _ =>
    .lift_bind fun kp => .bind (fun c => ?_) fun _ => .write fun _ => rfl
  rw [onSession_run, buildDatagramRekeyInit, sealRekeyControl_session]

omit [DecidableEq Addr] in
theorem beginRekey_numbers (crypto : Crypto Byte) (coins : List Byte) (c : Conn Byte Addr) :
    ∃ seq, (beginRekey crypto coins c).2.session = { c.session with sendSeq := seq } := by
  have same := congrArg Prod.fst (beginRekey_keeps crypto coins c)
  exact ⟨(beginRekey crypto coins c).2.session.sendSeq,
    congrArg (fun s : Session Byte =>
      { s with sendSeq := (beginRekey crypto coins c).2.session.sendSeq }) same⟩

theorem stepTask_apart (crypto : Crypto Byte) (now : Int)
    (apart : ∀ src data stage, task ≠ .route src data stage) (c : Conn Byte Addr) :
    Turns crypto now task c.session (stepTask crypto now task c).2.session ∧
      (stepTask crypto now task c).2.peerAddr = c.peerAddr ∧
      (stepTask crypto now task c).2.recvCh = c.recvCh := by
  have still : Turns crypto now task c.session c.session := .numbers c.session.sendSeq
  cases task with
  | route src data stage => exact absurd rfl (apart src data stage)
  | numbering b =>
    rw [stepTask]
    split
    · exact ⟨still, rfl, rfl⟩
    · exact ⟨.numbers _, rfl, rfl⟩
  | sealing b seq epoch | writing b | rekeyTimer | rekeyResponse body | looking coins epoch body =>
    rw [stepTask]
    repeat' split
    all_goals exact ⟨still, rfl, rfl⟩
  | closing => exact ⟨.closes, rfl, rfl⟩
  | beginRekey coins =>
    obtain ⟨seq, numbers⟩ := beginRekey_numbers crypto coins c
    have kept := congrArg Prod.snd (beginRekey_keeps crypto coins c)
    exact ⟨numbers ▸ .numbers seq, congrArg Prod.fst kept, congrArg (·.2.1) kept⟩
  | answering epoch ct fresh =>
    rw [stepTask, onSession]
    dsimp only
    rw [sealRekeyControl_session]
    exact ⟨.numbers _, rfl, rfl⟩
  | advancing answer secret =>
    rw [stepTask]
    dsimp only
    repeat' split
    all_goals exact ⟨.advances _ secret rfl, rfl, rfl⟩
  | _ => exact ⟨still, rfl, rfl⟩

theorem advance_written (crypto : Crypto Byte) (now : Int) (src : Addr) (data : List Byte)
    (stage : Stage Byte) (c : Conn Byte Addr) :
    (advance crypto now src data stage c).2.written = c.written := by
  cases stage <;> rw [advance] <;> (try split) <;> first | rfl | (dsimp only; split <;> rfl)

theorem advance_turns (src : Addr) (data : List Byte) (stage : Stage Byte) (c : Conn Byte Addr) :
    Turns crypto now (.route src data stage) c.session
      (advance crypto now src data stage c).2.session := by
  have still : Turns crypto now (.route src data stage) c.session c.session :=
    .numbers c.session.sendSeq
  cases stage with
  | opened h plaintext =>
    rw [advance]
    split
    · exact still
    · dsimp only
      split <;> exact .records _ _ _ _ rfl
  | accepted h plaintext =>
    rw [advance]
    split
    · exact .closes
    · dsimp only
      split <;> exact still
  | found h body | admitted h body | counted plaintext =>
    rw [advance]
    split <;> exact still
  | _ => exact still

theorem stepTask_turns (crypto : Crypto Byte) (now : Int) (task : Task Byte Addr)
    (c : Conn Byte Addr) :
    Turns crypto now task c.session (stepTask crypto now task c).2.session := by
  by_cases routes : ∃ src data stage, task = .route src data stage
  · obtain ⟨src, data, stage, rfl⟩ := routes
    exact advance_turns src data stage c
  · exact (stepTask_apart crypto now
      (fun src data stage same => routes ⟨src, data, stage, same⟩) c).1

omit [DecidableEq Addr] in
/-- Only a section of Session.Close takes a session to its end, and it clears the secret. -/
theorem Turns.closed {s s' : Session Byte} (turns : Turns crypto now task s s') :
    s'.state = s.state ∨ s'.masterSecret = none := by
  cases turns with
  | numbers | records => exact .inl rfl
  | closes => exact .inr rfl
  | advances answer secret =>
    exact .inl (congrArg Prod.fst (advanceDatagramEpoch_keeps now secret s))

omit [DecidableEq Addr] in
theorem Turns.window {s s' : Session Byte} (turns : Turns crypto now task s s')
    (apart : ∀ src data stage, task ≠ .route src data stage) : s'.dgramReplay = s.dgramReplay := by
  cases turns with
  | numbers | closes => rfl
  | records replay src data stage at' => exact absurd at' (apart src data stage)
  | advances answer secret => exact congrArg Prod.snd (advanceDatagramEpoch_keeps now secret s)

omit [DecidableEq Addr] in
theorem Turns.gone {s s' : Session Byte} (turns : Turns crypto now task s s')
    (unloaded : task.loaded = false) (gone : s.masterSecret = none) : s'.masterSecret = none := by
  cases turns with
  | numbers | records => exact gone
  | closes => rfl
  | advances answer secret at' =>
    rw [at'] at unloaded
    cases unloaded

omit [Octet Byte] [DecidableEq Addr] in
theorem loaded_orDone {α : Type} {outcome : Except Fault α} {next : α → Task Byte Addr}
    (unloaded : ∀ value, (next value).loaded = false) : (orDone outcome next).loaded = false := by
  cases outcome with
  | error stop => rfl
  | ok value => exact unloaded value

omit [Octet Byte] [DecidableEq Addr] in
theorem loaded_ends (b : Burst Byte Addr) : b.ends.loaded = false := by
  rw [Burst.ends]
  split <;> rfl

/-- Behind the end of the session, a silent section of a call that holds nothing leaves the call
with nothing, and writes nothing. -/
theorem stepTask_silent (gone : c.session.masterSecret = none) (unloaded : task.loaded = false)
    (silent : task.Silent c) : (stepTask crypto now task c).1.loaded = false ∧
      (stepTask crypto now task c).2.written = c.written := by
  cases task with
  | send p | sendBatch payloads | reap | rekeyInit coins epoch body =>
    rw [stepTask]
    exact ⟨by dsimp only; split <;> rfl, rfl⟩
  | numbering b =>
    rw [stepTask]
    split <;> exact ⟨unloaded, rfl⟩
  | heading b seq => exact ⟨loaded_orDone fun _ => unloaded, rfl⟩
  | sealing b seq epoch =>
    obtain ⟨stop, refused⟩ : ∃ stop, sealNext crypto b seq epoch c = .error stop :=
      (datagramSealTo_spent crypto _ _ _ silent).imp fun _ => congrArg Prod.fst
    rw [stepTask, refused]
    cases stop with
    | err error => exact ⟨loaded_ends b, rfl⟩
    | panic => exact ⟨rfl, rfl⟩
  | writing b =>
    have empty : b.frames = [] := by simpa [Task.loaded] using unloaded
    rw [stepTask, empty]
    exact ⟨loaded_ends b, rfl⟩
  | route src data stage => exact ⟨rfl, advance_written crypto now src data stage c⟩
  | beginRekey coins => exact ⟨rfl, congrArg (·.2.2.2) (beginRekey_keeps crypto coins c)⟩
  | rekeyTimer =>
    rw [stepTask]
    cases flight : c.rekey with
    | none => exact ⟨rfl, rfl⟩
    | some flight' =>
      have past := silent flight' flight
      dsimp only
      rw [if_pos past]
      exact ⟨rfl, rfl⟩
  | rekeyResponse body =>
    rw [stepTask]
    split
    · exact ⟨rfl, rfl⟩
    · exact ⟨loaded_orDone fun _ => rfl, rfl⟩
  | looking coins epoch body =>
    rw [stepTask]
    cases cached : c.answered with
    | none => exact ⟨rfl, rfl⟩
    | some answer =>
      have other := silent answer cached
      dsimp only
      rw [if_neg other]
      exact ⟨rfl, rfl⟩
  | comparing coins epoch body =>
    exact ⟨loaded_orDone fun current => by split <;> rfl, rfl⟩
  | opening coins epoch body | answering epoch ct fresh => exact ⟨loaded_orDone fun _ => rfl, rfl⟩
  | nextSecret answer fresh =>
    have refused : deriveNextDatagramSecret crypto fresh c.session =
        .error (.err .invalidKeySize) := by
      simp [deriveNextDatagramSecret, deriveRekeySecret, gone, sharedSecretSize]
    rw [stepTask, refused]
    exact ⟨rfl, rfl⟩
  | advancing | caching => cases unloaded
  | close | closing | teardown | endRekey | done => exact ⟨rfl, rfl⟩

end Sections

/-! Runs. -/
section Runs
variable {crypto : Crypto Byte} {w : World Byte Addr}

structure Mute (w : World Byte Addr) : Prop where
  gone : w.conn.session.masterSecret = none
  unloaded : ∀ task ∈ w.tasks, task.loaded = false

theorem Mute.perform (mute : Mute w) (e : Event Byte Addr) (silent : Silent w e) :
    Mute (perform crypto w e) ∧ (perform crypto w e).conn.written = w.conn.written := by
  cases e with
  | call task =>
    rw [ClosedDatagram.perform]
    split
    · rename_i initial
      have empty : task.loaded = false := by
        cases task <;> first | rfl | cases initial
      exact ⟨⟨mute.gone, forall_added mute.unloaded empty⟩, rfl⟩
    · exact ⟨mute, rfl⟩
  | step i now =>
    rw [ClosedDatagram.perform]
    cases found : w.tasks[i]? with
    | none => exact ⟨mute, rfl⟩
    | some task =>
      have unloaded := mute.unloaded task (List.mem_of_getElem? found)
      obtain ⟨empty, same⟩ := stepTask_silent mute.gone unloaded (silent task found)
      have gone := (stepTask_turns crypto now task w.conn).gone unloaded mute.gone
      exact ⟨⟨gone, forall_replaced mute.unloaded empty⟩, same⟩

theorem Mute.run (mute : Mute w) {events : List (Event Byte Addr)}
    (silent : Along (ClosedDatagram.perform crypto) Silent events w) :
    (after crypto events w).conn.written = w.conn.written := by
  have keeps (w' : World Byte Addr) (e : Event Byte Addr) (silent : Silent w' e)
      (inv : Mute w' ∧ w'.conn.written = w.conn.written) :
      Mute (ClosedDatagram.perform crypto w' e) ∧
        (ClosedDatagram.perform crypto w' e).conn.written = w.conn.written := by
    obtain ⟨next, same⟩ := inv.1.perform e silent
    exact ⟨next, same.trans inv.2⟩
  exact (invariant_run keeps silent ⟨mute, rfl⟩).2

theorem perform_closes {e : Event Byte Addr} (live : w.conn.session.state ≠ .closed)
    (closed : (perform crypto w e).conn.session.state = .closed) :
    (perform crypto w e).conn.session.masterSecret = none := by
  cases e with
  | call task =>
    rw [perform] at closed
    split at closed <;> exact absurd closed live
  | step i now =>
    rw [perform] at closed ⊢
    cases found : w.tasks[i]? with
    | none =>
      rw [found] at closed
      exact absurd closed live
    | some task =>
      rw [found] at closed
      refine (stepTask_turns crypto now task w.conn).closed.resolve_left fun same => live ?_
      exact same.symm.trans closed

/-- From the section of Session.Close on nothing more is written, if no call held a sealed frame or
a new secret by then, and none comes to a frame behind it: no number is good for another seal, no
flight of a rekey is waiting and no cached response is asked for. -/
theorem closed_silent (crypto : Crypto Byte) {w : World Byte Addr} (before : List (Event Byte Addr))
    (e : Event Byte Addr) (later : List (Event Byte Addr))
    (live : (after crypto before w).conn.session.state ≠ .closed)
    (closed : (after crypto (before ++ [e]) w).conn.session.state = .closed)
    (unloaded : ∀ task ∈ (after crypto (before ++ [e]) w).tasks, task.loaded = false)
    (silent : Along (perform crypto) Silent later (after crypto (before ++ [e]) w)) :
    (after crypto (before ++ e :: later) w).conn.written =
      (after crypto (before ++ [e]) w).conn.written := by
  have split : after crypto (before ++ e :: later) w =
      after crypto later (after crypto (before ++ [e]) w) := by
    rw [after, after, after, ← run_append, List.append_assoc]
    rfl
  have ends : after crypto (before ++ [e]) w = perform crypto (after crypto before w) e :=
    run_append _ before [e] w
  have mute : Mute (after crypto (before ++ [e]) w) :=
    ⟨ends ▸ perform_closes live (ends ▸ closed), unloaded⟩
  rw [split]
  exact mute.run silent

end Runs

def connected (session : Session Letter) : Conn Letter Unit where
  session := session
  index := 1
  peerIndex := 2
  peerAddr := ()
  registered := true
  closed := false
  recvCh := []
  bytesReceived := 0
  packetsRecv := 0
  rekey := none
  answered := none
  written := []

/-- The sections of one call, from beginning to end or as far as they are counted. -/
def alone (i sections : Nat) : List (Event Letter Unit) := List.replicate sections (.step i 0)

/-- A frame is sent and the session closed. An oversized payload, an empty batch, a timer and a
RekeyInit follow. -/
theorem closed_silent_oversized :
    ∃ i s, newSession DatagramRekey.shortKem .initiator [] [] = .ok i ∧
      DatagramRekey.keyedWith i = (.ok (), s) ∧
      let before := .call (.send [lit 1]) :: alone 0 7 ++ .call .close :: alone 1 7
      let closed := after env.toCrypto (before ++ [.step 1 0]) ⟨connected s, []⟩
      closed.conn.session.state = .closed ∧ closed.conn.written.length = 2 ∧
      (after env.toCrypto (before ++ .step 1 0 ::
        ([.call (.send (List.replicate 1171 (lit 0))), .step 2 0, .call (.sendBatch [])] ++
          alone 3 3 ++ [.call .rekeyTimer, .step 4 0, .call (.rekeyInit [] 0 [])] ++ alone 5 4 ++
          alone 1 2))
        ⟨connected s, []⟩).conn.written = closed.conn.written := by
  refine ⟨_, _, rfl, rfl, by decide +kernel, by decide +kernel, ?_⟩
  refine closed_silent env.toCrypto _ (.step 1 0) _ ?_ ?_ ?_ ?_
  · decide +kernel
  · decide +kernel
  · decide +kernel
  · decide +kernel

/-- The application's Send behind its own Close goes out, sealed under the session's key:
the peer opens it. -/
theorem closed_session_sends : ∃ initiator responder, DatagramRekey.IsPair initiator responder ∧
      let closed := after env.toCrypto (.call .close :: alone 0 9) ⟨connected initiator, []⟩
      let sent := after env.toCrypto (.call (.send [lit 1]) :: alone 1 7) closed
      closed.conn.session.state = .closed ∧ (closed.tasks.all fun task => !task.loaded) = true ∧
        sent.conn.session.state = .closed ∧
        sent.conn.written.length = closed.conn.written.length + 1 ∧
        sent.conn.written.getLast?.map (fun entry => datagramOpen env.toCrypto 0 0 1
          (entry.2.drop datagramHeaderSize) (datagramAAD entry.2) responder) =
            some (.ok [lit 1]) := by
  refine ⟨_, _, ⟨_, _, rfl, rfl, rfl, rfl⟩, ?_⟩
  decide +kernel

end QuantumGo.ClosedDatagram
