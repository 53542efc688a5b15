import QuantumGo.ClosedSession

/-!
What Close gives back. A transport runs over a connection that the listener wrapped
when it took a slot of the per-address limit; the slot returns when the connection is
closed. The calls on a transport run interleaved, one lock section at a time. A Close record
or a close-notify alert of the peer sets the flag on which `Transport.Close` returns early.
-/

namespace QuantumGo.ClosedTransport

open Octets Effect Symbolic Interleaving Wire HelloCodec Aead Tunnel Records StreamTransport
open SymbolicKem
open ClosedSession (Shut closeSession_shut initiateRekey_unchanged prepareRekeyResponse_refused
  processRekeyResponse_unchanged)

/-! The limiter (pkg/tunnel/limiter.go). An address without an entry has no connection. -/
section Limiter
variable {Ip : Type} [DecidableEq Ip]

structure IPRateLimiter (Ip : Type) where
  connections : Ip → Nat
  maxPerIP : Int

def IPRateLimiter.allowConnection (l : IPRateLimiter Ip) (ip : Ip) : Bool × IPRateLimiter Ip :=
  if l.maxPerIP ≤ 0 then (true, l)
  else if l.maxPerIP ≤ l.connections ip then (false, l)
  else (true, { l with connections := Function.update l.connections ip (l.connections ip + 1) })

def IPRateLimiter.releaseConnection (l : IPRateLimiter Ip) (ip : Ip) : IPRateLimiter Ip :=
  if l.maxPerIP ≤ 0 then l
  else if 0 < l.connections ip then
    { l with connections := Function.update l.connections ip (l.connections ip - 1) }
  else l

/-- Giving a slot back undoes taking it. -/
theorem releaseConnection_allowConnection {l l' : IPRateLimiter Ip} {ip : Ip}
    (allowed : l.allowConnection ip = (true, l')) : l'.releaseConnection ip = l := by
  unfold IPRateLimiter.allowConnection at allowed
  split at allowed
  · rename_i unlimited
    obtain rfl := (Prod.mk.inj allowed).2
    exact if_pos unlimited
  · rename_i limited
    split at allowed
    · cases allowed
    · obtain rfl := (Prod.mk.inj allowed).2
      simp [IPRateLimiter.releaseConnection, limited]

end Limiter

/-- A transport with its connection. The connection of a listener without a limit has
no limiter. -/
structure Link (Byte Ip : Type) where
  transport : Transport Byte
  ip : Ip
  limiter : Option (IPRateLimiter Ip)
  connClosed : Bool
  closeOnce : Bool

/-- `Listener.checkIPRateLimit`, with the transport that is then built on the wrapped
connection. An address at its limit gets none. -/
def checkIPRateLimit {Byte Ip : Type} [DecidableEq Ip] (limiter : Option (IPRateLimiter Ip))
    (ip : Ip) (transport : Transport Byte) : Option (Link Byte Ip) :=
  match limiter with
  | none => some { transport, ip, limiter := none, connClosed := false, closeOnce := false }
  | some l =>
    match l.allowConnection ip with
    | (false, _) => none
    | (true, l') =>
      some { transport, ip, limiter := some l', connClosed := false, closeOnce := false }

/-! Decrypt in its sections: the ciphers are read under the lock, the record is opened
without it, and the promotion takes the lock again. -/

/-- The receive cipher, the pending one and the nonce prefix, read together. -/
abbrev Ciphers (Byte : Type) := Cipher Byte × Option (Cipher Byte) × List Byte

def recvCiphers {Byte : Type} : SessionProg Byte (Ciphers Byte) := do
  let s ← read
  match s.recvCipher with
  | none => fail (.err .invalidState)
  | some cipher => return (cipher, s.pendingRecvCipher, s.recvNoncePrefix)

def openWith {Byte : Type} [Octet Byte] (crypto : Crypto Byte) (ciphers : Ciphers Byte)
    (ciphertext : List Byte) (seq : Nat) : SessionProg Byte (List Byte × Bool) := do
  let s ← read
  let (fresh, window) := ReplayWindow.check s.replayWindow seq
  write fun s => { s with replayWindow := window }
  reject (fresh = false) (.err .replayDetected)
  lift (trialOpen crypto ciphers.1 ciphers.2.1 (buildAEADNonce ciphers.2.2 seq) ciphertext
    (toBE 8 seq))

/-- The sections one behind the other are Decrypt. -/
theorem decrypt_sections {Byte : Type} [Octet Byte] (crypto : Crypto Byte) (ciphertext : List Byte)
    (seq : Nat) :
    decrypt crypto ciphertext seq = (do
      let ciphers ← recvCiphers
      let (plaintext, promoted) ← openWith crypto ciphers ciphertext seq
      promoteIf promoted
      return plaintext) := by
  funext s
  rw [decrypt, recvCiphers, bind_bind, read_bind, read_bind]
  cases s.recvCipher with
  | none => rfl
  | some cipher =>
    change _ = (openWith crypto (cipher, s.pendingRecvCipher, s.recvNoncePrefix) ciphertext seq >>=
      _) s
    simp only [openWith, bind_bind, read_bind, write_bind]

/-- The calls on a transport and where each stands between two sections. A `receive` is one
round of the loop in `Receive` with the message it reads. A Close that finds the flag set
ends in `done`, the one that has set it in `returned`. -/
inductive Task (Byte : Type) where
  | send (worn : Bool) (coins data : List Byte)
  | sealing (worn : Bool) (coins data : List Byte)
  | checking (worn : Bool) (coins : List Byte)
  | needing (worn : Bool) (coins : List Byte)
  | sendRekey (coins : List Byte)
  | initiating (coins : List Byte)
  | requesting (newPublicKey : List Byte) (activationSeq : Nat)
  | sendPing
  | writing (msg : List Byte)
  | receive (coins msg : List Byte)
  | dispatching (coins msg : List Byte)
  | reading (kind : Kind) (coins ciphertext : List Byte) (seq : Nat)
  | opening (kind : Kind) (coins : List Byte) (ciphers : Ciphers Byte) (ciphertext : List Byte)
      (seq : Nat)
  | promoting (kind : Kind) (coins plaintext : List Byte)
  | applying (coins newPublicKey : List Byte) (activationSeq : Nat)
  | preparing (coins newPublicKey : List Byte) (activationSeq : Nat)
  | responding (responseCT : List Byte) (activationSeq : Nat)
  | activating
  | processing (ciphertext : List Byte)
  | close
  | notifying
  | closing
  | hangingUp
  | returned
  | done
  deriving DecidableEq

def Task.initial {Byte : Type} : Task Byte → Bool
  | .send .. | .sendRekey .. | .sendPing | .receive .. | .close => true
  | _ => false

/-- A Close behind its Session.Close. -/
def Task.past {Byte : Type} : Task Byte → Bool
  | .hangingUp | .returned => true
  | _ => false

/-- Between PrepareRekeyResponse and ActivateRekeySend. -/
def Task.answering {Byte : Type} : Task Byte → Bool
  | .responding .. | .activating => true
  | _ => false

/-- Only where a rekey is being answered does the section behind it answer one. -/
def Task.Leads {Byte : Type} (task next : Task Byte) : Prop :=
  next.past = false ∧ (task.answering = false → next.answering = false)

theorem ite_leads {Byte : Type} {task yes no : Task Byte} {cond : Prop} [Decidable cond]
    (left : task.Leads yes) (right : task.Leads no) : task.Leads (if cond then yes else no) := by
  split
  · exact left
  · exact right

structure World (Byte Ip : Type) where
  link : Link Byte Ip
  tasks : List (Task Byte)

/-- `wrote` is the outcome of a write to the connection, where the section has one. -/
inductive Event (Byte : Type) where
  | call (task : Task Byte)
  | step (i : Nat) (now : Int) (wrote : Bool)

section Calls
variable {Byte Ip : Type}

/-- A section on the transport; a call ends at an error. -/
def locked {α : Type} (method : TransportProg Byte α) (next : α → Task Byte)
    (link : Link Byte Ip) : Task Byte × Link Byte Ip :=
  match method link.transport with
  | (.ok value, transport) => (next value, { link with transport })
  | (.error _, transport) => (.done, { link with transport })

def connWrite (wrote : Bool) : TransportProg Byte Unit :=
  reject (wrote = false) (.err .endOfStream)

/-- What follows Decrypt: the data go to the caller, a rekey payload is applied. -/
def opened [Octet Byte] (kind : Kind) (coins plaintext : List Byte) : Task Byte :=
  match kind with
  | .data => .done
  | .rekey =>
    match decodeRekeyPayload plaintext with
    | .ok (newPublicKey, activationSeq) => .applying coins newPublicKey activationSeq
    | .error _ => .done

/-- The switch of `Receive` on the type of a message, apart from Close and Alert. -/
def dispatch [Octet Byte] (coins msg : List Byte) : Task Byte :=
  let messageType := msg.head?.map val
  if messageType = some messageTypeData then
    match decodeData msg with
    | .ok (seq, ciphertext) => .reading .data coins ciphertext seq
    | .error _ => .done
  else if messageType = some messageTypePing then .writing (frame messageTypePong [])
  else if messageType = some messageTypeRekey then
    match decodeRekey msg with
    | .ok (seq, ciphertext) => .reading .rekey coins ciphertext seq
    | .error _ => .done
  else .done

/-- A Close record, or an alert that is a close-notify. -/
def Farewell [Octet Byte] (msg : List Byte) : Prop :=
  msg.head?.map val = some messageTypeClose ∨
    msg.head?.map val = some messageTypeAlert ∧ alertCode msg = alertCodeCloseNotify

instance [Octet Byte] (msg : List Byte) : Decidable (Farewell msg) :=
  inferInstanceAs (Decidable (_ ∨ _))

def connClose [DecidableEq Ip] (link : Link Byte Ip) : Link Byte Ip :=
  if link.closeOnce then { link with connClosed := true }
  else { link with
    connClosed := true, closeOnce := true
    limiter := link.limiter.map (·.releaseConnection link.ip) }

variable [Octet Byte] [DecidableEq Ip]

-- Encrypt and the write behind it are one section: they touch the counter and the wire alone.
def stepTask (crypto : Crypto Byte) (now : Int) (wrote : Bool) :
    Task Byte → Link Byte Ip → Task Byte × Link Byte Ip
  | .send worn coins data => locked (do
      checkClosed
      reject (data.length > maxPayloadSize) (.err .messageTooLarge)) fun _ =>
        .sealing worn coins data
  | .sealing worn coins data => locked (do
      sealAndWrite crypto data
      connWrite wrote) fun _ => .checking worn coins
  | .checking worn coins => locked read fun t =>
      if t.session.role = .initiator ∧ t.session.rekeyInProgress = false then .needing worn coins
      else .done
  | .needing worn coins => locked read fun t =>
      if needsRekey worn t.session = true then .sendRekey coins else .done
  | .sendRekey coins => locked checkClosed fun _ => .initiating coins
  | .initiating coins => locked (onSession (initiateRekey coins)) fun request =>
      .requesting request.1 request.2
  | .requesting newPublicKey activationSeq => locked (do
      let innerPayload ← lift (encodeRekeyPayload newPublicKey activationSeq)
      let (ciphertext, seq) ← sealAs crypto .rekey innerPayload
      writeFrame (encodeRekey seq ciphertext)) fun _ => .done
  | .sendPing => locked checkClosed fun _ => .writing (frame messageTypePing [])
  | .writing msg => locked (writeFrame msg) fun _ => .done
  | .receive coins msg => locked checkClosed fun _ => .dispatching coins msg
  | .dispatching coins msg =>
    if Farewell msg then locked markClosed fun _ => .done
    else locked (pure ()) fun _ => dispatch coins msg
  | .reading kind coins ciphertext seq => locked (onSession recvCiphers) fun ciphers =>
      .opening kind coins ciphers ciphertext seq
  | .opening kind coins ciphers ciphertext seq => locked (do
      let (plaintext, promoted) ← onSession (openWith crypto ciphers ciphertext seq)
      write fun t => { t with openings := t.openings ++ [⟨kind, seq, plaintext, ciphertext⟩] }
      return (plaintext, promoted)) fun result =>
        if result.2 then .promoting kind coins result.1 else opened kind coins result.1
  | .promoting kind coins plaintext => locked (onSession promotePendingRecvCipher) fun _ =>
      opened kind coins plaintext
  | .applying coins newPublicKey activationSeq => locked read fun t =>
      if t.session.role = .responder ∧ t.session.rekeyInProgress = false then
        .preparing coins newPublicKey activationSeq
      else if t.session.role = .initiator ∧ t.session.rekeyInProgress = true then
        .processing newPublicKey
      else .done
  | .preparing coins newPublicKey activationSeq =>
    locked (onSession (prepareRekeyResponse crypto coins newPublicKey activationSeq))
      fun responseCT => .responding responseCT activationSeq
  | .responding responseCT activationSeq => locked (do
      sendRekeyResponse crypto responseCT activationSeq
      connWrite wrote) fun _ => .activating
  | .activating => locked (onSession (activateRekeySend now)) fun _ => .done
  | .processing ciphertext => locked (onSession (processRekeyResponse crypto now ciphertext))
      fun _ => .done
  | .close => fun link =>
    if link.transport.closed then (.done, link) else locked markClosed (fun _ => .notifying) link
  | .notifying => locked (do
      let t ← read
      if t.session.state = .established then writeFrame closeNotice else pure ()) fun _ => .closing
  | .closing => locked (onSession closeSession) fun _ => .hangingUp
  | .hangingUp => fun link => (.returned, connClose link)
  | .returned => fun link => (.returned, link)
  | .done => fun link => (.done, link)

def perform (crypto : Crypto Byte) (w : World Byte Ip) : Event Byte → World Byte Ip
  | .call task => if task.initial then { w with tasks := w.tasks ++ [task] } else w
  | .step i now wrote =>
    match w.tasks[i]? with
    | none => w
    | some task =>
      match stepTask crypto now wrote task w.link with
      | (task', link) => ⟨link, w.tasks.set i task'⟩

def after (crypto : Crypto Byte) (events : List (Event Byte)) (w : World Byte Ip) :
    World Byte Ip :=
  run (perform crypto) events w

/-- Nothing of a rekey waits to be installed. -/
structure Unpended (s : Session Byte) : Prop where
  recvCipher : s.pendingRecvCipher = none
  sendCipher : s.pendingSendCipher = none
  rekeySecret : s.pendingRekeySecret = none

structure Released (limiter : Option (IPRateLimiter Ip)) (link : Link Byte Ip) : Prop where
  shut : Shut link.transport.session
  unpended : Unpended link.transport.session
  connClosed : link.connClosed = true
  limiter : link.limiter = limiter

/-- Session.Close finds no rekey pending and none being answered. -/
def Task.Settled (w : World Byte Ip) : Task Byte → Prop
  | .closing => Unpended w.link.transport.session ∧ ∀ other ∈ w.tasks, other.answering = false
  | _ => True

def Settled (w : World Byte Ip) : Event Byte → Prop
  | .call _ => True
  | .step i _ _ => ∀ task ∈ w.tasks[i]?, task.Settled w

instance (s : Session Byte) : Decidable (Unpended s) :=
  decidable_of_iff (_ ∧ _ ∧ _)
    ⟨fun none => ⟨none.1, none.2.1, none.2.2⟩, fun none => ⟨none.1, none.2, none.3⟩⟩

instance (w : World Byte Ip) (task : Task Byte) : Decidable (task.Settled w) := by
  cases task with
  | closing => exact inferInstanceAs (Decidable (Unpended _ ∧ ∀ other ∈ w.tasks, _))
  | _ => exact .isTrue trivial

instance (w : World Byte Ip) (e : Event Byte) : Decidable (Settled w e) :=
  match e with
  | .call _ => .isTrue trivial
  | .step i _ _ => inferInstanceAs (Decidable (∀ task ∈ w.tasks[i]?, task.Settled w))

end Calls

/-! A section on the transport alone. -/
section Sections
variable {Byte Ip : Type} {link : Link Byte Ip} {task : Task Byte} {α : Type}

/-- What Close gives back of a session. -/
def held (s : Session Byte) : SessionState × Option (List Byte) × List (Option (Cipher Byte)) ×
    Option (List Byte) :=
  (s.state, s.masterSecret,
    [s.sendCipher, s.recvCipher, s.pendingRecvCipher, s.pendingSendCipher], s.pendingRekeySecret)

def Bare (s : Session Byte) : Prop := Shut s ∧ Unpended s

theorem Bare.of_held {s s' : Session Byte} (bare : Bare s) (same : held s' = held s) : Bare s' := by
  obtain ⟨⟨state, secret, sends, opens⟩, recv, send, rekey⟩ := bare
  simp only [held, state, secret, sends, opens, recv, send, rekey, Prod.mk.injEq, List.cons.injEq]
    at same
  obtain ⟨state', secret', ⟨sends', opens', recv', send', -⟩, rekey'⟩ := same
  exact ⟨⟨state', secret', sends', opens'⟩, recv', send', rekey'⟩

/-- The transport is all that moves, and a bare session stays bare unless a rekey is being
answered. -/
structure Moves (task : Task Byte) (link : Link Byte Ip) (result : Task Byte × Link Byte Ip) :
    Prop where
  early : result.1.past = false
  apart : ∃ t, result.2 = { link with transport := t }
  bare : Bare link.transport.session → task.answering = false →
    Bare result.2.transport.session ∧ result.1.answering = false

def view (t : Transport Byte) := held t.session

theorem locked_moves {method : TransportProg Byte α} {next : α → Task Byte}
    (early : ∀ value, (next value).past = false)
    (kept : Bare link.transport.session → task.answering = false →
      view (method link.transport).2 = view link.transport ∧
        ∀ value, (method link.transport).1 = .ok value → (next value).answering = false) :
    Moves task link (locked method next link) := by
  rw [locked]
  generalize method link.transport = ran at kept ⊢
  obtain ⟨stop | value, t⟩ := ran
  · exact ⟨rfl, ⟨t, rfl⟩, fun bare quiet => ⟨bare.of_held (kept bare quiet).1, rfl⟩⟩
  · refine ⟨early value, ⟨t, rfl⟩, fun bare quiet => ?_⟩
    exact ⟨bare.of_held (kept bare quiet).1, (kept bare quiet).2 value rfl⟩

/-- A section that leaves what the session holds. -/
theorem locked_keeps {method : TransportProg Byte α} {next : α → Task Byte}
    (keeps : Keeps view method) (leads : ∀ value, task.Leads (next value)) :
    Moves task link (locked method next link) :=
  locked_moves (fun value => (leads value).1) fun _ quiet =>
    ⟨keeps link.transport, fun value _ => (leads value).2 quiet⟩

theorem onSession_view {method : SessionProg Byte α} (keeps : Keeps held method) :
    Keeps view (onSession method) := fun t => keeps t.session

theorem checkClosed_view : Keeps view (checkClosed : TransportProg Byte Unit) :=
  .read_bind fun _ => .reject _ _

theorem writeFrame_view (msg : List Byte) : Keeps view (writeFrame msg) := .write fun _ => rfl

theorem recvCiphers_held : Keeps held (recvCiphers : SessionProg Byte (Ciphers Byte)) := by
  refine .read_bind fun s => ?_
  cases s.recvCipher with
  | none => exact .fail _
  | some cipher => exact .pure _

variable [Octet Byte] {crypto : Crypto Byte}

theorem encrypt_held (plaintext : List Byte) : Keeps held (encrypt crypto plaintext) := by
  refine .read_bind fun s => .write_bind (fun _ => rfl) fun _ => ?_
  cases s.sendCipher with
  | none => exact .fail _
  | some cipher => exact .reject_bind fun _ => .lift_bind fun _ => .pure _

theorem sealAs_view (kind : Kind) (plaintext : List Byte) :
    Keeps view (sealAs crypto kind plaintext) :=
  .read_bind fun _ => .bind (onSession_view (encrypt_held plaintext)) fun _ =>
    .write_bind (fun _ => rfl) fun _ => .pure _

theorem openWith_held (ciphers : Ciphers Byte) (ciphertext : List Byte) (seq : Nat) :
    Keeps held (openWith crypto ciphers ciphertext seq) :=
  .read_bind fun _ => .write_bind (fun _ => rfl) fun _ => .reject_bind fun _ => .lift _

theorem opened_leads (kind : Kind) (coins plaintext : List Byte) :
    task.Leads (opened kind coins plaintext) := by
  unfold opened
  cases kind with
  | data => exact ⟨rfl, fun _ => rfl⟩
  | rekey =>
    dsimp only
    cases decodeRekeyPayload plaintext with
    | ok payload | error stop => exact ⟨rfl, fun _ => rfl⟩

theorem dispatch_leads (coins msg : List Byte) : task.Leads (dispatch coins msg) := by
  refine ite_leads ?_ (ite_leads ⟨rfl, fun _ => rfl⟩ (ite_leads ?_ ⟨rfl, fun _ => rfl⟩))
  · cases decodeData msg with
    | ok record | error stop => exact ⟨rfl, fun _ => rfl⟩
  · cases decodeRekey msg with
    | ok record | error stop => exact ⟨rfl, fun _ => rfl⟩

/-- Every section, those behind the notice of a Close apart. -/
theorem stepTask_moves [DecidableEq Ip] (crypto : Crypto Byte) (now : Int) (wrote : Bool)
    (other : task ≠ .closing) (early : task.past = false) :
    Moves task link (stepTask crypto now wrote task link) := by
  cases task with
  | send worn coins data =>
    rw [stepTask]
    exact locked_keeps (.bind checkClosed_view fun _ => .reject _ _) fun _ => ⟨rfl, fun _ => rfl⟩
  | sealing worn coins data =>
    rw [stepTask]
    refine locked_keeps (.bind ?_ fun _ => .reject _ _) fun _ => ⟨rfl, fun _ => rfl⟩
    exact .bind (sealAs_view _ _) fun _ => .lift_bind fun _ => writeFrame_view _
  | checking worn coins | needing worn coins =>
    rw [stepTask]
    exact locked_keeps .read fun _ => ite_leads ⟨rfl, fun _ => rfl⟩ ⟨rfl, fun _ => rfl⟩
  | sendRekey coins =>
    rw [stepTask]
    exact locked_keeps checkClosed_view fun _ => ⟨rfl, fun _ => rfl⟩
  | initiating coins =>
    rw [stepTask]
    exact locked_moves (fun _ => rfl) fun bare _ =>
      ⟨congrArg held (initiateRekey_unchanged bare.1), fun _ _ => rfl⟩
  | requesting newPublicKey activationSeq =>
    rw [stepTask]
    refine locked_keeps ?_ fun _ => ⟨rfl, fun _ => rfl⟩
    exact .lift_bind fun _ => .bind (sealAs_view _ _) fun _ => writeFrame_view _
  | sendPing =>
    rw [stepTask]
    exact locked_keeps checkClosed_view fun _ => ⟨rfl, fun _ => rfl⟩
  | writing msg =>
    rw [stepTask]
    exact locked_keeps (writeFrame_view msg) fun _ => ⟨rfl, fun _ => rfl⟩
  | receive coins msg =>
    rw [stepTask]
    exact locked_keeps checkClosed_view fun _ => ⟨rfl, fun _ => rfl⟩
  | dispatching coins msg =>
    rw [stepTask]
    split
    · exact locked_keeps (.write fun _ => rfl) fun _ => ⟨rfl, fun _ => rfl⟩
    · exact locked_keeps (.pure ()) fun _ => dispatch_leads coins msg
  | reading kind coins ciphertext seq =>
    rw [stepTask]
    exact locked_keeps (onSession_view recvCiphers_held) fun _ => ⟨rfl, fun _ => rfl⟩
  | opening kind coins ciphers ciphertext seq =>
    rw [stepTask]
    refine locked_keeps ?_ fun _ => ite_leads ⟨rfl, fun _ => rfl⟩ (opened_leads _ _ _)
    exact .bind (onSession_view (openWith_held _ _ _)) fun _ =>
      .write_bind (fun _ => rfl) fun _ => .pure _
  | promoting kind coins plaintext =>
    rw [stepTask]
    have leads : (Task.promoting kind coins plaintext).Leads (opened kind coins plaintext) :=
      opened_leads _ _ _
    refine locked_moves (fun _ => leads.1) fun bare quiet => ⟨?_, fun _ _ => leads.2 quiet⟩
    change held (promotePendingRecvCipher link.transport.session).2 = _
    rw [promotePendingRecvCipher, read_bind, bare.2.recvCipher]
    rfl
  | applying coins newPublicKey activationSeq =>
    rw [stepTask]
    exact locked_keeps .read fun _ => ite_leads ⟨rfl, fun _ => rfl⟩
      (ite_leads ⟨rfl, fun _ => rfl⟩ ⟨rfl, fun _ => rfl⟩)
  | preparing coins newPublicKey activationSeq =>
    rw [stepTask]
    refine locked_moves (fun _ => rfl) fun bare _ => ?_
    have refused : onSession (prepareRekeyResponse crypto coins newPublicKey activationSeq)
        link.transport = (.error (.err .invalidState), link.transport) := by
      rw [onSession, prepareRekeyResponse_refused bare.1]
    rw [refused]
    exact ⟨rfl, by rintro value ⟨⟩⟩
  | responding responseCT activationSeq =>
    rw [stepTask]
    refine locked_keeps (.bind ?_ fun _ => .reject _ _) fun _ =>
      ⟨rfl, fun answers => by cases answers⟩
    exact .lift_bind fun _ => .bind (sealAs_view _ _) fun _ => writeFrame_view _
  | activating =>
    rw [stepTask]
    exact locked_moves (fun _ => rfl) fun _ answers => by cases answers
  | processing ciphertext =>
    rw [stepTask]
    exact locked_moves (fun _ => rfl) fun bare _ =>
      ⟨congrArg held (processRekeyResponse_unchanged bare.1), fun _ _ => rfl⟩
  | done =>
    rw [stepTask]
    exact ⟨rfl, ⟨_, rfl⟩, fun bare _ => ⟨bare, rfl⟩⟩
  | close =>
    rw [stepTask]
    dsimp only
    split
    · exact ⟨rfl, ⟨_, rfl⟩, fun bare _ => ⟨bare, rfl⟩⟩
    · exact locked_keeps (.write fun _ => rfl) fun _ => ⟨rfl, fun _ => rfl⟩
  | notifying =>
    rw [stepTask]
    refine locked_keeps ?_ fun _ => ⟨rfl, fun _ => rfl⟩
    exact .read_bind fun _ => .ite (writeFrame_view _) (.pure _)
  | closing => exact absurd rfl other
  | hangingUp | returned => cases early

end Sections

/-! Whole runs. -/
section Runs
variable {Byte Ip : Type} [DecidableEq Ip] {limiter : Option (IPRateLimiter Ip)}
  {link : Link Byte Ip} {w : World Byte Ip} {i : Nat} {task : Task Byte}

/-- The slot is given back with the connection, and once. -/
def Slot (limiter : Option (IPRateLimiter Ip)) (link : Link Byte Ip) : Prop :=
  if link.closeOnce then link.connClosed = true ∧ link.limiter = limiter
  else link.limiter.map (·.releaseConnection link.ip) = limiter

theorem checkIPRateLimit_slot {ip : Ip} {t : Transport Byte}
    (admitted : checkIPRateLimit limiter ip t = some link) : Slot limiter link := by
  unfold checkIPRateLimit at admitted
  split at admitted
  · cases admitted
    rfl
  · split at admitted
    · cases admitted
    · rename_i allowed
      cases admitted
      exact congrArg some (releaseConnection_allowConnection allowed)

theorem connClose_slot (slot : Slot limiter link) :
    Slot limiter (connClose link) ∧ (connClose link).closeOnce = true := by
  rw [Slot] at slot
  rw [connClose]
  split
  · rename_i once
    rw [if_pos once] at slot
    exact ⟨by rw [Slot, if_pos once]; exact ⟨rfl, slot.2⟩, once⟩
  · rename_i first
    rw [if_neg first] at slot
    exact ⟨⟨rfl, slot⟩, rfl⟩

structure Invariant (limiter : Option (IPRateLimiter Ip)) (w : World Byte Ip) : Prop where
  slot : Slot limiter w.link
  bare : ∀ task ∈ w.tasks, task.past = true →
    Bare w.link.transport.session ∧ ∀ other ∈ w.tasks, other.answering = false
  hung : .returned ∈ w.tasks → w.link.closeOnce = true

theorem Invariant.call (inv : Invariant limiter w) (initial : task.initial = true) :
    Invariant limiter { w with tasks := w.tasks ++ [task] } := by
  obtain ⟨early, quiet⟩ : task.past = false ∧ task.answering = false := by
    cases task <;> first | exact ⟨rfl, rfl⟩ | cases initial
  refine ⟨inv.slot, forall_added (fun old there past => ?_) fun past => ?_, fun returned => ?_⟩
  · obtain ⟨bare, silent⟩ := inv.bare old there past
    exact ⟨bare, forall_added silent quiet⟩
  · cases early.symm.trans past
  · rcases List.mem_append.mp returned with old | new
    · exact inv.hung old
    · cases List.mem_singleton.mp new
      cases early

theorem Invariant.moves {result : Task Byte × Link Byte Ip} (inv : Invariant limiter w)
    (found : w.tasks[i]? = some task) (moves : Moves task w.link result) :
    Invariant limiter ⟨result.2, w.tasks.set i result.1⟩ := by
  obtain ⟨early, ⟨t, same⟩, kept⟩ := moves
  obtain ⟨task', link'⟩ := result
  obtain rfl : link' = { w.link with transport := t } := same
  refine ⟨inv.slot, forall_replaced (fun old there past => ?_) fun past => ?_, fun returned => ?_⟩
  · obtain ⟨bare, silent⟩ := inv.bare old there past
    obtain ⟨bare', quiet⟩ := kept bare (silent task (List.mem_of_getElem? found))
    exact ⟨bare', forall_replaced silent quiet⟩
  · cases early.symm.trans past
  · rcases List.mem_or_eq_of_mem_set returned with old | rfl
    · exact inv.hung old
    · cases early

variable [Octet Byte]

theorem Invariant.perform {crypto : Crypto Byte} (inv : Invariant limiter w) (e : Event Byte)
    (settled : Settled w e) : Invariant limiter (ClosedTransport.perform crypto w e) := by
  cases e with
  | call task =>
    rw [ClosedTransport.perform]
    split
    · exact inv.call ‹_›
    · exact inv
  | step i now wrote =>
    rw [ClosedTransport.perform]
    cases found : w.tasks[i]? with
    | none => exact inv
    | some task =>
      have here : task ∈ w.tasks := List.mem_of_getElem? found
      by_cases behind : task = .closing ∨ task.past = true
      · rcases behind with rfl | past
        · -- Session.Close; only it makes the session bare.
          obtain ⟨unpended, silent⟩ : (Task.closing : Task Byte).Settled w := settled _ found
          have bare : Bare (closeSession w.link.transport.session).2 :=
            ⟨closeSession_shut _, unpended.1, unpended.2, unpended.3⟩
          refine ⟨inv.slot, fun _ _ _ => ⟨bare, forall_replaced silent rfl⟩, fun returned => ?_⟩
          rcases List.mem_or_eq_of_mem_set returned with old | ⟨⟨⟩⟩
          exact inv.hung old
        · obtain ⟨bare, silent⟩ := inv.bare task here past
          cases task with
          | hangingUp =>
            obtain ⟨slot, once⟩ := connClose_slot inv.slot
            have same : (connClose w.link).transport = w.link.transport := by
              rw [connClose]
              split <;> rfl
            refine ⟨slot, fun _ _ _ => ⟨?_, forall_replaced silent rfl⟩, fun _ => once⟩
            change Bare (connClose w.link).transport.session
            rwa [same]
          | returned =>
            exact ⟨inv.slot, fun _ _ _ => ⟨bare, forall_replaced silent rfl⟩, fun _ =>
              inv.hung here⟩
          | _ => cases past
      · rw [not_or] at behind
        exact inv.moves found (stepTask_moves crypto now wrote behind.1 (by simpa using behind.2))

/-- However the calls on an admitted connection run into each other: once a Close that found
the flag unset has returned, everything is released. -/
theorem close_releases (crypto : Crypto Byte) {ip : Ip} {t : Transport Byte}
    (admitted : checkIPRateLimit limiter ip t = some link) {events : List (Event Byte)}
    (settled : Along (perform crypto) Settled events ⟨link, []⟩)
    (returned : .returned ∈ (after crypto events ⟨link, []⟩).tasks) :
    Released limiter (after crypto events ⟨link, []⟩).link := by
  have inv : Invariant limiter (after crypto events ⟨link, []⟩) :=
    invariant_run (fun _ e settled inv => inv.perform e settled) settled
      ⟨checkIPRateLimit_slot admitted, by simp, by simp⟩
  obtain ⟨⟨shut, unpended⟩, -⟩ := inv.bare _ returned rfl
  have slot := inv.slot
  rw [Slot, if_pos (inv.hung returned)] at slot
  exact ⟨shut, unpended, slot.1, slot.2⟩

end Runs

def keyed (s : Session Letter) : Transport Letter where
  session := (initializeKeys env.toCrypto 0 (secretOf 0) cipherSuiteAES256GCM s).2
  closed := false
  written := []
  sealings := []
  openings := []

/-- A Send and the answer to a ping are under way when the transport is closed; a second Close
and the rest of the two calls come behind it. -/
theorem close_releases_midway : ∃ s link, IsNew .responder s ∧
      checkIPRateLimit (some ⟨fun _ => 0, 1⟩) () (keyed s) = some link ∧
      let events : List (Event Letter) := [.call (.send false [] [lit 7]),
        .call (.receive [] (frame messageTypePing [])), .step 0 0 true, .step 1 0 true,
        .call .close, .step 2 0 true, .step 1 0 true, .step 2 0 true, .step 2 0 true,
        .step 0 0 true, .step 1 0 false, .step 2 0 true, .call .close, .step 3 0 true]
      .returned ∈ (after env.toCrypto events ⟨link, []⟩).tasks ∧
        Released (some ⟨fun _ => 0, 1⟩) (after env.toCrypto events ⟨link, []⟩).link := by
  refine ⟨_, _, rfl, rfl, ?_⟩
  intro events
  refine (and_iff_left_of_imp fun returned => ?_).mpr (by decide +kernel)
  exact close_releases env.toCrypto rfl (by decide +kernel) returned

/-- The peer closes first: behind the Close that follows, the session still holds its
keys, the connection is open and the address has no slot left. -/
theorem close_after_peer_leaks : ∃ s link, IsNew .responder s ∧
      checkIPRateLimit (some ⟨fun _ => 0, 1⟩) () (keyed s) = some link ∧
      let left := after env.toCrypto [.call (.receive [] (frame messageTypeClose [])),
        .step 0 0 true, .step 0 0 true, .call .close, .step 1 0 true] ⟨link, []⟩
      left.tasks = [.done, .done] ∧ left.link.transport.session.state = .established ∧
        left.link.transport.session.masterSecret.isSome = true ∧
        left.link.transport.session.sendCipher.isSome = true ∧ left.link.connClosed = false ∧
        left.link.limiter.map (fun l => (l.allowConnection ()).1) = some false := by
  refine ⟨_, _, rfl, rfl, ?_⟩
  decide +kernel

end QuantumGo.ClosedTransport
