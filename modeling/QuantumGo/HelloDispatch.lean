import QuantumGo.DatagramDriver
import QuantumGo.HalfOpen
import QuantumGo.Reassembly

/-!
How a HANDSHAKE datagram reaches a handshake: routeDatagram with the cookie gate
(pkg/tunnel/datagram.go, dgram_cookie.go), deliverHandshake, and the loop of a handshake from
startResponder to redeliverHellos (dgram_handshake_wire.go). Every section under a lock, every
send to an inbox and every reading of a clock is a step, and the steps of the receive calls,
of the deliveries and of the loops interleave. A delivery that a loop makes in redeliverHellos
runs beside the loop, and so in more orders than its own. What the flight builders answer to a
message is the event's choice.
-/

namespace QuantumGo.HelloDispatch

open Octets Wire Kem DatagramSession HandshakeFrames Tables Registry
open Reassembly (Reassembler Meeting sourceCount)
open DatagramDriver (datagramHandshakeMaxRetries)

variable {Byte Addr : Type}

/-- What the endpoint takes from elsewhere: the string of an address, HMAC under the
endpoint's secret, SHA-256, and the load at which it asks for cookies. -/
structure Env (Byte Addr : Type) where
  form : Addr → List Byte
  mac : List Byte → List Byte
  digest : List Byte → List Byte
  cookiePressureHighWater : Int

/-! The cookie. A clock reading is what UnixNano gives. -/

section Cookie
variable [Octet Byte]

def cookieTimestampSize : Nat := 8
def cookieMACSize : Nat := 32
def cookieSize : Nat := cookieTimestampSize + cookieMACSize
def cookieLifetime : Int := 10 * 10 ^ 9

def timestamp (now : Int64) : List Byte := toBE cookieTimestampSize now.toUInt64.toNat

def tag (env : Env Byte Addr) (addr : Addr) (tsBytes : List Byte) : List Byte :=
  env.mac (env.form addr ++ tsBytes)

def issue (env : Env Byte Addr) (addr : Addr) (now : Int64) : List Byte :=
  timestamp now ++ tag env addr (timestamp now)

/-- The difference as a Duration, which stops at the ends of its range. -/
def sub (now issued : Int64) : Int :=
  max (-2 ^ 63) (min (2 ^ 63 - 1) (now.toInt - issued.toInt))

def verify (env : Env Byte Addr) (addr : Addr) (cookie : List Byte) (now : Int64) : Bool :=
  if cookie.length ≠ cookieSize then false
  else if cookie.drop cookieTimestampSize ≠
      tag env addr (cookie.take cookieTimestampSize) then false
  else
    let issued := (UInt64.ofNat (ofBE (cookie.take cookieTimestampSize))).toInt64
    let age := sub now issued
    age ≥ 0 ∧ age ≤ cookieLifetime

def encodeDatagramRetry (recvIndex : UInt32) (cookie : List Byte) : List Byte :=
  encodeDatagramHeader ⟨datagramFrameRetry, 0, recvIndex, 0⟩ ++ cookie

end Cookie

/-! The hellos of finished handshakes, by their hash, with the time at which each expires. -/

section RecentHellos
variable [Octet Byte]

def datagramHandshakeMaxTimeoutMillis : Int := 8000
def recentHelloTTL : Int :=
  datagramHandshakeMaxRetries * datagramHandshakeMaxTimeoutMillis * 10 ^ 6
def maxRecentHellos : Nat := 4096

def helloKey (env : Env Byte Addr) (source body : List Byte) : List Byte :=
  env.digest (source ++ lit 0 :: body)

def noteEstablished (env : Env Byte Addr) (source hello : List Byte) (now : Int)
    (recent : Table (List Byte) Int) : Table (List Byte) Int :=
  let record := fun recent : Table (List Byte) Int =>
    recent.insert (helloKey env source hello) (now + recentHelloTTL)
  if size recent ≥ maxRecentHellos then
    let kept := sweep (fun _ exp => if now > exp then none else some exp) recent
    if size kept ≥ maxRecentHellos then kept else record kept
  else record recent

def wasEstablished (env : Env Byte Addr) (source hello : List Byte) (now : Int)
    (recent : Table (List Byte) Int) : Bool × Table (List Byte) Int :=
  match recent.lookup (helloKey env source hello) with
  | some exp =>
    if now > exp then (false, recent.erase (helloKey env source hello)) else (true, recent)
  | none => (false, recent)

end RecentHellos

/-! The loops. -/

structure InboundMsg (Byte : Type) where
  typ : UInt8
  body : List Byte
  sender : UInt32
  deriving DecidableEq

def inboxCap : Nat := 8

/-- Where a responder's machine stands: before its hello, behind the HelloRetryRequest for a
hello, behind its flight, and established. -/
inductive Phase (Byte : Type) where
  | hello
  | retried (firstClientHello : List Byte)
  | flight
  | complete
  deriving DecidableEq

inductive Reply where
  | refuse
  | retry
  | answer
  deriving DecidableEq, Repr

/-- A handshake with its datagramSession. `first` started it, and a dial does not read its own.
`begun` is whether its goroutine runs, `consumed` are the hellos that moved its machine, and
`answers` is the SenderIndex of the last of them: the cached flight is built for that hello. -/
structure Loop (Byte : Type) extends HalfOpen.Loop (List Byte) where
  peerIndex : UInt32
  inbox : List (InboundMsg Byte)
  first : InboundMsg Byte
  begun : Bool
  phase : Phase Byte
  answers : UInt32
  consumed : List (List Byte)
  completedAt : Option Int
  notedAt : Option Int
  deriving DecidableEq

def newLoop (role : Role) (src : List Byte) (first : InboundMsg Byte) : Loop Byte where
  role := role
  src := src
  localIndex := 0
  stage := .starting
  peerIndex := first.sender
  inbox := []
  first := first
  begun := false
  phase := .hello
  answers := 0
  consumed := []
  completedAt := none
  notedAt := none

def Loop.queue (m : InboundMsg Byte) (l : Loop Byte) : Loop Byte :=
  if l.inbox.length < inboxCap then { l with inbox := l.inbox ++ [m] } else l

def trySend (n : Nat) (m : InboundMsg Byte) (loops : List (Loop Byte)) : List (Loop Byte) :=
  match loops[n]? with
  | some l => loops.set n (l.queue m)
  | none => loops

def Loop.consume (m : InboundMsg Byte) (phase : Phase Byte) (l : Loop Byte) : Loop Byte :=
  { l with phase, consumed := l.consumed ++ [m.body], answers := m.sender }

def Loop.receive [DecidableEq Byte] (now : Int) (m : InboundMsg Byte) (reply : Reply)
    (l : Loop Byte) : Loop Byte :=
  match l.phase with
  | .hello =>
    if m.typ = messageTypeClientHello then
      match reply with
      | .refuse => l
      | .retry => l.consume m (.retried m.body)
      | .answer => l.consume m .flight
    else l
  | .retried firstClientHello =>
    -- the hello that was retried is a retransmit, and there is no second retry
    if m.typ = messageTypeClientHello ∧ m.body ≠ firstClientHello ∧ reply = .answer then
      l.consume m .flight
    else l
  | .flight =>
    if m.typ = messageTypeClientFinished ∧ reply = .answer then
      { l with phase := .complete, completedAt := some now }
    else l
  | .complete => l

def Loop.hear (m : InboundMsg Byte) (l : Loop Byte) : Loop Byte :=
  if m.sender ≠ 0 then { l with peerIndex := m.sender } else l

def Loop.onInbound [DecidableEq Byte] (now : Int) (m : InboundMsg Byte) (reply : Reply)
    (l : Loop Byte) : Loop Byte :=
  (l.hear m).receive now m reply

def Loop.cachedFlight (l : Loop Byte) : List UInt8 :=
  match l.phase with
  | .hello => []
  | .retried _ => [messageTypeHelloRetryRequest]
  | .flight | .complete => [messageTypeServerHello, messageTypeServerFinished]

/-- What the machine sends for a message on which it came from `l` to `l'`: a hello that moves it
or that it knows is answered with the cached flight. -/
def Loop.outbound [DecidableEq Byte] (m : InboundMsg Byte) (reply : Reply) (l l' : Loop Byte) :
    List UInt8 :=
  if m.typ ≠ messageTypeClientHello then []
  else
    match l.phase with
    | .retried firstClientHello =>
      if m.body ≠ firstClientHello ∧ reply ≠ .answer then [] else l'.cachedFlight
    | .hello | .flight | .complete => l'.cachedFlight

structure Outbound where
  sender : UInt32
  recvIndex : UInt32
  typ : UInt8
  answers : UInt32
  deriving DecidableEq, Repr

def Loop.send (types : List UInt8) (l : Loop Byte) : List Outbound :=
  types.map fun typ => ⟨l.localIndex, l.peerIndex, typ, l.answers⟩

def Loop.serving [DecidableEq Byte] (l : Loop Byte) : Bool :=
  l.role = .responder ∧ l.begun ∧ l.stage = .running ∧ l.phase ≠ .complete

def Loop.allows [DecidableEq Byte] (l : Loop Byte) : HalfOpen.Action → Bool
  | .establish => l.role = .initiator ∨ l.phase = .complete
  | .fail => l.role = .initiator ∨ l.serving
  | _ => true

def Loop.returned (closed : Bool) (l : Loop Byte) : Bool :=
  l.role = .responder ∧ l.begun ∧ (l.stage = .established ∧ l.notedAt.isSome ∨ l.stage = .ended ∨
    closed ∧ l.stage = .running)

/-! The receive calls and the deliveries. -/

inductive Gate (Byte : Type) where
  | arrived
  | parsed (h : DatagramHandshakeHeader Byte) (fragment : List Byte)
  /-- The reassembler's sources are below the mark. -/
  | uncrowded (h : DatagramHandshakeHeader Byte) (fragment : List Byte)
  | pressed (h : DatagramHandshakeHeader Byte) (fragment : List Byte)
  | unknown (h : DatagramHandshakeHeader Byte) (fragment : List Byte)
  /-- The cookie did not verify, and a new one is due. -/
  | challenged (h : DatagramHandshakeHeader Byte) (fragment : List Byte)
  | passed (h : DatagramHandshakeHeader Byte) (fragment : List Byte)
  | rejected
  | ended
  deriving DecidableEq

/-- A call of routeDatagram, with how many cookies had been issued when it began. -/
structure Call (Byte Addr : Type) where
  src : Addr
  data : List Byte
  stage : Gate Byte
  issuedBefore : Nat

inductive Dispatch where
  | entered
  /-- With the session of the frame's index. -/
  | found (n : Nat)
  /-- Not a stale hello. -/
  | checked
  /-- With the responder of the source. -/
  | routed (n : Nat)
  | sent (n : Nat)
  | ended
  deriving DecidableEq, Repr

structure Delivery (Byte : Type) where
  src : List Byte
  recvIndex : UInt32
  msg : InboundMsg Byte
  stage : Dispatch
  deriving DecidableEq

/-- An endpoint. The number of a session in the registry is its place in `loops`. `issued` are
the cookies with their times, `verified` the calls whose cookie verified with theirs, and
`retries` the RETRY frames with the calls that sent them; `sent` are the messages of the
responders. -/
structure World (Byte Addr : Type) where
  clock : Int
  closed : Bool
  registry : ConnRegistry (List Byte)
  recent : Table (List Byte) Int
  reasm : Reassembler Byte (List Byte)
  loops : List (Loop Byte)
  calls : List (Call Byte Addr)
  deliveries : List (Delivery Byte)
  issued : List (Addr × Int64)
  verified : List (Nat × Int64)
  retries : List (Nat × List Byte)
  sent : List Outbound

/-- A step of a receive call has the reading of the cookie's clock and what the reassembler
meets; deliveries and loops read the endpoint's clock, which does not go back. -/
inductive Event (Byte Addr : Type) where
  | tick (elapsed : Nat)
  | close
  | arrive (src : Addr) (data : List Byte)
  | call (i : Nat) (now : Int64) (meeting : Meeting)
  | deliver (i : Nat)
  | dial (dst : List Byte)
  | act (i : Nat) (action : HalfOpen.Action)
  | begin (i : Nat)
  | take (i : Nat) (reply : Reply)
  | timeout (i : Nat)
  | note (i : Nat)
  | redeliver (i : Nat)

section Steps
variable [Octet Byte]

def challenge (env : Env Byte Addr) (i : Nat) (now : Int64) (c : Call Byte Addr)
    (h : DatagramHandshakeHeader Byte) (w : World Byte Addr) : World Byte Addr :=
  let retry := encodeDatagramRetry h.senderIndex (issue env c.src now)
  { w with
    issued := w.issued ++ [(c.src, now)]
    retries :=
      if h.msgType = messageTypeClientHello ∧ h.fragOffset = 0 ∧ c.data.length ≥ retry.length then
        w.retries ++ [(i, retry)]
      else w.retries }

/-- A frame behind the gate; a rekey message is not for deliverHandshake. -/
def reassemble (env : Env Byte Addr) (meeting : Meeting) (c : Call Byte Addr)
    (h : DatagramHandshakeHeader Byte) (fragment : List Byte) (w : World Byte Addr) :
    World Byte Addr :=
  match Reassembly.add meeting (env.form c.src) h fragment w.reasm with
  | (.ok (some msg), reasm) =>
    if h.msgType = messageTypeDatagramRekeyInit ∨ h.msgType = messageTypeDatagramRekeyResponse then
      { w with reasm }
    else
      { w with
        reasm
        deliveries := w.deliveries ++
          [⟨env.form c.src, h.recvIndex, ⟨h.msgType, msg, h.senderIndex⟩, .entered⟩] }
  | (_, reasm) => { w with reasm }

def route (env : Env Byte Addr) (i : Nat) (now : Int64) (meeting : Meeting) (c : Call Byte Addr)
    (w : World Byte Addr) : Call Byte Addr × World Byte Addr :=
  match c.stage with
  | .arrived =>
    match peekDatagramType c.data with
    | .error _ => ({ c with stage := .ended }, w)
    | .ok frameType =>
      if frameType ≠ datagramFrameHandshake then ({ c with stage := .ended }, w)
      else
        match parseDatagramHandshake c.data with
        | .error _ => ({ c with stage := .ended }, w)
        | .ok (h, fragment) => ({ c with stage := .parsed h fragment }, w)
  | .parsed h fragment =>
    if (sourceCount w.reasm : Int) ≥ env.cookiePressureHighWater then
      ({ c with stage := .pressed h fragment }, w)
    else ({ c with stage := .uncrowded h fragment }, w)
  | .uncrowded h fragment =>
    if halfOpenLoad w.registry ≥ env.cookiePressureHighWater then
      ({ c with stage := .pressed h fragment }, w)
    else ({ c with stage := .passed h fragment }, w)
  | .pressed h fragment =>
    if knownSource h.recvIndex (env.form c.src) w.registry then
      ({ c with stage := .passed h fragment }, w)
    else ({ c with stage := .unknown h fragment }, w)
  | .unknown h fragment =>
    if verify env c.src h.cookie now then
      ({ c with stage := .passed h fragment }, { w with verified := w.verified ++ [(i, now)] })
    else ({ c with stage := .challenged h fragment }, w)
  | .challenged h _ => ({ c with stage := .rejected }, challenge env i now c h w)
  | .passed h fragment => ({ c with stage := .ended }, reassemble env meeting c h fragment w)
  | .rejected => (c, w)
  | .ended => (c, w)

def dispatch (env : Env Byte Addr) (d : Delivery Byte) (w : World Byte Addr) :
    Dispatch × World Byte Addr :=
  match d.stage with
  | .entered =>
    if d.recvIndex ≠ 0 then
      match lookup d.recvIndex w.registry with
      | some n => (.found n, w)
      | none => (.ended, w)
    else if d.msg.typ ≠ messageTypeClientHello then (.ended, w)
    else
      match wasEstablished env d.src d.msg.body w.clock w.recent with
      | (true, recent) => (.ended, { w with recent })
      | (false, recent) => (.checked, { w with recent })
  | .found n => (.ended, { w with loops := trySend n d.msg w.loops })
  | .checked =>
    match reserveSource d.src w.loops.length w.registry with
    | ((some _, true), registry) =>
      (.ended, { w with registry, loops := w.loops ++ [newLoop .responder d.src d.msg] })
    | ((some n, false), registry) => (.routed n, { w with registry })
    | ((none, _), registry) => (.ended, { w with registry })
  | .routed n => (.sent n, { w with loops := trySend n d.msg w.loops })
  | .sent n => if sourceOwner d.src n w.registry then (.ended, w) else (.entered, w)
  | .ended => (.ended, w)

def turn (i : Nat) (due : Loop Byte → Bool) (next : Loop Byte → World Byte Addr → World Byte Addr)
    (w : World Byte Addr) : World Byte Addr :=
  match w.loops[i]? with
  | some l => if due l then next l w else w
  | none => w

def perform (env : Env Byte Addr) (w : World Byte Addr) : Event Byte Addr → World Byte Addr
  | .tick elapsed => { w with clock := w.clock + elapsed }
  | .close => { w with closed := true }
  | .arrive src data => { w with calls := w.calls ++ [⟨src, data, .arrived, w.issued.length⟩] }
  | .call i now meeting =>
    match w.calls[i]? with
    | some c => { (route env i now meeting c w).2 with
        calls := w.calls.set i (route env i now meeting c w).1 }
    | none => w
  | .deliver i =>
    match w.deliveries[i]? with
    | some d => { (dispatch env d w).2 with
        deliveries := w.deliveries.set i { d with stage := (dispatch env d w).1 } }
    | none => w
  | .dial dst => { w with loops := w.loops ++ [newLoop .initiator dst ⟨0, [], 0⟩] }
  | .act i action => turn i (·.allows action) (fun l w => { w with
        registry := (HalfOpen.act i l.toLoop w.registry action).2
        loops := w.loops.set i
          { l with toLoop := (HalfOpen.act i l.toLoop w.registry action).1 } }) w
  | .begin i =>
    -- the end of startResponder
    turn i (fun l => l.role = .responder ∧ l.stage = .running ∧ l.begun = false) (fun l w =>
      { w with loops := w.loops.set i { l.queue l.first with begun := true } }) w
  | .take i reply => turn i Loop.serving (fun l w =>
      match l.inbox with
      | [] => w
      | m :: rest =>
        let l' := { l.onInbound w.clock m reply with inbox := rest }
        { w with
          loops := w.loops.set i l'
          sent := w.sent ++ l'.send (l.outbound m reply l') }) w
  | .timeout i =>
    turn i Loop.serving (fun l w => { w with sent := w.sent ++ l.send l.cachedFlight }) w
  | .note i =>
    turn i (fun l => l.role = .responder ∧ l.stage = .established ∧ l.notedAt = none) (fun l w =>
      { w with
        recent := noteEstablished env l.src l.first.body w.clock w.recent
        loops := w.loops.set i { l with notedAt := some w.clock } }) w
  | .redeliver i => turn i (·.returned w.closed) (fun l w =>
      match l.inbox with
      | [] => w
      | m :: rest => { w with
          loops := w.loops.set i { l with inbox := rest }
          deliveries := if m.typ = messageTypeClientHello then
            w.deliveries ++ [⟨l.src, 0, m, .entered⟩] else w.deliveries }) w

def start (option cores : Int) : World Byte Addr where
  clock := 0
  closed := false
  registry := newConnRegistry (resolveMaxHalfOpen option cores)
  recent := ∅
  reasm := { Reassembly.newReassembler 0 0 0 with
    maxSources := (resolveMaxHalfOpen option cores).toNat }
  loops := []
  calls := []
  deliveries := []
  issued := []
  verified := []
  retries := []
  sent := []

/-! What the steps can do. -/

variable {env : Env Byte Addr} {w : World Byte Addr}

def Gate.frame : Gate Byte → Option (DatagramHandshakeHeader Byte × List Byte)
  | .parsed h fragment | .uncrowded h fragment | .pressed h fragment | .unknown h fragment
  | .challenged h fragment | .passed h fragment => some (h, fragment)
  | .arrived | .rejected | .ended => none

inductive Routes (env : Env Byte Addr) (i : Nat) (now : Int64) (meeting : Meeting)
    (c : Call Byte Addr) (w : World Byte Addr) : Call Byte Addr → World Byte Addr → Prop where
  | waits (stage : Gate Byte) (held : ∀ frame, stage.frame = some frame →
        c.stage.frame = some frame ∨ parseDatagramHandshake c.data = .ok frame)
      (rejected : stage = .rejected ↔ c.stage = .rejected)
      (ended : c.stage = .ended → stage = .ended)
      (door : ∀ h fragment, stage = .passed h fragment →
        c.stage = .uncrowded h fragment ∧ halfOpenLoad w.registry < env.cookiePressureHighWater ∨
        knownSource h.recvIndex (env.form c.src) w.registry = true) :
      Routes env i now meeting c w { c with stage } w
  | verifies (h : DatagramHandshakeHeader Byte) (fragment : List Byte)
      (here : c.stage = .unknown h fragment) (verified : verify env c.src h.cookie now = true) :
      Routes env i now meeting c w { c with stage := .passed h fragment }
        { w with verified := w.verified ++ [(i, now)] }
  | challenges (h : DatagramHandshakeHeader Byte) (fragment : List Byte)
      (here : c.stage = .challenged h fragment) :
      Routes env i now meeting c w { c with stage := .rejected } (challenge env i now c h w)
  | reassembles (h : DatagramHandshakeHeader Byte) (fragment : List Byte)
      (here : c.stage = .passed h fragment) :
      Routes env i now meeting c w { c with stage := .ended }
        (reassemble env meeting c h fragment w)

theorem route_routes (env : Env Byte Addr) (i : Nat) (now : Int64) (meeting : Meeting)
    (c : Call Byte Addr) (w : World Byte Addr) :
    Routes env i now meeting c w (route env i now meeting c w).1
      (route env i now meeting c w).2 := by
  unfold route
  cases here : c.stage with
  | arrived =>
    have ends : Routes env i now meeting c w { c with stage := .ended } w :=
      .waits _ (by simp [Gate.frame]) (by simp [here]) (by simp) (by simp)
    dsimp only
    split
    · exact ends
    · split
      · exact ends
      · cases parsed : parseDatagramHandshake c.data with
        | error stop => exact ends
        | ok frame =>
          refine .waits _ (fun _ same => .inr ?_) (by simp [here]) (by simp [here]) (by simp)
          rw [parsed, ← Option.some.inj same]
  | parsed h fragment =>
    dsimp only
    split
    all_goals
      exact .waits _ (fun _ held => .inl (by rw [here]; exact held)) (by simp [here])
        (by simp [here]) (by simp)
  | uncrowded h fragment =>
    dsimp only
    split
    · exact .waits _ (fun _ held => .inl (by rw [here]; exact held)) (by simp [here])
        (by simp [here]) (by simp)
    · rename_i below
      refine .waits _ (fun _ held => .inl (by rw [here]; exact held)) (by simp [here])
        (by simp [here]) fun h' fragment' same => .inl ⟨?_, Int.not_le.mp below⟩
      rw [here]
      injection same with header body
      rw [header, body]
  | pressed h fragment =>
    dsimp only
    split
    · rename_i known
      refine .waits _ (fun _ held => .inl (by rw [here]; exact held)) (by simp [here])
        (by simp [here]) fun h' fragment' same => .inr ?_
      injection same with header
      rw [← header]
      exact known
    · exact .waits _ (fun _ held => .inl (by rw [here]; exact held)) (by simp [here])
        (by simp [here]) (by simp)
  | unknown h fragment =>
    dsimp only
    split
    · rename_i verified
      exact .verifies h fragment here verified
    · exact .waits _ (fun _ held => .inl (by rw [here]; exact held)) (by simp [here])
        (by simp [here]) (by simp)
  | challenged h fragment => exact .challenges h fragment here
  | passed h fragment => exact .reassembles h fragment here
  | rejected | ended => exact .waits c.stage (fun _ held => .inl held) Iff.rfl id (by simp [here])

inductive Dispatches (env : Env Byte Addr) (d : Delivery Byte) (w : World Byte Addr) :
    Dispatch → World Byte Addr → Prop where
  | waits (stage : Dispatch) (unchecked : stage ≠ .checked)
      (found : ∀ n, stage = .found n → d.recvIndex ≠ 0 ∧ lookup d.recvIndex w.registry = some n) :
      Dispatches env d w stage w
  | checks (answer : Bool) (recent : Table (List Byte) Int) (here : d.stage = .entered)
      (bootstrap : d.recvIndex = 0) (hello : d.msg.typ = messageTypeClientHello)
      (looked : wasEstablished env d.src d.msg.body w.clock w.recent = (answer, recent)) :
      Dispatches env d w (if answer then .ended else .checked) { w with recent }
  | queues (n : Nat) (l : Loop Byte) (stage : Dispatch) (there : w.loops[n]? = some l)
      (unchecked : stage ≠ .checked) (here : d.stage = .found n ∨ d.stage = .routed n)
      (unfound : ∀ n, stage ≠ .found n) :
      Dispatches env d w stage { w with loops := w.loops.set n (l.queue d.msg) }
  | starts (registry : ConnRegistry (List Byte)) (here : d.stage = .checked)
      (entries : registry.bySource = w.registry.bySource.insert d.src w.loops.length)
      (indices : registry.byIndex = w.registry.byIndex) :
      Dispatches env d w .ended
        { w with registry, loops := w.loops ++ [newLoop .responder d.src d.msg] }

theorem dispatch_dispatches (env : Env Byte Addr) (d : Delivery Byte) (w : World Byte Addr) :
    Dispatches env d w (dispatch env d w).1 (dispatch env d w).2 := by
  have queues (n : Nat) (stage : Dispatch) (unchecked : stage ≠ .checked)
      (here : d.stage = .found n ∨ d.stage = .routed n) (unfound : ∀ n, stage ≠ .found n) :
      Dispatches env d w stage { w with loops := trySend n d.msg w.loops } := by
    unfold trySend
    cases there : w.loops[n]? with
    | none => exact .waits stage unchecked fun n same => absurd same (unfound n)
    | some l => exact .queues n l stage there unchecked here unfound
  unfold dispatch
  cases here : d.stage with
  | entered =>
    dsimp only
    split
    · rename_i named
      split
      · rename_i n found
        refine .waits _ (by simp) fun n' same => ⟨named, ?_⟩
        rw [found, Dispatch.found.inj same]
      · exact .waits _ (by simp) (by simp)
    · rename_i bootstrap
      split
      · exact .waits _ (by simp) (by simp)
      · rename_i hello
        rcases looked : wasEstablished env d.src d.msg.body w.clock w.recent with
          ⟨_ | _, recent⟩
        · exact .checks false recent here (not_not.mp bootstrap) (not_not.mp hello) looked
        · exact .checks true recent here (not_not.mp bootstrap) (not_not.mp hello) looked
  | found n => exact queues n _ (by simp) (.inl here) (by simp)
  | checked =>
    dsimp only
    rcases reserveSource_cases d.src w.loops.length w.registry with
      ⟨_ | n, reserved⟩ | ⟨absent, below, reserved⟩
    all_goals rw [reserved]
    · exact .waits _ (by simp) (by simp)
    · exact .waits _ (by simp) (by simp)
    · exact .starts _ here rfl rfl
  | routed n => exact queues n _ (by simp) (.inr here) (by simp)
  | sent n =>
    dsimp only
    split <;> exact .waits _ (by simp) (by simp)
  | ended => exact .waits _ (by simp) (by simp)

/-- A frame behind the gate touches the reassembler and the deliveries only, and the message that
it completes has its indices. -/
theorem reassemble_outside (env : Env Byte Addr) (meeting : Meeting) (c : Call Byte Addr)
    (h : DatagramHandshakeHeader Byte) (fragment : List Byte) (w : World Byte Addr) :
    ∃ reasm deliveries, reassemble env meeting c h fragment w = { w with reasm, deliveries } ∧
      ∀ d ∈ deliveries, d ∈ w.deliveries ∨
        d.stage = .entered ∧ d.recvIndex = h.recvIndex ∧ d.msg.sender = h.senderIndex := by
  unfold reassemble
  split
  · split
    · exact ⟨_, _, rfl, fun _ member => .inl member⟩
    · refine ⟨_, _, rfl, fun d member => ?_⟩
      rcases List.mem_append.mp member with old | new
      · exact .inl old
      · obtain rfl := List.mem_singleton.mp new
        exact .inr ⟨rfl, rfl, rfl⟩
  · exact ⟨_, _, rfl, fun _ member => .inl member⟩

/-- A receive call leaves the loops and their records alone, and what it delivers is new. -/
theorem Routes.outside {i : Nat} {now : Int64} {meeting : Meeting} {c c' : Call Byte Addr}
    {after : World Byte Addr} (routes : Routes env i now meeting c w c' after) :
    after.loops = w.loops ∧ after.recent = w.recent ∧ after.clock = w.clock ∧
      ∀ d ∈ after.deliveries, d ∈ w.deliveries ∨ d.stage = .entered := by
  cases routes with
  | waits | verifies | challenges => exact ⟨rfl, rfl, rfl, fun _ member => .inl member⟩
  | reassembles h fragment =>
    obtain ⟨reasm, deliveries, same, new⟩ := reassemble_outside env meeting c h fragment w
    rw [same]
    exact ⟨rfl, rfl, rfl, fun d member => (new d member).imp_right And.left⟩

section Events
variable (env w)

inductive Performs : Event Byte Addr → World Byte Addr → Prop
  | idle (e : Event Byte Addr) : Performs e w
  | ticks (elapsed : Nat) : Performs (.tick elapsed) { w with clock := w.clock + elapsed }
  | closes : Performs .close { w with closed := true }
  | arrives (src : Addr) (data : List Byte) : Performs (.arrive src data)
      { w with calls := w.calls ++ [⟨src, data, .arrived, w.issued.length⟩] }
  | calls (i : Nat) (now : Int64) (meeting : Meeting) (c c' : Call Byte Addr)
      (after : World Byte Addr) (found : w.calls[i]? = some c)
      (routes : Routes env i now meeting c w c' after) :
      Performs (.call i now meeting) { after with calls := w.calls.set i c' }
  | delivers (i : Nat) (d : Delivery Byte) (stage : Dispatch) (after : World Byte Addr)
      (found : w.deliveries[i]? = some d) (dispatches : Dispatches env d w stage after) :
      Performs (.deliver i) { after with deliveries := w.deliveries.set i { d with stage } }
  | dials (dst : List Byte) : Performs (.dial dst)
      { w with loops := w.loops ++ [newLoop .initiator dst ⟨0, [], 0⟩] }
  | acts (i : Nat) (action : HalfOpen.Action) (l : Loop Byte) (found : w.loops[i]? = some l)
      (allowed : l.allows action = true) : Performs (.act i action) { w with
        registry := (HalfOpen.act i l.toLoop w.registry action).2
        loops := w.loops.set i { l with toLoop := (HalfOpen.act i l.toLoop w.registry action).1 } }
  | begins (i : Nat) (l : Loop Byte) (found : w.loops[i]? = some l)
      (responder : l.role = .responder) (running : l.stage = .running) : Performs (.begin i)
        { w with loops := w.loops.set i { l.queue l.first with begun := true } }
  | takes (i : Nat) (reply : Reply) (l l' : Loop Byte) (m : InboundMsg Byte)
      (rest : List (InboundMsg Byte)) (found : w.loops[i]? = some l) (serving : l.serving = true)
      (inbox : l.inbox = m :: rest)
      (moved : l' = { l.onInbound w.clock m reply with inbox := rest }) : Performs (.take i reply)
        { w with loops := w.loops.set i l', sent := w.sent ++ l'.send (l.outbound m reply l') }
  | times (i : Nat) (l : Loop Byte) (found : w.loops[i]? = some l) (serving : l.serving = true) :
      Performs (.timeout i) { w with sent := w.sent ++ l.send l.cachedFlight }
  | notes (i : Nat) (l : Loop Byte) (found : w.loops[i]? = some l) (responder : l.role = .responder)
      (established : l.stage = .established) (fresh : l.notedAt = none) :
      Performs (.note i) { w with
        recent := noteEstablished env l.src l.first.body w.clock w.recent
        loops := w.loops.set i { l with notedAt := some w.clock } }
  | redelivers (i : Nat) (l : Loop Byte) (m : InboundMsg Byte) (rest : List (InboundMsg Byte))
      (found : w.loops[i]? = some l) (responder : l.role = .responder) (inbox : l.inbox = m :: rest)
      (deliveries : List (Delivery Byte))
      (new : ∀ d ∈ deliveries, d ∈ w.deliveries ∨ d = ⟨l.src, 0, m, .entered⟩) :
      Performs (.redeliver i) { w with loops := w.loops.set i { l with inbox := rest }, deliveries }

theorem perform_performs (e : Event Byte Addr) : Performs env w e (perform env w e) := by
  have turns {i : Nat} {due : Loop Byte → Bool}
      {next : Loop Byte → World Byte Addr → World Byte Addr}
      (does : ∀ l, w.loops[i]? = some l → due l = true → Performs env w e (next l w)) :
      Performs env w e (turn i due next w) := by
    unfold turn
    cases found : w.loops[i]? with
    | none => exact .idle e
    | some l =>
      dsimp only
      split
      · exact does l found ‹_›
      · exact .idle e
  cases e with
  | tick elapsed => exact .ticks elapsed
  | close => exact .closes
  | arrive src data => exact .arrives src data
  | dial dst => exact .dials dst
  | call i now meeting =>
    simp only [perform]
    cases found : w.calls[i]? with
    | none => exact .idle _
    | some c => exact .calls i now meeting c _ _ found (route_routes env i now meeting c w)
  | deliver i =>
    simp only [perform]
    cases found : w.deliveries[i]? with
    | none => exact .idle _
    | some d => exact .delivers i d _ _ found (dispatch_dispatches env d w)
  | act i action =>
    rw [perform]
    exact turns fun l found allowed => .acts i action l found allowed
  | begin i =>
    rw [perform]
    refine turns fun l found due => ?_
    obtain ⟨responder, running, -⟩ := of_decide_eq_true due
    exact .begins i l found responder running
  | take i reply =>
    rw [perform]
    refine turns fun l found serving => ?_
    cases inbox : l.inbox with
    | nil => exact .idle _
    | cons m rest => exact .takes i reply l _ m rest found serving inbox rfl
  | timeout i =>
    rw [perform]
    exact turns fun l found serving => .times i l found serving
  | note i =>
    rw [perform]
    refine turns fun l found due => ?_
    obtain ⟨responder, established, fresh⟩ := of_decide_eq_true due
    exact .notes i l found responder established fresh
  | redeliver i =>
    rw [perform]
    refine turns fun l found returned => ?_
    cases inbox : l.inbox with
    | nil => exact .idle _
    | cons m rest =>
      refine .redelivers i l m rest found (of_decide_eq_true returned).1 inbox _ fun d member => ?_
      split at member
      · exact (List.mem_append.mp member).imp_right List.mem_singleton.mp
      · exact .inl member

end Events

end Steps

/-! What a loop's step keeps. -/

structure Loop.Same (l l' : Loop Byte) : Prop where
  role : l'.role = l.role
  src : l'.src = l.src
  first : l'.first = l.first

theorem Loop.queue_same (m : InboundMsg Byte) (l : Loop Byte) : l.Same (l.queue m) := by
  unfold Loop.queue
  split <;> exact ⟨rfl, rfl, rfl⟩

/-- The machine does not touch what the registry calls are made with, nor the first message. -/
theorem Loop.receive_kept [DecidableEq Byte] (now : Int) (m : InboundMsg Byte) (reply : Reply)
    (l : Loop Byte) :
    (l.receive now m reply).toLoop = l.toLoop ∧ (l.receive now m reply).first = l.first := by
  unfold Loop.receive Loop.consume
  split
  · split
    · cases reply <;> exact ⟨rfl, rfl⟩
    · exact ⟨rfl, rfl⟩
  · split <;> exact ⟨rfl, rfl⟩
  · split <;> exact ⟨rfl, rfl⟩
  · exact ⟨rfl, rfl⟩

theorem Loop.onInbound_kept [DecidableEq Byte] (now : Int) (m : InboundMsg Byte) (reply : Reply)
    (l : Loop Byte) :
    (l.onInbound now m reply).toLoop = l.toLoop ∧ (l.onInbound now m reply).first = l.first := by
  have received := (l.hear m).receive_kept now m reply
  have heard : (l.hear m).toLoop = l.toLoop ∧ (l.hear m).first = l.first := by
    unfold Loop.hear
    split <;> exact ⟨rfl, rfl⟩
  exact ⟨received.1.trans heard.1, received.2.trans heard.2⟩

theorem Loop.onInbound_same [DecidableEq Byte] (now : Int) (m : InboundMsg Byte) (reply : Reply)
    (l : Loop Byte) : l.Same (l.onInbound now m reply) := by
  obtain ⟨calls, first⟩ := l.onInbound_kept now m reply
  exact ⟨congrArg HalfOpen.Loop.role calls, congrArg HalfOpen.Loop.src calls, first⟩

theorem act_same [DecidableEq Byte] (i : Nat) (l : Loop Byte) (r : ConnRegistry (List Byte))
    (action : HalfOpen.Action) :
    l.Same { l with toLoop := (HalfOpen.act i l.toLoop r action).1 } := by
  have moves := HalfOpen.act_moves i l.toLoop r action
  rcases ran : HalfOpen.act i l.toLoop r action with ⟨moved, registry⟩
  rw [ran] at moves
  dsimp only at moves ⊢
  cases moves with
  | elsewhere _ _ _ role src stage same => exact ⟨role, src, rfl⟩
  | removes exit stage | releases exit stage => exact ⟨rfl, rfl, rfl⟩

theorem act_entries [DecidableEq Byte] (i : Nat) (l : HalfOpen.Loop (List Byte))
    (r : ConnRegistry (List Byte)) (action : HalfOpen.Action) {source : List Byte}
    (absent : r.bySource.lookup source = none) :
    (HalfOpen.act i l r action).2.bySource.lookup source = none := by
  have moves := HalfOpen.act_moves i l r action
  rcases ran : HalfOpen.act i l r action with ⟨moved, registry⟩
  rw [ran] at moves
  dsimp only at moves ⊢
  cases moves with
  | elsewhere _ _ _ role src stage same =>
    rw [same.entries]
    exact absent
  | removes exit stage =>
    dsimp only [removeSource]
    by_cases mine : source = l.src
    · rw [mine, AList.lookup_erase]
    · rw [AList.lookup_erase_ne mine, absent]
  | releases exit stage => rw [releaseHalfOpen_bySource, absent]

/-! A symbolic endpoint at address 5 for the sample runs. -/
section Samples
open Symbolic

def sampleEnv (highWater : Int) : Env Letter Nat where
  form addr := [.byte (UInt8.ofNat addr)]
  mac input := symbols [3] [input] cookieMACSize
  digest := symbolic.digest
  cookiePressureHighWater := highWater

def sampleFrame (recvIndex index : UInt32) (msgType body : UInt8) : List Letter :=
  let base : DatagramHeader := ⟨datagramFrameHandshake, 0, recvIndex, 0⟩
  encodeDatagramHeader base ++ (encodeExtension ⟨base, index, msgType, 0, 1, 1, []⟩ ++ [.byte body])

end Samples

end QuantumGo.HelloDispatch
