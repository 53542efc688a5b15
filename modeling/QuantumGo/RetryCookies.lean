import QuantumGo.HelloDispatch
import QuantumGo.MachineSteps
import QuantumGo.ReassemblyRoundTrip

/-!
The initiator's handshake loop (pkg/tunnel/dgram_handshake_wire.go) and the RETRY of a server
under load. The loop adopts the cookie of up to three RETRYs and puts it into the frames of its
ClientHello. A message that the fragmenter refuses is not sent, and nobody is told.
-/

namespace QuantumGo.RetryCookies

open Octets Effect Symbolic Wire Tunnel Flights FlightSpecs Records DatagramSession
open DatagramHandshake hiding start
open DatagramDriver HandshakeFrames
open ReassemblyMixing (Sent)
open ReassemblyRoundTrip (Frames Reassembles)
open HelloDispatch (encodeDatagramRetry)
open DatagramConn (datagramMTU)
open MachineSteps (Closes Initiates onMessage_initiates)

variable {Byte : Type} [Octet Byte]

def parseDatagramRetry (data : List Byte) : Except Fault (UInt32 × List Byte) :=
  match parseDatagramHeader data with
  | .error stop => .error stop
  | .ok (h, body) =>
    if h.frameType ≠ datagramFrameRetry then .error (.err .invalidMessage)
    else .ok (h.recvIndex, body)

theorem parse_encode_retry (recvIndex : UInt32) (cookie : List Byte) :
    parseDatagramRetry (encodeDatagramRetry recvIndex cookie) = .ok (recvIndex, cookie) := by
  rw [parseDatagramRetry, encodeDatagramRetry, parse_encode (show 0 < seqLimit by decide)]
  rfl

structure HandshakeLoop (Byte : Type) where
  driver : DgramDriver Byte
  localIndex : UInt32
  peerIndex : UInt32
  seq : UInt64
  cookie : List Byte
  retriesHonored : Nat
  padHandshake : Bool
  written : List (List Byte)

def maxHonoredRetries : Nat := 3

def messageHeader (l : HandshakeLoop Byte) (typ : UInt8) : DatagramHandshakeHeader Byte where
  frameType := datagramFrameHandshake
  epoch := 0
  recvIndex := l.peerIndex
  seq := l.seq.toNat
  senderIndex := l.localIndex
  msgType := typ
  fragOffset := 0
  fragLength := 0
  totalLength := 0
  cookie := if typ = messageTypeClientHello then l.cookie else []

def send : List (HsMessage Byte) → HandshakeLoop Byte → HandshakeLoop Byte
  | [], l => l
  | m :: rest, l =>
    match fragmentHandshake (messageHeader l m.typ) m.body l.padHandshake with
    | .error _ => l
    | .ok frames => send rest { l with
        written := l.written ++ frames, seq := l.seq + UInt64.ofNat frames.length }

def cachedFlight (d : DgramDriver Byte) : List (HsMessage Byte) :=
  if d.status ≠ .running then [] else d.fsm.cached

def onRetry (cookie : List Byte) (l : HandshakeLoop Byte) : HandshakeLoop Byte :=
  if l.retriesHonored ≥ maxHonoredRetries then l
  else
    match cachedFlight l.driver with
    | [] => l
    | m :: rest =>
      if m.typ ≠ messageTypeClientHello then l
      else send (m :: rest) { l with retriesHonored := l.retriesHonored + 1, cookie }

def dialLoop (session : Session Byte) (rtoInitial rtoMax maxRetries : Int) (localIndex : UInt32)
    (padHandshake : Bool) : HandshakeLoop Byte where
  driver := fresh session rtoInitial rtoMax maxRetries
  localIndex := localIndex
  peerIndex := 0
  seq := 0
  cookie := []
  retriesHonored := 0
  padHandshake := padHandshake
  written := []

/-- The loop's states with the cookies delivered to it so far. A RETRY that finds another one
waiting is dropped and is no step. -/
inductive Runs (env : Env Byte) (dialed : HandshakeLoop Byte) :
    List (List Byte) → HandshakeLoop Byte → Prop where
  | started {coins : Coins Byte} {now : Int} {out : List (HsMessage Byte)} {d : DgramDriver Byte}
      (ran : start env coins now dialed.driver = (.ok out, d)) :
      Runs env dialed [] (send out { dialed with driver := d })
  | retried {cookies : List (List Byte)} {l : HandshakeLoop Byte} {data cookie : List Byte}
      (runs : Runs env dialed cookies l)
      (routed : parseDatagramRetry data = .ok (l.localIndex, cookie)) :
      Runs env dialed (cookies ++ [cookie]) (onRetry cookie l)
  | timed {cookies : List (List Byte)} {l : HandshakeLoop Byte} (now : Int)
      (runs : Runs env dialed cookies l) :
      Runs env dialed cookies
        (send (onTimeout now l.driver).1 { l with driver := (onTimeout now l.driver).2 })
  | heard {cookies : List (List Byte)} {l : HandshakeLoop Byte} {coins : Coins Byte} {now : Int}
      {typ : UInt8} {body : List Byte} {out : List (HsMessage Byte)} {d : DgramDriver Byte}
      (sender : UInt32) (runs : Runs env dialed cookies l)
      (ran : onInbound env coins now typ body l.driver = (.ok out, d)) :
      Runs env dialed cookies (send out { l with
        driver := d, peerIndex := if sender ≠ 0 then sender else l.peerIndex })

variable {d : DgramDriver Byte} {out : List (HsMessage Byte)} {l : HandshakeLoop Byte}

/-! The cookie in force. -/

section Adopted
variable {env : Env Byte} {coins : Coins Byte} {now : Int} {typ : UInt8} {body : List Byte}

/-- Sending writes frames and counts them, and changes nothing else. -/
theorem send_keeps (flight : List (HsMessage Byte)) (l : HandshakeLoop Byte) :
    ∃ seq written, send flight l = { l with seq, written } := by
  induction flight generalizing l with
  | nil => exact ⟨l.seq, l.written, rfl⟩
  | cons m rest ih =>
    unfold send
    cases fragmentHandshake (messageHeader l m.typ) m.body l.padHandshake with
    | error stop => exact ⟨l.seq, l.written, rfl⟩
    | ok frames => exact ih _

def Greets (d : DgramHandshake Byte) : Prop :=
  ∃ hello, d.cached = [⟨messageTypeClientHello, hello⟩]

section Greeting
variable {d d' : DgramHandshake Byte} {reaction : Reaction Byte}

theorem closes_greets (closes : Closes env coins body d reaction d')
    (unasked : d.expecting ≠ messageTypeHelloRetryRequest) :
    d'.expecting ≠ messageTypeHelloRetryRequest ∧ (reaction.2 = false → Greets d → Greets d') := by
  cases closes with
  | refuses | fails received h processed spent few => exact ⟨unasked, fun _ greets => greets⟩
  | completes received final reply processed created =>
    refine ⟨show 0 ≠ messageTypeHelloRetryRequest by decide, ?_⟩
    rintro ⟨⟩

/-- An initiator's machine leaves its ClientHello only by completing. -/
theorem initiates_greets (initiates : Initiates env coins typ body d reaction d')
    (unasked : d.expecting ≠ messageTypeHelloRetryRequest) :
    d'.expecting ≠ messageTypeHelloRetryRequest ∧ (reaction.2 = false → Greets d → Greets d') := by
  cases initiates with
  | rests out repeats | stashes finished early | loses h expects asked kept =>
    exact ⟨unasked, fun _ greets => greets⟩
  | retries h h' reply asked expects processed created =>
    exact ⟨show messageTypeServerHello ≠ _ by decide, fun _ _ => ⟨reply, rfl⟩⟩
  | hears h hello expects processed =>
    exact ⟨show messageTypeServerFinished ≠ _ by decide, fun _ greets => greets⟩
  | catchesUp h early hello expects processed stashed closes =>
    obtain ⟨unasked', greets⟩ :=
      closes_greets closes (show messageTypeServerFinished ≠ messageTypeHelloRetryRequest by decide)
    exact ⟨unasked', greets⟩
  | finishes finished expects closes => exact closes_greets closes unasked

end Greeting

structure Offers (d : DgramDriver Byte) : Prop where
  leads : d.fsm.role = .initiator
  unasked : d.fsm.expecting ≠ messageTypeHelloRetryRequest
  greets : d.status = .running → Greets d.fsm

omit [Octet Byte] in
theorem Offers.onTimeout (offers : Offers d) (now : Int) : Offers (onTimeout now d).2 := by
  have same := onTimeout_fsm now d
  exact ⟨same ▸ offers.leads, same ▸ offers.unasked,
    fun running => same ▸ offers.greets (onTimeout_running running)⟩

/-- The step lemma for a message: the driver runs afterwards only if it did before. -/
theorem Offers.onInbound {d' : DgramDriver Byte} (offers : Offers d)
    (ran : onInbound env coins now typ body d = (.ok out, d')) :
    Offers d' ∧ (d'.status = .running → d.status = .running) := by
  rcases onInbound_reacts ran with ⟨-, -, -, rfl⟩ | ⟨flight, complete, fsm, fed, reacts⟩
  · exact ⟨offers, id⟩
  · have same : d'.fsm = fsm := reacts_fsm reacts
    have leads : fsm.role = .initiator := (onMessage_role fed).trans offers.leads
    obtain ⟨unasked, greets⟩ :=
      initiates_greets (onMessage_initiates offers.leads offers.unasked fed) offers.unasked
    refine ⟨⟨same ▸ leads, same ▸ unasked, fun running => ?_⟩, fun running => ?_⟩
    · obtain ⟨unfinished, before⟩ := reacts_running reacts running
      exact same ▸ greets unfinished (offers.greets before)
    · exact (reacts_running reacts running).2

def adopted (cookies : List (List Byte)) : List Byte :=
  (cookies.take maxHonoredRetries).getLastD []

structure Adopts (cookies : List (List Byte)) (l : HandshakeLoop Byte) : Prop where
  counted : l.retriesHonored = min cookies.length maxHonoredRetries
  cookie : l.cookie = adopted cookies

variable {cookies : List (List Byte)}

theorem Adopts.send (adopts : Adopts cookies l) (flight : List (HsMessage Byte)) :
    Adopts cookies (send flight l) := by
  obtain ⟨seq, written, same⟩ := send_keeps flight l
  rw [same]
  exact ⟨adopts.counted, adopts.cookie⟩

/-- The step lemma for a RETRY: the first three are honored. -/
theorem Adopts.onRetry (adopts : Adopts cookies l) (cookie : List Byte)
    (running : l.driver.status = .running) (greets : Greets l.driver.fsm) :
    Adopts (cookies ++ [cookie]) (onRetry cookie l) := by
  obtain ⟨hello, cached⟩ := greets
  have flight : cachedFlight l.driver = [⟨messageTypeClientHello, hello⟩] := by
    rw [cachedFlight, if_neg (by simp [running]), cached]
  have counted := adopts.counted
  unfold RetryCookies.onRetry
  by_cases enough : l.retriesHonored ≥ maxHonoredRetries
  · rw [if_pos enough]
    refine ⟨by simp only [List.length_append]; omega, ?_⟩
    rw [adopts.cookie, adopted, adopted, List.take_append_of_le_length (by omega)]
  · rw [if_neg enough, flight]
    dsimp only
    rw [if_neg (by simp)]
    refine Adopts.send ⟨?_, ?_⟩ _
    · simp only [List.length_append, List.length_singleton]
      omega
    · rw [adopted, List.take_of_length_le]
      · simp
      · simp only [List.length_append, List.length_singleton]
        omega

theorem onRetry_driver (cookie : List Byte) (l : HandshakeLoop Byte) :
    (onRetry cookie l).driver = l.driver := by
  unfold onRetry
  split
  · rfl
  · split
    · rfl
    · split
      · rfl
      · rename_i m rest _ _
        obtain ⟨seq, written, same⟩ := send_keeps (m :: rest)
          { l with retriesHonored := l.retriesHonored + 1, cookie }
        rw [same]

theorem send_driver (flight : List (HsMessage Byte)) (l : HandshakeLoop Byte) :
    (send flight l).driver = l.driver := by
  obtain ⟨seq, written, same⟩ := send_keeps flight l
  rw [same]

theorem offers_start {d' : DgramDriver Byte} (leads : d.fsm.role = .initiator)
    (ran : start env coins now d = (.ok out, d')) : Offers d' := by
  obtain ⟨msg, d₁, begun, rest⟩ := bind_ok_iff.mp ran
  obtain rfl : armRetransmit now d₁ = d' := congrArg Prod.snd rest
  obtain rfl : { d with fsm := (DatagramHandshake.start env coins d.fsm).2 } = d₁ :=
    congrArg Prod.snd begun
  have outcome : (DatagramHandshake.start env coins d.fsm).1 = .ok msg := congrArg Prod.fst begun
  have made : DatagramHandshake.start env coins d.fsm = (.ok msg, _) := Prod.ext outcome rfl
  have role : (DatagramHandshake.start env coins d.fsm).2.role = d.fsm.role :=
    start_keeps_role d.fsm
  obtain ⟨hello, h, created, cached⟩ := bind_ok_iff.mp made
  have final := congrArg Prod.snd cached
  refine ⟨role.trans leads, ?_, fun _ => ⟨hello, ?_⟩⟩
  · show (DatagramHandshake.start env coins d.fsm).2.expecting ≠ _
    rw [← final]
    exact show messageTypeServerHello ≠ _ by decide
  · show (DatagramHandshake.start env coins d.fsm).2.cached = _
    rw [← final]
    rfl

/-- The run lemma: a running initiator offers its ClientHello with the last honored cookie. -/
theorem Runs.adopts {dialed : HandshakeLoop Byte} (leads : dialed.driver.fsm.role = .initiator)
    (new : Adopts [] dialed) (runs : Runs env dialed cookies l) :
    Offers l.driver ∧ (l.driver.status = .running → Adopts cookies l) := by
  induction runs with
  | started ran =>
    rw [send_driver]
    refine ⟨offers_start leads ran, fun _ => Adopts.send ?_ _⟩
    exact ⟨new.counted, new.cookie⟩
  | @retried cookies l data cookie runs routed ih =>
    obtain ⟨offers, adopts⟩ := ih
    rw [onRetry_driver]
    exact ⟨offers, fun running => (adopts running).onRetry cookie running (offers.greets running)⟩
  | @timed cookies l now runs ih =>
    obtain ⟨offers, adopts⟩ := ih
    rw [send_driver]
    refine ⟨offers.onTimeout now, fun running => Adopts.send ?_ _⟩
    have before := adopts (onTimeout_running running)
    exact ⟨before.counted, before.cookie⟩
  | heard sender runs ran ih =>
    obtain ⟨offers, adopts⟩ := ih
    obtain ⟨offers', ran_before⟩ := offers.onInbound ran
    rw [send_driver]
    refine ⟨offers', fun running => Adopts.send ?_ _⟩
    have before := adopts (ran_before running)
    exact ⟨before.counted, before.cookie⟩

end Adopted

/-! What a send of the ClientHello brings to the server. -/

section Heard
variable {Source : Type} [DecidableEq Source]

def helloSent (source : Source) (l : HandshakeLoop Byte) (hello : List Byte) :
    Sent Byte Source where
  source := source
  base := messageHeader l messageTypeClientHello
  msg := hello
  pad := l.padHandshake
  fits := l.seq.toNat_lt

/-- A send of the ClientHello writes frames; each fits a datagram and parses, and a Reassembler
gets exactly the ClientHello from them. -/
def Carries (Source : Type) [DecidableEq Source] (l : HandshakeLoop Byte) (hello : List Byte) :
    Prop :=
  ∃ frames, (send [⟨messageTypeClientHello, hello⟩] l).written = l.written ++ frames ∧ frames ≠ [] ∧
    (∀ frame ∈ frames, frame.length ≤ datagramMTU ∧
      ∃ h fragment, parseDatagramHandshake frame = .ok (h, fragment)) ∧
    ∀ source : Source, Reassembles (helloSent source l hello) frames

theorem send_one {hello : List Byte} {frames : List (List Byte)}
    (made : fragmentHandshake (messageHeader l messageTypeClientHello) hello l.padHandshake =
      .ok frames) : (send [⟨messageTypeClientHello, hello⟩] l).written = l.written ++ frames := by
  simp [send, made]

theorem send_refused {hello : List Byte} {stop : Fault}
    (refused : fragmentHandshake (messageHeader l messageTypeClientHello) hello l.padHandshake =
      .error stop) : send [⟨messageTypeClientHello, hello⟩] l = l := by
  simp [send, refused]

theorem send_silent (long : 255 < l.cookie.length) (hello : List Byte) :
    send [⟨messageTypeClientHello, hello⟩] l = l := by
  cases made : fragmentHandshake (messageHeader l messageTypeClientHello) hello l.padHandshake with
  | error stop => exact send_refused made
  | ok frames =>
    have short := (fragmentHandshake_accepts made).1
    simp only [messageHeader, if_true] at short
    omega

/-- A send carries the ClientHello unless the fragmenter refuses it. -/
theorem carries_iff (l : HandshakeLoop Byte) (hello : List Byte) :
    Carries Source l hello ↔ (1 ≤ hello.length ∧ hello.length ≤ datagramMaxHandshakeMessageSize) ∧
      l.cookie.length ≤ 255 := by
  have header : (messageHeader l messageTypeClientHello).cookie = l.cookie := by
    simp [messageHeader]
  constructor
  · rintro ⟨frames, written, some, -⟩
    cases made : fragmentHandshake (messageHeader l messageTypeClientHello) hello
        l.padHandshake with
    | error stop =>
      rw [send_refused made, List.self_eq_append_right] at written
      exact absurd written some
    | ok sent =>
      obtain ⟨short, size⟩ := fragmentHandshake_accepts made
      exact ⟨size, header ▸ short⟩
  · rintro ⟨⟨some, size⟩, short⟩
    obtain ⟨frames, made, sound, complete⟩ : ∃ frames, fragmentHandshake
        (messageHeader l messageTypeClientHello) hello l.padHandshake = .ok frames ∧ _ :=
      fragmentHandshake_frames (header.symm ▸ short) l.seq.toNat_lt some size
    refine ⟨frames, send_one made, ?_, fun frame inside => ?_, fun source => ?_⟩
    · obtain ⟨frame, inside, -⟩ := complete 0 some (dvd_zero _)
      exact List.ne_nil_of_mem inside
    · obtain ⟨off, fragment⟩ := sound frame inside
      obtain ⟨h, piece, parsed, -⟩ := fragment.parsed size
      exact ⟨fragment.fits (header.symm ▸ short), h, piece, parsed⟩
    · exact (Frames.mk (header.symm ▸ short) size some sound complete :
        Frames (helloSent source l hello) frames).reassembles

/-- In every run a running initiator has a ClientHello cached, and every send of it, whatever
number its frames begin with, brings it to the server exactly if the fragmenter takes its size and
the last cookie honored has at most 255 bytes. -/
theorem hello_carried_iff {env : Env Byte} {session : Session Byte}
    {rtoInitial rtoMax maxRetries : Int} {localIndex : UInt32} {pad : Bool}
    {cookies : List (List Byte)} {l : HandshakeLoop Byte} (leads : session.role = .initiator)
    (runs : Runs env (dialLoop session rtoInitial rtoMax maxRetries localIndex pad) cookies l)
    (running : l.driver.status = .running) :
    ∃ hello, cachedFlight l.driver = [⟨messageTypeClientHello, hello⟩] ∧
      ((∀ seq, Carries Source { l with seq } hello) ↔
        (1 ≤ hello.length ∧ hello.length ≤ datagramMaxHandshakeMessageSize) ∧
          (adopted cookies).length ≤ 255) := by
  obtain ⟨offers, adopts⟩ := runs.adopts leads ⟨rfl, rfl⟩
  obtain ⟨hello, cached⟩ := offers.greets running
  refine ⟨hello, ?_, ?_⟩
  · rw [cachedFlight, if_neg (by simp [running]), cached]
  · rw [← (adopts running).cookie]
    constructor
    · intro all
      exact (carries_iff _ hello).mp (all l.seq)
    · intro fits seq
      exact (carries_iff _ hello).mpr fits

/-- The dial of the symbolic build, before any RETRY. -/
theorem symbolic_dialed : ∃ (session : Session Letter) (l : HandshakeLoop Letter),
    session.role = .initiator ∧ l.driver.status = .running ∧ l.localIndex = 7 ∧
    Runs SymbolicKem.env (dialLoop session 500 8000 datagramHandshakeMaxRetries 7 false) [] l := by
  obtain ⟨session, hello, d, leads, -, running, -, -, ran⟩ := symbolic_started
  obtain ⟨seq, written, same⟩ := send_keeps [⟨messageTypeClientHello, hello⟩]
    { dialLoop session 500 8000 datagramHandshakeMaxRetries 7 false with driver := d }
  refine ⟨session, _, leads, ?_, ?_, .started ran⟩
  · rw [same]
    exact running
  · rw [same]
    rfl

/-- A RETRY whose cookie is one byte: only the size of the ClientHello matters. -/
theorem hello_carried_retried : ∃ (session : Session Letter) (l : HandshakeLoop Letter),
    Runs SymbolicKem.env (dialLoop session 500 8000 datagramHandshakeMaxRetries 7 false)
      [[lit 3]] l ∧
    ∃ hello, cachedFlight l.driver = [⟨messageTypeClientHello, hello⟩] ∧
      ((∀ seq, Carries Unit { l with seq } hello) ↔
        1 ≤ hello.length ∧ hello.length ≤ datagramMaxHandshakeMessageSize) := by
  obtain ⟨session, l, leads, running, named, runs⟩ := symbolic_dialed
  have retried := runs.retried ((parse_encode_retry 7 [lit 3]).trans (by rw [named]))
  obtain ⟨hello, cached, carried⟩ : ∃ hello, _ ∧ ((∀ seq, Carries Unit _ hello) ↔ _) :=
    hello_carried_iff leads retried (by rw [onRetry_driver]; exact running)
  exact ⟨session, _, retried, hello, cached, carried.trans (and_iff_left (by decide))⟩

/-- A RETRY with 256 bytes behind its header: the dial still runs with its ClientHello cached, and
no send of it writes anything. -/
theorem long_cookie_silences : ∃ (session : Session Letter) (l : HandshakeLoop Letter),
    Runs SymbolicKem.env (dialLoop session 500 8000 datagramHandshakeMaxRetries 7 false)
      [List.replicate 256 (lit 0)] l ∧
    ∃ hello, cachedFlight l.driver = [⟨messageTypeClientHello, hello⟩] ∧
      ∀ seq, send (cachedFlight l.driver) { l with seq } = { l with seq } := by
  obtain ⟨session, l, leads, running, named, runs⟩ := symbolic_dialed
  have retried := runs.retried ((parse_encode_retry 7 (List.replicate 256 (lit 0))).trans
    (by rw [named]))
  obtain ⟨offers, adopts⟩ := retried.adopts leads ⟨rfl, rfl⟩
  rw [onRetry_driver] at offers adopts
  obtain ⟨hello, cached⟩ := offers.greets running
  have flight : cachedFlight l.driver = [⟨messageTypeClientHello, hello⟩] :=
    (if_neg (by simp [running])).trans cached
  refine ⟨session, _, retried, hello, onRetry_driver _ l ▸ flight, fun seq => ?_⟩
  rw [onRetry_driver, flight]
  refine send_silent ?_ hello
  show 255 < (onRetry _ l).cookie.length
  rw [(adopts running).cookie]
  show 255 < (List.replicate 256 (lit 0 : Letter)).length
  rw [List.length_replicate]
  decide

end Heard

end QuantumGo.RetryCookies
