import QuantumGo.BuilderFrames
import QuantumGo.StreamAgreement

/-!
The datagram handshake machine (pkg/tunnel/dgram_handshake_fsm.go). It decides for
each inbound message between advance, replay and drop, and keeps its last flight
for replays. A builder's error drops the message, but the handshake keeps whatever
the builder wrote before it failed; only a panic stops the machine.
-/

namespace QuantumGo.DatagramHandshake

open Octets Effect Wire Kem Tunnel Flights BuilderFrames
open KeySchedule hiding deriveHandshakeKeys
open HonestRuns (Startable Answerable)

structure HsMessage (Byte : Type) where
  typ : UInt8
  body : List Byte
  deriving DecidableEq

structure DgramHandshake (Byte : Type) where
  hs : Handshake Byte
  role : Role
  /-- The type that advances the handshake; zero before `start` and once complete. -/
  expecting : UInt8
  prev : UInt8
  cached : List (HsMessage Byte)
  earlyFinished : Option (List Byte)

variable {Byte : Type} [Octet Byte]

abbrev FsmProg (Byte α : Type) := Prog (DgramHandshake Byte) Fault α

abbrev Reaction (Byte : Type) := List (HsMessage Byte) × Bool

def onHs {α : Type} (builder : HandshakeProg Byte α) : FsmProg Byte α := fun d =>
  match builder d.hs with
  | (outcome, hs) => (outcome, { d with hs })

def newDgramHandshake (session : Session Byte) : DgramHandshake Byte where
  hs := { newHandshake session with datagram := true }
  role := session.role
  expecting := match session.role with
    | .initiator => 0
    | .responder => messageTypeClientHello
  prev := 0
  cached := []
  earlyFinished := none

def start (env : Env Byte) (coins : Coins Byte) : FsmProg Byte (List (HsMessage Byte)) := do
  let body ← onHs (createClientHello env coins)
  let out := [⟨messageTypeClientHello, body⟩]
  write fun d => { d with cached := out, expecting := messageTypeServerHello }
  return out

def commit (processed : UInt8) (out : List (HsMessage Byte)) (next : UInt8) :
    FsmProg Byte Unit :=
  write fun d => { d with prev := processed, cached := out, expecting := next }

def dropping (program : FsmProg Byte (Reaction Byte)) : FsmProg Byte (Reaction Byte) := fun d =>
  match program d with
  | (.error (.err _), d') => (.ok ([], false), d')
  | (outcome, d') => (outcome, d')

/-! The transitions, by the inbound type they are made for. -/

def advanceServerFinished (env : Env Byte) (coins : Coins Byte) (body : List Byte) :
    FsmProg Byte (Reaction Byte) := dropping do
  onHs (processServerFinished env body)
  let reply ← onHs (createClientFinished env coins)
  let out := [⟨messageTypeClientFinished, reply⟩]
  commit messageTypeServerFinished out 0
  return (out, true)

/-- The cached flight stays the ClientHello; a ServerFinished that came early is
processed at once. -/
def advanceServerHello (env : Env Byte) (coins : Coins Byte) (body : List Byte) :
    FsmProg Byte (Reaction Byte) := dropping do
  onHs (processServerHello env body)
  write fun d => { d with
    prev := messageTypeServerHello, expecting := messageTypeServerFinished }
  let d ← read
  match d.earlyFinished with
  | none => return ([], false)
  | some early =>
    write fun d => { d with earlyFinished := none }
    advanceServerFinished env coins early

def advanceHelloRetryRequest (env : Env Byte) (coins : Coins Byte) (body : List Byte) :
    FsmProg Byte (Reaction Byte) := dropping do
  onHs (processHelloRetryRequest env coins body)
  let reply ← onHs (createClientHello env coins)
  let out := [⟨messageTypeClientHello, reply⟩]
  commit messageTypeHelloRetryRequest out messageTypeServerHello
  return (out, false)

def answerClientHello (env : Env Byte) (coins : Coins Byte) : FsmProg Byte (Reaction Byte) := do
  let d ← read
  if d.hs.sendHRR then
    let hrr ← onHs (createHelloRetryRequest env)
    let out := [⟨messageTypeHelloRetryRequest, hrr⟩]
    commit messageTypeClientHello out messageTypeClientHello
    return (out, false)
  else
    let hello ← onHs (createServerHello env coins)
    let finished ← onHs (createServerFinished env)
    let out := [⟨messageTypeServerHello, hello⟩, ⟨messageTypeServerFinished, finished⟩]
    commit messageTypeClientHello out messageTypeClientFinished
    return (out, false)

def advanceClientHello (env : Env Byte) (coins : Coins Byte) (body : List Byte) :
    FsmProg Byte (Reaction Byte) := dropping do
  let d ← read
  -- After a retry request its hello is told from the retried one by content.
  if d.hs.hrrDone = true ∧ d.cached.map HsMessage.typ = [messageTypeHelloRetryRequest] ∧
      body = d.hs.firstClientHello.getD [] then return (d.cached, false)
  else
    onHs (processClientHello env coins body)
    answerClientHello env coins

def advanceClientFinished (env : Env Byte) (coins : Coins Byte) (body : List Byte) :
    FsmProg Byte (Reaction Byte) := dropping do
  onHs (processClientFinished env coins body)
  write fun d => { d with prev := messageTypeClientFinished, expecting := 0 }
  return ([], true)

def advance (env : Env Byte) (coins : Coins Byte) (typ : UInt8) (body : List Byte) :
    FsmProg Byte (Reaction Byte) := do
  let d ← read
  match d.role with
  | .initiator =>
    if typ = messageTypeServerHello then advanceServerHello env coins body
    else if typ = messageTypeServerFinished then advanceServerFinished env coins body
    else if typ = messageTypeHelloRetryRequest then advanceHelloRetryRequest env coins body
    else return ([], false)
  | .responder =>
    if typ = messageTypeClientHello then advanceClientHello env coins body
    else if typ = messageTypeClientFinished then advanceClientFinished env coins body
    else return ([], false)

/-- Appending nothing to a nil slice leaves it nil. -/
def stash (early : Option (List Byte)) (body : List Byte) : Option (List Byte) :=
  if early.isNone && body.isEmpty then none else some body

def onMessage (env : Env Byte) (coins : Coins Byte) (typ : UInt8) (body : List Byte) :
    FsmProg Byte (Reaction Byte) := do
  let d ← read
  if typ ≠ 0 ∧ typ = d.expecting then advance env coins typ body
  else if d.role = .initiator ∧ typ = messageTypeHelloRetryRequest ∧
      d.expecting = messageTypeServerHello ∧ d.hs.hrrDone = false then advance env coins typ body
  else if d.role = .initiator ∧ typ = messageTypeServerFinished ∧
      d.expecting = messageTypeServerHello then
    write fun d => { d with earlyFinished := stash d.earlyFinished body }
    return ([], false)
  else if d.role = .initiator ∧ typ = messageTypeServerHello ∧ typ = d.prev then
    return ([], false)
  else if typ ≠ 0 ∧ typ = d.prev ∧ d.cached.isEmpty = false then return (d.cached, false)
  else return ([], false)

omit [Octet Byte] in
theorem newDgramHandshake_startable {i : Session Byte} (keyPair : ∃ draw keyPair,
    i.kemSuite.generateKeyPair draw = .ok keyPair ∧ i.localKeyPair = some keyPair)
    (alive : i.state ≠ .closed) : Startable i (newDgramHandshake i).hs where
  state := rfl
  random := by simp [newDgramHandshake, newHandshake]
  keyPair := keyPair
  ticket := rfl
  resumed := rfl
  config := rfl
  staticSecret := fun _ => rfl
  foldPSK := fun _ => rfl
  alive := alive
  transcript := by simp [newDgramHandshake, newHandshake]

omit [Octet Byte] in
theorem newDgramHandshake_answerable (r : Session Byte) : Answerable r (newDgramHandshake r).hs :=
  ⟨rfl, rfl, rfl, rfl, rfl, rfl, rfl, by simp [newDgramHandshake, newHandshake]⟩

/-! The responder's handshake never returns to its initial state: the helpers leave
the state alone and each builder moves it forwards. -/
section Forwards
variable (env : Env Byte) (coins : Coins Byte)

abbrev Forwards {α : Type} (program : HandshakeProg Byte α) : Prop :=
  Maintains (fun h => h.state ≠ .initial) program

omit [Octet Byte] in
theorem forwards_of_keeps {α : Type} {program : HandshakeProg Byte α} (kept : Keeps marks program) :
    Forwards program :=
  kept.maintains fun seen => seen.1 ≠ .initial

theorem processClientHello_forwards (data : List Byte) :
    Forwards (processClientHello env coins data) := by
  refine .read_bind fun h past => .bind (fun h' past' => ?_) fun _ => ?_
  · rw [run_reject_pos _ past]
    exact past'
  refine .lift_bind fun msg _ => .reject_bind fun _ => ?_
  cases getSuite env.registry msg.kemSuite with
  | some suite => exact forwards_of_keeps (acceptClientHello_keeps data msg suite)
  | none =>
    refine .read_bind fun h _ => .reject_bind fun _ => ?_
    cases selectMutualKEMSuite msg.kemSuites with
    | none => exact .fail _
    | some suite => exact .write fun _ past => past

theorem createHelloRetryRequest_forwards : Forwards (createHelloRetryRequest env) :=
  .read_bind fun _ _ => .reject_bind fun _ =>
    .bind (forwards_of_keeps (replaceFirstHelloWithHash_keeps _)) fun _ =>
    .bind (.write fun _ past => past) fun _ => .pure _

theorem createServerHello_forwards : Forwards (createServerHello env coins) :=
  createServerHello_moves.maintains (· ≠ .initial) (by decide)

theorem createServerFinished_forwards : Forwards (createServerFinished env) :=
  .read_bind fun _ _ => .reject_bind fun _ => .lift_bind fun _ _ => .lift_bind fun _ _ =>
    .bind (sealFinished_maintains (fun _ _ _ => id) _) fun _ =>
    .bind (.write fun _ _ => by simp) fun _ => .pure _

theorem initializeSessionKeys_state : Keeps Handshake.state (initializeSessionKeys env coins) :=
  .read_bind fun _ => .ite (fun _ => rfl) fun _ => rfl

theorem processClientFinished_forwards (data : List Byte) :
    Forwards (processClientFinished env coins data) := by
  refine .read_bind fun h _ => .reject_bind fun _ => ?_
  cases h.recvCipher with
  | none => exact .fail _
  | some cipher =>
    refine .bind ((openFinished_keeps _ _ _).maintains fun h => h.state ≠ .initial) fun _ => ?_
    refine .bind ((initializeSessionKeys_state env coins).maintains (· ≠ .initial)) fun _ => ?_
    exact .bind (.write fun _ _ => by simp) fun _ => .write fun _ past => past

end Forwards

section Machine
variable {env : Env Byte} {coins : Coins Byte}

omit [Octet Byte] in
theorem dropping_maintains {inv : DgramHandshake Byte → Prop}
    {program : FsmProg Byte (Reaction Byte)} (kept : Maintains inv program) :
    Maintains inv (dropping program) := by
  intro d held
  have after := kept d held
  unfold dropping
  rcases outcome : program d with ⟨(_ | _) | reaction, d'⟩ <;> rw [outcome] at after <;> exact after

theorem start_keeps_role : Keeps DgramHandshake.role (start env coins) :=
  .bind (fun _ => rfl) fun _ => .write_bind (fun _ => rfl) fun _ => .pure _

def Plays (role : Role) (fact : Handshake Byte → Prop) (d : DgramHandshake Byte) : Prop :=
  d.role = role ∧ fact d.hs

variable {role : Role} {fact : Handshake Byte → Prop} {typ : UInt8} {body : List Byte}

omit [Octet Byte] in
theorem onHs_plays {α : Type} {builder : HandshakeProg Byte α} (kept : Maintains fact builder) :
    Maintains (Plays role fact) (onHs builder) := fun d held => ⟨held.1, kept d.hs held.2⟩

/-- Only the transitions reach the handshake. -/
theorem onMessage_plays (advances : Maintains (Plays role fact) (advance env coins typ body)) :
    Maintains (Plays role fact) (onMessage env coins typ body) := by
  refine .read_bind fun d _ => .ite (fun _ => advances) fun _ =>
    .ite (fun _ => advances) fun _ => .ite (fun _ => ?_) fun _ => ?_
  · exact .bind (.write fun _ held => held) fun _ => .pure _
  · exact .ite (fun _ => .pure _) fun _ => .ite (fun _ => .pure _) fun _ => .pure _

theorem advanceServerFinished_plays (finished : Maintains fact (processServerFinished env body))
    (reply : Maintains fact (createClientFinished env coins)) :
    Maintains (Plays role fact) (advanceServerFinished env coins body) :=
  dropping_maintains (.bind (onHs_plays finished) fun _ => .bind (onHs_plays reply) fun _ =>
    .bind (.write fun _ held => held) fun _ => .pure _)

theorem advanceClientFinished_plays
    (finished : Maintains fact (processClientFinished env coins body)) :
    Maintains (Plays role fact) (advanceClientFinished env coins body) :=
  dropping_maintains (.bind (onHs_plays finished) fun _ =>
    .bind (.write fun _ held => held) fun _ => .pure _)

/-- An initiator's machine maintains what its builders do. -/
theorem onMessage_leads (hello : ∀ body, Maintains fact (processServerHello env body))
    (finished : ∀ body, Maintains fact (processServerFinished env body))
    (reply : Maintains fact (createClientFinished env coins))
    (retry : ∀ body, Maintains fact (processHelloRetryRequest env coins body))
    (again : Maintains fact (createClientHello env coins)) :
    Maintains (Plays .initiator fact) (onMessage env coins typ body) := by
  refine onMessage_plays (.read_bind fun d held => ?_)
  rw [held.1]
  refine .ite (fun _ => ?_) fun _ => .ite (fun _ => ?_) fun _ => .ite (fun _ => ?_) fun _ => .pure _
  · refine dropping_maintains (.bind (onHs_plays (hello body)) fun _ =>
      .bind (.write fun _ held => held) fun _ => .read_bind fun d _ => ?_)
    cases d.earlyFinished with
    | none => exact .pure _
    | some early =>
      exact .bind (.write fun _ held => held) fun _ =>
        advanceServerFinished_plays (finished early) reply
  · exact advanceServerFinished_plays (finished body) reply
  · exact dropping_maintains (.bind (onHs_plays (retry body)) fun _ =>
      .bind (onHs_plays again) fun _ =>
      .bind (.write fun _ held => held) fun _ => .pure _)

/-- A responder's machine maintains what its builders do. -/
theorem onMessage_follows (hello : ∀ body, Maintains fact (processClientHello env coins body))
    (retry : Maintains fact (createHelloRetryRequest env))
    (reply : Maintains fact (createServerHello env coins))
    (finished : Maintains fact (createServerFinished env))
    (final : ∀ body, Maintains fact (processClientFinished env coins body)) :
    Maintains (Plays .responder fact) (onMessage env coins typ body) := by
  refine onMessage_plays (.read_bind fun d held => ?_)
  rw [held.1]
  refine .ite (fun _ => ?_) fun _ => .ite (fun _ => ?_) fun _ => .pure _
  · refine dropping_maintains (.read_bind fun d _ =>
      .ite (fun _ => .pure _) fun _ => .bind (onHs_plays (hello body))
        fun _ => .read_bind fun d _ => .ite (fun _ => ?_) fun _ => ?_)
    · exact .bind (onHs_plays retry) fun _ => .bind (.write fun _ held => held) fun _ => .pure _
    · exact .bind (onHs_plays reply) fun _ => .bind (onHs_plays finished) fun _ =>
        .bind (.write fun _ held => held) fun _ => .pure _
  · exact advanceClientFinished_plays (final body)

theorem onMessage_keeps_role (typ : UInt8) (body : List Byte) :
    Keeps DgramHandshake.role (onMessage env coins typ body) := by
  intro d
  have anything {α : Type} (builder : HandshakeProg Byte α) :
      Maintains (fun _ => True) builder := fun _ _ => trivial
  cases role : d.role with
  | initiator =>
    exact (onMessage_leads (fun _ => anything _) (fun _ => anything _) (anything _)
      (fun _ => anything _) (anything _) d ⟨role, trivial⟩).1
  | responder =>
    exact (onMessage_follows (fun _ => anything _) (anything _) (anything _) (anything _)
      (fun _ => anything _) d ⟨role, trivial⟩).1

theorem onMessage_role {d d' : DgramHandshake Byte} {outcome : Except Fault (Reaction Byte)}
    (ran : onMessage env coins typ body d = (outcome, d')) : d'.role = d.role := by
  have kept : (onMessage env coins typ body d).2.role = d.role := onMessage_keeps_role typ body d
  rw [ran] at kept
  exact kept

def Answered (d : DgramHandshake Byte) : Prop := d.role = .responder ∧ d.hs.state ≠ .initial

theorem onMessage_answered (typ : UInt8) (body : List Byte) :
    Maintains Answered (onMessage env coins typ body) :=
  onMessage_follows (processClientHello_forwards env coins) (createHelloRetryRequest_forwards env)
    (createServerHello_forwards env coins) (createServerFinished_forwards env)
    (processClientFinished_forwards env coins)

end Machine

end QuantumGo.DatagramHandshake
