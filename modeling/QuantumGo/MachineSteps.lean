import QuantumGo.DroppedMessages

/-!
What one message makes of a datagram handshake machine (pkg/tunnel/dgram_handshake_fsm.go). A
machine is at rest on most messages, repeats its flight on a retransmit, and otherwise takes one
of the transitions below. A message that a builder refuses may leave the handshake under the
machine changed. Where it does, the transition tells what was sealed meanwhile.
-/

namespace QuantumGo.MachineSteps

open Octets Effect Wire Kem Tunnel Flights
open BuilderFrames FlightSpecs DatagramHandshake DroppedMessages
open KeySchedule hiding deriveHandshakeKeys

variable {Byte : Type} [Octet Byte]

/-- After a retry request its hello is told from the retried one by content. -/
abbrev RepeatsHello (d : DgramHandshake Byte) (body : List Byte) : Prop :=
  d.hs.hrrDone = true ∧ d.cached.map HsMessage.typ = [messageTypeHelloRetryRequest] ∧
    body = d.hs.firstClientHello.getD []

inductive Closes (env : Env Byte) (coins : Coins Byte) (finished : List Byte)
    (d : DgramHandshake Byte) : Reaction Byte → DgramHandshake Byte → Prop where
  | refuses : Closes env coins finished d ([], false) d
  | fails (received h : Handshake Byte)
      (processed : processServerFinished env finished d.hs = (.ok (), received))
      (spent : h.state ≠ .serverHelloReceived)
      (few : h.sealed.length ≤ d.hs.sealed.length + 1) :
      Closes env coins finished d ([], false) { d with hs := h }
  | completes (received final : Handshake Byte) (reply : List Byte)
      (processed : processServerFinished env finished d.hs = (.ok (), received))
      (created : createClientFinished env coins received = (.ok reply, final)) :
      Closes env coins finished d ([⟨messageTypeClientFinished, reply⟩], true) { d with
          hs := final, prev := messageTypeServerFinished, expecting := 0
          cached := [⟨messageTypeClientFinished, reply⟩] }

def heard (d : DgramHandshake Byte) (h : Handshake Byte) : DgramHandshake Byte :=
  { d with
    hs := h, prev := messageTypeServerHello, expecting := messageTypeServerFinished
    earlyFinished := none }

inductive Initiates (env : Env Byte) (coins : Coins Byte) (typ : UInt8) (body : List Byte)
    (d : DgramHandshake Byte) : Reaction Byte → DgramHandshake Byte → Prop where
  | rests (out : List (HsMessage Byte)) (repeats : out = [] ∨ out = d.cached) :
      Initiates env coins typ body d (out, false) d
  | stashes (finished : typ = messageTypeServerFinished)
      (early : d.expecting = messageTypeServerHello) :
      Initiates env coins typ body d ([], false)
        { d with earlyFinished := stash d.earlyFinished body }
  | loses (h : Handshake Byte) (expects : d.expecting = messageTypeServerHello)
      (asked : d.hs.hrrDone = true → h.hrrDone = true) (kept : h.sealed = d.hs.sealed) :
      Initiates env coins typ body d ([], false) { d with hs := h }
  | retries (h h' : Handshake Byte) (reply : List Byte)
      (asked : typ = messageTypeHelloRetryRequest) (expects : d.expecting = messageTypeServerHello)
      (processed : processHelloRetryRequest env coins body d.hs = (.ok (), h))
      (created : createClientHello env coins h = (.ok reply, h')) :
      Initiates env coins typ body d ([⟨messageTypeClientHello, reply⟩], false) { d with
        hs := h', prev := messageTypeHelloRetryRequest, expecting := messageTypeServerHello
        cached := [⟨messageTypeClientHello, reply⟩] }
  | hears (h : Handshake Byte) (hello : typ = messageTypeServerHello)
      (expects : d.expecting = messageTypeServerHello)
      (processed : processServerHello env body d.hs = (.ok (), h)) :
      Initiates env coins typ body d ([], false) (heard d h)
  | catchesUp (h : Handshake Byte) (early : List Byte) {reaction : Reaction Byte}
      {d' : DgramHandshake Byte}
      (hello : typ = messageTypeServerHello) (expects : d.expecting = messageTypeServerHello)
      (processed : processServerHello env body d.hs = (.ok (), h))
      (stashed : d.earlyFinished = some early)
      (closes : Closes env coins early (heard d h) reaction d') :
      Initiates env coins typ body d reaction d'
  | finishes {reaction : Reaction Byte} {d' : DgramHandshake Byte}
      (finished : typ = messageTypeServerFinished)
      (expects : d.expecting = messageTypeServerFinished)
      (closes : Closes env coins body d reaction d') :
      Initiates env coins typ body d reaction d'

def Asked (h : Handshake Byte) : Prop := h.hrrDone = true ∧ h.sendHRR = false

inductive Responds (env : Env Byte) (coins : Coins Byte) (typ : UInt8) (body : List Byte)
    (d : DgramHandshake Byte) : Reaction Byte → DgramHandshake Byte → Prop where
  | rests (out : List (HsMessage Byte)) (repeats : out = [] ∨ out = d.cached) :
      Responds env coins typ body d (out, false) d
  | loses (h : Handshake Byte) (asked : d.expecting = messageTypeClientHello → Asked d.hs → Asked h)
      (still : d.expecting ≠ messageTypeClientHello → h.state = d.hs.state)
      (kept : h.sealed = d.hs.sealed) :
      Responds env coins typ body d ([], false) { d with hs := h }
  | asks (h h' : Handshake Byte) (retry : List Byte) (hello : typ = messageTypeClientHello)
      (expects : d.expecting = messageTypeClientHello)
      (processed : processClientHello env coins body d.hs = (.ok (), h))
      (created : createHelloRetryRequest env h = (.ok retry, h')) :
      Responds env coins typ body d ([⟨messageTypeHelloRetryRequest, retry⟩], false) { d with
        hs := h', prev := messageTypeClientHello, expecting := messageTypeClientHello
        cached := [⟨messageTypeHelloRetryRequest, retry⟩] }
  | fails (h h₁ h₂ : Handshake Byte) (reply : List Byte)
      (hello : typ = messageTypeClientHello) (expects : d.expecting = messageTypeClientHello)
      (processed : processClientHello env coins body d.hs = (.ok (), h))
      (created : createServerHello env coins h = (.ok reply, h₁)) (spent : h₂.state ≠ .initial)
      (few : h₂.sealed.length ≤ d.hs.sealed.length + 1) :
      Responds env coins typ body d ([], false) { d with hs := h₂ }
  | answers (h h₁ h₂ : Handshake Byte) (reply finished : List Byte)
      (hello : typ = messageTypeClientHello) (expects : d.expecting = messageTypeClientHello)
      (processed : processClientHello env coins body d.hs = (.ok (), h))
      (created : createServerHello env coins h = (.ok reply, h₁))
      (sealed : createServerFinished env h₁ = (.ok finished, h₂)) :
      Responds env coins typ body d
        ([⟨messageTypeServerHello, reply⟩, ⟨messageTypeServerFinished, finished⟩], false) { d with
          hs := h₂, prev := messageTypeClientHello, expecting := messageTypeClientFinished
          cached := [⟨messageTypeServerHello, reply⟩, ⟨messageTypeServerFinished, finished⟩] }
  | completes (h : Handshake Byte) (finished : typ = messageTypeClientFinished)
      (expects : d.expecting = messageTypeClientFinished)
      (processed : processClientFinished env coins body d.hs = (.ok (), h)) :
      Responds env coins typ body d ([], true)
        { d with hs := h, prev := messageTypeClientFinished, expecting := 0 }

section Inversion
variable {env : Env Byte} {coins : Coins Byte} {d d' : DgramHandshake Byte} {typ : UInt8}
  {body : List Byte} {reaction : Reaction Byte}

section Dropping
omit [Octet Byte]

/-- A builder's error drops the message; otherwise the rest of the transition is made. -/
theorem dropping_onHs {α : Type} {builder : HandshakeProg Byte α}
    {next : α → FsmProg Byte (Reaction Byte)}
    (ran : dropping (onHs builder >>= next) d = (.ok reaction, d')) :
    (∃ error h, builder d.hs = (.error error, h) ∧ reaction = ([], false) ∧
      d' = { d with hs := h }) ∨
    ∃ value h, builder d.hs = (.ok value, h) ∧
      dropping (next value) { d with hs := h } = (.ok reaction, d') := by
  unfold dropping at ran
  rcases built : builder d.hs with ⟨error | value, h⟩
  · have stopped : onHs builder d = (.error error, { d with hs := h }) := by rw [onHs, built]
    rw [run_bind_error stopped] at ran
    cases error with
    | err error =>
      obtain ⟨same, rfl⟩ := Prod.mk.inj ran
      cases same
      exact .inl ⟨_, h, rfl, rfl, rfl⟩
    | panic => cases ran
  · have finished : onHs builder d = (.ok value, { d with hs := h }) := by rw [onHs, built]
    rw [run_bind_ok finished] at ran
    exact .inr ⟨value, h, rfl, ran⟩

theorem dropping_write {update : DgramHandshake Byte → DgramHandshake Byte} {reply : Reaction Byte}
    (ran : dropping (write update >>= fun _ => pure reply) d = (.ok reaction, d')) :
    reaction = reply ∧ d' = update d := by
  obtain ⟨same, rfl⟩ := Prod.mk.inj ran
  cases same
  exact ⟨rfl, rfl⟩

theorem dropping_dropping {program : FsmProg Byte (Reaction Byte)} :
    dropping (dropping program) = dropping program := by
  funext d
  unfold dropping
  rcases program d with ⟨(_ | _) | _, _⟩ <;> rfl

end Dropping

theorem advanceServerFinished_closes
    (ran : advanceServerFinished env coins body d = (.ok reaction, d')) :
    Closes env coins body d reaction d' := by
  rcases dropping_onHs ran with ⟨error, h, refused, rfl, rfl⟩ | ⟨_, received, processed, rest⟩
  · obtain rfl := processServerFinished_restores _ _ _ _ refused
    exact .refuses
  rcases dropping_onHs rest with ⟨error, h, refused, rfl, rfl⟩ | ⟨reply, final, created, rest⟩
  · -- the ServerFinished was good and the reply to it failed
    have past : received.state ≠ .serverHelloReceived ∧ received.sealed = d.hs.sealed := by
      obtain ⟨-, _, _, _, -, -, -, -, rfl⟩ := processServerFinished_ok_iff.mp processed
      simp [finishedBy]
    have spent : (createClientFinished env coins received).2.state ≠ .serverHelloReceived :=
      createClientFinished_left (by decide) received past.1
    have few : (createClientFinished env coins received).2.sealed.length ≤ _ :=
      createClientFinished_seals received
    rw [refused] at spent few
    exact .fails received h processed spent (past.2 ▸ few)
  · obtain ⟨rfl, rfl⟩ := dropping_write rest
    exact .completes received final reply processed created

theorem onMessage_unadvanced (stays : ¬ Advances d typ)
    (ran : onMessage env coins typ body d = (.ok reaction, d')) :
    (d.role = .initiator ∧ typ = messageTypeServerFinished ∧
        d.expecting = messageTypeServerHello ∧ reaction = ([], false) ∧
        d' = { d with earlyFinished := stash d.earlyFinished body }) ∨
      (reaction = ([], false) ∨ reaction = (d.cached, false)) ∧ d' = d := by
  obtain ⟨unexpected, late⟩ := not_or.mp stays
  rw [onMessage, read_bind, if_neg unexpected, if_neg late] at ran
  split at ran
  · rename_i early
    rw [write_bind] at ran
    obtain ⟨rfl, rfl⟩ := pure_ok_iff.mp ran
    exact .inl ⟨early.1, early.2.1, early.2.2, rfl, rfl⟩
  · split at ran
    · obtain ⟨rfl, rfl⟩ := pure_ok_iff.mp ran
      exact .inr ⟨.inl rfl, rfl⟩
    · split at ran
      · obtain ⟨rfl, rfl⟩ := pure_ok_iff.mp ran
        exact .inr ⟨.inr rfl, rfl⟩
      · obtain ⟨rfl, rfl⟩ := pure_ok_iff.mp ran
        exact .inr ⟨.inl rfl, rfl⟩

theorem advanceServerHello_initiates (expects : d.expecting = messageTypeServerHello)
    (ran : advanceServerHello env coins body d = (.ok reaction, d')) :
    Initiates env coins messageTypeServerHello body d reaction d' := by
  rcases dropping_onHs ran with ⟨error, h, refused, rfl, rfl⟩ | ⟨_, h, processed, rest⟩
  · have kept : (marks (processServerHello env body d.hs).2).2 = (marks d.hs).2 :=
      (processServerHello_moves body).rest d.hs
    rw [refused] at kept
    exact .loses h expects (fun asked => (congrArg Prod.fst kept).trans asked)
      (congrArg (fun seen => seen.2.2.1) kept)
  cases stashed : d.earlyFinished with
  | none =>
    simp only [dropping, write_bind, read_bind, stashed] at rest
    obtain ⟨same, rfl⟩ := Prod.mk.inj rest
    cases same
    exact .hears h rfl expects processed
  | some early =>
    have caught : dropping (advanceServerFinished env coins early) (heard d h) =
        (.ok reaction, d') := by
      simpa only [dropping, write_bind, read_bind, stashed, heard] using rest
    rw [advanceServerFinished, dropping_dropping] at caught
    exact .catchesUp h early rfl expects processed stashed (advanceServerFinished_closes caught)

theorem advanceHelloRetryRequest_initiates (expects : d.expecting = messageTypeServerHello)
    (unasked : d.hs.hrrDone = false)
    (ran : advanceHelloRetryRequest env coins body d = (.ok reaction, d')) :
    Initiates env coins messageTypeHelloRetryRequest body d reaction d' := by
  have kept : keyUse (processHelloRetryRequest env coins body d.hs).2 = keyUse d.hs :=
    processHelloRetryRequest_keyUse body d.hs
  rcases dropping_onHs ran with ⟨error, h, refused, rfl, rfl⟩ | ⟨_, h, processed, rest⟩
  · rw [refused] at kept
    exact .loses h expects (fun asked => absurd asked (Bool.eq_false_iff.mp unasked))
      (congrArg Prod.fst kept)
  rcases dropping_onHs rest with ⟨error, h', refused, rfl, rfl⟩ | ⟨reply, h', created, rest⟩
  · have kept' : keyUse (createClientHello env coins h).2 = keyUse h :=
      createClientHello_moves.keyUse h
    rw [refused] at kept'
    rw [processed] at kept
    exact .loses h' expects (fun asked => absurd asked (Bool.eq_false_iff.mp unasked))
      (congrArg Prod.fst (kept'.trans kept))
  · obtain ⟨rfl, rfl⟩ := dropping_write rest
    exact .retries h h' reply rfl expects processed created

theorem onMessage_initiates (leads : d.role = .initiator)
    (unasked : d.expecting ≠ messageTypeHelloRetryRequest)
    (ran : onMessage env coins typ body d = (.ok reaction, d')) :
    Initiates env coins typ body d reaction d' := by
  by_cases advances : Advances d typ
  swap
  · rcases onMessage_unadvanced advances ran with
      ⟨-, finished, expects, rfl, rfl⟩ | ⟨rfl | rfl, rfl⟩
    · exact .stashes finished expects
    · exact .rests _ (.inl rfl)
    · exact .rests _ (.inr rfl)
  rw [onMessage_advances advances, advance, read_bind, leads] at ran
  rcases advances with ⟨-, rfl⟩ | ⟨-, rfl, expects, first⟩
  · dsimp only at ran
    split at ran
    · rename_i hello
      rw [hello]
      exact advanceServerHello_initiates hello ran
    · split at ran
      · rename_i finished
        exact .finishes finished finished (advanceServerFinished_closes ran)
      · obtain ⟨rfl, rfl⟩ := pure_ok_iff.mp ran
        exact .rests _ (.inl rfl)
  · exact advanceHelloRetryRequest_initiates expects first ran

theorem processClientHello_asked :
    Maintains (Asked : Handshake Byte → Prop) (processClientHello env coins body) := by
  refine .read_bind fun h _ => .reject_bind fun _ =>
    .lift_bind fun msg _ => .reject_bind fun _ => ?_
  cases getSuite env.registry msg.kemSuite with
  | some suite =>
    exact (acceptClientHello_keeps body msg suite).maintains
      fun seen => seen.2.1 = true ∧ seen.2.2.1 = false
  | none =>
    -- a second steering is refused
    refine .read_bind fun h asked h' asked' => ?_
    rw [run_bind_error (run_reject_pos _ asked.1)]
    exact asked'

theorem answerClientHello_responds (expects : d.expecting = messageTypeClientHello)
    (ran : dropping (do
      onHs (processClientHello env coins body)
      answerClientHello env coins) d = (.ok reaction, d')) :
    Responds env coins messageTypeClientHello body d reaction d' := by
  have kept : Asked d.hs → Asked (processClientHello env coins body d.hs).2 :=
    processClientHello_asked d.hs
  have use : keyUse (processClientHello env coins body d.hs).2 = keyUse d.hs :=
    processClientHello_keyUse body d.hs
  rcases dropping_onHs ran with ⟨error, h, refused, rfl, rfl⟩ | ⟨_, h, processed, rest⟩
  · rw [refused] at kept use
    exact .loses h (fun _ => kept) (absurd expects) (congrArg Prod.fst use)
  rw [processed] at kept use
  by_cases steers : h.sendHRR = true
  · have asked : dropping (do
        let hrr ← onHs (createHelloRetryRequest env)
        commit messageTypeClientHello [⟨messageTypeHelloRetryRequest, hrr⟩] messageTypeClientHello
        return ([⟨messageTypeHelloRetryRequest, hrr⟩], false)) { d with hs := h } =
          (.ok reaction, d') := by
      simpa only [answerClientHello, dropping, read_bind, if_pos steers] using rest
    rcases dropping_onHs asked with ⟨error, h', refused, rfl, rfl⟩ | ⟨retry, h', created, rest⟩
    · have use' : (_, keyUse (createHelloRetryRequest env h).2) = (_, keyUse h) :=
        createHelloRetryRequest_keeps h
      rw [refused] at use'
      exact .loses h' (fun _ asked => absurd steers (Bool.eq_false_iff.mp (kept asked).2))
        (absurd expects) (congrArg Prod.fst ((congrArg Prod.snd use').trans use))
    · obtain ⟨rfl, rfl⟩ := dropping_write rest
      exact .asks h h' retry rfl expects processed created
  have answered : dropping (do
      let hello ← onHs (createServerHello env coins)
      let finished ← onHs (createServerFinished env)
      let out := [⟨messageTypeServerHello, hello⟩, ⟨messageTypeServerFinished, finished⟩]
      commit messageTypeClientHello out messageTypeClientFinished
      return (out, false)) { d with hs := h } = (.ok reaction, d') := by
    simpa only [answerClientHello, dropping, read_bind, if_neg steers] using rest
  have same : (marks (createServerHello env coins h).2).2 = (marks h).2 :=
    createServerHello_moves.rest h
  have use' : keyUse (createServerHello env coins h).2 = keyUse h :=
    createServerHello_moves.keyUse h
  rcases dropping_onHs answered with ⟨error, h', refused, rfl, rfl⟩ | ⟨reply, h₁, created, rest⟩
  · rw [refused] at same use'
    exact .loses h' (fun _ asked => ⟨(congrArg Prod.fst same).trans (kept asked).1,
      (congrArg (fun seen => seen.2.1) same).trans (kept asked).2⟩) (absurd expects)
      (congrArg Prod.fst (use'.trans use))
  rcases dropping_onHs rest with ⟨error, h', refused, rfl, rfl⟩ | ⟨finished, h₂, sealed, rest⟩
  · have spent : (createServerFinished env h₁).2.state ≠ .initial := by
      refine createServerFinished_forwards env h₁ ?_
      obtain ⟨sent, -⟩ := HonestRuns.armed_of_createServerHello created
      simp [sent]
    have few : (createServerFinished env h₁).2.sealed.length ≤ _ := createServerFinished_seals h₁
    rw [refused] at spent few
    rw [created] at use'
    have unsealed : h₁.sealed = d.hs.sealed := congrArg Prod.fst (use'.trans use)
    exact .fails h h₁ h' reply rfl expects processed created spent (unsealed ▸ few)
  · obtain ⟨rfl, rfl⟩ := dropping_write rest
    exact .answers h h₁ h₂ reply finished rfl expects processed created sealed

theorem processClientFinished_restores : Restores (fun h : Handshake Byte => (h.state, h.sealed))
      (processClientFinished env coins body) := by
  refine .bind .read fun h => .bind (.reject _ _) fun _ => ?_
  cases h.recvCipher with
  | none => exact restores_of_keeps (.fail _)
  | some cipher =>
    refine .bind (fun h => ?_) fun _ => .bind
      (.read_bind fun _ => .ite (fun _ => rfl) fun _ => rfl) fun _ =>
      restores_of_unstopped (.bind (.write _) fun _ => .write _)
    exact congrArg (fun h => (h.state, h.sealed)) (openFinished_keeps .clientFinished cipher body h)

theorem onMessage_responds (follows : d.role = .responder)
    (ran : onMessage env coins typ body d = (.ok reaction, d')) :
    Responds env coins typ body d reaction d' := by
  by_cases advances : Advances d typ
  swap
  · rcases onMessage_unadvanced advances ran with ⟨leads, -⟩ | ⟨rfl | rfl, rfl⟩
    · cases follows.symm.trans leads
    · exact .rests _ (.inl rfl)
    · exact .rests _ (.inr rfl)
  rw [onMessage_advances advances, advance, read_bind, follows] at ran
  obtain rfl : typ = d.expecting := by
    rcases advances with ⟨-, expected⟩ | ⟨leads, -⟩
    · exact expected
    · cases follows.symm.trans leads
  dsimp only at ran
  split at ran
  · rename_i hello
    by_cases again : RepeatsHello d body
    · simp only [advanceClientHello, dropping, read_bind, if_pos again] at ran
      obtain ⟨rfl, rfl⟩ := pure_ok_iff.mp ran
      exact .rests _ (.inr rfl)
    · rw [hello]
      refine answerClientHello_responds hello ?_
      simpa only [advanceClientHello, dropping, read_bind, if_neg again] using ran
  · rename_i other
    split at ran
    · rename_i finished
      rcases dropping_onHs ran with ⟨error, h, refused, rfl, rfl⟩ | ⟨_, h, processed, rest⟩
      · have kept := processClientFinished_restores d.hs _ h refused
        exact .loses h (fun hello => absurd hello other) (fun _ => congrArg Prod.fst kept)
          (congrArg Prod.snd kept)
      · obtain ⟨rfl, rfl⟩ := dropping_write rest
        exact .completes h finished finished processed
    · obtain ⟨rfl, rfl⟩ := pure_ok_iff.mp ran
      exact .rests _ (.inl rfl)

end Inversion

end QuantumGo.MachineSteps
