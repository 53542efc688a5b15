import QuantumGo.HonestRuns
import QuantumGo.SymbolicKem

/-!
The stream handshake as a whole: whatever the network delivers, a side that
accepts its peer's Finished agrees with that peer; and where the network delivers
what the peers send, both sides finish.
-/

namespace QuantumGo.StreamAgreement

open Octets Effect Symbolic Wire HelloCodec HelloRoundTrip Kem Ticket Tunnel Flights
open FlightSpecs ResponderSpecs HelloRuns StreamHandshake Agreement HonestRuns
open KeySchedule hiding deriveHandshakeKeys

variable {Byte : Type} [Octet Byte] {env : Env Byte} {coins : Coins Byte}

/-! Where the network delivers what the peers send. -/
section Completing
variable {i r : Session Byte}

structure Fresh (env : Env Byte) (i : Session Byte) : Prop where
  known : getSuite env.registry i.kemSuite.id = some i.kemSuite
  keyPair : ∃ draw keyPair, i.kemSuite.generateKeyPair draw = .ok keyPair ∧
    i.localKeyPair = some keyPair
  alive : i.state ≠ .closed

omit [Octet Byte] in
theorem Fresh.startable (fresh : Fresh env i) : Startable i (initiatorStart i none []) where
  state := rfl
  random := by simp [initiatorStart, newHandshake]
  keyPair := fresh.keyPair
  ticket := rfl
  resumed := rfl
  config := rfl
  staticSecret := fun _ => rfl
  foldPSK := fun _ => rfl
  alive := fresh.alive
  transcript := by simp [initiatorStart, newHandshake]

omit [Octet Byte] in
theorem answerable_responderStart (r : Session Byte) (ticketManager : Option (TicketManager Byte)) :
    Answerable r (responderStart r ticketManager) where
  state := rfl
  resumed := rfl
  config := rfl
  sessionID := rfl
  staticSecret := rfl
  foldPSK := rfl
  sendHRR := rfl
  transcript := by simp [responderStart, newHandshake]

omit [Octet Byte] in
theorem pinnedLeg_size {s : Session Byte} {staticCT : List Byte} {staticSecret : Option (List Byte)}
    (leg : pinnedLeg env coins s = .ok (staticCT, staticSecret)) : staticCT.length ≤ 1600 := by
  rcases pinnedLeg_cases leg with ⟨rfl, -⟩ | ⟨_, suite, _, found, size, -⟩
  · simp
  · exact size ▸ (getSuite_sizes found).2

theorem clientHello_readable {before sent : Handshake Byte} {clientHello : List Byte}
    (start : Startable i before)
    (known : getSuite env.registry before.session.kemSuite.id = some before.session.kemSuite)
    (created : createClientHello env coins before = (.ok clientHello, sent)) :
    payloadLen clientHello ≤ maxMessageSize := by
  obtain ⟨-, random, keyPair, staticCT, staticSecret, -, owned, leg, valid, rfl, -⟩ :=
    createClientHello_ok_iff.mp created
  obtain ⟨draw, keyPair', made, owned'⟩ := start.keyPair
  obtain rfl : keyPair = keyPair' := Option.some.inj (owned.symm.trans owned')
  have keySize := before.session.kemSuite.keyPair_size _ _ made
  have suiteSize := (getSuite_sizes known).1
  have staticSize := pinnedLeg_size leg
  obtain ⟨-, long, -, short, -, -, label⟩ := (ClientHello.validate_ok_iff _).mp valid
  have small := clientHelloPayload_small valid (clientHelloOf_encodable leg)
  rw [frame_payloadLen (small.trans (by decide)), clientHelloPayload_length long]
  have optional := optionalField_length_le 2 staticCT
  have optional' := optionalField_length_le 1 (advertisedIdentity before.session)
  have suites : (supportedCipherSuites env).length ≤ 2 := by
    unfold supportedCipherSuites
    split <;> simp
  have kems : supportedSuites.length = 2 := rfl
  simp only [clientHelloOf] at short label ⊢
  unfold maxSessionIDLen at short
  unfold maxPSKIdentitySize at label
  unfold maxMessageSize
  omega

theorem serverHello_readable {accepted helloSent : Handshake Byte} {serverHello : List Byte}
    {id : UInt16} (known : getSuite env.registry id = some accepted.session.kemSuite)
    (created : createServerHello env coins accepted = (.ok serverHello, helloSent)) :
    Exact serverHello ∧ payloadLen serverHello ≤ maxMessageSize ∧
    serverHello.head?.map val ≠ some messageTypeHelloRetryRequest := by
  obtain ⟨remote, random, ct, freshSecret, base, secret, ciphers, -, -, sent, -, valid, rfl, -⟩ :=
    createServerHello_ok_iff.mp created
  have size := (accepted.session.kemSuite.ciphertext_size _ _ _ _ _ sent).1
  have bound := (getSuite_sizes known).2
  have fits : ct.raw.length < 2 ^ 16 := by omega
  have small := serverHelloPayload_small valid fits
  obtain ⟨-, long, short, -, -⟩ := (ServerHello.validate_ok_iff _).mp valid
  refine ⟨frame_exact (small.trans (by decide)), ?_, by simp [frame, messageTypeServerHello,
    messageTypeHelloRetryRequest]⟩
  rw [frame_payloadLen (small.trans (by decide)), serverHelloPayload_length long]
  simp only [serverHelloOf] at short ⊢
  unfold maxSessionIDLen at short
  unfold maxMessageSize
  omega

theorem stream_handshake_completes (ideal : IdealEnv env) (correct : CorrectRegistry env)
    (compatible : Compatible env i r) (fresh : Fresh env i)
    (ticketManager : Option (TicketManager Byte)) (coins coins' : Nat → Coins Byte)
    (entropy : (coins 0).random.isSome) (entropy' : (coins' 2).random.isSome) :
    ∃ incoming incoming' c c' serverHello serverFinished initiator responder,
      initiatorExchangeHellos env coins ⟨initiatorStart i none [], incoming, []⟩ = (.ok (), c) ∧
      responderHellos env coins' ⟨responderStart r ticketManager, incoming', []⟩ =
        (.ok serverHello, c') ∧
      createServerFinished env c'.handshake = (.ok serverFinished, responder) ∧
      processServerFinished env serverFinished c.handshake = (.ok (), initiator) ∧
      ∃ clientFinished keyedInitiator keyedResponder,
        createClientFinished env (coins 3) initiator = (.ok clientFinished, keyedInitiator) ∧
        processClientFinished env (coins' 3) clientFinished responder =
          (.ok (), keyedResponder) := by
  obtain ⟨run⟩ := honest_exchange ideal correct compatible fresh.startable
    (answerable_responderStart r ticketManager) fresh.known rfl coins coins' entropy entropy'
  obtain ⟨id, known⟩ := processClientHello_registered run.accepts run.answers
  obtain ⟨exact, small, kind⟩ := serverHello_readable known run.answer
  obtain ⟨_, _, _, _, -, -, -, exactHello, -⟩ := createClientHello_reads run.hello
  refine ⟨run.serverHello, run.clientHello, ⟨run.received, [], run.clientHello⟩,
    ⟨run.helloSent, [], []⟩, run.serverHello, run.serverFinished, run.initiator,
    run.responder, ?_, ?_,
    run.finishes, run.verifies, run.clientFinished, run.keyedInitiator, run.keyedResponder,
    run.completes, run.completes'⟩
  · rw [← List.append_nil run.serverHello, initiatorExchangeHellos_frame [] exact small kind]
    exact ⟨run.clientHello, run.sent, run.received, run.hello, run.receives, rfl⟩
  · exact (responderHellos_frame exactHello
      (clientHello_readable fresh.startable fresh.known run.hello)).mpr
      ⟨run.accepted, run.helloSent, run.accepts, run.answers, run.answer, rfl⟩

/-- Sessions with no option set fit each other. -/
theorem newSession_compatible {suite suite' : Suite Byte} {id id' draw draw' : List Byte}
    (made : newSession suite .initiator id draw = .ok i)
    (made' : newSession suite' .responder id' draw' = .ok r)
    (short : id'.length ≤ maxSessionIDLen) : Compatible env i r := by
  simp only [newSession, except_bind_ok_iff, except_pure_ok_iff] at made made'
  obtain ⟨keyPair, -, rfl⟩ := made
  obtain ⟨keyPair', -, rfl⟩ := made'
  exact ⟨rfl, rfl, fun _ => rfl, by simp, fun _ => rfl, by simp, short⟩

omit [Octet Byte] in
theorem newSession_fresh {suite : Suite Byte} {id draw : List Byte}
    (known : getSuite env.registry suite.id = some suite)
    (made : newSession suite .initiator id draw = .ok i) : Fresh env i := by
  simp only [newSession, except_bind_ok_iff, except_pure_ok_iff] at made
  obtain ⟨owned, generated, rfl⟩ := made
  cases drawn : suite.generateKeyPair draw with
  | error stop => simp [drawn] at generated
  | ok keyPair =>
    obtain rfl : some keyPair = owned := by simpa [drawn] using generated
    exact ⟨known, ⟨draw, keyPair, drawn, rfl⟩, by simp⟩

end Completing

/-- For all byte strings delivered to the two sides: a ServerFinished of this
responder that the initiator accepts makes them agree, and a ClientFinished that
the responder then accepts makes their sessions mirror each other. -/
theorem stream_handshake_agreement (ideal : IdealEnv env) {session session' : Session Byte}
    {ticket : Option (List Byte)} {ticketSecret : List Byte}
    {ticketManager : Option (TicketManager Byte)} {coins coins' : Nat → Coins Byte}
    {incoming incoming' outgoing outgoing' : List Byte} {c c' : Conn Byte}
    {serverHello serverFinished : List Byte} {initiator responder : Handshake Byte}
    (leads : session.role = .initiator) (follows : session'.role = .responder)
    (hellos : initiatorExchangeHellos env coins
      ⟨initiatorStart session ticket ticketSecret, incoming, outgoing⟩ = (.ok (), c))
    (hellos' : responderHellos env coins'
      ⟨responderStart session' ticketManager, incoming', outgoing'⟩ = (.ok serverHello, c'))
    (created : createServerFinished env c'.handshake = (.ok serverFinished, responder))
    (accepted : processServerFinished env serverFinished c.handshake = (.ok (), initiator)) :
    Agrees initiator responder ∧
    ∀ clientFinished keyedInitiator keyedResponder,
      createClientFinished env (coins 3) initiator = (.ok clientFinished, keyedInitiator) →
      processClientFinished env (coins' 3) clientFinished responder = (.ok (), keyedResponder) →
      Mirrored env.toCrypto initiator.sharedSecret keyedInitiator.session
        keyedResponder.session := by
  obtain ⟨run⟩ := initiatorExchangeHellos_run hellos
  obtain ⟨run', -⟩ := responderHellos_run hellos'
  obtain ⟨agrees, -, -⟩ :=
    agrees_of_serverFinished ideal (run.done rfl) (run'.done rfl) created accepted
  refine ⟨agrees, fun clientFinished keyedInitiator keyedResponder finished accepted' => ?_⟩
  obtain ⟨kept, transport⟩ := run.sameSetup
  obtain ⟨kept', transport'⟩ := run'.sameSetup
  obtain ⟨-, _, _, _, -, -, -, -, rfl⟩ := createServerFinished_ok_iff.mp created
  obtain ⟨-, _, _, _, -, -, -, -, rfl⟩ := processServerFinished_ok_iff.mp accepted
  exact mirrored_of_agrees agrees ((configOf_fields kept).1.trans leads)
    ((configOf_fields kept').1.trans follows) (transport.trans transport'.symm) finished accepted'

def steadyCoins : Coins Byte where
  random := some ⟨List.replicate 32 (lit 0), List.length_replicate⟩
  staticEnc := []
  keyGen := []
  enc := []
  dummyPSK := some ⟨List.replicate 32 (lit 0), List.length_replicate⟩
  now := 0

theorem symbolic_correct : CorrectRegistry SymbolicKem.env :=
  fun id suite found => (SymbolicKem.env_correct id suite found).1

/-- Two new sessions of the symbolic build. -/
theorem symbolic_sessions : ∃ i r : Session Letter,
    SymbolicKem.IsNew .initiator i ∧ SymbolicKem.IsNew .responder r ∧
    Compatible SymbolicKem.env i r ∧ Fresh SymbolicKem.env i := by
  obtain ⟨i, made⟩ : ∃ i, SymbolicKem.IsNew .initiator i := ⟨_, rfl⟩
  obtain ⟨r, made'⟩ : ∃ r, SymbolicKem.IsNew .responder r := ⟨_, rfl⟩
  exact ⟨i, r, made, made', newSession_compatible made made' (by simp), newSession_fresh rfl made⟩

theorem stream_handshake_agreement_symbolic :
    ∃ initiator responder keyedInitiator keyedResponder : Handshake Letter,
      Agrees initiator responder ∧
      Mirrored SymbolicKem.env.toCrypto initiator.sharedSecret keyedInitiator.session
        keyedResponder.session := by
  obtain ⟨i, r, -, -, compatible, fresh⟩ := symbolic_sessions
  obtain ⟨incoming, incoming', c, c', serverHello, serverFinished, initiator, responder, hellos,
    hellos', created, accepted, clientFinished, keyedInitiator, keyedResponder, finished, closed⟩ :=
    stream_handshake_completes SymbolicKem.env_ideal symbolic_correct compatible fresh none
      (fun _ => steadyCoins) (fun _ => steadyCoins) rfl rfl
  obtain ⟨agrees, mirrors⟩ := stream_handshake_agreement SymbolicKem.env_ideal compatible.leads
    compatible.follows hellos hellos' created accepted
  exact ⟨initiator, responder, keyedInitiator, keyedResponder, agrees,
    mirrors clientFinished keyedInitiator keyedResponder finished closed⟩

/-- Two ends that fit each other, of streams or of datagrams, each given what the other sends:
every builder succeeds, and the sessions mirror each other. -/
theorem honest_exchange_mirrors (ideal : IdealEnv env) (correct : CorrectRegistry env)
    {i r : Session Byte} (compatible : Compatible env i r) (fresh : Fresh env i)
    (ticketManager : Option (TicketManager Byte)) (datagram : Bool)
    (coins coins' : Nat → Coins Byte) (entropy : (coins 0).random.isSome)
    (entropy' : (coins' 2).random.isSome) :
    ∃ run : Exchange env coins coins' { initiatorStart i none [] with datagram }
        { responderStart r ticketManager with datagram },
      Mirrored env.toCrypto run.initiator.sharedSecret run.keyedInitiator.session
        run.keyedResponder.session := by
  have startable : Startable i { initiatorStart i none [] with datagram } :=
    { fresh.startable with }
  have answerable : Answerable r { responderStart r ticketManager with datagram } :=
    { answerable_responderStart r ticketManager with }
  obtain ⟨run⟩ := honest_exchange ideal correct compatible startable answerable fresh.known rfl
    coins coins' entropy entropy'
  obtain ⟨_, _, _, _, -, -, -, exact, -⟩ := createClientHello_reads run.hello
  have hellos : InitiatorHellos env _ run.received :=
    ⟨_, _, _, _, _, .straight, run.hello, run.receives⟩
  have hellos' : ResponderHellos env _ run.helloSent :=
    ⟨_, _, _, _, _, _, .straight, exact, run.accepts, run.answers, run.answer⟩
  obtain ⟨agrees, -, -⟩ :=
    agrees_of_serverFinished ideal (hellos.done rfl) (hellos'.done rfl) run.finishes run.verifies
  obtain ⟨kept, transport⟩ := hellos.sameSetup
  obtain ⟨kept', transport'⟩ := hellos'.sameSetup
  obtain ⟨-, _, _, _, -, -, -, -, same⟩ := createServerFinished_ok_iff.mp run.finishes
  obtain ⟨-, _, _, _, -, -, -, -, same'⟩ := processServerFinished_ok_iff.mp run.verifies
  refine ⟨run, mirrored_of_agrees agrees ?_ ?_ ?_ run.completes run.completes'⟩
  · exact same' ▸ (configOf_fields kept).1.trans compatible.leads
  · exact same ▸ (configOf_fields kept').1.trans compatible.follows
  · exact same ▸ same' ▸ transport.trans transport'.symm

theorem honest_exchange_mirrors_symbolic : ∃ i r : Session Letter, ∀ datagram : Bool,
    ∃ run : Exchange SymbolicKem.env (fun _ => steadyCoins) (fun _ => steadyCoins)
        { initiatorStart i none [] with datagram } { responderStart r none with datagram },
      Mirrored SymbolicKem.env.toCrypto run.initiator.sharedSecret run.keyedInitiator.session
        run.keyedResponder.session := by
  obtain ⟨i, r, -, -, compatible, fresh⟩ := symbolic_sessions
  exact ⟨i, r, fun datagram => honest_exchange_mirrors SymbolicKem.env_ideal symbolic_correct
    compatible fresh none datagram _ _ rfl rfl⟩

end QuantumGo.StreamAgreement
