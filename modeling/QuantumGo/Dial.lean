import QuantumGo.Authentication

/-!
The two ways a client opens a tunnel: `DialWithConfig` (pkg/tunnel/transport.go)
and `Pool.createConn` (pkg/tunnel/pool.go). Of the configuration only what a client
hands to its session is kept; timeouts and observers are left out.
-/

namespace QuantumGo.Dial

open Octets Effect Symbolic Wire HelloRoundTrip Aead Kem Tunnel Flights
open FlightSpecs ResponderSpecs HelloRuns StreamHandshake Agreement HonestRuns StreamAgreement
open KeySchedule hiding deriveHandshakeKeys

/-- A slice that may be nil is an option. -/
structure TransportConfig (Byte : Type) where
  pinnedServerKey : Option (PublicKey Byte)
  psk : Option (List Byte)
  pskIdentity : Option (List Byte)

variable {Byte : Type}

def validatePSK (psk identity : Option (List Byte)) : Except QError Unit :=
  if psk.isNone ∧ identity.isNone then .ok ()
  else if (psk.getD []).length ≠ sharedSecretSize ∨ (identity.getD []).length = 0 ∨
      (identity.getD []).length > maxPSKIdentitySize then .error .invalidPSK
  else .ok ()

/-- What one attempt meets: the outcome of the network dial, the draws of
`NewSession` and of the handshake, and what the peer sends once it has read the
ClientHello. -/
structure Attempt (Byte : Type) where
  reached : Except QError Unit
  sessionID : Except QError (List Byte)
  keyGen : List Byte
  coins : Nat → Coins Byte
  answer : List Byte → List Byte

/-- A tunnel is its session; the connection below it is not looked at again. -/
structure Tunnel (Byte : Type) where
  session : Session Byte

def newTransport (session : Session Byte) : Except QError (Tunnel Byte) :=
  if session.state ≠ .established then .error .invalidState else .ok ⟨session⟩

def withFault {α : Type} (outcome : Except QError α) : Except Fault α := outcome.mapError .err

def defaultSession [Octet Byte] (env : Env Byte) (attempt : Attempt Byte) :
    Except QError (Session Byte) := do
  let sessionID ← attempt.sessionID
  newSession (defaultSuite env.registry) .initiator sessionID attempt.keyGen

variable [Octet Byte]

def heard (env : Env Byte) (attempt : Attempt Byte) (session : Session Byte) : List Byte :=
  match createClientHello env (attempt.coins 0) (initiatorStart session none []) with
  | (.ok hello, _) => attempt.answer hello
  | (.error _, _) => []

def handshakeOver (env : Env Byte) (attempt : Attempt Byte) (session : Session Byte) :
    Except Fault (Session Byte) :=
  match initiatorHandshake env attempt.coins
    ⟨initiatorStart session none [], heard env attempt session, []⟩ with
  | (.ok (), c) => .ok c.handshake.session
  | (.error fault, _) => .error fault

def TransportConfig.apply (config : TransportConfig Byte) (session : Session Byte) : Session Byte :=
  { session with
    pinnedServerKey := config.pinnedServerKey
    psk := config.psk
    pskIdentity := config.pskIdentity.getD [] }

def dialWithConfig (env : Env Byte) (config : TransportConfig Byte) (attempt : Attempt Byte) :
    Except Fault (Tunnel Byte) := do
  withFault (validatePSK config.psk config.pskIdentity)
  withFault attempt.reached
  let session ← withFault (defaultSession env attempt)
  let session ← handshakeOver env attempt (config.apply session)
  withFault (newTransport session)

/-- The pool reads its configuration for timeouts and observers only. -/
def createConn (env : Env Byte) (_config : TransportConfig Byte) (attempt : Attempt Byte) :
    Except Fault (Tunnel Byte) := do
  withFault attempt.reached
  let session ← withFault (defaultSession env attempt)
  let session ← handshakeOver env attempt session
  withFault (newTransport session)

def dialHands (config : TransportConfig Byte) (session : Session Byte) :
    Except QError (Session Byte) := do
  validatePSK config.psk config.pskIdentity
  return config.apply session

def poolHands (_config : TransportConfig Byte) (session : Session Byte) :
    Except QError (Session Byte) :=
  .ok session

def Unset (config : TransportConfig Byte) : Prop :=
  config.pinnedServerKey = none ∧ config.psk = none ∧ config.pskIdentity = none

def HandsAlike (env : Env Byte) (config : TransportConfig Byte) : Prop :=
  ∀ attempt session, defaultSession env attempt = .ok session →
    (poolHands config session).map configOf = (dialHands config session).map configOf

def EstablishesAlike (env : Env Byte) (config : TransportConfig Byte) : Prop :=
  ∀ attempt tunnel, createConn env config attempt = .ok tunnel →
    ∃ tunnel', dialWithConfig env config attempt = .ok tunnel'

section Paths
variable {env : Env Byte} {config : TransportConfig Byte} {attempt : Attempt Byte}
  {session : Session Byte} {tunnel : Tunnel Byte}

theorem withFault_ok_iff {α : Type} {outcome : Except QError α} {value : α} :
    withFault outcome = .ok value ↔ outcome = .ok value := by
  cases outcome <;> simp [withFault, Except.mapError]

theorem defaultSession_plain (made : defaultSession env attempt = .ok session) :
    session.pinnedServerKey = none ∧ session.psk = none ∧ session.pskIdentity = [] := by
  simp only [defaultSession, newSession, except_bind_ok_iff, except_pure_ok_iff] at made
  obtain ⟨_, _, _, _, rfl⟩ := made
  exact ⟨rfl, rfl, rfl⟩

theorem dialWithConfig_ok_iff : dialWithConfig env config attempt = .ok tunnel ↔
      attempt.reached = .ok () ∧ ∃ session handed keyed,
        defaultSession env attempt = .ok session ∧ dialHands config session = .ok handed ∧
        handshakeOver env attempt handed = .ok keyed ∧ newTransport keyed = .ok tunnel := by
  simp only [dialWithConfig, dialHands, except_bind_ok_iff, except_pure_ok_iff, withFault_ok_iff]
  constructor
  · rintro ⟨⟨⟩, valid, ⟨⟩, reached, session, made, keyed, done, opened⟩
    exact ⟨reached, session, _, keyed, made, ⟨(), valid, rfl⟩, done, opened⟩
  · rintro ⟨reached, session, _, keyed, made, ⟨⟨⟩, valid, rfl⟩, done, opened⟩
    exact ⟨(), valid, (), reached, session, made, keyed, done, opened⟩

theorem createConn_ok_iff : createConn env config attempt = .ok tunnel ↔
      attempt.reached = .ok () ∧ ∃ session handed keyed,
        defaultSession env attempt = .ok session ∧ poolHands config session = .ok handed ∧
        handshakeOver env attempt handed = .ok keyed ∧ newTransport keyed = .ok tunnel := by
  simp only [createConn, poolHands, except_bind_ok_iff, withFault_ok_iff, Except.ok.injEq,
    Unique.exists_iff, existsAndEq, true_and, exists_and_left]

omit [Octet Byte] in
theorem dialHands_ok_iff {handed : Session Byte} : dialHands config session = .ok handed ↔
      validatePSK config.psk config.pskIdentity = .ok () ∧ handed = config.apply session := by
  simp only [dialHands, except_bind_ok_iff, except_pure_ok_iff]
  exact ⟨fun ⟨⟨⟩, valid, same⟩ => ⟨valid, same.symm⟩, fun ⟨valid, same⟩ => ⟨(), valid, same.symm⟩⟩

omit [Octet Byte] in
/-- A valid pair is a key with a nonempty label, or nothing. -/
theorem validatePSK_ok {psk identity : Option (List Byte)}
    (valid : validatePSK psk identity = .ok ()) :
    (psk = none ∧ identity = none) ∨ (psk.isSome ∧ identity.getD [] ≠ []) := by
  unfold validatePSK at valid
  cases psk <;> cases identity <;> simp_all [sharedSecretSize]

/-- With nothing set the two paths hand over the same session. -/
theorem dialHands_unset (unset : Unset config) (made : defaultSession env attempt = .ok session) :
    dialHands config session = poolHands config session := by
  obtain ⟨unpinned, keyless, unnamed⟩ := unset
  obtain ⟨pin, psk, identity⟩ := defaultSession_plain made
  cases session
  simp_all [dialHands, poolHands, validatePSK, TransportConfig.apply]

theorem handshakeOver_ok_iff {keyed : Session Byte} :
    handshakeOver env attempt session = .ok keyed ↔ ∃ hello sent c,
      createClientHello env (attempt.coins 0) (initiatorStart session none []) = (.ok hello, sent) ∧
      initiatorHandshake env attempt.coins
        ⟨initiatorStart session none [], attempt.answer hello, []⟩ = (.ok (), c) ∧
      keyed = c.handshake.session := by
  have outcome : handshakeOver env attempt session = .ok keyed ↔ ∃ c,
      initiatorHandshake env attempt.coins
        ⟨initiatorStart session none [], heard env attempt session, []⟩ = (.ok (), c) ∧
      keyed = c.handshake.session := by
    unfold handshakeOver
    rcases initiatorHandshake env attempt.coins
      ⟨initiatorStart session none [], heard env attempt session, []⟩ with ⟨refused | ⟨⟩, c⟩
    · simp
    · simp [eq_comm]
  rw [outcome]
  constructor
  · rintro ⟨c, finished, rfl⟩
    -- The driver's first builder makes the ClientHello.
    obtain ⟨hello, sent, created⟩ : ∃ hello sent, createClientHello env (attempt.coins 0)
        (initiatorStart session none []) = (.ok hello, sent) := by
      have steps := finished
      simp only [initiatorHandshake, initiatorExchangeHellos, bind_ok_iff, build_ok_iff] at steps
      obtain ⟨_, _, ⟨hello, _, ⟨sent, created, -⟩, -⟩, -⟩ := steps
      exact ⟨hello, sent, created⟩
    rw [heard, created] at finished
    exact ⟨hello, sent, c, created, finished, rfl⟩
  · rintro ⟨hello, sent, c, created, finished, rfl⟩
    refine ⟨c, ?_, rfl⟩
    rw [heard, created]
    exact finished

def steadyAttempt (answer : List Byte → List Byte) : Attempt Byte where
  reached := .ok ()
  sessionID := .ok []
  keyGen := []
  coins := fun _ => steadyCoins
  answer := answer

theorem defaultSession_total (correct : CorrectRegistry env) : ∃ session, ∀ answer,
    defaultSession env (steadyAttempt answer) = .ok session ∧
    newSession (defaultSuite env.registry) .initiator [] [] = .ok session := by
  obtain ⟨keyPair, drawn⟩ := (correct suiteCHKEMv1 _ rfl).generates []
  have made : ∃ session, newSession env.registry.chkemV1 .initiator [] [] = .ok session := by
    simp only [newSession, drawn, Except.map_ok]
    exact ⟨_, rfl⟩
  obtain ⟨session, made⟩ := made
  exact ⟨session, fun answer => ⟨made, made⟩⟩

theorem handsAlike_iff (correct : CorrectRegistry env) : HandsAlike env config ↔ Unset config := by
  constructor
  · intro alike
    obtain ⟨session, made⟩ := defaultSession_total correct
    obtain ⟨pin, psk, identity⟩ := defaultSession_plain (made id).1
    have same := alike _ _ (made id).1
    cases valid : validatePSK config.psk config.pskIdentity with
    | error refused => simp [dialHands, poolHands, valid, Except.map] at same
    | ok checked =>
      have options : configOf session = configOf (config.apply session) := by
        simpa [dialHands, poolHands, valid, Except.map] using same
      have pins : session.pinnedServerKey = config.pinnedServerKey :=
        congrArg Config.pinnedServerKey options
      have keys : session.psk = config.psk := congrArg Config.psk options
      rcases validatePSK_ok valid with ⟨keyless, unnamed⟩ | ⟨keyed, -⟩
      · exact ⟨pins.symm.trans pin, keyless, unnamed⟩
      · rw [← keys, psk] at keyed
        cases keyed
  · intro unset attempt session made
    rw [dialHands_unset unset made]

theorem createServerFinished_short (ideal : IdealEnv env) {h h' : Handshake Byte} {data : List Byte}
    (created : createServerFinished env h = (.ok data, h')) : data.length ≤ maxMessageSize := by
  obtain ⟨-, _, verify, _, -, -, size, sealed, -⟩ := createServerFinished_ok_iff.mp created
  obtain ⟨-, rfl, -⟩ := sealNext_ok_iff.mp sealed
  rw [List.length_append, counterNonce_length, ideal.aead.length, frame_length, size]
  decide

/-- The initiator's last builder leaves an established session. -/
theorem newTransport_of_finished {coins : Coins Byte} {h h' : Handshake Byte} {data : List Byte}
    (finished : createClientFinished env coins h = (.ok data, h')) :
    newTransport h'.session = .ok ⟨h'.session⟩ := by
  obtain ⟨-, _, _, _, ciphers, prefixes, -, -, -, -, -, -, -, -, rfl⟩ :=
    createClientFinished_ok_iff.mp finished
  refine if_neg (not_not.mpr ?_)
  simp only [completed, established]
  split <;> rfl

def answerOf (env : Env Byte) (coins : Nat → Coins Byte) (responder : Session Byte)
    (hello : List Byte) : List Byte :=
  match responderExchangeHellos env coins ⟨responderStart responder none, hello, []⟩ with
  | (.ok (), c) => c.outgoing
  | (.error _, _) => []

section PlainResponder
variable {r : Session Byte} (ideal : IdealEnv env) (correct : CorrectRegistry env)
  (plain : newSession (defaultSuite env.registry) .responder [] [] = .ok r)
include ideal correct plain

/-- A responder with no option set serves the pool, whatever its configuration. -/
theorem plain_responder_serves_pool : ∃ tunnel, createConn env config
    (steadyAttempt (answerOf env (fun _ => steadyCoins) r)) = .ok tunnel := by
  obtain ⟨i, made⟩ := defaultSession_total correct
  have fresh : Fresh env i := newSession_fresh (getSuite_default _) (made id).2
  obtain ⟨run⟩ := honest_exchange ideal correct (newSession_compatible (made id).2 plain (by simp))
    fresh.startable (answerable_responderStart r none) fresh.known rfl (fun _ => steadyCoins)
    (fun _ => steadyCoins) rfl rfl
  obtain ⟨_, known⟩ := processClientHello_registered run.accepts run.answers
  obtain ⟨exact, small, kind⟩ := serverHello_readable known run.answer
  obtain ⟨_, _, _, _, -, -, -, exactHello, -⟩ := createClientHello_reads run.hello
  have answered : answerOf env (fun _ => steadyCoins) r run.clientHello =
      run.serverHello ++ encryptedRecord run.serverFinished := by
    have driven : responderExchangeHellos env (fun _ => steadyCoins)
        ⟨responderStart r none, run.clientHello, []⟩ =
        (.ok (), ⟨run.responder, [], run.serverHello ++ encryptedRecord run.serverFinished⟩) := by
      rw [responderExchangeHellos_frame exactHello
        (clientHello_readable fresh.startable fresh.known run.hello)]
      exact ⟨_, _, _, _, _, run.accepts, run.answers, run.answer, run.finishes, rfl⟩
    rw [answerOf, driven]
  have finished : initiatorHandshake env (fun _ => steadyCoins)
      ⟨initiatorStart i none [], answerOf env (fun _ => steadyCoins) r run.clientHello, []⟩ =
      (.ok (), ⟨run.keyedInitiator, [], run.clientHello ++
        encryptedRecord run.clientFinished⟩) := by
    rw [answered,
      initiatorHandshake_frames exact small kind (createServerFinished_short ideal run.finishes)]
    exact ⟨_, _, _, _, _, _, run.hello, run.receives, run.verifies, run.completes, rfl⟩
  exact ⟨_, createConn_ok_iff.mpr ⟨rfl, i, i, _, (made _).1, rfl, handshakeOver_ok_iff.mpr
    ⟨run.clientHello, run.sent, _, run.hello, finished, rfl⟩,
      newTransport_of_finished run.completes⟩⟩

/-- It refuses every dial with an option set: such a session folds a secret that the
responder does not. -/
theorem plain_responder_refuses_dial (kem : Authentication.KemIdeal env)
    (dialed : dialWithConfig env config (steadyAttempt (answerOf env (fun _ => steadyCoins) r)) =
      .ok tunnel) : Unset config := by
  obtain ⟨i, made⟩ := defaultSession_total correct
  obtain ⟨-, session, handed, keyed, made', hands, done, -⟩ := dialWithConfig_ok_iff.mp dialed
  obtain rfl : i = session := Except.ok.inj ((made _).1.symm.trans made')
  obtain ⟨valid, rfl⟩ := dialHands_ok_iff.mp hands
  obtain ⟨hello, sent, c, created, finished, rfl⟩ := handshakeOver_ok_iff.mp done
  have fresh : Fresh env i := newSession_fresh (getSuite_default _) (made id).2
  have fresh : Fresh env (config.apply i) := ⟨fresh.known, fresh.keyPair, fresh.alive⟩
  obtain ⟨_, _, _, _, -, -, -, exactHello, -⟩ := createClientHello_reads created
  rcases driven : responderExchangeHellos env (fun _ => steadyCoins)
      ⟨responderStart r none, hello, []⟩ with ⟨refused | ⟨⟩, c'⟩
  · -- A responder that refuses sends nothing, and the client's first read fails.
    have silent : answerOf env (fun _ => steadyCoins) r hello = [] := by rw [answerOf, driven]
    simp only [initiatorHandshake, initiatorExchangeHellos, bind_ok_iff, build_ok_iff, send_ok_iff,
      steadyAttempt, silent] at finished
    obtain ⟨_, _, ⟨_, _, ⟨_, -, rfl⟩, _, _, rfl, _, _, got, -⟩, -⟩ := finished
    exact absurd got readMessage_nothing
  · obtain ⟨serverHello, accepted, helloSent, serverFinished, responder, accepts, answers, answer,
      finishes, rfl⟩ := (responderExchangeHellos_frame exactHello
        (clientHello_readable fresh.startable fresh.known created)).mp driven
    have answered : answerOf env (fun _ => steadyCoins) r hello =
        serverHello ++ encryptedRecord serverFinished := by
      rw [answerOf, driven]
    obtain ⟨_, known⟩ := processClientHello_registered accepts answers
    obtain ⟨exact, small, kind⟩ := serverHello_readable known answer
    simp only [steadyAttempt, answered] at finished
    rw [initiatorHandshake_frames exact small kind (createServerFinished_short ideal finishes)]
      at finished
    obtain ⟨hello', sent', received, initiator, _, _, created', received', verified, -⟩ := finished
    obtain ⟨⟨⟩, rfl⟩ := Prod.mk.inj (created.symm.trans created')
    obtain ⟨secrets, -, -⟩ := serverFinished_binds ideal finishes verified
    obtain ⟨msg, staticSecret, key, -, leg, leg', -, -, chosen, same, -, -⟩ :=
      Authentication.same_folds ideal kem (kem.apart _ _ fresh.known)
        (⟨_, _, _, hello, _, .straight, created, received'⟩ :
          InitiatorHellos env (initiatorStart (config.apply i) none []) received)
        (⟨_, _, _, _, _, _, .straight, exactHello, accepts, answers, answer⟩ :
          ResponderHellos env (responderStart r none) helloSent) secrets rfl
    obtain ⟨identity, keyless, lookup, optional⟩ : r.staticKeyPair = none ∧ r.psk = none ∧
        r.pskLookup = none ∧ r.requirePSK = false := by
      obtain rfl := Except.ok.inj plain
      exact ⟨rfl, rfl, rfl, rfl⟩
    obtain rfl : none = staticSecret := by simpa [staticLeg, identity] using leg'
    obtain rfl : none = key := by
      simpa [chosenPSK, responderPSK, keyless, lookup, optional] using chosen
    obtain ⟨unkeyed, unnamed⟩ := (validatePSK_ok valid).resolve_right fun keyed => by
      have absent : config.psk = none := same
      simp [absent] at keyed
    refine ⟨?_, unkeyed, unnamed⟩
    cases pinned : config.pinnedServerKey with
    | none => rfl
    | some pin =>
      obtain ⟨_, _, _, -, -, -, folded⟩ := Authentication.pinnedLeg_pinned pinned leg
      cases folded

end PlainResponder

/-- A pooled connection is as good as a dialed one exactly where the configuration
asks for no authentication. -/
theorem pool_authenticates_like_dial_iff (ideal : IdealEnv env) (correct : CorrectRegistry env)
    (kem : Authentication.KemIdeal env) (config : TransportConfig Byte) :
    (EstablishesAlike env config ↔ Unset config) ∧ (HandsAlike env config ↔ Unset config) := by
  refine ⟨⟨?_, ?_⟩, handsAlike_iff correct⟩
  · intro alike
    obtain ⟨r, plain⟩ : ∃ r, newSession (defaultSuite env.registry) .responder [] [] = .ok r :=
      ⟨_, rfl⟩
    obtain ⟨tunnel, opened⟩ := plain_responder_serves_pool ideal correct plain
    obtain ⟨tunnel', opened'⟩ := alike _ tunnel opened
    exact plain_responder_refuses_dial ideal correct plain kem opened'
  · intro unset attempt tunnel opened
    obtain ⟨reached, session, handed, keyed, made, hands, done, transport⟩ :=
      createConn_ok_iff.mp opened
    rw [← dialHands_unset unset made] at hands
    exact ⟨tunnel, dialWithConfig_ok_iff.mpr
      ⟨reached, session, handed, keyed, made, hands, done, transport⟩⟩

theorem pool_authenticates_like_dial_symbolic :
    EstablishesAlike SymbolicKem.env ⟨none, none, none⟩ ∧
    HandsAlike SymbolicKem.env ⟨none, none, none⟩ := by
  obtain ⟨establishes, hands⟩ := pool_authenticates_like_dial_iff SymbolicKem.env_ideal
    symbolic_correct Authentication.symbolic_kem
    ⟨none, none, none⟩
  exact ⟨establishes.mpr ⟨rfl, rfl, rfl⟩, hands.mpr ⟨rfl, rfl, rfl⟩⟩

end Paths

def keyedConfig : TransportConfig Letter := ⟨none, some Authentication.pairedKey, some [lit 1]⟩

/-- A responder that knows no key serves the pool under this configuration and refuses
the dial. -/
theorem pooled_without_psk :
    ∃ (r : Session Letter) (answer : List Letter → List Letter) (tunnel : Tunnel Letter),
      r.psk = none ∧ answer = answerOf SymbolicKem.env (fun _ => steadyCoins) r ∧
      createConn SymbolicKem.env keyedConfig (steadyAttempt answer) = .ok tunnel ∧
      ∀ tunnel', dialWithConfig SymbolicKem.env keyedConfig (steadyAttempt answer) ≠
        .ok tunnel' := by
  obtain ⟨r, plain⟩ : ∃ r, newSession (defaultSuite SymbolicKem.env.registry) .responder [] [] =
    .ok r := ⟨_, rfl⟩
  obtain ⟨tunnel, opened⟩ := plain_responder_serves_pool SymbolicKem.env_ideal
    symbolic_correct plain
  refine ⟨r, _, tunnel, ?_, rfl, opened, fun tunnel' dialed => ?_⟩
  · obtain rfl := Except.ok.inj plain
    rfl
  · obtain ⟨-, keyless, -⟩ := plain_responder_refuses_dial SymbolicKem.env_ideal
      symbolic_correct plain Authentication.symbolic_kem dialed
    cases keyless

end QuantumGo.Dial
