import QuantumGo.ResponderSpecs

/-!
The chains of builder calls behind a side that has exchanged its hellos. A side
takes one of two ways: straight, or through one HelloRetryRequest. Nothing is said
about who delivered the bytes.
-/

namespace QuantumGo.HelloRuns

open Octets Effect Wire HelloCodec HelloRoundTrip Kem Ticket Tunnel Flights
open FlightSpecs ResponderSpecs
open KeySchedule hiding deriveHandshakeKeys

variable {Byte : Type} [Octet Byte]

def initiatorStart (session : Session Byte) (ticket : Option (List Byte))
    (ticketSecret : List Byte) : Handshake Byte :=
  { newHandshake session with ticket := ticket, ticketSecret := ticketSecret }

def responderStart (session : Session Byte) (ticketManager : Option (TicketManager Byte)) :
    Handshake Byte :=
  { newHandshake session with ticketManager := ticketManager }

inductive Preamble (env : Env Byte) : List Byte → List Byte → Prop where
  | direct {hello : List Byte} {message : ClientHello Byte} (exact : Exact hello)
      (read : decodeClientHello hello = .ok message) : Preamble env hello hello
  | retried {first hash retry hello : List Byte} {message : ClientHello Byte}
      (hashed : transcriptHash env.toCrypto [first] = .ok hash) (exactRetry : Exact retry)
      (exact : Exact hello) (read : decodeClientHello hello = .ok message) :
      Preamble env (hash ++ (retry ++ hello)) hello

inductive InitiatorReady (env : Env Byte) (start : Handshake Byte) : Handshake Byte → Prop where
  | straight : InitiatorReady env start start
  | retried {coins coins' : Coins Byte} {first retry : List Byte} {sent before : Handshake Byte}
      (created : createClientHello env coins start = (.ok first, sent)) (exact : Exact retry)
      (processed : processHelloRetryRequest env coins' retry sent = (.ok (), before)) :
      InitiatorReady env start before

inductive ResponderReady (env : Env Byte) (start : Handshake Byte) :
    Handshake Byte → Prop where
  | straight : ResponderReady env start start
  | retried {coins : Coins Byte} {first retry : List Byte} {steered before : Handshake Byte}
      (processed : processClientHello env coins first start = (.ok (), steered))
      (asked : createHelloRetryRequest env steered = (.ok retry, before)) :
      ResponderReady env start before


structure InitiatorHellos (env : Env Byte) (start final : Handshake Byte) where
  before : Handshake Byte
  sent : Handshake Byte
  coins : Coins Byte
  clientHello : List Byte
  serverHello : List Byte
  ready : InitiatorReady env start before
  created : createClientHello env coins before = (.ok clientHello, sent)
  processed : processServerHello env serverHello sent = (.ok (), final)

structure ResponderHellos (env : Env Byte) (start final : Handshake Byte) where
  before : Handshake Byte
  accepted : Handshake Byte
  coins : Coins Byte
  coins' : Coins Byte
  clientHello : List Byte
  serverHello : List Byte
  ready : ResponderReady env start before
  exact : Exact clientHello
  processed : processClientHello env coins clientHello before = (.ok (), accepted)
  answers : accepted.sendHRR = false
  created : createServerHello env coins' accepted = (.ok serverHello, final)

variable {env : Env Byte} {coins : Coins Byte} {staticSecret : Option (List Byte)}
  {data : List Byte}

section Reading
variable {h h' : Handshake Byte}

omit [Octet Byte] in
theorem pinnedLeg_cases {s : Session Byte} {staticCT : List Byte}
    (leg : pinnedLeg env coins s = .ok (staticCT, staticSecret)) :
    staticCT = [] ∧ staticSecret = none ∨ ∃ id suite secret, getSuite env.registry id = some suite ∧
      staticCT.length = suite.ciphertextSize ∧ staticSecret = some secret ∧ secret.length = 32 := by
  unfold pinnedLeg at leg
  split at leg
  · obtain ⟨rfl, rfl⟩ := Prod.mk.inj (Except.ok.inj leg)
    exact .inl ⟨rfl, rfl⟩
  · simp only [except_bind_ok_iff, except_pure_ok_iff, resolveKEMSuite_ok_iff] at leg
    obtain ⟨suite, found, ⟨ct, secret⟩, sent, same⟩ := leg
    obtain ⟨rfl, rfl⟩ := Prod.mk.inj same
    obtain ⟨size, width⟩ := suite.ciphertext_size _ _ _ _ _ sent
    exact .inr ⟨_, suite, secret, found, size, rfl, width⟩

omit [Octet Byte] in
theorem pinnedLeg_length {staticCT : List Byte}
    (leg : pinnedLeg env coins h.session = .ok (staticCT, staticSecret)) :
    staticCT.length < 2 ^ 16 := by
  rcases pinnedLeg_cases leg with ⟨rfl, -⟩ | ⟨_, suite, _, -, size, -⟩
  · exact Nat.two_pow_pos 16
  · exact size ▸ suite.ciphertextSize_bound.2

omit [Octet Byte] in
theorem clientHelloOf_encodable {random staticCT : List Byte} {keyPair : KeyPair Byte}
    (leg : pinnedLeg env coins h.session = .ok (staticCT, staticSecret)) :
    Encodable (clientHelloOf env h random keyPair staticCT) where
  kemSuites := show supportedSuites.length < 2 ^ 8 by decide
  publicKey := keyPair.publicRaw_fits
  cipherSuites := by
    change (supportedCipherSuites env).length < 2 ^ 16
    unfold supportedCipherSuites
    split <;> simp
  staticCiphertext := pinnedLeg_length leg

/-- A sent ClientHello is an exact frame that reads as the message meant. -/
theorem createClientHello_reads (created : createClientHello env coins h = (.ok data, h')) :
    ∃ random keyPair staticCT staticSecret, h.session.localKeyPair = some keyPair ∧
      pinnedLeg env coins h.session = .ok (staticCT, staticSecret) ∧
      decodeClientHello data = .ok (clientHelloOf env h random keyPair staticCT) ∧
      Exact data ∧ h' = clientHelloSent h random data staticSecret := by
  obtain ⟨-, random, keyPair, staticCT, staticSecret, -, owned, leg, valid, rfl, rfl⟩ :=
    createClientHello_ok_iff.mp created
  have sizes : Encodable (clientHelloOf env h random keyPair staticCT) :=
    clientHelloOf_encodable leg
  exact ⟨random, keyPair, staticCT, staticSecret, owned, leg, decodeClientHello_frame valid sizes,
    frame_exact ((clientHelloPayload_small valid sizes).trans (by decide)), rfl⟩

theorem createClientHello_length (created : createClientHello env coins h = (.ok data, h')) :
    data.length < 2 ^ 21 := by
  obtain ⟨-, random, keyPair, staticCT, staticSecret, -, -, leg, valid, rfl, -⟩ :=
    createClientHello_ok_iff.mp created
  have small := clientHelloPayload_small valid (clientHelloOf_encodable leg)
  rw [frame_length, headerSize]
  omega

theorem createServerHello_length (created : createServerHello env coins h = (.ok data, h')) :
    data.length < 2 ^ 21 := by
  obtain ⟨remote, random, ct, freshSecret, base, secret, ciphers, -, -, sent, -, valid, rfl, -⟩ :=
    createServerHello_ok_iff.mp created
  have size := (h.session.kemSuite.ciphertext_size _ _ _ _ _ sent).1
  have fits := h.session.kemSuite.ciphertextSize_bound.2
  have small := serverHelloPayload_small valid
    (show ct.raw.length < 2 ^ 16 by rw [size]; exact fits)
  rw [frame_length, headerSize]
  omega

end Reading

structure Config (Byte : Type) where
  role : Role
  pinnedServerKey : Option (PublicKey Byte)
  staticKeyPair : Option (KeyPair Byte)
  requireStaticAuth : Bool
  psk : Option (List Byte)
  pskIdentity : List Byte
  pskLookup : Option (List Byte → List Byte)
  requirePSK : Bool

def configOf (s : Session Byte) : Config Byte :=
  ⟨s.role, s.pinnedServerKey, s.staticKeyPair, s.requireStaticAuth, s.psk, s.pskIdentity,
    s.pskLookup, s.requirePSK⟩

def SameSetup (start final : Handshake Byte) : Prop :=
  configOf final.session = configOf start.session ∧ final.datagram = start.datagram

variable {start before final : Handshake Byte} {hello : List Byte}

section Configuration

theorem InitiatorReady.sameSetup (ready : InitiatorReady env start before) :
    SameSetup start before := by
  cases ready with
  | straight => exact ⟨rfl, rfl⟩
  | retried created _ processed =>
    obtain ⟨-, _, _, _, _, -, -, -, -, -, rfl⟩ := createClientHello_ok_iff.mp created
    obtain ⟨-, -, _, _, _, _, -, -, -, -, -, rfl⟩ := processHelloRetryRequest_ok_iff.mp processed
    exact ⟨rfl, rfl⟩

theorem InitiatorHellos.sameSetup (run : InitiatorHellos env start final) :
    SameSetup start final := by
  obtain ⟨before, sent, coins, clientHello, serverHello, ready, created, processed⟩ := run
  obtain ⟨-, _, _, _, _, -, -, -, -, -, rfl⟩ := createClientHello_ok_iff.mp created
  obtain ⟨-, _, _, _, _, _, _, _, -, -, -, -, -, -, -, -, -, rfl⟩ :=
    processServerHello_ok_iff.mp processed
  exact ready.sameSetup

theorem processClientHello_sameSetup
    (processed : processClientHello env coins hello start = (.ok (), final)) :
    SameSetup start final := by
  obtain ⟨-, msg, -, -, ⟨-, -, suite, -, rfl⟩ | ⟨chosen, -, -, rfl⟩⟩ :=
    processClientHello_ok_iff.mp processed <;> exact ⟨rfl, rfl⟩

/-- A responder that answers does so in a registered suite. -/
theorem processClientHello_registered
    (processed : processClientHello env coins hello start = (.ok (), final))
    (answers : final.sendHRR = false) :
    ∃ id, getSuite env.registry id = some final.session.kemSuite := by
  obtain ⟨-, msg, -, -, ⟨-, -, suite, -, rfl⟩ | ⟨chosen, found, -, rfl⟩⟩ :=
    processClientHello_ok_iff.mp processed
  · exact absurd answers (by simp [steered])
  · exact ⟨_, found⟩

theorem ResponderReady.sameSetup (ready : ResponderReady env start before) :
    SameSetup start before := by
  cases ready with
  | straight => exact ⟨rfl, rfl⟩
  | retried processed asked =>
    obtain ⟨-, -, _, -, rfl⟩ := createHelloRetryRequest_ok_iff.mp asked
    have kept := processClientHello_sameSetup processed
    exact kept

theorem ResponderHellos.sameSetup (run : ResponderHellos env start final) :
    SameSetup start final := by
  obtain ⟨before, accepted, coins, coins', clientHello, serverHello, ready, exact, processed,
    answers, created⟩ := run
  obtain ⟨_, _, _, _, _, _, _, -, -, -, -, -, -, -, -, rfl⟩ := createServerHello_ok_iff.mp created
  have kept := processClientHello_sameSetup processed
  exact ⟨kept.1.trans ready.sameSetup.1, kept.2.trans ready.sameSetup.2⟩

end Configuration

/-! What stands in the transcripts. -/
section Transcripts

theorem InitiatorReady.preamble {sent : Handshake Byte} (ready : InitiatorReady env start before)
    (empty : start.transcript = [])
    (created : createClientHello env coins before = (.ok hello, sent)) :
    Preamble env sent.transcript hello := by
  obtain ⟨random, keyPair, staticCT, staticSecret, -, -, read, exact, rfl⟩ :=
    createClientHello_reads created
  cases ready with
  | straight =>
    simp only [clientHelloSent, empty, List.nil_append]
    exact .direct exact read
  | retried first exactRetry processed =>
    obtain ⟨-, -, msg, suite, fresh, hash, -, -, -, -, hashed, rfl⟩ :=
      processHelloRetryRequest_ok_iff.mp processed
    simp only [clientHelloSent, FlightSpecs.retried, List.append_assoc]
    exact .retried hashed exactRetry exact read

theorem ResponderReady.preamble {accepted : Handshake Byte}
    (ready : ResponderReady env start before) (empty : start.transcript = []) (exact : Exact hello)
    (processed : processClientHello env coins hello before = (.ok (), accepted))
    (answers : accepted.sendHRR = false) : Preamble env accepted.transcript hello := by
  obtain ⟨-, msg, read, -, steer | ⟨chosen, -, -, rfl⟩⟩ := processClientHello_ok_iff.mp processed
  · obtain ⟨-, -, suite, -, rfl⟩ := steer
    exact absurd answers (by simp [steered])
  · cases ready with
    | straight =>
      simp only [clientHelloAccepted, empty, List.nil_append]
      exact .direct exact read
    | retried first asked =>
      obtain ⟨-, rfl, hash, hashed, rfl⟩ := createHelloRetryRequest_ok_iff.mp asked
      simp only [clientHelloAccepted, List.append_assoc]
      exact .retried hashed (frame_exact (by simp [encodeUint16])) exact read

structure HellosDone (env : Env Byte) (h : Handshake Byte) (clientHello serverHello : List Byte) :
    Prop where
  transcript : ∃ pre, Preamble env pre clientHello ∧ h.transcript = pre ++ serverHello
  read : ∃ msg, decodeServerHello serverHello = .ok msg ∧ msg.sessionID = h.session.id ∧
    msg.kemSuite = h.session.kemSuite.id ∧ msg.cipherSuite = h.session.cipherSuite

theorem InitiatorHellos.done (run : InitiatorHellos env start final)
    (empty : start.transcript = []) : HellosDone env final run.clientHello run.serverHello := by
  obtain ⟨before, sent, coins, clientHello, serverHello, ready, created, processed⟩ := run
  obtain ⟨-, msg, freshSecret, ct, keyPair, base, secret, ciphers, read, -, suite, -, -, -, -, -, -,
    rfl⟩ := processServerHello_ok_iff.mp processed
  exact ⟨⟨_, ready.preamble empty created, rfl⟩, msg, read, rfl, suite, rfl⟩

theorem ResponderHellos.done (run : ResponderHellos env start final)
    (empty : start.transcript = []) : HellosDone env final run.clientHello run.serverHello := by
  obtain ⟨before, accepted, coins, coins', clientHello, serverHello, ready, exact, processed,
    answers, created⟩ := run
  obtain ⟨remote, random, ct, freshSecret, base, secret, ciphers, -, -, sent, -, valid, rfl, -, -,
    rfl⟩ := createServerHello_ok_iff.mp created
  have fits : ct.raw.length < 2 ^ 16 := by
    rw [(accepted.session.kemSuite.ciphertext_size _ _ _ _ _ sent).1]
    exact accepted.session.kemSuite.ciphertextSize_bound.2
  exact ⟨⟨_, ready.preamble empty exact processed answers, rfl⟩, _,
    decodeServerHello_frame valid fits, rfl, rfl, rfl⟩

end Transcripts

end QuantumGo.HelloRuns
