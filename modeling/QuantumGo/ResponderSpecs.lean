import QuantumGo.FlightSpecs

/-!
What the responder's hello builders did when they finished: which secrets a
ClientHello selected, and what a ServerHello bound.
-/

namespace QuantumGo.ResponderSpecs

open Octets Effect Wire HelloCodec Aead Kem Ticket Tunnel Flights FlightSpecs
open KeySchedule hiding deriveHandshakeKeys

variable {Byte : Type} [Octet Byte] {env : Env Byte} {coins : Coins Byte} {h h' : Handshake Byte}
  {done : Unit}

def presentedTicket (env : Env Byte) (now : Int) (sessionID : List Byte) :
    Option (TicketManager Byte) → Option (SessionTicket Byte)
  | none => none
  | some tm =>
    if sessionID.length > 0 then (decryptTicket env.toCrypto tm now sessionID).toOption
    else none

def resumedBy (h : Handshake Byte) (sessionID : List Byte) (ticket : Option (SessionTicket Byte)) :
    Handshake Byte :=
  { h with
    resumed := h.resumed || ticket.isSome
    ticketSecret := (ticket.map (·.masterSecret)).getD h.ticketSecret
    session := { h.session with
      id := if ticket.isSome then sessionID else h.session.id
      cipherSuite := (ticket.map (·.cipherSuite)).getD h.session.cipherSuite } }

omit [Octet Byte] in
theorem resumedBy_none (sessionID : List Byte) : resumedBy h sessionID none = h := by
  simp [resumedBy]

theorem run_tryResume (sessionID : List Byte) : tryResume env coins sessionID h =
      (.ok (), resumedBy h sessionID
        (presentedTicket env coins.now sessionID h.ticketManager)) := by
  unfold tryResume
  rw [read_bind]
  cases h.ticketManager with
  | none => simp only [presentedTicket, resumedBy_none, run_pure]
  | some tm =>
    by_cases offered : sessionID.length > 0
    · simp only [if_pos offered, resume, run_bind, run_lift, presentedTicket]
      cases decryptTicket env.toCrypto tm coins.now sessionID with
      | error stop => simp only [Except.toOption, resumedBy_none, run_write]
      | ok ticket => simp [Except.toOption, resumedBy]
    · simp only [if_neg offered, presentedTicket, resumedBy_none, run_pure]

def staticLeg (env : Env Byte) (session : Session Byte) (ciphertext : List Byte) :
    Except QError (Option (List Byte)) :=
  match session.staticKeyPair with
  | none => .ok none
  | some keyPair =>
    if ciphertext.length > 0 then do
      let staticSuite ← resolveKEMSuite env keyPair.suite
      let staticCT ← staticSuite.parseCiphertext ciphertext
      let staticSecret ← staticSuite.decapsulate staticCT keyPair .responder
      return some staticSecret
    else .ok none

omit [Octet Byte] in
theorem run_decapsulateStatic (ciphertext : List Byte) :
    decapsulateStatic env ciphertext h = match staticLeg env h.session ciphertext with
      | .error error => (.error (.err error), h)
      | .ok staticSecret =>
        (.ok (), { h with staticSecret := staticSecret.or h.staticSecret }) := by
  unfold decapsulateStatic staticLeg
  rw [read_bind]
  cases h.session.staticKeyPair with
  | none => rfl
  | some keyPair =>
    by_cases offered : ciphertext.length > 0
    · simp only [if_pos offered, run_liftErr_bind]
      cases resolveKEMSuite env keyPair.suite with
      | error error => rfl
      | ok suite =>
        cases parsed : suite.parseCiphertext ciphertext with
        | error error => simp [parsed, bind, Except.bind]
        | ok ct =>
          cases opened : suite.decapsulate ct keyPair .responder <;>
            simp [parsed, opened, bind, Except.bind, pure, Except.pure]
    · simp only [if_neg offered]
      rfl

omit [Octet Byte] in
theorem decapsulateStatic_ok_iff {ciphertext : List Byte} :
    decapsulateStatic env ciphertext h = (.ok done, h') ↔
      ∃ staticSecret, staticLeg env h.session ciphertext = .ok staticSecret ∧
        h' = { h with staticSecret := staticSecret.or h.staticSecret } := by
  rw [run_decapsulateStatic]
  cases staticLeg env h.session ciphertext with
  | error error => simp
  | ok staticSecret => simp [eq_comm]


/-- The key the responder folds: the one it holds for the identity, or a random
one where it must not reveal that it holds none. -/
def chosenPSK (coins : Coins Byte) (session : Session Byte) (identity : List Byte) :
    Except QError (Option (List Byte)) :=
  match responderPSK session identity with
  | some key => .ok (some key)
  | none =>
    if session.requirePSK then
      match coins.dummyPSK with
      | none => .error .entropy
      | some dummy => .ok (some dummy.1)
    else .ok none

theorem run_selectPSK (identity : List Byte) :
    selectPSK coins identity h = match chosenPSK coins h.session identity with
      | .error error => (.error (.err error), h)
      | .ok key =>
        (.ok (), { h with foldPSK := h.foldPSK || key.isSome, pskKey := key.getD h.pskKey }) := by
  unfold selectPSK chosenPSK
  rw [read_bind]
  cases responderPSK h.session identity with
  | some key => simp
  | none =>
    by_cases must : h.session.requirePSK
    · simp only [if_pos must]
      cases coins.dummyPSK <;> simp
    · simp [if_neg must]

theorem selectPSK_ok_iff {identity : List Byte} : selectPSK coins identity h = (.ok done, h') ↔
      ∃ key, chosenPSK coins h.session identity = .ok key ∧
        h' = { h with foldPSK := h.foldPSK || key.isSome, pskKey := key.getD h.pskKey } := by
  rw [run_selectPSK]
  cases chosenPSK coins h.session identity with
  | error error => simp
  | ok key => simp [eq_comm]

structure Selection (Byte : Type) where
  suite : Suite Byte
  ticket : Option (SessionTicket Byte)
  remote : PublicKey Byte
  staticSecret : Option (List Byte)
  key : Option (List Byte)

structure Selects (env : Env Byte) (coins : Coins Byte) (h : Handshake Byte)
    (msg : ClientHello Byte) (chosen : Selection Byte) : Prop where
  ticket : chosen.ticket = presentedTicket env coins.now msg.sessionID h.ticketManager
  remote : chosen.suite.parsePublicKey msg.chkemPublicKey = .ok chosen.remote
  required : h.session.requireStaticAuth = true → msg.chkemStaticCiphertext.length ≠ 0
  staticSecret : staticLeg env h.session msg.chkemStaticCiphertext = .ok chosen.staticSecret
  key : chosenPSK coins h.session msg.pskIdentity = .ok chosen.key
  cipher : isSupported (selectCipherSuite env msg.cipherSuites) = true

def clientHelloAccepted (env : Env Byte) (h : Handshake Byte) (msg : ClientHello Byte)
    (data : List Byte) (chosen : Selection Byte) : Handshake Byte :=
  { h with
    clientRandom := some msg.random
    resumed := h.resumed || chosen.ticket.isSome
    ticketSecret := (chosen.ticket.map (·.masterSecret)).getD h.ticketSecret
    staticSecret := chosen.staticSecret.or h.staticSecret
    foldPSK := h.foldPSK || chosen.key.isSome
    pskKey := chosen.key.getD h.pskKey
    transcript := h.transcript ++ data
    session := { h.session with
      id := if chosen.ticket.isSome then msg.sessionID else h.session.id
      kemSuite := chosen.suite
      remotePublicKey := some chosen.remote
      cipherSuite := selectCipherSuite env msg.cipherSuites
      version := msg.version
      state := .handshaking } }

variable {data : List Byte}

theorem acceptClientHello_ok_iff {msg : ClientHello Byte} {suite : Suite Byte} :
    acceptClientHello env coins data msg suite h = (.ok done, h') ↔
      ∃ chosen, chosen.suite = suite ∧ Selects env coins h msg chosen ∧
        h' = clientHelloAccepted env h msg data chosen := by
  unfold acceptClientHello
  rw [write_bind, run_bind_ok (run_tryResume msg.sessionID)]
  simp only [liftErr_bind_ok_iff, write_bind, read_bind, reject_bind_ok_iff]
  simp only [bind_ok_iff, decapsulateStatic_ok_iff, selectPSK_ok_iff]
  simp only [write_ok_iff, reject_ok_iff]
  constructor
  · rintro ⟨remote, parsed, required, _, h₁, ⟨staticSecret, static, rfl⟩, _, h₂,
      ⟨key, selected, rfl⟩, _, h₃, rfl, _, h₄, ⟨supported, rfl⟩, rfl⟩
    refine ⟨⟨suite, presentedTicket env coins.now msg.sessionID h.ticketManager, remote,
      staticSecret, key⟩, rfl, ⟨rfl, parsed, ?_, static, selected, ?_⟩, rfl⟩
    · exact fun must empty => required ⟨must, empty⟩
    · simpa using supported
  · rintro ⟨chosen, rfl, selects, rfl⟩
    obtain ⟨suite, ticket, remote, staticSecret, key⟩ := chosen
    obtain ⟨rfl, parsed, required, static, selected, supported⟩ := selects
    exact ⟨remote, parsed, fun both => required both.1 both.2, (), _, ⟨staticSecret, static, rfl⟩,
      (), _, ⟨key, selected, rfl⟩, (), _, rfl, (), _, ⟨by simp [supported], rfl⟩, rfl⟩

def steered (h : Handshake Byte) (data : List Byte) (suite : UInt16) : Handshake Byte :=
  { h with firstClientHello := some data, hrrSuite := suite, sendHRR := true }

omit [Octet Byte] in
theorem steerClient_ok_iff {msg : ClientHello Byte} : steerClient data msg h = (.ok done, h') ↔
      h.hrrDone = false ∧ ∃ suite, selectMutualKEMSuite msg.kemSuites = some suite ∧
        h' = steered h data suite := by
  unfold steerClient
  rw [read_bind, reject_bind_ok_iff, Bool.not_eq_true]
  apply and_congr_right
  intro _
  cases selectMutualKEMSuite msg.kemSuites with
  | none => simp
  | some suite => simp only [write_ok_iff, Option.some.injEq, exists_eq_left', steered]

theorem processClientHello_ok_iff : processClientHello env coins data h = (.ok done, h') ↔
      h.state = .initial ∧ ∃ msg, decodeClientHello data = .ok msg ∧
        msg.version.isCompatible current = true ∧
        ((getSuite env.registry msg.kemSuite = none ∧ h.hrrDone = false ∧
            ∃ suite, selectMutualKEMSuite msg.kemSuites = some suite ∧ h' = steered h data suite) ∨
          ∃ chosen, getSuite env.registry msg.kemSuite = some chosen.suite ∧
            Selects env coins h msg chosen ∧ h' = clientHelloAccepted env h msg data chosen) := by
  unfold processClientHello
  simp only [read_bind, reject_bind_ok_iff, lift_bind_ok_iff, ne_eq, not_not, Bool.not_eq_false]
  apply and_congr_right
  intro _
  apply exists_congr
  intro msg
  apply and_congr_right
  intro _
  apply and_congr_right
  intro _
  cases getSuite env.registry msg.kemSuite with
  | none => simp [steerClient_ok_iff]
  | some suite =>
    simp only [acceptClientHello_ok_iff, reduceCtorEq, false_and, false_or, Option.some.injEq]
    constructor
    · rintro ⟨chosen, rfl, rest⟩
      exact ⟨chosen, rfl, rest⟩
    · rintro ⟨chosen, rfl, rest⟩
      exact ⟨chosen, rfl, rest⟩

theorem createHelloRetryRequest_ok_iff : createHelloRetryRequest env h = (.ok data, h') ↔
      h.sendHRR = true ∧ data = encodeHelloRetryRequest ⟨current, h.hrrSuite⟩ ∧ ∃ hash,
        transcriptHash env.toCrypto [h.firstClientHello.getD []] = .ok hash ∧
        h' = { h with transcript := hash ++ data, sendHRR := false, hrrDone := true } := by
  unfold createHelloRetryRequest
  simp only [read_bind, reject_bind_ok_iff, Bool.not_eq_false]
  simp only [bind_ok_iff, replaceFirstHelloWithHash_ok_iff, write_ok_iff, pure_ok_iff]
  constructor
  · rintro ⟨asked, _, h₁, ⟨hash, hashed, rfl⟩, _, h₂, rfl, rfl, rfl⟩
    exact ⟨asked, rfl, hash, hashed, rfl⟩
  · rintro ⟨asked, rfl, hash, hashed, rfl⟩
    exact ⟨asked, (), _, ⟨hash, hashed, rfl⟩, (), _, rfl, rfl, rfl⟩

def serverHelloOf (h : Handshake Byte) (random ciphertext : List Byte) : ServerHello Byte where
  version := current
  random := random
  sessionID := h.session.id
  kemSuite := h.session.kemSuite.id
  chkemCiphertext := ciphertext
  cipherSuite := h.session.cipherSuite

def serverHelloSent (h : Handshake Byte) (random data secret : List Byte)
    (ciphers : Cipher Byte × Cipher Byte) : Handshake Byte :=
  { h with
    serverRandom := some random
    sharedSecret := secret
    staticSecret := none
    transcript := h.transcript ++ data
    sendCipher := some ciphers.1
    recvCipher := some ciphers.2
    state := .serverHelloSent }

theorem createServerHello_ok_iff : createServerHello env coins h = (.ok data, h') ↔
      ∃ remote random ct freshSecret base secret ciphers,
        h.session.remotePublicKey = some remote ∧ coins.random = some random ∧
        h.session.kemSuite.encapsulate remote .responder coins.enc = .ok (ct, freshSecret) ∧
        baseSecret env h.resumed h.ticketSecret freshSecret = .ok base ∧
        (serverHelloOf h random.1 ct.raw).validate = .ok () ∧
        data = frame messageTypeServerHello (serverHelloPayload (serverHelloOf h random.1 ct.raw)) ∧
        foldedSecret env base h.staticSecret h.foldPSK h.pskKey = .ok secret ∧
        handshakeCiphers env h.session.role h.session.cipherSuite secret = .ok ciphers ∧
        h' = serverHelloSent h random.1 data secret ciphers := by
  unfold createServerHello
  rw [read_bind]
  cases known : h.session.remotePublicKey with
  | none => simp
  | some remote =>
    simp only [mustRandom_bind_ok_iff, write_bind, liftErr_bind_ok_iff, Option.some.injEq]
    simp only [bind_ok_iff, installSharedSecret_ok_iff, lift_ok_iff, deriveHandshakeSecrets_ok_iff,
      write_ok_iff, pure_ok_iff, Prod.exists]
    simp only [existsAndEq, true_and, and_assoc, exists_const, exists_and_left]
    simp only [encodeServerHello_ok_iff, and_assoc]
    rfl

end QuantumGo.ResponderSpecs
