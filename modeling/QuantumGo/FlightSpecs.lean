import QuantumGo.Flights
import QuantumGo.HelloRoundTrip
import Mathlib.Tactic.Simproc.ExistsAndEq

/-!
What a builder that finished has done. Each lemma is an equivalence: it lists
what the builder needed and the handshake it left, so it serves both to read a
run backwards and to carry one out.
-/

namespace QuantumGo.FlightSpecs

open Octets Effect Wire HelloCodec Aead Kem Tunnel Flights
open KeySchedule hiding deriveHandshakeKeys

variable {Byte : Type} {env : Env Byte} {coins : Coins Byte} {h h' : Handshake Byte} {done : Unit}

/-! Steps that look at no byte. -/

theorem run_liftErr_bind {σ α γ : Type} (outcome : Except QError α) (next : α → Prog σ Fault γ)
    (s : σ) : (liftErr outcome >>= next) s = match outcome with
      | .error error => (.error (.err error), s)
      | .ok value => next value s := by
  cases outcome <;> rfl

theorem liftErr_bind_ok_iff {σ α γ : Type} {outcome : Except QError α} {next : α → Prog σ Fault γ}
    {s t : σ} {result : γ} :
    (liftErr outcome >>= next) s = (.ok result, t) ↔
      ∃ value, outcome = .ok value ∧ next value s = (.ok result, t) := by
  unfold liftErr
  cases outcome <;> simp [lift_bind_ok_iff, Except.mapError]

theorem mustRandom_bind_ok_iff {α : Type} {next : List Byte → HandshakeProg Byte α} {result : α} :
    (mustRandom coins >>= next) h = (.ok result, h') ↔
      ∃ random, coins.random = some random ∧ next random.1 h = (.ok result, h') := by
  unfold mustRandom
  cases drawn : coins.random with
  | none | some random => simp [run_bind]

theorem stableClientRandom_ok_iff {random : List Byte} :
    stableClientRandom coins h = (.ok random, h') ↔ (h.clientRandom = some random ∨
        h.clientRandom = none ∧ ∃ drawn, coins.random = some drawn ∧ random = drawn.1) ∧
      h' = { h with clientRandom := some random } := by
  unfold stableClientRandom
  rw [read_bind]
  cases kept : h.clientRandom with
  | some earlier =>
    simp only [pure_ok_iff, Option.some.injEq, reduceCtorEq, false_and, or_false]
    constructor
    · rintro ⟨rfl, rfl⟩
      exact ⟨rfl, by rw [← kept]⟩
    · rintro ⟨rfl, rfl⟩
      exact ⟨rfl, by rw [← kept]⟩
  | none =>
    simp only [mustRandom_bind_ok_iff, write_bind, pure_ok_iff, reduceCtorEq, false_or, true_and]
    constructor
    · rintro ⟨drawn, source, rfl, rfl⟩
      exact ⟨⟨drawn, source, rfl⟩, rfl⟩
    · rintro ⟨⟨drawn, source, rfl⟩, rfl⟩
      exact ⟨drawn, source, rfl, rfl⟩

def pinnedLeg (env : Env Byte) (coins : Coins Byte) (session : Session Byte) :
    Except QError (List Byte × Option (List Byte)) :=
  match session.pinnedServerKey with
  | none => .ok ([], none)
  | some pin => do
    let staticSuite ← resolveKEMSuite env pin.suite
    let (staticCT, staticSecret) ← staticSuite.encapsulate pin .initiator coins.staticEnc
    return (staticCT.raw, some staticSecret)

theorem encapsulateToPin_ok_iff {staticCT : List Byte} :
    encapsulateToPin env coins h = (.ok staticCT, h') ↔
      ∃ staticSecret, pinnedLeg env coins h.session = .ok (staticCT, staticSecret) ∧
        h' = { h with staticSecret := staticSecret.or h.staticSecret } := by
  unfold encapsulateToPin pinnedLeg
  rw [read_bind]
  cases pinned : h.session.pinnedServerKey with
  | none =>
    simp only [pure_ok_iff, Except.ok.injEq, Prod.mk.injEq]
    constructor
    · rintro ⟨rfl, rfl⟩
      exact ⟨none, ⟨rfl, rfl⟩, rfl⟩
    · rintro ⟨-, ⟨rfl, rfl⟩, rfl⟩
      exact ⟨rfl, rfl⟩
  | some pin =>
    simp only [liftErr_bind_ok_iff, write_bind, pure_ok_iff, except_bind_ok_iff,
      except_pure_ok_iff, Prod.mk.injEq]
    constructor
    · rintro ⟨suite, found, ⟨ct, secret⟩, sent, rfl, rfl⟩
      exact ⟨some secret, ⟨suite, found, (ct, secret), sent, rfl, rfl⟩, rfl⟩
    · rintro ⟨-, ⟨suite, found, ⟨ct, secret⟩, sent, rfl, rfl⟩, rfl⟩
      exact ⟨suite, found, (ct, secret), sent, rfl, rfl⟩

def advertisedIdentity (session : Session Byte) : List Byte :=
  if session.psk.isSome then session.pskIdentity else []

theorem advertisePSK_ok_iff {identity : List Byte} : advertisePSK h = (.ok identity, h') ↔
      identity = advertisedIdentity h.session ∧
      h' = { h with
        foldPSK := h.foldPSK || h.session.psk.isSome, pskKey := h.session.psk.getD h.pskKey } := by
  unfold advertisePSK advertisedIdentity
  rw [read_bind]
  cases configured : h.session.psk with
  | none =>
    simp only [pure_ok_iff, Option.isSome_none, Bool.false_eq_true, if_false, Bool.or_false,
      Option.getD_none]
  | some psk =>
    simp only [write_bind, pure_ok_iff, Option.isSome_some, if_true, Bool.or_true, Option.getD_some]

variable [Octet Byte]

def baseSecret (env : Env Byte) (resumed : Bool) (ticketSecret freshSecret : List Byte) :
    Except Fault (List Byte) :=
  if resumed then deriveResumptionSecret env.toCrypto ticketSecret freshSecret
  else .ok freshSecret

def staticFold (env : Env Byte) (base : List Byte) :
    Option (List Byte) → Except Fault (List Byte)
  | none => .ok base
  | some staticSecret => deriveAuthenticatedSecret env.toCrypto base staticSecret

def pskFold (env : Env Byte) (base : List Byte) (foldPSK : Bool) (pskKey : List Byte) :
    Except Fault (List Byte) :=
  if foldPSK then derivePSKSecret env.toCrypto base pskKey else .ok base

def foldedSecret (env : Env Byte) (base : List Byte) (staticSecret : Option (List Byte))
    (foldPSK : Bool) (pskKey : List Byte) : Except Fault (List Byte) := do
  let mixed ← staticFold env base staticSecret
  pskFold env mixed foldPSK pskKey

def handshakeCiphers (env : Env Byte) (role : Role) (cipherSuite : UInt16)
    (sharedSecret : List Byte) : Except Fault (Cipher Byte × Cipher Byte) := do
  let keys ← KeySchedule.deriveHandshakeKeys env.toCrypto sharedSecret
  let send ← newAEAD env.toCrypto cipherSuite (byRole role keys).1
  let recv ← newAEAD env.toCrypto cipherSuite (byRole role keys).2
  return (send, recv)

theorem installSharedSecret_ok_iff {freshSecret : List Byte} :
    installSharedSecret env freshSecret h = (.ok done, h') ↔
      ∃ base, baseSecret env h.resumed h.ticketSecret freshSecret = .ok base ∧
        h' = { h with sharedSecret := base } := by
  unfold installSharedSecret baseSecret
  rw [read_bind]
  by_cases resumed : h.resumed
  · rw [if_pos resumed, if_pos resumed]
    simp only [write_bind, lift_bind_ok_iff, pure_ok_iff]
    constructor
    · rintro ⟨base, derived, -, rfl⟩
      exact ⟨base, derived, by rw [derived]; rfl⟩
    · rintro ⟨base, derived, rfl⟩
      exact ⟨base, derived, trivial, by rw [derived]; rfl⟩
  · rw [if_neg resumed, if_neg resumed, write_ok_iff]
    simp only [Except.ok.injEq, exists_eq_left']

theorem foldStaticSecret_ok_iff : foldStaticSecret env h = (.ok done, h') ↔
      ∃ mixed, staticFold env h.sharedSecret h.staticSecret = .ok mixed ∧
        h' = { h with sharedSecret := mixed, staticSecret := none } := by
  unfold foldStaticSecret
  rw [read_bind]
  cases secret : h.staticSecret with
  | none =>
    simp only [pure_ok_iff, staticFold, Except.ok.injEq, exists_eq_left', true_and, ← secret]
  | some staticSecret => simp only [lift_bind_ok_iff, write_ok_iff, staticFold]

theorem foldPSKSecret_ok_iff : foldPSKSecret env h = (.ok done, h') ↔
      ∃ mixed, pskFold env h.sharedSecret h.foldPSK h.pskKey = .ok mixed ∧
        h' = { h with sharedSecret := mixed } := by
  unfold foldPSKSecret pskFold
  rw [read_bind]
  by_cases fold : h.foldPSK
  · rw [if_pos fold, if_pos fold]
    simp only [lift_bind_ok_iff, write_ok_iff]
  · rw [if_neg fold, if_neg fold]
    simp only [pure_ok_iff, Except.ok.injEq, exists_eq_left', true_and]

theorem deriveHandshakeKeys_ok_iff : deriveHandshakeKeys env h = (.ok done, h') ↔
      ∃ ciphers, handshakeCiphers env h.session.role h.session.cipherSuite h.sharedSecret =
          .ok ciphers ∧
        h' = { h with sendCipher := some ciphers.1, recvCipher := some ciphers.2 } := by
  unfold deriveHandshakeKeys handshakeCiphers
  rw [read_bind]
  simp only [lift_bind_ok_iff, write_bind, except_bind_ok_iff, pure_ok_iff, except_pure_ok_iff]
  constructor
  · rintro ⟨keys, derived, send, made, recv, made', -, rfl⟩
    exact ⟨(send, recv), ⟨keys, derived, send, made, recv, made', rfl⟩, by
      simp only [made, made', Except.toOption]⟩
  · rintro ⟨-, ⟨keys, derived, send, made, recv, made', rfl⟩, rfl⟩
    exact ⟨keys, derived, send, made, recv, made', trivial, by
      simp only [made, made', Except.toOption]⟩

theorem deriveHandshakeSecrets_ok_iff : deriveHandshakeSecrets env h = (.ok done, h') ↔
      ∃ secret ciphers,
        foldedSecret env h.sharedSecret h.staticSecret h.foldPSK h.pskKey = .ok secret ∧
        handshakeCiphers env h.session.role h.session.cipherSuite secret = .ok ciphers ∧
        h' = { h with
          sharedSecret := secret, staticSecret := none
          sendCipher := some ciphers.1, recvCipher := some ciphers.2 } := by
  unfold deriveHandshakeSecrets
  simp only [bind_ok_iff, foldStaticSecret_ok_iff, foldPSKSecret_ok_iff,
    deriveHandshakeKeys_ok_iff, foldedSecret, except_bind_ok_iff]
  constructor
  · rintro ⟨-, -, ⟨mixed, static, rfl⟩, -, -, ⟨secret, fold, rfl⟩, ciphers, made, rfl⟩
    exact ⟨secret, ciphers, ⟨mixed, static, fold⟩, made, rfl⟩
  · rintro ⟨secret, ciphers, ⟨mixed, static, fold⟩, made, rfl⟩
    exact ⟨(), _, ⟨mixed, static, rfl⟩, (), _, ⟨secret, fold, rfl⟩, ciphers, made, rfl⟩

def clientHelloOf (env : Env Byte) (h : Handshake Byte) (random : List Byte)
    (keyPair : KeyPair Byte) (staticCT : List Byte) : ClientHello Byte where
  version := current
  random := random
  sessionID := h.ticket.getD []
  kemSuite := h.session.kemSuite.id
  kemSuites := supportedSuites
  chkemPublicKey := keyPair.publicRaw
  cipherSuites := supportedCipherSuites env
  chkemStaticCiphertext := staticCT
  pskIdentity := advertisedIdentity h.session

variable {data : List Byte}

theorem encodeClientHello_ok_iff {m : ClientHello Byte} : encodeClientHello m = .ok data ↔
      m.validate = .ok () ∧ data = frame messageTypeClientHello (clientHelloPayload m) := by
  unfold encodeClientHello
  simp only [except_bind_ok_iff, except_pure_ok_iff]
  exact ⟨fun ⟨_, valid, same⟩ => ⟨valid, same.symm⟩, fun ⟨valid, same⟩ => ⟨(), valid, same.symm⟩⟩

theorem encodeServerHello_ok_iff {m : ServerHello Byte} : encodeServerHello m = .ok data ↔
      m.validate = .ok () ∧ data = frame messageTypeServerHello (serverHelloPayload m) := by
  unfold encodeServerHello
  simp only [except_bind_ok_iff, except_pure_ok_iff]
  exact ⟨fun ⟨_, valid, same⟩ => ⟨valid, same.symm⟩, fun ⟨valid, same⟩ => ⟨(), valid, same.symm⟩⟩

def clientHelloSent (h : Handshake Byte) (random data : List Byte)
    (staticSecret : Option (List Byte)) : Handshake Byte :=
  { h with
    clientRandom := some random
    staticSecret := staticSecret.or h.staticSecret
    foldPSK := h.foldPSK || h.session.psk.isSome
    pskKey := h.session.psk.getD h.pskKey
    transcript := h.transcript ++ data
    firstClientHello := some (h.firstClientHello.getD data)
    state := .clientHelloSent
    session := { h.session with state := .handshaking } }

theorem createClientHello_ok_iff : createClientHello env coins h = (.ok data, h') ↔
      h.state = .initial ∧ ∃ random keyPair staticCT staticSecret, (h.clientRandom = some random ∨
          h.clientRandom = none ∧ ∃ drawn, coins.random = some drawn ∧ random = drawn.1) ∧
        h.session.localKeyPair = some keyPair ∧
        pinnedLeg env coins h.session = .ok (staticCT, staticSecret) ∧
        (clientHelloOf env h random keyPair staticCT).validate = .ok () ∧
        data = frame messageTypeClientHello
          (clientHelloPayload (clientHelloOf env h random keyPair staticCT)) ∧
        h' = clientHelloSent h random data staticSecret := by
  unfold createClientHello
  rw [read_bind, reject_bind_ok_iff, ne_eq, not_not]
  apply and_congr_right
  intro _
  cases owned : h.session.localKeyPair with
  | none => simp [bind_ok_iff]
  | some keyPair =>
    simp only [bind_ok_iff, stableClientRandom_ok_iff, encapsulateToPin_ok_iff,
      advertisePSK_ok_iff, lift_ok_iff, write_ok_iff, pure_ok_iff, Option.some.injEq]
    simp only [existsAndEq, true_and, and_assoc, exists_const, exists_and_left]
    simp only [encodeClientHello_ok_iff, and_assoc]
    rfl

theorem replaceFirstHelloWithHash_ok_iff {hrrFrame : List Byte} :
    replaceFirstHelloWithHash env hrrFrame h = (.ok done, h') ↔
      ∃ hash, transcriptHash env.toCrypto [h.firstClientHello.getD []] = .ok hash ∧
        h' = { h with transcript := hash ++ hrrFrame } := by
  unfold replaceFirstHelloWithHash
  rw [read_bind, lift_bind_ok_iff]
  simp only [write_ok_iff]

omit [Octet Byte] in
theorem resolveKEMSuite_ok_iff {wireID : UInt16} {suite : Suite Byte} :
    resolveKEMSuite env wireID = .ok suite ↔ getSuite env.registry wireID = some suite := by
  unfold resolveKEMSuite
  cases getSuite env.registry wireID <;> simp

def retried (h : Handshake Byte) (suite : Suite Byte) (keyPair : KeyPair Byte)
    (hash data : List Byte) : Handshake Byte :=
  { h with
    session := { h.session with kemSuite := suite, localKeyPair := some keyPair }
    transcript := hash ++ data
    hrrDone := true
    state := .initial }

theorem processHelloRetryRequest_ok_iff :
    processHelloRetryRequest env coins data h = (.ok done, h') ↔
      h.state = .clientHelloSent ∧ h.hrrDone = false ∧ ∃ msg suite keyPair hash,
        decodeHelloRetryRequest data = .ok msg ∧ msg.version.isCompatible current = true ∧
        getSuite env.registry msg.kemSuite = some suite ∧
        suite.generateKeyPair coins.keyGen = .ok keyPair ∧
        transcriptHash env.toCrypto [h.firstClientHello.getD []] = .ok hash ∧
        h' = retried h suite keyPair hash data := by
  unfold processHelloRetryRequest
  simp only [read_bind, reject_bind_ok_iff, lift_bind_ok_iff, liftErr_bind_ok_iff, write_bind,
    ne_eq, not_not, Bool.not_eq_true, Bool.not_eq_false, resolveKEMSuite_ok_iff]
  simp only [bind_ok_iff, replaceFirstHelloWithHash_ok_iff, write_ok_iff]
  constructor
  · rintro ⟨sent, once, msg, read, version, suite, found, -, keyPair, made, -, h₁,
      ⟨hash, hashed, rfl⟩, rfl⟩
    exact ⟨sent, once, msg, suite, keyPair, hash, read, version, found, made, hashed, rfl⟩
  · rintro ⟨sent, once, msg, suite, keyPair, hash, read, version, found, made, hashed, rfl⟩
    have offered : msg.kemSuite ∈ supportedSuites :=
      (getSuite_isSome_iff env.registry _).mp (by rw [found]; rfl)
    exact ⟨sent, once, msg, read, version, suite, found, offered, keyPair, made, (), _,
      ⟨hash, hashed, rfl⟩, rfl⟩

theorem liftErr_ok_iff {σ α : Type} {outcome : Except QError α} {s t : σ} {value : α} :
    liftErr outcome s = (.ok value, t) ↔ outcome = .ok value ∧ t = s := by
  unfold liftErr
  rw [lift_ok_iff]
  cases outcome <;> simp [Except.mapError]

omit [Octet Byte] in
theorem decapsulateFresh_ok_iff {ciphertext freshSecret : List Byte} :
    decapsulateFresh ciphertext h = (.ok freshSecret, h') ↔
      ∃ ct keyPair, h.session.kemSuite.parseCiphertext ciphertext = .ok ct ∧
        h.session.localKeyPair = some keyPair ∧
        h.session.kemSuite.decapsulate ct keyPair .initiator = .ok freshSecret ∧ h' = h := by
  unfold decapsulateFresh
  simp only [read_bind, liftErr_bind_ok_iff]
  cases owned : h.session.localKeyPair with
  | none => simp
  | some keyPair => simp only [liftErr_ok_iff, Option.some.injEq, exists_eq_left', exists_and_left]

def sealing (h : Handshake Byte) (cipher moved : Cipher Byte) (plaintext : List Byte) :
    Handshake Byte :=
  { h with sendCipher := some moved, sealed := h.sealed ++ [(cipher.key, plaintext)] }

theorem sealFinished_ok_iff {plaintext ciphertext : List Byte} :
    sealFinished env plaintext h = (.ok ciphertext, h') ↔
      ∃ cipher moved, h.sendCipher = some cipher ∧
        sealNext env.toCrypto plaintext [] cipher = (.ok ciphertext, moved) ∧
        h' = sealing h cipher moved plaintext := by
  unfold sealFinished
  rw [read_bind]
  cases present : h.sendCipher with
  | none => simp
  | some cipher =>
    rcases sealed : sealNext env.toCrypto plaintext [] cipher with ⟨outcome, moved⟩
    simp only [write_bind, lift_ok_iff, Option.some.injEq, exists_and_left, exists_eq_left',
      sealed, Prod.mk.injEq]
    constructor
    · rintro ⟨rfl, rfl⟩
      exact ⟨moved, ⟨rfl, rfl⟩, rfl⟩
    · rintro ⟨-, ⟨rfl, rfl⟩, rfl⟩
      exact ⟨rfl, rfl⟩

omit [Octet Byte] in
theorem newSession_ok {kem : Suite Byte} {role : Role} {id draw : List Byte} {s : Session Byte}
    (made : newSession kem role id draw = .ok s) :
    s.role = role ∧ s.kemSuite = kem ∧ s.sendSeq = 0 ∧ s.replayWindow = ReplayWindow.newWindow ∧
      s.rekeyInProgress = false ∧ s.pendingRecvCipher = none := by
  cases role <;>
  · obtain ⟨keyPair, -, made⟩ := except_bind_ok_iff.mp made
    cases except_pure_ok_iff.mp made
    exact ⟨rfl, rfl, rfl, rfl, rfl, rfl⟩

def keyed (s : Session Byte) (now : Int) (secret : List Byte) (suite : UInt16)
    (ciphers : Cipher Byte × Cipher Byte) (prefixes : List Byte × List Byte) : Session Byte :=
  { s with
    masterSecret := some secret, cipherSuite := suite
    sendCipher := some ciphers.1, recvCipher := some ciphers.2
    sendNoncePrefix := (byRole s.role prefixes).1
    recvNoncePrefix := (byRole s.role prefixes).2
    sendEpochStartSeq := s.sendSeq
    establishedAt := some now, state := .established }

theorem initializeKeys_ok_iff {s s' : Session Byte} {now : Int} {secret : List Byte}
    {suite : UInt16} :
    initializeKeys env.toCrypto now secret suite s = (.ok done, s') ↔
      s.state ≠ .closed ∧ secret.length = sharedSecretSize ∧ ∃ ciphers prefixes,
        deriveDatagramCiphers env.toCrypto s.role secret suite = .ok ciphers ∧
        deriveStreamNoncePrefixes env.toCrypto secret = .ok prefixes ∧
        s' = keyed s now secret suite ciphers prefixes := by
  unfold initializeKeys deriveDatagramCiphers
  simp only [read_bind, reject_bind_ok_iff, lift_bind_ok_iff, write_bind, ne_eq, not_not,
    except_bind_ok_iff, except_pure_ok_iff, write_ok_iff]
  constructor
  · rintro ⟨opened, size, keys, derived, send, made, recv, made', prefixes, drawn, rfl⟩
    exact ⟨opened, size, (send, recv), prefixes, ⟨keys, derived, send, made, recv, made', rfl⟩,
      drawn, by simp only [made, made', Except.toOption, keyed]⟩
  · rintro ⟨opened, size, -, prefixes, ⟨keys, derived, send, made, recv, made', rfl⟩, drawn, rfl⟩
    exact ⟨opened, size, keys, derived, send, made, recv, made', prefixes, drawn, by
      simp only [made, made', Except.toOption, keyed]⟩

def keyedDatagram (s : Session Byte) (now : Int) (secret : List Byte) (suite : UInt16)
    (ciphers : Cipher Byte × Cipher Byte) (prefixes : List Byte × List Byte) : Session Byte :=
  { keyed s now secret suite ciphers prefixes with
    sendEpochStartSeq := s.sendEpochStartSeq
    dgramEpochs := some ⟨⟨0, ciphers.1, ciphers.2, 0, now, none⟩, none⟩
    dgramReplay := some ReplayWindow.newWindow }

theorem initializeDatagramKeys_ok_iff {s s' : Session Byte} {now : Int} {secret : List Byte}
    {suite : UInt16} :
    initializeDatagramKeys env.toCrypto now secret suite s = (.ok done, s') ↔
      s.state ≠ .closed ∧ secret.length = sharedSecretSize ∧ ∃ ciphers prefixes,
        deriveDatagramCiphers env.toCrypto s.role secret suite = .ok ciphers ∧
        deriveDatagramNoncePrefixes env.toCrypto secret = .ok prefixes ∧
        s' = keyedDatagram s now secret suite ciphers prefixes := by
  unfold initializeDatagramKeys
  simp only [read_bind, reject_bind_ok_iff, lift_bind_ok_iff, write_bind, ne_eq, not_not,
    write_ok_iff, exists_and_left]
  rfl

def noncePrefixes (env : Env Byte) (datagram : Bool) (secret : List Byte) :
    Except Fault (List Byte × List Byte) :=
  if datagram then deriveDatagramNoncePrefixes env.toCrypto secret
  else deriveStreamNoncePrefixes env.toCrypto secret

def established (datagram : Bool) (s : Session Byte) (now : Int) (secret : List Byte)
    (ciphers : Cipher Byte × Cipher Byte) (prefixes : List Byte × List Byte) : Session Byte :=
  if datagram then keyedDatagram s now secret s.cipherSuite ciphers prefixes
  else keyed s now secret s.cipherSuite ciphers prefixes

omit [Octet Byte] in
theorem onSession_ok_iff {α : Type} {method : SessionProg Byte α} {value : α} :
    onSession method h = (.ok value, h') ↔
      ∃ s', method h.session = (.ok value, s') ∧ h' = { h with session := s' } :=
  run_part_iff (method h.session) fun session => { h with session }

theorem initializeSessionKeys_ok_iff : initializeSessionKeys env coins h = (.ok done, h') ↔
      h.session.state ≠ .closed ∧ h.sharedSecret.length = sharedSecretSize ∧
      ∃ ciphers prefixes,
        deriveDatagramCiphers env.toCrypto h.session.role h.sharedSecret h.session.cipherSuite =
          .ok ciphers ∧
        noncePrefixes env h.datagram h.sharedSecret = .ok prefixes ∧
        h' = { h with
          session := established h.datagram h.session coins.now h.sharedSecret ciphers
              prefixes } := by
  unfold initializeSessionKeys noncePrefixes established
  rw [read_bind]
  by_cases datagram : h.datagram <;>
    simp only [datagram, if_true, Bool.false_eq_true, if_false, onSession_ok_iff,
      initializeKeys_ok_iff, initializeDatagramKeys_ok_iff, existsAndEq, true_and, and_assoc,
      exists_and_left]

theorem openFinished_ok_iff {domain : Domain} {cipher : Cipher Byte} {plaintext : List Byte} :
    openFinished env domain cipher data h = (.ok plaintext, h') ↔
      ∃ verify, openNext env.toCrypto cipher data [] = .ok plaintext ∧
        decodeFinished plaintext = .ok verify ∧
        verifyData env.toCrypto domain h.sharedSecret h.transcript = .ok verify ∧ h' = h := by
  unfold openFinished
  cases opened : openNext env.toCrypto cipher data [] with
  | error stop => simp [run_bind]
  | ok text =>
    simp only [lift_bind_ok_iff, read_bind, reject_bind_ok_iff, pure_ok_iff, pure_bind_run,
      Except.ok.injEq, ne_eq, not_not]
    constructor
    · rintro ⟨received, read, expected, computed, rfl, rfl, rfl⟩
      exact ⟨received, rfl, read, computed, rfl⟩
    · rintro ⟨verify, rfl, read, computed, rfl⟩
      exact ⟨verify, read, verify, computed, rfl, rfl, rfl⟩

def echoesTicket (h : Handshake Byte) (msg : ServerHello Byte) : Bool :=
  h.resumed || (decide (msg.sessionID.length > 0) && h.ticket == some msg.sessionID)

def serverHelloReceived (h : Handshake Byte) (msg : ServerHello Byte) (data secret : List Byte)
    (ciphers : Cipher Byte × Cipher Byte) : Handshake Byte :=
  { h with
    resumed := echoesTicket h msg
    serverRandom := some msg.random
    sharedSecret := secret
    staticSecret := none
    transcript := h.transcript ++ data
    sendCipher := some ciphers.1
    recvCipher := some ciphers.2
    state := .serverHelloReceived
    session := { h.session with
      id := msg.sessionID, version := msg.version, cipherSuite := msg.cipherSuite } }

theorem processServerHello_ok_iff : processServerHello env data h = (.ok done, h') ↔
      h.state = .clientHelloSent ∧ ∃ msg freshSecret ct keyPair base secret ciphers,
        decodeServerHello data = .ok msg ∧ msg.version.isCompatible current = true ∧
        msg.kemSuite = h.session.kemSuite.id ∧
        h.session.kemSuite.parseCiphertext msg.chkemCiphertext = .ok ct ∧
        h.session.localKeyPair = some keyPair ∧
        h.session.kemSuite.decapsulate ct keyPair .initiator = .ok freshSecret ∧
        baseSecret env (echoesTicket h msg) h.ticketSecret freshSecret = .ok base ∧
        foldedSecret env base h.staticSecret h.foldPSK h.pskKey = .ok secret ∧
        handshakeCiphers env h.session.role msg.cipherSuite secret = .ok ciphers ∧
        h' = serverHelloReceived h msg data secret ciphers := by
  unfold processServerHello
  simp only [read_bind, reject_bind_ok_iff, lift_bind_ok_iff, write_bind, ne_eq, not_not,
    Bool.not_eq_false]
  simp only [bind_ok_iff, decapsulateFresh_ok_iff, installSharedSecret_ok_iff,
    deriveHandshakeSecrets_ok_iff, write_bind, write_ok_iff]
  simp only [existsAndEq, true_and, and_assoc, exists_const, exists_and_left]
  rfl

def finishedBy (h : Handshake Byte) (plaintext : List Byte) (state : HandshakeState) :
    Handshake Byte :=
  { h with transcript := h.transcript ++ plaintext, state := state }

theorem processServerFinished_ok_iff : processServerFinished env data h = (.ok done, h') ↔
      h.state = .serverHelloReceived ∧ ∃ cipher plaintext verify,
        h.recvCipher = some cipher ∧ openNext env.toCrypto cipher data [] = .ok plaintext ∧
        decodeFinished plaintext = .ok verify ∧
        verifyData env.toCrypto .serverFinished h.sharedSecret h.transcript = .ok verify ∧
        h' = finishedBy h plaintext .serverFinishedReceived := by
  unfold processServerFinished
  simp only [read_bind, reject_bind_ok_iff, ne_eq, not_not]
  apply and_congr_right
  intro _
  cases present : h.recvCipher with
  | none => simp
  | some cipher =>
    simp only [bind_ok_iff, openFinished_ok_iff, write_ok_iff, Option.some.injEq]
    simp only [existsAndEq, true_and, and_assoc, exists_and_left]
    rfl

def completed (h : Handshake Byte) (session : Session Byte) : Handshake Byte :=
  { h with
    session := session, state := .complete, sharedSecret := [], clientRandom := none
    serverRandom := none, sendCipher := none, recvCipher := none, transcript := [] }

theorem encodeFinished_ok_iff {messageType : UInt8} {verify : List Byte} :
    encodeFinished messageType verify = .ok data ↔
      verify.length = 32 ∧ data = frame messageType verify := by
  unfold encodeFinished
  rw [guard_ok_iff, ne_eq, not_not, Except.ok.injEq]
  exact and_congr_right fun _ => ⟨Eq.symm, Eq.symm⟩

theorem createClientFinished_ok_iff : createClientFinished env coins h = (.ok data, h') ↔
      h.state = .serverFinishedReceived ∧ ∃ cipher verify moved ciphers prefixes,
        h.sendCipher = some cipher ∧
        verifyData env.toCrypto .clientFinished h.sharedSecret h.transcript = .ok verify ∧
        verify.length = 32 ∧
        sealNext env.toCrypto (frame messageTypeClientFinished verify) [] cipher =
          (.ok data, moved) ∧
        h.session.state ≠ .closed ∧ h.sharedSecret.length = sharedSecretSize ∧
        deriveDatagramCiphers env.toCrypto h.session.role h.sharedSecret h.session.cipherSuite =
          .ok ciphers ∧
        noncePrefixes env h.datagram h.sharedSecret = .ok prefixes ∧
        h' = completed (sealing h cipher moved (frame messageTypeClientFinished verify))
          (established h.datagram h.session coins.now h.sharedSecret ciphers prefixes) := by
  unfold createClientFinished cleanup
  rw [read_bind]
  cases present : h.sendCipher with
  | none => simp [run_bind, run_reject]
  | some cipher =>
    simp only [reject_bind_ok_iff, lift_bind_ok_iff, encodeFinished_ok_iff, not_or, ne_eq, not_not,
      Option.isNone_some, Bool.false_eq_true, not_false_eq_true]
    simp only [bind_ok_iff, sealFinished_ok_iff, initializeSessionKeys_ok_iff, write_ok_iff,
      pure_ok_iff, present, Option.some.injEq]
    simp only [existsAndEq, true_and, and_assoc, exists_const, exists_and_left]
    rfl

theorem createServerFinished_ok_iff : createServerFinished env h = (.ok data, h') ↔
      h.state = .serverHelloSent ∧ ∃ cipher verify moved, h.sendCipher = some cipher ∧
        verifyData env.toCrypto .serverFinished h.sharedSecret h.transcript = .ok verify ∧
        verify.length = 32 ∧
        sealNext env.toCrypto (frame messageTypeServerFinished verify) [] cipher =
          (.ok data, moved) ∧
        h' = finishedBy (sealing h cipher moved (frame messageTypeServerFinished verify))
          (frame messageTypeServerFinished verify) .serverFinishedSent := by
  unfold createServerFinished
  rw [read_bind]
  cases present : h.sendCipher with
  | none => simp [run_bind, run_reject]
  | some cipher =>
    simp only [reject_bind_ok_iff, lift_bind_ok_iff, encodeFinished_ok_iff, not_or, ne_eq, not_not,
      Option.isNone_some, Bool.false_eq_true, not_false_eq_true]
    simp only [bind_ok_iff, sealFinished_ok_iff, write_ok_iff, pure_ok_iff, present,
      Option.some.injEq]
    simp only [existsAndEq, true_and, and_assoc, exists_const, exists_and_left]
    rfl

theorem processClientFinished_ok_iff : processClientFinished env coins data h = (.ok done, h') ↔
      h.state = .serverFinishedSent ∧ ∃ cipher plaintext verify ciphers prefixes,
        h.recvCipher = some cipher ∧ openNext env.toCrypto cipher data [] = .ok plaintext ∧
        decodeFinished plaintext = .ok verify ∧
        verifyData env.toCrypto .clientFinished h.sharedSecret h.transcript = .ok verify ∧
        h.session.state ≠ .closed ∧ h.sharedSecret.length = sharedSecretSize ∧
        deriveDatagramCiphers env.toCrypto h.session.role h.sharedSecret h.session.cipherSuite =
          .ok ciphers ∧
        noncePrefixes env h.datagram h.sharedSecret = .ok prefixes ∧
        h' = completed h
          (established h.datagram h.session coins.now h.sharedSecret ciphers prefixes) := by
  unfold processClientFinished cleanup
  simp only [read_bind, reject_bind_ok_iff, ne_eq, not_not]
  apply and_congr_right
  intro _
  cases present : h.recvCipher with
  | none => simp
  | some cipher =>
    simp only [bind_ok_iff, openFinished_ok_iff, initializeSessionKeys_ok_iff, write_ok_iff,
      Option.some.injEq]
    simp only [existsAndEq, true_and, and_assoc, exists_const, exists_and_left]
    rfl

end QuantumGo.FlightSpecs
