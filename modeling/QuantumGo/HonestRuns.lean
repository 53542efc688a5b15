import QuantumGo.Agreement

/-!
Two sides that talk to each other and are configured alike finish: every builder
of the chain succeeds on the peer's message and both sides end with one secret.
-/

namespace QuantumGo.HonestRuns

open Octets Effect Symbolic Wire HelloCodec HelloRoundTrip Aead Kem Tunnel Flights
open FlightSpecs ResponderSpecs HelloRuns Agreement
open KeySchedule hiding deriveHandshakeKeys


variable {Byte : Type} [Octet Byte] {env : Env Byte} {secret : List Byte} {suite : UInt16}
  {staticSecret : Option (List Byte)}

/-! Derivations from inputs of the right size do not fail. -/
section Derivations
variable (sized : XofSized env.xof)
include sized

theorem foldSecrets_total {domain : Domain} {first second : List Byte} (size : first.length = 32)
    (size' : second.length = 32) :
    ∃ mixed, foldSecrets domain env.toCrypto first second = .ok mixed ∧ mixed.length = 32 := by
  have derived : deriveKeyMultiple env.toCrypto domain [first, second] sharedSecretSize =
      .ok (env.xof (absorbed domain [first, second]) 32) := by
    apply deriveKeyMultiple_ok_iff.mpr
    refine ⟨⟨by decide, by decide⟩, by simp [maxUint32], ?_, rfl⟩
    simp [size, size', maxUint32]
  refine ⟨env.xof (absorbed domain [first, second]) 32, ?_, deriveKeyMultiple_length sized derived⟩
  rw [← derived, foldSecrets, if_neg (by simp [size, sharedSecretSize]),
    if_neg (by simp [size', sharedSecretSize])]

theorem deriveFromMaster_total {domain : Domain} {outputLen : Nat} (size : secret.length = 32)
    (positive : 0 < outputLen) (small : outputLen ≤ maxOutputLen) :
    ∃ output, deriveFromMaster env.toCrypto domain secret outputLen = .ok output ∧
      output.length = outputLen := by
  have derived : deriveKey env.toCrypto domain secret outputLen =
      .ok (env.xof (prefixed 4 domain.bytes ++ prefixed 4 secret) outputLen) :=
    deriveKey_ok_iff.mpr ⟨⟨positive, small⟩, by simp [size, maxUint32], rfl⟩
  refine ⟨env.xof (prefixed 4 domain.bytes ++ prefixed 4 secret) outputLen, ?_, sized _ _⟩
  rw [deriveFromMaster, if_neg (by simp [size, sharedSecretSize]), derived]

theorem verifyData_total (domain : Domain) {transcript : List Byte} (size : secret.length = 32)
    (small : transcript.length ≤ maxUint32) :
    ∃ verify, verifyData env.toCrypto domain secret transcript = .ok verify ∧
      verify.length = 32 := by
  have derived : verifyData env.toCrypto domain secret transcript =
      .ok (env.xof (absorbed domain [secret, transcript]) 32) := by
    apply deriveKeyMultiple_ok_iff.mpr
    refine ⟨⟨by decide, by decide⟩, by simp [maxUint32], ?_, rfl⟩
    simp only [List.mem_cons, List.not_mem_nil, or_false, forall_eq_or_imp, forall_eq]
    exact ⟨by simp [size, maxUint32], small⟩
  exact ⟨_, derived, deriveKeyMultiple_length sized derived⟩

omit sized [Octet Byte] in
theorem newAEAD_total (role : Role) {material : List Byte} (supported : isSupported suite = true)
    (approved : env.fips = true → isFIPSApproved suite = true) (wide : 64 ≤ material.length) :
    ∃ send recv,
      newAEAD env.toCrypto suite (byRole role (slice material 0 32, slice material 32 64)).1 =
        .ok send ∧
      newAEAD env.toCrypto suite (byRole role (slice material 0 32, slice material 32 64)).2 =
        .ok recv := by
  have first : (slice material 0 32).length = 32 := slice_length (by omega)
  have second : (slice material 32 64).length = 32 := slice_length wide
  cases role with
  | initiator =>
    exact ⟨_, _, newAEAD_ok_iff.mpr ⟨approved, first, supported, rfl⟩,
      newAEAD_ok_iff.mpr ⟨approved, second, supported, rfl⟩⟩
  | responder =>
    exact ⟨_, _, newAEAD_ok_iff.mpr ⟨approved, second, supported, rfl⟩,
      newAEAD_ok_iff.mpr ⟨approved, first, supported, rfl⟩⟩

theorem handshakeCiphers_total (role : Role) (size : secret.length = 32)
    (supported : isSupported suite = true)
    (approved : env.fips = true → isFIPSApproved suite = true) :
    ∃ ciphers, handshakeCiphers env role suite secret = .ok ciphers := by
  obtain ⟨material, derived, length⟩ : ∃ material, deriveFromMaster env.toCrypto .handshake secret
      (2 * aesKeySize + 2 * aesNonceSize) = .ok material ∧ material.length = 88 :=
    deriveFromMaster_total sized size (by decide) (by decide)
  have keys : KeySchedule.deriveHandshakeKeys env.toCrypto secret =
      .ok (slice material 0 32, slice material 32 64) := by
    rw [KeySchedule.deriveHandshakeKeys, derived]
    rfl
  obtain ⟨send, recv, made, made'⟩ := newAEAD_total role supported approved
    (show 64 ≤ material.length by omega)
  refine ⟨(send, recv), ?_⟩
  simp only [handshakeCiphers, except_bind_ok_iff, except_pure_ok_iff]
  exact ⟨_, keys, send, made, recv, made', rfl⟩

theorem deriveDatagramCiphers_total (role : Role) (size : secret.length = 32)
    (supported : isSupported suite = true)
    (approved : env.fips = true → isFIPSApproved suite = true) :
    ∃ ciphers, deriveDatagramCiphers env.toCrypto role secret suite = .ok ciphers := by
  obtain ⟨material, derived, length⟩ : ∃ material, deriveFromMaster env.toCrypto .traffic secret
      (2 * aesKeySize) = .ok material ∧ material.length = 64 :=
    deriveFromMaster_total sized size (by decide) (by decide)
  have keys : deriveTrafficKeys env.toCrypto secret =
      .ok (slice material 0 32, slice material 32 64) := by
    rw [deriveTrafficKeys, derived]
    rfl
  obtain ⟨send, recv, made, made'⟩ := newAEAD_total role supported approved
    (show 64 ≤ material.length by omega)
  refine ⟨(send, recv), ?_⟩
  simp only [deriveDatagramCiphers, except_bind_ok_iff, except_pure_ok_iff]
  exact ⟨_, keys, send, made, recv, made', rfl⟩

theorem noncePrefixes_total (datagram : Bool) (size : secret.length = 32) :
    ∃ prefixes, noncePrefixes env datagram secret = .ok prefixes := by
  have each (domain : Domain) :
      ∃ prefixes, deriveNoncePrefixes domain env.toCrypto secret = .ok prefixes := by
    obtain ⟨material, derived, -⟩ : ∃ material, deriveFromMaster env.toCrypto domain secret
        (2 * noncePrefixSize) = .ok material ∧ material.length = 8 :=
      deriveFromMaster_total sized size (by decide) (by decide)
    exact ⟨_, by rw [deriveNoncePrefixes, derived]; rfl⟩
  cases datagram with
  | true => exact each .datagramNonce
  | false => exact each .streamNonce

theorem foldedSecret_total {base : List Byte} {foldPSK : Bool} {pskKey : List Byte}
    (size : base.length = 32)
    (staticSize : ∀ secret, staticSecret = some secret → secret.length = 32)
    (pskSize : foldPSK = true → pskKey.length = 32) :
    ∃ secret, foldedSecret env base staticSecret foldPSK pskKey = .ok secret ∧
      secret.length = 32 := by
  have first : ∃ mixed, staticFold env base staticSecret = .ok mixed ∧ mixed.length = 32 := by
    cases staticSecret with
    | none => exact ⟨base, rfl, size⟩
    | some secret => exact foldSecrets_total sized size (staticSize secret rfl)
  obtain ⟨mixed, static, width⟩ := first
  have second : ∃ secret, pskFold env mixed foldPSK pskKey = .ok secret ∧ secret.length = 32 := by
    cases foldPSK with
    | false => exact ⟨mixed, rfl, width⟩
    | true => exact foldSecrets_total sized width (pskSize rfl)
  obtain ⟨secret, fold, width⟩ := second
  refine ⟨secret, ?_, width⟩
  rw [foldedSecret, except_bind_ok_iff]
  exact ⟨mixed, static, fold⟩

end Derivations

/-! Two configurations that fit. -/

def CorrectRegistry (env : Env Byte) : Prop :=
  ∀ id suite, getSuite env.registry id = some suite → Correct suite


/-- The pin, if any, is the responder's static key, and the pre-shared key, if
any, is the one the responder holds for the advertised identity. -/
structure Compatible (env : Env Byte) (i r : Session Byte) : Prop where
  leads : i.role = .initiator
  follows : r.role = .responder
  unpinned : i.pinnedServerKey = none → r.requireStaticAuth = false
  pinned : ∀ pin, i.pinnedServerKey = some pin → ∃ suite coins keyPair,
    getSuite env.registry pin.suite = some suite ∧ suite.generateKeyPair coins = .ok keyPair ∧
    keyPair.publicKey = pin ∧ r.staticKeyPair = some keyPair
  keyless : i.psk = none → r.requirePSK = false
  keyed : ∀ key, i.psk = some key → key.length = 32 ∧
    i.pskIdentity.length ≤ maxPSKIdentitySize ∧ responderPSK r i.pskIdentity = some key
  sessionID : r.id.length ≤ maxSessionIDLen

variable {i r : Session Byte} {coins : Coins Byte} {staticCT : List Byte}

section Legs
variable (compatible : Compatible env i r)
include compatible

theorem pinnedLeg_total (correct : CorrectRegistry env) (coins : Coins Byte) :
    ∃ staticCT staticSecret, pinnedLeg env coins i = .ok (staticCT, staticSecret) := by
  unfold pinnedLeg
  cases pinned : i.pinnedServerKey with
  | none => exact ⟨[], none, rfl⟩
  | some pin =>
    obtain ⟨suite, draw, keyPair, found, made, rfl, -⟩ := compatible.pinned pin pinned
    obtain ⟨ct, secret, sent, -, -⟩ :=
      (correct _ suite found).encapsulates draw keyPair made .initiator coins.staticEnc
    refine ⟨ct.raw, some secret, ?_⟩
    simp only [except_bind_ok_iff, except_pure_ok_iff, resolveKEMSuite_ok_iff]
    exact ⟨suite, found, (ct, secret), sent, rfl⟩

/-- The responder recovers the static secret that the initiator sent. -/
theorem staticLeg_of_pinnedLeg (correct : CorrectRegistry env)
    (leg : pinnedLeg env coins i = .ok (staticCT, staticSecret)) :
    staticLeg env r staticCT = .ok staticSecret ∧
    (r.requireStaticAuth = true → staticCT.length ≠ 0) ∧
    (∀ secret, staticSecret = some secret → secret.length = 32) ∧
    (staticSecret.isSome ↔ i.pinnedServerKey.isSome) := by
  unfold pinnedLeg at leg
  cases pinned : i.pinnedServerKey with
  | none =>
    rw [pinned] at leg
    obtain ⟨rfl, rfl⟩ := Prod.mk.inj (Except.ok.inj leg)
    refine ⟨?_, ?_, by simp, by simp⟩
    · unfold staticLeg
      split <;> rfl
    · simp [compatible.unpinned pinned]
  | some pin =>
    obtain ⟨suite, draw, keyPair, found, made, rfl, held⟩ := compatible.pinned pin pinned
    simp only [pinned, except_bind_ok_iff, except_pure_ok_iff, resolveKEMSuite_ok_iff] at leg
    obtain ⟨suite', found', ⟨ct, secret⟩, sent, same⟩ := leg
    obtain ⟨rfl, rfl⟩ := Prod.mk.inj same
    obtain rfl : suite = suite' := Option.some.inj (found.symm.trans found')
    obtain ⟨ct', secret', sent', parsed, opened⟩ :=
      (correct _ suite found).encapsulates draw keyPair made .initiator coins.staticEnc
    obtain ⟨rfl, rfl⟩ := Prod.mk.inj (Except.ok.inj (sent.symm.trans sent'))
    have size := suite.ciphertext_size _ _ _ _ _ sent
    have positive := suite.ciphertextSize_bound.1
    refine ⟨?_, by simp only [size.1]; omega, by rintro _ ⟨⟩; exact size.2, by simp⟩
    unfold staticLeg
    rw [held]
    simp only [if_pos (show ct.raw.length > 0 by rw [size.1]; exact positive),
      except_bind_ok_iff, except_pure_ok_iff, resolveKEMSuite_ok_iff]
    exact ⟨suite, found, ct, parsed, secret, opened, rfl⟩

theorem chosenPSK_of_compatible (coins : Coins Byte) :
    chosenPSK coins r (advertisedIdentity i) = .ok i.psk := by
  unfold chosenPSK advertisedIdentity
  cases configured : i.psk with
  | none =>
    have absent : responderPSK r [] = none := by simp [responderPSK]
    simp [absent, compatible.keyless configured]
  | some key => simp [(compatible.keyed key configured).2.2]

end Legs

/-! The flights. -/

structure Startable (i : Session Byte) (h : Handshake Byte) : Prop where
  state : h.state = .initial
  random : ∀ random, h.clientRandom = some random → random.length = 32
  keyPair : ∃ coins keyPair, h.session.kemSuite.generateKeyPair coins = .ok keyPair ∧
    h.session.localKeyPair = some keyPair
  ticket : h.ticket = none
  resumed : h.resumed = false
  config : configOf h.session = configOf i
  staticSecret : i.pinnedServerKey = none → h.staticSecret = none
  foldPSK : i.psk = none → h.foldPSK = false
  alive : h.session.state ≠ .closed
  transcript : h.transcript.length ≤ 64

structure Answerable (r : Session Byte) (h : Handshake Byte) : Prop where
  state : h.state = .initial
  resumed : h.resumed = false
  config : configOf h.session = configOf r
  sessionID : h.session.id = r.id
  staticSecret : h.staticSecret = none
  foldPSK : h.foldPSK = false
  sendHRR : h.sendHRR = false
  transcript : h.transcript.length ≤ 64

omit [Octet Byte] in
theorem configOf_fields {s s' : Session Byte} (same : configOf s = configOf s') :
    s.role = s'.role ∧ s.pinnedServerKey = s'.pinnedServerKey ∧
    s.staticKeyPair = s'.staticKeyPair ∧ s.requireStaticAuth = s'.requireStaticAuth ∧
    s.psk = s'.psk ∧ s.pskIdentity = s'.pskIdentity ∧ s.pskLookup = s'.pskLookup ∧
    s.requirePSK = s'.requirePSK := by
  simpa [configOf] using same

structure Armed (env : Env Byte) (h : Handshake Byte) (send recv : Cipher Byte) : Prop where
  ciphers : handshakeCiphers env h.session.role h.session.cipherSuite h.sharedSecret =
    .ok (send, recv)
  sends : h.sendCipher = some send
  receives : h.recvCipher = some recv

structure Paired (env : Env Byte) (initiator responder : Handshake Byte) : Prop where
  leads : initiator.session.role = .initiator
  follows : responder.session.role = .responder
  received : initiator.state = .serverHelloReceived
  sent : responder.state = .serverHelloSent
  armed : ∃ send recv, Armed env initiator send recv
  armed' : ∃ send recv, Armed env responder send recv
  secret : initiator.sharedSecret = responder.sharedSecret
  size : initiator.sharedSecret.length = 32
  transcript : initiator.transcript = responder.transcript
  small : initiator.transcript.length ≤ 2 ^ 23
  suite : initiator.session.cipherSuite = responder.session.cipherSuite
  alive : initiator.session.state ≠ .closed
  alive' : responder.session.state ≠ .closed

variable {before answering : Handshake Byte} {data : List Byte}

section Flights
variable (compatible : Compatible env i r) (correct : CorrectRegistry env)
  {sent accepted helloSent : Handshake Byte} {coins' coins'' : Coins Byte}
  {clientHello serverHello : List Byte} {s s' : Session Byte}

omit [Octet Byte] in
theorem pinnedLeg_config (same : configOf s = configOf s') :
    pinnedLeg env coins s = pinnedLeg env coins s' := by
  unfold pinnedLeg
  rw [(configOf_fields same).2.1]

omit [Octet Byte] in
theorem staticLeg_config {ct : List Byte} (same : configOf s = configOf s') :
    staticLeg env s ct = staticLeg env s' ct := by
  unfold staticLeg
  rw [(configOf_fields same).2.2.1]

theorem chosenPSK_config {identity : List Byte} (same : configOf s = configOf s') :
    chosenPSK coins s identity = chosenPSK coins s' identity := by
  obtain ⟨-, -, -, -, psk, identities, lookup, required⟩ := configOf_fields same
  unfold chosenPSK responderPSK
  rw [psk, identities, lookup, required]

omit [Octet Byte] in
theorem advertisedIdentity_config (same : configOf s = configOf s') :
    advertisedIdentity s = advertisedIdentity s' := by
  obtain ⟨-, -, -, -, psk, identities, -, -⟩ := configOf_fields same
  unfold advertisedIdentity
  rw [psk, identities]

include compatible in
theorem advertisedIdentity_short : (advertisedIdentity i).length ≤ maxPSKIdentitySize := by
  unfold advertisedIdentity
  cases configured : i.psk with
  | none => simp
  | some key => simpa using (compatible.keyed key configured).2.1

omit [Octet Byte] in
theorem supportedCipherSuites_supported :
    ∀ suite ∈ supportedCipherSuites env, isSupported suite = true ∧
      (env.fips = true → isFIPSApproved suite = true) := by
  unfold supportedCipherSuites
  split
  · intro suite member
    obtain rfl := List.mem_singleton.mp member
    exact ⟨rfl, fun _ => rfl⟩
  · rename_i standard
    intro suite member
    refine ⟨?_, fun fips => absurd fips standard⟩
    rcases List.mem_pair.mp member with rfl | rfl <;> rfl

omit [Octet Byte] in
/-- The suite chosen from what a peer of the same build offers is its first. -/
theorem selectCipherSuite_supported :
    selectCipherSuite env (supportedCipherSuites env) ∈ supportedCipherSuites env := by
  unfold selectCipherSuite supportedCipherSuites
  split <;> decide

include compatible correct in
theorem createClientHello_total (start : Startable i before) (entropy : coins.random.isSome) :
    ∃ hello sent, createClientHello env coins before = (.ok hello, sent) := by
  obtain ⟨draw, keyPair, made, owned⟩ := start.keyPair
  obtain ⟨staticCT, staticSecret, leg⟩ := pinnedLeg_total compatible correct coins
  rw [← pinnedLeg_config start.config] at leg
  obtain ⟨random, source, length⟩ : ∃ random, (before.clientRandom = some random ∨
        before.clientRandom = none ∧ ∃ drawn, coins.random = some drawn ∧ random = drawn.1) ∧
      random.length = 32 := by
    cases kept : before.clientRandom with
    | some random => exact ⟨random, .inl rfl, start.random random kept⟩
    | none =>
      obtain ⟨drawn, source⟩ := Option.isSome_iff_exists.mp entropy
      exact ⟨drawn.1, .inr ⟨rfl, drawn, source, rfl⟩, drawn.2⟩
  have valid : (clientHelloOf env before random keyPair staticCT).validate = .ok () := by
    apply (ClientHello.validate_ok_iff _).mpr
    refine ⟨rfl, length, ?_, ?_, ?_, fun suite member =>
      (supportedCipherSuites_supported suite member).1, ?_⟩
    · apply List.length_pos_iff.mp
      change 0 < keyPair.publicRaw.length
      rw [before.session.kemSuite.keyPair_size _ _ made]
      exact before.session.kemSuite.publicKeySize_bound.1
    · simp [clientHelloOf, start.ticket]
    · exact List.ne_nil_of_mem selectCipherSuite_supported
    · change (advertisedIdentity before.session).length ≤ _
      rw [advertisedIdentity_config start.config]
      exact advertisedIdentity_short compatible
  exact ⟨_, _, createClientHello_ok_iff.mpr ⟨start.state, random, keyPair, staticCT, staticSecret,
    source, owned, leg, valid, rfl, rfl⟩⟩

structure Meets (env : Env Byte) (i r : Session Byte) (before sent answering : Handshake Byte)
    (coins : Coins Byte) (clientHello : List Byte) : Prop where
  start : Startable i before
  answer : Answerable r answering
  created : createClientHello env coins before = (.ok clientHello, sent)
  known : getSuite env.registry before.session.kemSuite.id = some before.session.kemSuite
  transcript : before.transcript = answering.transcript

include compatible correct in
/-- What the responder selects is what the initiator meant, and nothing else. -/
theorem selects_iff (meets : Meets env i r before sent answering coins clientHello)
    {random : List Byte} {keyPair : KeyPair Byte}
    (owned : before.session.localKeyPair = some keyPair)
    (leg : pinnedLeg env coins before.session = .ok (staticCT, staticSecret))
    {chosen : Selection Byte} (suite : chosen.suite = before.session.kemSuite) :
    Selects env coins' answering (clientHelloOf env before random keyPair staticCT) chosen ↔
      chosen = ⟨before.session.kemSuite, none, keyPair.publicKey, staticSecret, i.psk⟩ := by
  obtain ⟨draw, keyPair', made, owned'⟩ := meets.start.keyPair
  obtain rfl : keyPair = keyPair' := Option.some.inj (owned.symm.trans owned')
  have parsed := (correct _ _ meets.known).parses draw keyPair made
  rw [pinnedLeg_config meets.start.config] at leg
  obtain ⟨static, must, -, -⟩ := staticLeg_of_pinnedLeg compatible correct leg
  have key := chosenPSK_of_compatible compatible coins'
  rw [← advertisedIdentity_config meets.start.config, ← chosenPSK_config meets.answer.config] at key
  rw [← staticLeg_config meets.answer.config] at static
  have noTicket : presentedTicket env coins'.now (before.ticket.getD []) answering.ticketManager =
      none := by
    rw [meets.start.ticket]
    unfold presentedTicket
    split <;> simp
  constructor
  · intro selects
    obtain ⟨suite', ticket, remote, secret, psk⟩ := chosen
    obtain rfl : suite' = before.session.kemSuite := suite
    obtain rfl : ticket = none := selects.ticket.trans noTicket
    obtain rfl : keyPair.publicKey = remote := Except.ok.inj (parsed.symm.trans selects.remote)
    obtain rfl : staticSecret = secret := Except.ok.inj (static.symm.trans selects.staticSecret)
    obtain rfl : i.psk = psk := Except.ok.inj (key.symm.trans selects.key)
    rfl
  · rintro rfl
    refine ⟨noTicket.symm, parsed, ?_, static, key, ?_⟩
    · rw [(configOf_fields meets.answer.config).2.2.2.1]
      exact must
    · exact (supportedCipherSuites_supported _ selectCipherSuite_supported).1

include compatible correct in
theorem processClientHello_meets (meets : Meets env i r before sent answering coins clientHello) :
    ∃ random keyPair staticCT staticSecret, before.session.localKeyPair = some keyPair ∧
      pinnedLeg env coins before.session = .ok (staticCT, staticSecret) ∧
      sent = clientHelloSent before random clientHello staticSecret ∧
      ∀ coins' accepted, processClientHello env coins' clientHello answering = (.ok (), accepted) ↔
        accepted = clientHelloAccepted env answering
          (clientHelloOf env before random keyPair staticCT) clientHello
          ⟨before.session.kemSuite, none, keyPair.publicKey, staticSecret, i.psk⟩ := by
  obtain ⟨random, keyPair, staticCT, staticSecret, owned, leg, read, -, left⟩ :=
    createClientHello_reads meets.created
  refine ⟨random, keyPair, staticCT, staticSecret, owned, leg, left, fun coins' accepted => ?_⟩
  rw [processClientHello_ok_iff]
  constructor
  · rintro ⟨-, msg, read', -, ⟨unknown, -⟩ | ⟨chosen, found, selects, rfl⟩⟩
    · obtain rfl := Except.ok.inj (read.symm.trans read')
      exact absurd (unknown.symm.trans meets.known) (by simp)
    · obtain rfl := Except.ok.inj (read.symm.trans read')
      have suite := Option.some.inj (found.symm.trans meets.known)
      rw [(selects_iff compatible correct meets owned leg suite).mp selects]
  · rintro rfl
    refine ⟨meets.answer.state, _, read, rfl, .inr
      ⟨⟨before.session.kemSuite, none, keyPair.publicKey, staticSecret, i.psk⟩, meets.known,
        ?_, rfl⟩⟩
    exact (selects_iff compatible correct meets owned leg rfl).mpr rfl

/-- Leftovers of an earlier hello do not reach the folds. -/
theorem foldedSecret_carried {base pskKey : List Byte} {left psk : Option (List Byte)}
    {foldPSK : Bool} (unpinned : staticSecret = none → left = none)
    (keyless : psk = none → foldPSK = false) :
    foldedSecret env base (staticSecret.or left) (foldPSK || psk.isSome) (psk.getD pskKey) =
      foldedSecret env base staticSecret psk.isSome (psk.getD []) := by
  have statics : staticSecret.or left = staticSecret := by
    cases staticSecret with
    | none => simpa using unpinned rfl
    | some secret => rfl
  rw [statics]
  cases psk with
  | none => simp [foldedSecret, pskFold, keyless rfl]
  | some key => simp

omit [Octet Byte] in
theorem selectCipherSuite_usable :
    isSupported (selectCipherSuite env (supportedCipherSuites env)) = true ∧
      (env.fips = true → isFIPSApproved (selectCipherSuite env (supportedCipherSuites env)) =
        true) :=
  supportedCipherSuites_supported _ selectCipherSuite_supported

include compatible correct in
/-- The folds of an honest exchange succeed. -/
theorem folds_total (ideal : XofIdeal 32 env.xof) {freshSecret : List Byte}
    (size : freshSecret.length = 32) (leg : pinnedLeg env coins i = .ok (staticCT, staticSecret)) :
    ∃ secret, foldedSecret env freshSecret staticSecret i.psk.isSome (i.psk.getD []) = .ok secret ∧
      secret.length = 32 := by
  obtain ⟨-, -, staticSize, -⟩ := staticLeg_of_pinnedLeg compatible correct leg
  apply foldedSecret_total ideal.length size staticSize
  intro configured
  obtain ⟨key, same⟩ := Option.isSome_iff_exists.mp configured
  rw [same]
  exact (compatible.keyed key same).1

include compatible correct in
theorem createServerHello_total (ideal : XofIdeal 32 env.xof)
    (meets : Meets env i r before sent answering coins clientHello)
    (processed : processClientHello env coins' clientHello answering = (.ok (), accepted))
    (entropy : coins''.random.isSome) :
    ∃ serverHello helloSent, createServerHello env coins'' accepted =
      (.ok serverHello, helloSent) := by
  obtain ⟨random, keyPair, staticCT, staticSecret, owned, leg, left, accepts⟩ :=
    processClientHello_meets compatible correct meets
  obtain rfl := (accepts coins' accepted).mp processed
  obtain ⟨draw, keyPair', made, owned'⟩ := meets.start.keyPair
  obtain rfl : keyPair = keyPair' := Option.some.inj (owned.symm.trans owned')
  obtain ⟨ct, freshSecret, sentCT, parsed, opened⟩ :=
    (correct _ _ meets.known).encapsulates draw keyPair made .responder coins''.enc
  obtain ⟨drawn, source⟩ := Option.isSome_iff_exists.mp entropy
  have sizes := before.session.kemSuite.ciphertext_size _ _ _ _ _ sentCT
  rw [pinnedLeg_config meets.start.config] at leg
  obtain ⟨secret, folded, width⟩ := folds_total compatible correct ideal sizes.2 leg
  obtain ⟨ciphers, keyed⟩ := handshakeCiphers_total ideal.length answering.session.role width
    selectCipherSuite_usable.1 selectCipherSuite_usable.2
  have folds : foldedSecret env freshSecret (staticSecret.or answering.staticSecret)
      (answering.foldPSK || i.psk.isSome) (i.psk.getD answering.pskKey) = .ok secret := by
    rw [foldedSecret_carried (fun _ => meets.answer.staticSecret) (fun _ => meets.answer.foldPSK)]
    exact folded
  refine ⟨_, _, createServerHello_ok_iff.mpr ⟨keyPair.publicKey, drawn, ct, freshSecret,
    freshSecret, secret, ciphers, rfl, source, sentCT, ?_, ?_, rfl, folds, keyed, rfl⟩⟩
  · simp [baseSecret, clientHelloAccepted, meets.answer.resumed]
  · apply (ServerHello.validate_ok_iff _).mpr
    refine ⟨rfl, drawn.2, ?_, ?_, selectCipherSuite_usable.1⟩
    · change answering.session.id.length ≤ _
      rw [meets.answer.sessionID]
      exact compatible.sessionID
    · apply List.length_pos_iff.mp
      change 0 < ct.raw.length
      rw [sizes.1]
      exact before.session.kemSuite.ciphertextSize_bound.1

include compatible correct in
/-- The initiator accepts the ServerHello and ends with the responder's secret. -/
theorem processServerHello_meets (ideal : XofIdeal 32 env.xof)
    (meets : Meets env i r before sent answering coins clientHello)
    (processed : processClientHello env coins' clientHello answering = (.ok (), accepted))
    (answered : createServerHello env coins'' accepted = (.ok serverHello, helloSent)) :
    ∃ received, processServerHello env serverHello sent = (.ok (), received) ∧
      received.sharedSecret = helloSent.sharedSecret ∧ received.sharedSecret.length = 32 ∧
      received.transcript = helloSent.transcript ∧
      received.session.cipherSuite = helloSent.session.cipherSuite := by
  obtain ⟨random, keyPair, staticCT, staticSecret, owned, leg, rfl, accepts⟩ :=
    processClientHello_meets compatible correct meets
  obtain rfl := (accepts coins' accepted).mp processed
  obtain ⟨draw, keyPair', made, owned'⟩ := meets.start.keyPair
  obtain rfl : keyPair = keyPair' := Option.some.inj (owned.symm.trans owned')
  obtain ⟨remote, drawn, ct, freshSecret, base, secret, ciphers, pinned, -, sentCT, mixed,
    valid, rfl, folded, keyed, rfl⟩ := createServerHello_ok_iff.mp answered
  obtain rfl : keyPair.publicKey = remote := Option.some.inj pinned
  obtain ⟨ct', secret', sentCT', parsed, opened⟩ :=
    (correct _ _ meets.known).encapsulates draw keyPair made .responder coins''.enc
  obtain ⟨rfl, rfl⟩ := Prod.mk.inj (Except.ok.inj (sentCT.symm.trans sentCT'))
  have sizes := before.session.kemSuite.ciphertext_size _ _ _ _ _ sentCT
  obtain rfl : freshSecret = base := by
    simpa [baseSecret, clientHelloAccepted, meets.answer.resumed] using mixed
  have folds : foldedSecret env freshSecret staticSecret i.psk.isSome (i.psk.getD []) =
      .ok secret := by
    rw [← folded]
    exact (foldedSecret_carried (fun _ => meets.answer.staticSecret)
      (fun _ => meets.answer.foldPSK)).symm
  rw [pinnedLeg_config meets.start.config] at leg
  have width : secret.length = 32 := by
    obtain ⟨secret', folded', width⟩ := folds_total compatible correct ideal sizes.2 leg
    rwa [Except.ok.inj (folds.symm.trans folded')]
  obtain ⟨ciphers', keyed'⟩ := handshakeCiphers_total ideal.length before.session.role width
    selectCipherSuite_usable.1 selectCipherSuite_usable.2
  obtain ⟨-, -, -, pins⟩ := staticLeg_of_pinnedLeg compatible correct leg
  have carried : foldedSecret env freshSecret (staticSecret.or before.staticSecret)
      (before.foldPSK || before.session.psk.isSome) (before.session.psk.getD before.pskKey) =
      .ok secret := by
    have same : before.session.psk = i.psk := (configOf_fields meets.start.config).2.2.2.2.1
    rw [same, foldedSecret_carried (fun none => ?_) meets.start.foldPSK]
    · exact folds
    · apply meets.start.staticSecret
      simpa [none] using pins
  have fits : ct.raw.length < 2 ^ 16 := by
    rw [sizes.1]
    exact before.session.kemSuite.ciphertextSize_bound.2
  refine ⟨_, processServerHello_ok_iff.mpr ⟨rfl, _, freshSecret, ct, keyPair, freshSecret, secret,
    ciphers', decodeServerHello_frame valid fits, rfl, rfl, parsed, owned, opened, ?_,
    carried, keyed',
    rfl⟩, rfl, width, ?_, rfl⟩
  · simp [baseSecret, echoesTicket, clientHelloSent, meets.start.resumed, meets.start.ticket]
  · simp only [serverHelloReceived, clientHelloSent, serverHelloSent, clientHelloAccepted,
      meets.transcript]

theorem armed_of_processServerHello {h h' : Handshake Byte}
    (processed : processServerHello env data h = (.ok (), h')) :
    h'.state = .serverHelloReceived ∧ ∃ send recv, Armed env h' send recv := by
  obtain ⟨-, _, _, _, _, _, _, ciphers, -, -, -, -, -, -, -, -, made, rfl⟩ :=
    processServerHello_ok_iff.mp processed
  exact ⟨rfl, ciphers.1, ciphers.2, made, rfl, rfl⟩

theorem armed_of_createServerHello {h h' : Handshake Byte}
    (created : createServerHello env coins h = (.ok data, h')) :
    h'.state = .serverHelloSent ∧ ∃ send recv, Armed env h' send recv := by
  obtain ⟨_, _, _, _, _, _, ciphers, -, -, -, -, -, -, -, made, rfl⟩ :=
    createServerHello_ok_iff.mp created
  exact ⟨rfl, ciphers.1, ciphers.2, made, rfl, rfl⟩

include compatible correct in
theorem paired_of_meets (ideal : XofIdeal 32 env.xof)
    (meets : Meets env i r before sent answering coins clientHello)
    (processed : processClientHello env coins' clientHello answering = (.ok (), accepted))
    (answered : createServerHello env coins'' accepted = (.ok serverHello, helloSent)) :
    ∃ received, processServerHello env serverHello sent = (.ok (), received) ∧
      Paired env received helloSent := by
  obtain ⟨received, read, secret, size, transcript, suite⟩ :=
    processServerHello_meets compatible correct ideal meets processed answered
  obtain ⟨random, keyPair, staticCT, staticSecret, owned, leg, left, accepts⟩ :=
    processClientHello_meets compatible correct meets
  have clientSize := createClientHello_length meets.created
  have serverSize := createServerHello_length answered
  have startSize := meets.answer.transcript
  obtain ⟨got, armed⟩ := armed_of_processServerHello read
  obtain ⟨answers, armed'⟩ := armed_of_createServerHello answered
  obtain ⟨-, _, _, _, _, _, _, _, -, -, -, -, -, -, -, -, -, rfl⟩ :=
    processServerHello_ok_iff.mp read
  obtain ⟨_, _, _, _, _, _, _, -, -, -, -, -, -, -, -, rfl⟩ := createServerHello_ok_iff.mp answered
  obtain rfl := (accepts coins' accepted).mp processed
  obtain rfl := left
  refine ⟨_, read, ⟨?_, ?_, got, answers, armed, armed', secret, size, transcript, ?_, suite,
    by simp [serverHelloReceived, clientHelloSent], by simp [serverHelloSent, clientHelloAccepted]⟩⟩
  · exact (configOf_fields meets.start.config).1.trans compatible.leads
  · exact (configOf_fields meets.answer.config).1.trans compatible.follows
  · rw [transcript]
    simp only [serverHelloSent, clientHelloAccepted, List.length_append]
    omega

end Flights

variable {send recv : Cipher Byte}

/-! The Finished messages. -/

section Finished

theorem handshakeCiphers_fresh {role : Role}
    (made : handshakeCiphers env role suite secret = .ok (send, recv)) :
    send.counter < send.maxSeq ∧ recv.counter < recv.maxSeq ∧ isSupported suite = true ∧
    (env.fips = true → isFIPSApproved suite = true) := by
  simp only [handshakeCiphers, except_bind_ok_iff, except_pure_ok_iff] at made
  obtain ⟨keys, -, send', first, recv', second, same⟩ := made
  obtain ⟨rfl, rfl⟩ := Prod.mk.inj same
  obtain ⟨approved, -, supported, rfl⟩ := newAEAD_ok_iff.mp first
  obtain ⟨-, -, -, rfl⟩ := newAEAD_ok_iff.mp second
  exact ⟨by simp [maxPacketsBeforeRekey], by simp [maxPacketsBeforeRekey], supported, approved⟩

theorem handshakeCiphers_mirrored {send' recv' : Cipher Byte}
    (made : handshakeCiphers env .initiator suite secret = .ok (send, recv))
    (made' : handshakeCiphers env .responder suite secret = .ok (send', recv')) :
    recv = send' ∧ send = recv' := by
  simp only [handshakeCiphers, except_bind_ok_iff, except_pure_ok_iff, byRole, Prod.mk.injEq]
    at made made'
  obtain ⟨keys, derived, _, first, _, second, rfl, rfl⟩ := made
  obtain ⟨keys', derived', _, first', _, second', rfl, rfl⟩ := made'
  obtain rfl : keys = keys' := Except.ok.inj (derived.symm.trans derived')
  exact ⟨Except.ok.inj (second.symm.trans first'), Except.ok.inj (first.symm.trans second')⟩

theorem openNext_sealed (ideal : AeadIdeal env.toCrypto) {cipher moved : Cipher Byte}
    {text : List Byte} (nonempty : text ≠ [])
    (sealed : sealNext env.toCrypto text [] cipher = (.ok data, moved)) :
    openNext env.toCrypto cipher data [] = .ok text := by
  obtain ⟨-, rfl, -⟩ := sealNext_ok_iff.mp sealed
  apply openNext_ok_iff.mpr
  rw [List.take_left' (counterNonce_length _), List.drop_left' (counterNonce_length _)]
  refine ⟨?_, ideal.opens _ _ _ _ _⟩
  have positive := List.length_pos_iff.mpr nonempty
  rw [List.length_append, counterNonce_length, ideal.length]
  unfold minPacketSize
  omega

variable {initiator initiator' responder responder' : Handshake Byte}
  {serverFinished clientFinished : List Byte}

theorem createServerFinished_total (ideal : XofIdeal 32 env.xof)
    (armed : Armed env responder send recv) (sent : responder.state = .serverHelloSent)
    (size : responder.sharedSecret.length = 32) (small : responder.transcript.length ≤ maxUint32) :
    ∃ finished final, createServerFinished env responder = (.ok finished, final) := by
  obtain ⟨verify, computed, length⟩ := verifyData_total ideal.length .serverFinished size small
  obtain ⟨left, -, -, -⟩ := handshakeCiphers_fresh armed.ciphers
  exact ⟨_, _, createServerFinished_ok_iff.mpr ⟨sent, send, verify, _, armed.sends,
    computed, length, run_sealNext _ _ left, rfl⟩⟩

theorem processServerFinished_paired (ideal : IdealEnv env)
    (paired : Paired env initiator responder)
    (created : createServerFinished env responder = (.ok serverFinished, responder')) :
    ∃ initiator', processServerFinished env serverFinished initiator = (.ok (), initiator') := by
  obtain ⟨send, recv, armed⟩ := paired.armed
  obtain ⟨send', recv', armed'⟩ := paired.armed'
  obtain ⟨-, cipher, verify, moved, present, computed, length, sealed, -⟩ :=
    createServerFinished_ok_iff.mp created
  obtain rfl : send' = cipher := Option.some.inj (armed'.sends.symm.trans present)
  have keys := armed.ciphers
  have keys' := armed'.ciphers
  rw [paired.leads] at keys
  rw [paired.follows, ← paired.suite, ← paired.secret] at keys'
  obtain ⟨rfl, -⟩ := handshakeCiphers_mirrored keys keys'
  have opened := openNext_sealed ideal.aead (by simp [frame]) sealed
  rw [← paired.secret, ← paired.transcript] at computed
  exact ⟨_, processServerFinished_ok_iff.mpr ⟨paired.received, recv, _, verify,
    armed.receives, opened, decodeFinished_frame (.inr rfl) length, computed, rfl⟩⟩

theorem createClientFinished_total (ideal : IdealEnv env) (paired : Paired env initiator responder)
    (created : createServerFinished env responder = (.ok serverFinished, responder'))
    (accepted : processServerFinished env serverFinished initiator = (.ok (), initiator'))
    (coins : Coins Byte) :
    ∃ finished final, createClientFinished env coins initiator' = (.ok finished, final) := by
  obtain ⟨send, recv, armed⟩ := paired.armed
  obtain ⟨left, -, supported, approved⟩ := handshakeCiphers_fresh armed.ciphers
  obtain ⟨-, _, verify, _, -, -, length, sealed, -⟩ := createServerFinished_ok_iff.mp created
  obtain ⟨-, cipher, plaintext, _, -, opened, -, -, rfl⟩ := processServerFinished_ok_iff.mp accepted
  obtain ⟨rfl, -⟩ := opened_is_sealed ideal sealed opened
  have small : (initiator.transcript ++ frame messageTypeServerFinished verify).length ≤
      maxUint32 := by
    have bound := paired.small
    rw [List.length_append, frame_length, length, headerSize, maxUint32]
    omega
  obtain ⟨verify', computed, length'⟩ :=
    verifyData_total ideal.xof.length .clientFinished paired.size small
  obtain ⟨ciphers, made⟩ := deriveDatagramCiphers_total ideal.xof.length initiator.session.role
    paired.size supported approved
  obtain ⟨prefixes, drawn⟩ := noncePrefixes_total ideal.xof.length initiator.datagram paired.size
  exact ⟨_, _, createClientFinished_ok_iff.mpr ⟨rfl, send, verify', _, ciphers, prefixes,
    armed.sends, computed, length', run_sealNext _ _ left, paired.alive, paired.size, made,
    drawn, rfl⟩⟩

theorem processClientFinished_paired (ideal : IdealEnv env)
    (paired : Paired env initiator responder) {keyedInitiator : Handshake Byte}
    (created : createServerFinished env responder = (.ok serverFinished, responder'))
    (accepted : processServerFinished env serverFinished initiator = (.ok (), initiator'))
    (finished : createClientFinished env coins initiator' = (.ok clientFinished, keyedInitiator))
    (coins' : Coins Byte) :
    ∃ final, processClientFinished env coins' clientFinished responder' = (.ok (), final) := by
  obtain ⟨secrets, -, transcripts⟩ := serverFinished_binds ideal created accepted
  obtain ⟨send, recv, armed⟩ := paired.armed
  obtain ⟨send', recv', armed'⟩ := paired.armed'
  obtain ⟨-, -, supported, approved⟩ := handshakeCiphers_fresh armed'.ciphers
  obtain ⟨-, _, verify, _, -, -, length, sealed, rfl⟩ := createServerFinished_ok_iff.mp created
  obtain ⟨-, _, _, _, -, -, -, -, rfl⟩ := processServerFinished_ok_iff.mp accepted
  obtain ⟨-, cipher, verify', moved, _, _, present, computed, length', sealed', -, -, -, -, -⟩ :=
    createClientFinished_ok_iff.mp finished
  obtain rfl : send = cipher := Option.some.inj (armed.sends.symm.trans present)
  have keys := armed.ciphers
  have keys' := armed'.ciphers
  rw [paired.leads] at keys
  rw [paired.follows, ← paired.suite, ← paired.secret] at keys'
  obtain ⟨-, rfl⟩ := handshakeCiphers_mirrored keys keys'
  have opened := openNext_sealed ideal.aead (by simp [frame]) sealed'
  have size : responder.sharedSecret.length = 32 := secrets ▸ paired.size
  obtain ⟨ciphers, made⟩ := deriveDatagramCiphers_total ideal.xof.length responder.session.role size
    supported approved
  obtain ⟨prefixes, drawn⟩ := noncePrefixes_total ideal.xof.length responder.datagram size
  change verifyData env.toCrypto .clientFinished initiator.sharedSecret _ = _ at computed
  rw [secrets, transcripts] at computed
  exact ⟨_, processClientFinished_ok_iff.mpr ⟨rfl, send, _, verify', ciphers, prefixes,
    armed'.receives, opened, decodeFinished_frame (.inl rfl) length', computed, paired.alive', size,
    made, drawn, rfl⟩⟩

end Finished

structure Exchange (env : Env Byte) (coins coins' : Nat → Coins Byte)
    (before answering : Handshake Byte) where
  clientHello : List Byte
  serverHello : List Byte
  serverFinished : List Byte
  clientFinished : List Byte
  sent : Handshake Byte
  accepted : Handshake Byte
  helloSent : Handshake Byte
  received : Handshake Byte
  responder : Handshake Byte
  initiator : Handshake Byte
  keyedInitiator : Handshake Byte
  keyedResponder : Handshake Byte
  hello : createClientHello env (coins 0) before = (.ok clientHello, sent)
  accepts : processClientHello env (coins' 0) clientHello answering = (.ok (), accepted)
  answers : accepted.sendHRR = false
  answer : createServerHello env (coins' 2) accepted = (.ok serverHello, helloSent)
  receives : processServerHello env serverHello sent = (.ok (), received)
  finishes : createServerFinished env helloSent = (.ok serverFinished, responder)
  verifies : processServerFinished env serverFinished received = (.ok (), initiator)
  completes : createClientFinished env (coins 3) initiator = (.ok clientFinished, keyedInitiator)
  completes' : processClientFinished env (coins' 3) clientFinished responder =
    (.ok (), keyedResponder)

theorem honest_exchange (ideal : IdealEnv env) (correct : CorrectRegistry env)
    (compatible : Compatible env i r) (start : Startable i before) (answer : Answerable r answering)
    (known : getSuite env.registry before.session.kemSuite.id = some before.session.kemSuite)
    (transcript : before.transcript = answering.transcript) (coins coins' : Nat → Coins Byte)
    (entropy : (coins 0).random.isSome) (entropy' : (coins' 2).random.isSome) :
    Nonempty (Exchange env coins coins' before answering) := by
  obtain ⟨clientHello, sent, hello⟩ := createClientHello_total compatible correct start entropy
  have meets : Meets env i r before sent answering (coins 0) clientHello :=
    ⟨start, answer, hello, known, transcript⟩
  obtain ⟨random, keyPair, staticCT, staticSecret, -, -, -, accepts⟩ :=
    processClientHello_meets compatible correct meets
  have accepted := (accepts (coins' 0) _).mpr rfl
  obtain ⟨serverHello, helloSent, answered⟩ :=
    createServerHello_total compatible correct ideal.xof meets accepted entropy'
  obtain ⟨received, receives, paired⟩ :=
    paired_of_meets compatible correct ideal.xof meets accepted answered
  obtain ⟨send, recv, armed⟩ := paired.armed'
  have small : helloSent.transcript.length ≤ maxUint32 := by
    rw [← paired.transcript]
    exact paired.small.trans (by decide)
  obtain ⟨serverFinished, responder, finishes⟩ := createServerFinished_total ideal.xof armed
    paired.sent (paired.secret ▸ paired.size) small
  obtain ⟨initiator, verifies⟩ := processServerFinished_paired ideal paired finishes
  obtain ⟨clientFinished, keyedInitiator, completes⟩ :=
    createClientFinished_total ideal paired finishes verifies (coins 3)
  obtain ⟨keyedResponder, completes'⟩ :=
    processClientFinished_paired ideal paired finishes verifies completes (coins' 3)
  exact ⟨⟨clientHello, serverHello, serverFinished, clientFinished, sent, _, helloSent, received,
    responder, initiator, keyedInitiator, keyedResponder, hello, accepted, answer.sendHRR, answered,
    receives, finishes, verifies, completes, completes'⟩⟩

end QuantumGo.HonestRuns
