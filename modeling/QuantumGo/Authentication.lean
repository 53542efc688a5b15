import QuantumGo.StreamAgreement

/-!
The optional authentication fails closed. Equal shared secrets mean equal folds:
every fold has its own domain, so a side that folded a static or a pre-shared
secret never meets a side that did not.
-/

namespace QuantumGo.Authentication

open Octets Effect Symbolic Wire HelloCodec Aead Kem Ticket Tunnel Flights
open FlightSpecs ResponderSpecs HelloRuns Agreement HonestRuns
open KeySchedule hiding deriveHandshakeKeys

variable {Byte : Type} [Octet Byte] {first second output : List Byte}

theorem foldSecrets_ok_iff {domain : Domain} {crypto : Crypto Byte} :
    foldSecrets domain crypto first second = .ok output ↔
      first.length = sharedSecretSize ∧ second.length = sharedSecretSize ∧
      deriveKeyMultiple crypto domain [first, second] sharedSecretSize = .ok output := by
  unfold foldSecrets
  rw [guard_ok_iff, guard_ok_iff, ne_eq, not_not, ne_eq, not_not]

/-- A secret that no static or pre-shared fold produces. -/
def Unfolded (crypto : Crypto Byte) (secret : List Byte) : Prop :=
  ∀ first second, deriveAuthenticatedSecret crypto first second ≠ .ok secret ∧
    derivePSKSecret crypto first second ≠ .ok secret

structure SecretsApart (crypto : Crypto Byte) (suite : Suite Byte) : Prop where
  encapsulated : ∀ pk role coins ct secret,
    suite.encapsulate pk role coins = .ok (ct, secret) → Unfolded crypto secret
  decapsulated : ∀ ct kp role secret,
    suite.decapsulate ct kp role = .ok secret → Unfolded crypto secret

variable {env : Env Byte} {ticketSecret base pskKey : List Byte} {secret' : Option (List Byte)}

section Folds
variable (ideal : XofIdeal 32 env.xof)
include ideal

theorem foldSecrets_injective {domain domain' : Domain} {first' second' : List Byte}
    (folded : foldSecrets domain env.toCrypto first second = .ok output)
    (folded' : foldSecrets domain' env.toCrypto first' second' = .ok output) :
    domain = domain' ∧ first = first' ∧ second = second' := by
  obtain ⟨-, -, derived⟩ := foldSecrets_ok_iff.mp folded
  obtain ⟨-, -, derived'⟩ := foldSecrets_ok_iff.mp folded'
  obtain ⟨domains, inputs⟩ := deriveKeyMultiple_injective ideal derived derived'
  simpa using And.intro domains inputs

/-- Mixing in a ticket's secret does not make a fold of the other two kinds. -/
theorem baseSecret_unfolded {resumed : Bool} {freshSecret : List Byte}
    (mixed : baseSecret env resumed ticketSecret freshSecret = .ok base)
    (fresh : Unfolded env.toCrypto freshSecret) : Unfolded env.toCrypto base := by
  cases resumed with
  | false =>
    obtain rfl : freshSecret = base := by simpa [baseSecret] using mixed
    exact fresh
  | true =>
    intro first second
    constructor
    · intro folded
      exact absurd (foldSecrets_injective ideal mixed folded).1 (by decide)
    · intro folded
      exact absurd (foldSecrets_injective ideal mixed folded).1 (by decide)

variable {secret : Option (List Byte)}

theorem staticFold_injective {base' mixed : List Byte} (unfolded : Unfolded env.toCrypto base)
    (unfolded' : Unfolded env.toCrypto base') (folded : staticFold env base secret = .ok mixed)
    (folded' : staticFold env base' secret' = .ok mixed) : secret = secret' := by
  cases secret with
  | none =>
    obtain rfl : base = mixed := by simpa [staticFold] using folded
    cases secret' with
    | none => rfl
    | some other => exact absurd folded' (unfolded _ _).1
  | some own =>
    cases secret' with
    | none =>
      obtain rfl : base' = mixed := by simpa [staticFold] using folded'
      exact absurd folded (unfolded' _ _).1
    | some other => rw [(foldSecrets_injective ideal folded folded').2.2]

theorem staticFold_ne_psk {mixed : List Byte} (unfolded : Unfolded env.toCrypto base)
    (folded : staticFold env base secret = .ok mixed) :
    derivePSKSecret env.toCrypto first second ≠ .ok mixed := by
  intro psk
  cases secret with
  | none =>
    obtain rfl : base = mixed := by simpa [staticFold] using folded
    exact (unfolded _ _).2 psk
  | some own => exact absurd (foldSecrets_injective ideal folded psk).1 (by decide)

theorem foldedSecret_injective {base' pskKey' : List Byte} {foldPSK foldPSK' : Bool}
    (unfolded : Unfolded env.toCrypto base) (unfolded' : Unfolded env.toCrypto base')
    (folded : foldedSecret env base secret foldPSK pskKey = .ok output)
    (folded' : foldedSecret env base' secret' foldPSK' pskKey' = .ok output) :
    secret = secret' ∧ foldPSK = foldPSK' ∧ (foldPSK = true → pskKey = pskKey') := by
  simp only [foldedSecret, except_bind_ok_iff] at folded folded'
  obtain ⟨mixed, static, psk⟩ := folded
  obtain ⟨mixed', static', psk'⟩ := folded'
  cases foldPSK with
  | false =>
    obtain rfl : mixed = output := by simpa [pskFold] using psk
    cases foldPSK' with
    | false =>
      obtain rfl : mixed' = mixed := by simpa [pskFold] using psk'
      exact ⟨staticFold_injective ideal unfolded unfolded' static static', rfl, by simp⟩
    | true => exact absurd psk' (staticFold_ne_psk ideal unfolded static)
  | true =>
    cases foldPSK' with
    | false =>
      obtain rfl : mixed' = output := by simpa [pskFold] using psk'
      exact absurd psk (staticFold_ne_psk ideal unfolded' static')
    | true =>
      obtain ⟨-, rfl, rfl⟩ := foldSecrets_injective ideal psk psk'
      exact ⟨staticFold_injective ideal unfolded unfolded' static static', rfl, fun _ => rfl⟩

end Folds

/-! What the two chains of builders fold. -/

def FoldedStatic (env : Env Byte) (h : Handshake Byte) (secret : List Byte) : Prop :=
  ∃ base mixed foldPSK pskKey, deriveAuthenticatedSecret env.toCrypto base secret = .ok mixed ∧
    pskFold env mixed foldPSK pskKey = .ok h.sharedSecret

def FoldedPSK (env : Env Byte) (h : Handshake Byte) (key : List Byte) : Prop :=
  ∃ mixed, derivePSKSecret env.toCrypto mixed key = .ok h.sharedSecret

/-- A side's secret, the folds it was made with, and that they began from a KEM
secret. -/
structure Folds (env : Env Byte) (final : Handshake Byte) (staticSecret : Option (List Byte))
    (foldPSK : Bool) (pskKey : List Byte) : Prop where
  folded : ∃ base, Unfolded env.toCrypto base ∧
    foldedSecret env base staticSecret foldPSK pskKey = .ok final.sharedSecret

variable {final : Handshake Byte}

theorem Folds.static {secret : List Byte} {foldPSK : Bool}
    (folds : Folds env final (some secret) foldPSK pskKey) : FoldedStatic env final secret := by
  obtain ⟨base, -, folded⟩ := folds.folded
  simp only [foldedSecret, except_bind_ok_iff, staticFold] at folded
  obtain ⟨mixed, static, psk⟩ := folded
  exact ⟨base, mixed, foldPSK, pskKey, static, psk⟩

variable {staticSecret : Option (List Byte)}

theorem Folds.psk (folds : Folds env final staticSecret true pskKey) :
    FoldedPSK env final pskKey := by
  obtain ⟨base, -, folded⟩ := folds.folded
  simp only [foldedSecret, except_bind_ok_iff, pskFold, if_true] at folded
  obtain ⟨mixed, -, psk⟩ := folded
  exact ⟨mixed, psk⟩

structure KemIdeal (env : Env Byte) : Prop where
  apart : ∀ id suite, getSuite env.registry id = some suite → SecretsApart env.toCrypto suite
  rejects : ∀ id suite, getSuite env.registry id = some suite → Rejects suite

variable {session session' : Session Byte} {ticket : Option (List Byte)}
  {ticketManager : Option (TicketManager Byte)} {before : Handshake Byte}

omit [Octet Byte] in
theorem pinnedLeg_unpinned {coins : Coins Byte} (unpinned : session.pinnedServerKey = none) :
    pinnedLeg env coins session = .ok ([], none) := by
  simp [pinnedLeg, unpinned]

omit [Octet Byte] in
/-- A pin gives a nonempty ciphertext and a secret, encapsulated to the pin. -/
theorem pinnedLeg_pinned {coins : Coins Byte} {pin : PublicKey Byte} {staticCT : List Byte}
    (pinned : session.pinnedServerKey = some pin)
    (leg : pinnedLeg env coins session = .ok (staticCT, staticSecret)) :
    ∃ suite ct secret, getSuite env.registry pin.suite = some suite ∧
      suite.encapsulate pin .initiator coins.staticEnc = .ok (ct, secret) ∧
      staticCT = ct.raw ∧ staticSecret = some secret := by
  simp only [pinnedLeg, pinned, except_bind_ok_iff, except_pure_ok_iff,
    resolveKEMSuite_ok_iff] at leg
  obtain ⟨suite, found, ⟨ct, secret⟩, sent, same⟩ := leg
  obtain ⟨rfl, rfl⟩ := Prod.mk.inj same
  exact ⟨suite, ct, secret, found, sent, rfl, rfl⟩

/-- A retry leaves nothing of an option that is not set. -/
theorem initiator_leftovers
    (ready : InitiatorReady env (initiatorStart session ticket ticketSecret) before) :
    (session.pinnedServerKey = none → before.staticSecret = none) ∧
    (session.psk = none → before.foldPSK = false) := by
  cases ready with
  | straight => exact ⟨fun _ => rfl, fun _ => rfl⟩
  | retried created _ processed =>
    obtain ⟨-, _, _, _, _, -, -, leg, -, -, rfl⟩ := createClientHello_ok_iff.mp created
    obtain ⟨-, -, _, _, _, _, -, -, -, -, -, rfl⟩ := processHelloRetryRequest_ok_iff.mp processed
    constructor
    · intro unpinned
      obtain ⟨-, rfl⟩ := Prod.mk.inj (Except.ok.inj (leg.symm.trans (pinnedLeg_unpinned unpinned)))
      rfl
    · intro keyless
      change (false || session.psk.isSome) = false
      rw [keyless]
      rfl

/-- A responder about to read a ClientHello has selected nothing yet. -/
theorem responder_leftovers
    (ready : ResponderReady env (responderStart session' ticketManager) before) :
    before.staticSecret = none ∧ before.foldPSK = false := by
  cases ready with
  | straight => exact ⟨rfl, rfl⟩
  | retried processed asked =>
    obtain ⟨steers, -, _, -, rfl⟩ := createHelloRetryRequest_ok_iff.mp asked
    obtain ⟨-, msg, -, -, ⟨-, -, suite, -, rfl⟩ | ⟨chosen, -, -, rfl⟩⟩ :=
      processClientHello_ok_iff.mp processed
    · exact ⟨rfl, rfl⟩
    · exact absurd steers (by simp [clientHelloAccepted, responderStart, newHandshake])

/-- What an initiator sent and what it folds. -/
theorem initiator_folds (ideal : XofIdeal 32 env.xof) (kem : KemIdeal env)
    (own : SecretsApart env.toCrypto session.kemSuite)
    (run : InitiatorHellos env (initiatorStart session ticket ticketSecret) final) :
    ∃ msg staticSecret pskKey, decodeClientHello run.clientHello = .ok msg ∧
      pinnedLeg env run.coins session = .ok (msg.chkemStaticCiphertext, staticSecret) ∧
      msg.pskIdentity = advertisedIdentity session ∧
      (∀ key, session.psk = some key → pskKey = key) ∧
      Folds env final staticSecret session.psk.isSome pskKey := by
  obtain ⟨before, sent, coins, clientHello, serverHello, ready, created, processed⟩ := run
  obtain ⟨config, -⟩ := ready.sameSetup
  obtain ⟨unpinned, keyless⟩ := initiator_leftovers ready
  have suites : SecretsApart env.toCrypto before.session.kemSuite := by
    cases ready with
    | straight => exact own
    | retried _ _ processed =>
      obtain ⟨-, -, _, suite, _, _, -, -, found, -, -, rfl⟩ :=
        processHelloRetryRequest_ok_iff.mp processed
      exact kem.apart _ suite found
  obtain ⟨random, keyPair, staticCT, staticSecret, -, leg, read, -, rfl⟩ :=
    createClientHello_reads created
  obtain ⟨-, msg, freshSecret, ct, keyPair', base, secret, ciphers, -, -, -, -, -, opened,
    mixed, folded, -, rfl⟩ := processServerHello_ok_iff.mp processed
  rw [pinnedLeg_config config] at leg
  have psk : before.session.psk = session.psk := (configOf_fields config).2.2.2.2.1
  have statics : staticSecret = none → before.staticSecret = none := by
    intro absent
    apply unpinned
    cases pinned : session.pinnedServerKey with
    | none => rfl
    | some pin =>
      obtain ⟨_, _, _, -, -, -, present⟩ := pinnedLeg_pinned pinned leg
      simp [absent] at present
  have carried : foldedSecret env base staticSecret session.psk.isSome (session.psk.getD []) =
      .ok secret := by
    simp only [clientHelloSent, psk] at folded
    exact (foldedSecret_carried statics keyless).symm.trans folded
  refine ⟨_, staticSecret, session.psk.getD [], read, leg,
    advertisedIdentity_config config, fun key same => by rw [same]; rfl, ⟨base, ?_, carried⟩⟩
  exact baseSecret_unfolded ideal mixed (suites.decapsulated _ _ _ _ opened)

/-- What a responder selected and what it folds. -/
theorem responder_folds (ideal : XofIdeal 32 env.xof) (kem : KemIdeal env)
    (run : ResponderHellos env (responderStart session' ticketManager) final) :
    ∃ msg staticSecret key pskKey, decodeClientHello run.clientHello = .ok msg ∧
      staticLeg env session' msg.chkemStaticCiphertext = .ok staticSecret ∧
      (session'.requireStaticAuth = true → msg.chkemStaticCiphertext.length ≠ 0) ∧
      chosenPSK run.coins session' msg.pskIdentity = .ok key ∧
      (∀ chosen, key = some chosen → pskKey = chosen) ∧
      Folds env final staticSecret key.isSome pskKey := by
  obtain ⟨before, accepted, coins, coins', clientHello, serverHello, ready, exact, processed,
    answers, created⟩ := run
  obtain ⟨config, -⟩ := ready.sameSetup
  obtain ⟨noStatic, noKey⟩ := responder_leftovers ready
  obtain ⟨-, msg, read, -, ⟨-, -, suite, -, rfl⟩ | ⟨chosen, found, selects, rfl⟩⟩ :=
    processClientHello_ok_iff.mp processed
  · exact absurd answers (by simp [steered])
  · obtain ⟨remote, random, ct, freshSecret, base, secret, ciphers, -, -, sent, mixed, -, rfl,
      folded, -, rfl⟩ := createServerHello_ok_iff.mp created
    have static := selects.staticSecret
    have key := selects.key
    have required := selects.required
    rw [staticLeg_config config] at static
    rw [chosenPSK_config config] at key
    rw [(configOf_fields config).2.2.2.1] at required
    refine ⟨msg, chosen.staticSecret, chosen.key, chosen.key.getD [], read, static, required, key,
      fun value same => by rw [same]; rfl, ⟨base, ?_, ?_⟩⟩
    · exact baseSecret_unfolded ideal mixed ((kem.apart _ _ found).encapsulated _ _ _ _ _ sent)
    · exact (foldedSecret_carried (fun _ => noStatic) (fun _ => noKey)).symm.trans folded

variable {initiator responder : Handshake Byte}

/-! Both sides of one exchange. -/
section Exchange
variable (ideal : IdealEnv env) (kem : KemIdeal env)
  (own : SecretsApart env.toCrypto session.kemSuite)
  (run : InitiatorHellos env (initiatorStart session ticket ticketSecret) initiator)
  (run' : ResponderHellos env (responderStart session' ticketManager) responder)
  (secrets : initiator.sharedSecret = responder.sharedSecret)
  (hellos : run.clientHello = run'.clientHello)
include ideal kem own secrets hellos

/-- With one secret and one ClientHello between them, the two sides made the same
folds. -/
theorem same_folds : ∃ msg staticSecret key, decodeClientHello run.clientHello = .ok msg ∧
      pinnedLeg env run.coins session = .ok (msg.chkemStaticCiphertext, staticSecret) ∧
      staticLeg env session' msg.chkemStaticCiphertext = .ok staticSecret ∧
      (session'.requireStaticAuth = true → msg.chkemStaticCiphertext.length ≠ 0) ∧
      msg.pskIdentity = advertisedIdentity session ∧
      chosenPSK run'.coins session' msg.pskIdentity = .ok key ∧ session.psk = key ∧
      (∀ secret, staticSecret = some secret →
        FoldedStatic env initiator secret ∧ FoldedStatic env responder secret) ∧
      (∀ chosen, key = some chosen → FoldedPSK env initiator chosen ∧
          FoldedPSK env responder chosen) := by
  obtain ⟨msg, staticSecret, pskKey, read, leg, identity, own', folds⟩ :=
    initiator_folds ideal.xof kem own run
  obtain ⟨msg', staticSecret', key, pskKey', read', leg', required, chosen, own'', folds'⟩ :=
    responder_folds ideal.xof kem run'
  rw [hellos] at read
  obtain rfl : msg = msg' := Except.ok.inj (read.symm.trans read')
  obtain ⟨base, unfolded, folded⟩ := folds.folded
  obtain ⟨base', unfolded', folded'⟩ := folds'.folded
  rw [secrets] at folded
  obtain ⟨rfl, folding, keys⟩ := foldedSecret_injective ideal.xof unfolded unfolded' folded folded'
  have same : session.psk = key := by
    cases configured : session.psk with
    | none =>
      rw [configured] at folding
      exact (Option.isNone_iff_eq_none.mp (by simpa using folding.symm)).symm
    | some own =>
      rw [configured] at folding keys
      obtain ⟨other, rfl⟩ := Option.isSome_iff_exists.mp folding.symm
      rw [← own' own configured, ← own'' other rfl, keys rfl]
  refine ⟨msg, staticSecret, key, hellos ▸ read, leg, leg', required, identity, chosen,
    same, ?_, ?_⟩
  · rintro secret rfl
    exact ⟨folds.static, folds'.static⟩
  · rintro own rfl
    have first := own' own same
    have second := own'' own rfl
    subst first second
    rw [same] at folds
    exact ⟨folds.psk, folds'.psk⟩

end Exchange

structure ServerProven (env : Env Byte) (session session' : Session Byte) (clientHello : List Byte)
    (responder : Handshake Byte) : Prop where
  pinned : ∀ pin, session.pinnedServerKey = some pin →
    ∃ keyPair suite msg ct secret, session'.staticKeyPair = some keyPair ∧
      keyPair.publicKey = pin ∧ getSuite env.registry keyPair.suite = some suite ∧
      decodeClientHello clientHello = .ok msg ∧
      suite.parseCiphertext msg.chkemStaticCiphertext = .ok ct ∧
      suite.decapsulate ct keyPair .responder = .ok secret ∧ FoldedStatic env responder secret
  psk : ∀ key, session.psk = some key → FoldedPSK env responder key

structure ClientProven (env : Env Byte) (session session' : Session Byte) (clientHello : List Byte)
    (initiator : Handshake Byte) : Prop where
  psk : session'.requirePSK = true → ∃ msg key, decodeClientHello clientHello = .ok msg ∧
    responderPSK session' msg.pskIdentity = some key ∧ FoldedPSK env initiator key
  static : session'.requireStaticAuth = true → ∃ msg secret,
    decodeClientHello clientHello = .ok msg ∧ msg.chkemStaticCiphertext.length ≠ 0 ∧
    FoldedStatic env initiator secret

section Exchange
variable (ideal : IdealEnv env) (kem : KemIdeal env)
  (own : SecretsApart env.toCrypto session.kemSuite)
  (run : InitiatorHellos env (initiatorStart session ticket ticketSecret) initiator)
  (run' : ResponderHellos env (responderStart session' ticketManager) responder)
  (secrets : initiator.sharedSecret = responder.sharedSecret)
  (hellos : run.clientHello = run'.clientHello)
include ideal kem own secrets hellos

theorem server_proven : ServerProven env session session' run.clientHello responder := by
  obtain ⟨msg, staticSecret, key, read, leg, leg', -, -, -, same, statics, keys⟩ :=
    same_folds ideal kem own run run' secrets hellos
  refine ⟨?_, fun key configured => (keys key (same.symm.trans configured)).2⟩
  intro pin pinned
  obtain ⟨suite, ct, secret, found, sent, rawCT, rfl⟩ := pinnedLeg_pinned pinned leg
  unfold staticLeg at leg'
  cases identity : session'.staticKeyPair with
  | none => simp [identity] at leg'
  | some keyPair =>
    have offered : msg.chkemStaticCiphertext.length > 0 := by
      rw [rawCT, (suite.ciphertext_size _ _ _ _ _ sent).1]
      exact suite.ciphertextSize_bound.1
    simp only [identity, if_pos offered, except_bind_ok_iff, except_pure_ok_iff,
      resolveKEMSuite_ok_iff] at leg'
    obtain ⟨suite', found', ct', parsed, secret', opened, equal⟩ := leg'
    obtain rfl : secret' = secret := Option.some.inj equal
    -- The ciphertext's size names the suite, and implicit rejection the key.
    have sizes := suite'.parsed_size _ _ parsed
    rw [rawCT, (suite.ciphertext_size _ _ _ _ _ sent).1] at sizes
    obtain rfl : suite = suite' := getSuite_eq_of_ciphertextSize found found' sizes
    refine ⟨keyPair, suite, msg, ct', secret', rfl, ?_, found', read, parsed, opened,
      (statics secret' rfl).2⟩
    by_contra other
    rw [rawCT] at parsed
    exact kem.rejects _ suite found _ .initiator _ _ _ _ _ _ sent parsed opened other rfl

theorem client_proven
    (fresh : ∀ dummy, run'.coins.dummyPSK = some dummy → session.psk ≠ some dummy.1) :
    ClientProven env session session' run.clientHello initiator := by
  obtain ⟨msg, staticSecret, key, read, leg, -, required, -, chosen, same, statics, keys⟩ :=
    same_folds ideal kem own run run' secrets hellos
  constructor
  · intro demanded
    unfold chosenPSK at chosen
    cases held : responderPSK session' msg.pskIdentity with
    | some stored =>
      simp only [held] at chosen
      exact ⟨msg, stored, read, held, (keys stored (Except.ok.inj chosen).symm).1⟩
    | none =>
      simp only [held, demanded, if_true] at chosen
      cases drawn : run'.coins.dummyPSK with
      | none => simp [drawn] at chosen
      | some dummy =>
        simp only [drawn] at chosen
        exact absurd (same.trans (Except.ok.inj chosen).symm) (fresh dummy drawn)
  · intro demanded
    have sent := required demanded
    cases pinned : session.pinnedServerKey with
    | none =>
      rw [pinnedLeg_unpinned pinned] at leg
      obtain ⟨empty, -⟩ := Prod.mk.inj (Except.ok.inj leg)
      exact absurd (congrArg List.length empty).symm sent
    | some pin =>
      obtain ⟨_, _, secret, -, -, -, rfl⟩ := pinnedLeg_pinned pinned leg
      exact ⟨msg, secret, read, sent, (statics secret rfl).1⟩

end Exchange

/-- The options of the two sides are arbitrary, and so is the network between them:
an initiator that accepts this responder's Finished has proven the responder, and a
responder that accepts this initiator's Finished has proven the initiator. The random
key a responder folds for an unknown identity is assumed to be no initiator's key. -/
theorem authentication_fails_closed (ideal : IdealEnv env) (kem : KemIdeal env)
    (own : SecretsApart env.toCrypto session.kemSuite)
    {initiator responder responder' : Handshake Byte} {serverFinished : List Byte}
    (run : InitiatorHellos env (initiatorStart session ticket ticketSecret) initiator)
    (run' : ResponderHellos env (responderStart session' ticketManager) responder)
    (fresh : ∀ dummy, run'.coins.dummyPSK = some dummy → session.psk ≠ some dummy.1)
    (created : createServerFinished env responder = (.ok serverFinished, responder')) :
    (∀ initiator', processServerFinished env serverFinished initiator = (.ok (), initiator') →
      ServerProven env session session' run.clientHello responder) ∧
    (∀ data coins coins' clientFinished initiator' keyedInitiator keyedResponder,
      processServerFinished env data initiator = (.ok (), initiator') →
      createClientFinished env coins initiator' = (.ok clientFinished, keyedInitiator) →
      processClientFinished env coins' clientFinished responder' = (.ok (), keyedResponder) →
      ClientProven env session session' run.clientHello initiator) := by
  constructor
  · intro initiator' accepted
    obtain ⟨secrets, -, -⟩ := serverFinished_binds ideal created accepted
    obtain ⟨-, hellos, -⟩ :=
      agrees_of_serverFinished ideal (run.done rfl) (run'.done rfl) created accepted
    exact server_proven ideal kem own run run' secrets hellos
  · intro data coins coins' clientFinished initiator' keyedInitiator keyedResponder processed
      finished accepted
    obtain ⟨secrets, transcripts⟩ := clientFinished_binds ideal finished accepted
    obtain ⟨-, _, plaintext, _, -, -, -, -, rfl⟩ := processServerFinished_ok_iff.mp processed
    obtain ⟨-, _, verify, _, -, -, -, -, rfl⟩ := createServerFinished_ok_iff.mp created
    have hellos := clientHello_of_transcripts ideal (run.done rfl) (run'.done rfl) transcripts
    exact client_proven ideal kem own run run' secrets hellos fresh

/-! A run in which every option is set. -/
section Symbolic
open SymbolicKem StreamAgreement

/-- Secrets of the symbolic suites carry their own head symbols. -/
theorem symbolic_unfolded {head : List Nat} {args : List (List Letter)} (other : head ≠ [0]) :
    Unfolded SymbolicKem.env.toCrypto (symbols head args 32) := by
  have apart {domain : Domain} {first second : List Letter} :
      foldSecrets domain SymbolicKem.env.toCrypto first second ≠ .ok (symbols head args 32) := by
    intro folded
    obtain ⟨-, -, derived⟩ := foldSecrets_ok_iff.mp folded
    obtain ⟨-, -, -, same⟩ := deriveKeyMultiple_ok_iff.mp derived
    exact other (symbols_inj (by decide) same).1
  exact fun _ _ => ⟨apart, apart⟩

theorem symbolic_apart {id : UInt16} {keySize ctSize : Nat}
    {keyBound : 0 < keySize ∧ keySize < 2 ^ 16} {ctBound : 0 < ctSize ∧ ctSize < 2 ^ 16} :
    SecretsApart SymbolicKem.env.toCrypto (suite id keySize ctSize keyBound ctBound) where
  encapsulated := by
    rintro pk role coins ct secret ⟨⟩
    exact symbolic_unfolded (by simp)
  decapsulated := by
    rintro ct kp role secret ⟨⟩
    unfold decapsulate
    split
    · split <;> exact symbolic_unfolded (by simp)
    · exact symbolic_unfolded (by simp)

theorem symbolic_kem : KemIdeal SymbolicKem.env where
  apart id found registered := by
    unfold getSuite at registered
    split at registered
    · cases registered
      exact symbolic_apart
    · split at registered
      · cases registered
        exact symbolic_apart
      · cases registered
  rejects id suite found := (env_correct id suite found).2

def pairedKey : List Letter := List.replicate 32 (lit 1)

theorem authentication_fails_closed_symbolic :
    ∃ (session session' : Session Letter) (clientHello : List Letter)
      (initiator responder : Handshake Letter),
      session.pinnedServerKey.isSome ∧ session.psk = some pairedKey ∧
      session'.requireStaticAuth = true ∧ session'.requirePSK = true ∧
      ServerProven SymbolicKem.env session session' clientHello responder ∧
      ClientProven SymbolicKem.env session session' clientHello initiator := by
  obtain ⟨keyPair, generated⟩ : ∃ keyPair, SymbolicKem.registry.xwing.generateKeyPair [] =
      .ok keyPair :=
    ⟨_, rfl⟩
  obtain ⟨i, r, -, -, base, fresh⟩ := symbolic_sessions
  let session : Session Letter := { i with
    pinnedServerKey := some keyPair.publicKey, psk := some pairedKey, pskIdentity := [lit 1] }
  let session' : Session Letter := { r with
    staticKeyPair := some keyPair, requireStaticAuth := true
    psk := some pairedKey, pskIdentity := [lit 1], pskLookup := none, requirePSK := true }
  have compatible : Compatible SymbolicKem.env session session' := {
    leads := base.leads
    follows := base.follows
    unpinned := fun absent => nomatch absent
    pinned := by
      rintro pin ⟨⟩
      obtain rfl := Except.ok.inj generated
      exact ⟨_, [], _, rfl, generated, rfl, rfl⟩
    keyless := fun absent => nomatch absent
    keyed := by
      rintro key ⟨⟩
      exact ⟨List.length_replicate, show [lit 1].length ≤ maxPSKIdentitySize by decide, rfl⟩
    sessionID := base.sessionID }
  have fresh : Fresh SymbolicKem.env session := ⟨fresh.known, fresh.keyPair, fresh.alive⟩
  obtain ⟨run⟩ := honest_exchange env_ideal symbolic_correct compatible fresh.startable
    (answerable_responderStart session' none) fresh.known rfl (fun _ => steadyCoins)
    (fun _ => steadyCoins) rfl rfl
  obtain ⟨_, _, _, _, -, -, -, exact, -⟩ := createClientHello_reads run.hello
  have own : SecretsApart SymbolicKem.env.toCrypto session.kemSuite :=
    symbolic_kem.apart _ _ fresh.known
  obtain ⟨server, client⟩ := authentication_fails_closed env_ideal symbolic_kem own
    (⟨_, _, _, run.clientHello, _, .straight, run.hello, run.receives⟩ :
      InitiatorHellos SymbolicKem.env (initiatorStart session none []) run.received)
    (⟨_, _, _, _, _, _, .straight, exact, run.accepts, run.answers, run.answer⟩ :
      ResponderHellos SymbolicKem.env (responderStart session' none) run.helloSent)
    (by
      rintro dummy ⟨⟩ clash
      exact absurd (Option.some.inj clash) (by decide))
    run.finishes
  exact ⟨session, session', run.clientHello, run.received, run.helloSent, rfl, rfl, rfl, rfl,
    server _ run.verifies,
    client _ _ _ _ _ _ _ run.verifies run.completes run.completes'⟩

end Symbolic

end QuantumGo.Authentication
