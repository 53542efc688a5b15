import QuantumGo.DatagramTwins

/-!
A handshake message that a builder refuses. The machine keeps what the builder had
written by then. Where the refusal comes early, that is nothing a later message can
see; the late refusals are listed here, and all others leave no trace.
-/

namespace QuantumGo.DroppedMessages

open Octets Effect Symbolic Wire HelloCodec Aead Kem Tunnel Flights
open BuilderFrames FlightSpecs ResponderSpecs HelloRuns HonestRuns DatagramHandshake DatagramTwins
open KeySchedule hiding deriveHandshakeKeys

variable {Byte : Type} [Octet Byte]

def Usable (env : Env Byte) (suite : UInt16) : Prop :=
  isSupported suite = true ∧ (env.fips = true → isFIPSApproved suite = true)

/-! The late refusals. -/

def SuiteRefused (env : Env Byte) (h : Handshake Byte) (body : List Byte) : Prop :=
  h.state = .clientHelloSent ∧ ∃ msg ct keyPair secret, decodeServerHello body = .ok msg ∧
    msg.version.isCompatible current = true ∧ msg.kemSuite = h.session.kemSuite.id ∧
    h.session.kemSuite.parseCiphertext msg.chkemCiphertext = .ok ct ∧
    h.session.localKeyPair = some keyPair ∧
    h.session.kemSuite.decapsulate ct keyPair .initiator = .ok secret ∧
    ¬ Usable env msg.cipherSuite

structure Greets (env : Env Byte) (h : Handshake Byte) (body : List Byte) (msg : ClientHello Byte)
    (suite : Suite Byte) (remote : PublicKey Byte) (secret : Option (List Byte)) : Prop where
  state : h.state = .initial
  read : decodeClientHello body = .ok msg
  version : msg.version.isCompatible current = true
  known : getSuite env.registry msg.kemSuite = some suite
  parsed : suite.parsePublicKey msg.chkemPublicKey = .ok remote
  required : ¬ (h.session.requireStaticAuth = true ∧ msg.chkemStaticCiphertext.length = 0)
  leg : staticLeg env h.session msg.chkemStaticCiphertext = .ok secret

/-- A hello that is refused, for want of entropy or of a common cipher suite, when its
static secret is already stored, while later hellos may come without one. -/
def SecretLeft (env : Env Byte) (coins : Coins Byte) (h : Handshake Byte) (body : List Byte) :
    Prop :=
  h.session.requireStaticAuth = false ∧ ∃ msg suite remote secret,
    Greets env h body msg suite remote (some secret) ∧
    ((∃ error, chosenPSK coins h.session msg.pskIdentity = .error error) ∨
      isSupported (selectCipherSuite env msg.cipherSuites) = false)

/-- A hello that is refused for want of a common cipher suite when its pre-shared key is
already stored, while later hellos may come without one. -/
def KeyLeft (env : Env Byte) (coins : Coins Byte) (h : Handshake Byte) (body : List Byte) : Prop :=
  h.session.requirePSK = false ∧ ∃ msg suite remote secret key,
    Greets env h body msg suite remote secret ∧
    chosenPSK coins h.session msg.pskIdentity = .ok (some key) ∧
    isSupported (selectCipherSuite env msg.cipherSuites) = false

/-- A hello that is accepted in full, so that it stands in the transcript, before the KEM
refuses its key. -/
def EncapsulationFails (env : Env Byte) (coins : Coins Byte) (h : Handshake Byte)
    (body : List Byte) : Prop :=
  h.state = .initial ∧ ∃ msg chosen error, decodeClientHello body = .ok msg ∧
    msg.version.isCompatible current = true ∧
    getSuite env.registry msg.kemSuite = some chosen.suite ∧ Selects env coins h msg chosen ∧
    chosen.suite.encapsulate chosen.remote .responder coins.enc = .error error

def LateRefusal (env : Env Byte) (d : DgramHandshake Byte) (m : Inbound Byte) : Prop :=
  match d.role with
  | .initiator => m.typ = messageTypeServerHello ∧ SuiteRefused env d.hs m.body
  | .responder => m.typ = messageTypeClientHello ∧ (SecretLeft env m.coins d.hs m.body ∨
      KeyLeft env m.coins d.hs m.body ∨ EncapsulationFails env m.coins d.hs m.body)

/-! What a datagram handshake always satisfies. -/

structure Sane (env : Env Byte) (role : Role) (h : Handshake Byte) : Prop where
  owner : h.session.role = role
  ticket : h.ticket = none
  ticketless : h.ticketManager = none
  resumed : h.resumed = false
  staticSize : ∀ secret, h.staticSecret = some secret → secret.length = 32
  foldSize : h.foldPSK = true → h.pskKey.length = 32
  keySize : ∀ key, h.session.psk = some key → key.length = 32
  idSize : role = .responder → h.session.id.length ≤ maxSessionIDLen
  firstSize : (h.firstClientHello.getD []).length ≤ maxUint32
  keyed : role = .responder → h.state = .serverHelloSent ∨ h.state = .serverFinishedSent →
    h.sharedSecret.length = 32 ∧ Usable env h.session.cipherSuite ∧ h.session.state ≠ .closed

/-- What the callers promise of a session: NewSession draws an identifier of 16 bytes and
the endpoint checks the length of a configured key. -/
structure Configured (session : Session Byte) : Prop where
  idSize : session.id.length ≤ maxSessionIDLen
  keySize : ∀ key, session.psk = some key → key.length = 32

inductive Reachable (env : Env Byte) (session : Session Byte) : DgramHandshake Byte → Prop where
  | new : Reachable env session (newDgramHandshake session)
  | started {coins : Coins Byte} {out : List (HsMessage Byte)} {d : DgramHandshake Byte}
      (role : session.role = .initiator)
      (ran : start env coins (newDgramHandshake session) = (.ok out, d)) : Reachable env session d
  | message {d d' : DgramHandshake Byte} {m : Inbound Byte} {reaction : Reaction Byte}
      (reached : Reachable env session d)
      (ran : onMessage env m.coins m.typ m.body d = (.ok reaction, d')) : Reachable env session d'

def Advances (d : DgramHandshake Byte) (typ : UInt8) : Prop :=
  (typ ≠ 0 ∧ typ = d.expecting) ∨ (d.role = .initiator ∧ typ = messageTypeHelloRetryRequest ∧
    d.expecting = messageTypeServerHello ∧ d.hs.hrrDone = false)

structure Dropped (env : Env Byte) (d : DgramHandshake Byte) (m : Inbound Byte)
    (d' : DgramHandshake Byte) : Prop where
  advances : Advances d m.typ
  ran : onMessage env m.coins m.typ m.body d = (.ok ([], false), d')
  still : d'.hs.state = d.hs.state

variable {env : Env Byte} {coins : Coins Byte} {h : Handshake Byte} {error : Fault}
  {data : List Byte}

section Initiator
variable {h' : Handshake Byte}

/-- A refused ServerHello leaves the server's random, unless its cipher suite is refused. -/
theorem processServerHello_stops (sized : XofSized env.xof) (sane : Sane env .initiator h)
    (ran : processServerHello env data h = (.error error, h')) :
    OffRandom h h' ∨ SuiteRefused env h data := by
  have run := ran
  rw [processServerHello, read_bind, reject_bind_error_iff] at run
  rcases run with ⟨-, -, rfl⟩ | ⟨sent, run⟩
  · exact .inl (OffRandom.refl _)
  rw [lift_bind_error_iff] at run
  rcases run with ⟨-, rfl⟩ | ⟨msg, read, run⟩
  · exact .inl (OffRandom.refl _)
  rw [reject_bind_error_iff] at run
  rcases run with ⟨-, -, rfl⟩ | ⟨version, run⟩
  · exact .inl (OffRandom.refl _)
  rw [reject_bind_error_iff] at run
  rcases run with ⟨-, -, rfl⟩ | ⟨suite, run⟩
  · exact .inl (OffRandom.refl _)
  have unresumed : (h.resumed || (decide (msg.sessionID.length > 0) &&
      h.ticket == some msg.sessionID)) = h.resumed := by
    simp [sane.ticket]
  rw [write_bind, unresumed, bind_error_iff] at run
  rcases run with stopped | ⟨freshSecret, h₁, opened, -⟩
  · exact .inl ⟨some msg.random, restores_of_keeps (decapsulateFresh_keeps _) _ _ _ stopped⟩
  obtain ⟨ct, keyPair, parsed, owned, opened, -⟩ := decapsulateFresh_ok_iff.mp opened
  refine .inr ⟨not_not.mp sent, msg, ct, keyPair, freshSecret, read, by simpa using version,
    not_not.mp suite, parsed, owned, opened, fun usable => ?_⟩
  -- Past the decapsulation only the cipher suite can be refused.
  have size := h.session.kemSuite.decapsulated_size _ _ _ _ opened
  obtain ⟨secret, folded, width⟩ := foldedSecret_total sized size sane.staticSize sane.foldSize
  obtain ⟨ciphers, made⟩ := handshakeCiphers_total sized h.session.role width usable.1 usable.2
  have finished : processServerHello env data h = (.ok (), _) :=
    processServerHello_ok_iff.mpr ⟨not_not.mp sent, msg, freshSecret, ct, keyPair, freshSecret,
      secret, ciphers, read, by simpa using version, not_not.mp suite, parsed, owned, opened,
      by simp [baseSecret, echoesTicket, sane.resumed, sane.ticket], folded, made, rfl⟩
  rw [ran] at finished
  cases finished

/-- Hashing a first hello of any size that is ever read cannot fail. -/
theorem replaceFirstHelloWithHash_unstopped {hrrFrame : List Byte}
    (firstSize : (h.firstClientHello.getD []).length ≤ maxUint32) :
    replaceFirstHelloWithHash env hrrFrame h ≠ (.error error, h') := by
  intro stopped
  have hashed : transcriptHash env.toCrypto [h.firstClientHello.getD []] = .ok _ :=
    transcriptHash_ok_iff.mpr ⟨by simp [maxUint32], by simpa using firstSize, rfl⟩
  have finished : replaceFirstHelloWithHash env hrrFrame h = (.ok (), _) :=
    replaceFirstHelloWithHash_ok_iff.mpr ⟨_, hashed, rfl⟩
  rw [stopped] at finished
  cases finished

theorem processHelloRetryRequest_stops (firstSize : (h.firstClientHello.getD []).length ≤ maxUint32)
    (ran : processHelloRetryRequest env coins data h = (.error error, h')) : h' = h := by
  have spares : Spares (· = h) (processHelloRetryRequest env coins data) := by
    refine .bind .read fun _ => .bind (.reject _ _) fun _ =>
      .bind (.reject _ _) fun _ => .bind (.lift _) fun _ =>
      .bind (.reject _ _) fun _ => .bind (.lift _) fun _ =>
      .bind (.reject _ _) fun _ => .bind (.lift _) fun _ => ?_
    rintro _ error h' rfl stopped
    rw [write_bind, bind_error_iff] at stopped
    rcases stopped with stopped | ⟨_, _, -, impossible⟩
    · exact absurd stopped (replaceFirstHelloWithHash_unstopped firstSize)
    · cases impossible
  exact spares h error h' rfl ran

end Initiator

variable {session : Session Byte} {secret : List Byte}

/-! An initiator's builders keep it sane, whether they finish or stop. -/
section Keeping

omit [Octet Byte] in
theorem encapsulateToPin_sane : Maintains (Sane env .initiator) (encapsulateToPin env coins) :=
  encapsulateToPin_maintains fun _ _ size sane =>
    { sane with staticSize := by rintro _ ⟨⟩; exact size }

omit [Octet Byte] in
theorem advertisePSK_sane :
    Maintains (Sane env .initiator) (advertisePSK : HandshakeProg Byte (List Byte)) :=
  advertisePSK_maintains fun _ _ psk read configured sane =>
    { sane with foldSize := fun _ => read.keySize psk configured }

theorem processServerHello_sane (data : List Byte) :
    Maintains (Sane env .initiator) (processServerHello env data) := by
  refine .read_bind fun h _ => .reject_bind fun _ => ?_
  refine .lift_bind fun msg _ => .reject_bind fun _ => ?_
  refine .reject_bind fun _ => .bind (.write fun h sane => ?_) fun _ => ?_
  · exact { sane with resumed := by simp [sane.resumed, sane.ticket] }
  refine .bind ((decapsulateFresh_keeps _).maintains (Sane env .initiator)) fun freshSecret =>
    .bind (installSharedSecret_maintains (fun _ _ sane => { sane with keyed := nofun }) _)
    fun _ => .bind (.write fun _ sane => { sane with idSize := nofun, keyed := nofun }) fun _ => ?_
  refine .bind (deriveHandshakeSecrets_maintains (fun _ _ sane => { sane with keyed := nofun })
    (fun _ sane => { sane with staticSize := nofun }) fun _ _ _ sane => { sane with }) fun _ => ?_
  exact .write fun _ sane => { sane with keyed := nofun }

theorem processServerFinished_sane (data : List Byte) :
    Maintains (Sane env .initiator) (processServerFinished env data) := by
  refine .read_bind fun h _ => .reject_bind fun _ => ?_
  cases h.recvCipher with
  | none => exact .fail _
  | some cipher =>
    exact .bind ((openFinished_keeps _ _ _).maintains (Sane env .initiator)) fun _ =>
      .write fun _ sane => { sane with keyed := nofun }

omit [Octet Byte] in
/-- Whatever is done to an initiator's session, only its configuration matters here. -/
theorem Sane.onSession {s : Session Byte} (sane : Sane env .initiator h)
    (same : configOf s = configOf h.session) : Sane env .initiator { h with session := s } :=
  { sane with
    owner := (configOf_fields same).1.trans sane.owner
    keySize := fun key configured =>
      sane.keySize key ((configOf_fields same).2.2.2.2.1.symm.trans configured)
    idSize := nofun
    keyed := nofun }

theorem initializeKeys_config (now : Int) (secret : List Byte) (suite : UInt16) :
    Keeps configOf (initializeKeys env.toCrypto now secret suite) := by
  refine .read_bind fun s => .reject_bind fun _ => ?_
  refine .reject_bind fun _ => .write_bind (fun _ => rfl) fun _ => ?_
  refine .lift_bind fun keys => .write_bind (fun _ => rfl) fun _ => ?_
  refine .lift_bind fun _ => .write_bind (fun _ => rfl) fun _ => ?_
  exact .lift_bind fun _ => .lift_bind fun _ => .write fun _ => rfl

theorem initializeDatagramKeys_config (now : Int) (secret : List Byte) (suite : UInt16) :
    Keeps configOf (initializeDatagramKeys env.toCrypto now secret suite) := by
  refine .read_bind fun s => .reject_bind fun _ => ?_
  refine .reject_bind fun _ => .write_bind (fun _ => rfl) fun _ => ?_
  exact .lift_bind fun _ => .lift_bind fun _ => .write fun _ => rfl

theorem createClientFinished_sane :
    Maintains (Sane env .initiator) (createClientFinished env coins) := by
  refine .read_bind fun h _ => .reject_bind fun _ => ?_
  refine .lift_bind fun verify _ => .lift_bind fun plaintext _ => ?_
  refine .bind (sealFinished_maintains (fun _ _ _ sane => { sane with }) _) fun ciphertext => ?_
  refine .bind (.read_bind fun h _ => .ite (fun _ => ?_) fun _ => ?_) fun _ => ?_
  · exact fun h sane => sane.onSession (initializeDatagramKeys_config _ _ _ h.session)
  · exact fun h sane => sane.onSession (initializeKeys_config _ _ _ h.session)
  refine .bind (.write fun _ sane => { sane with keyed := nofun }) fun _ => ?_
  exact .bind (.write fun _ sane => { sane with keyed := nofun }) fun _ => .pure _

theorem processHelloRetryRequest_sane (data : List Byte) :
    Maintains (Sane env .initiator) (processHelloRetryRequest env coins data) := by
  intro h sane
  rcases ran : processHelloRetryRequest env coins data h with ⟨error | _, h'⟩
  · rwa [processHelloRetryRequest_stops sane.firstSize ran]
  · obtain ⟨-, -, _, _, _, _, -, -, -, -, -, rfl⟩ := processHelloRetryRequest_ok_iff.mp ran
    exact { sane with keyed := nofun }

/-- A hello that fails has run its three first parts at most. -/
theorem createClientHello_spares {inv : Handshake Byte → Prop}
    (random : Maintains inv (stableClientRandom coins : HandshakeProg Byte (List Byte)))
    (pin : Maintains inv (encapsulateToPin env coins))
    (psk : Maintains inv (advertisePSK : HandshakeProg Byte (List Byte))) :
    Spares inv (createClientHello env coins) := by
  refine .bind .read fun h => .bind (.reject _ _) fun _ => .bind random fun _ => ?_
  cases h.session.localKeyPair with
  | none => exact spares_of_maintains (.fail _)
  | some keyPair =>
    exact .bind pin fun _ => .bind psk fun _ => .bind (.lift _) fun _ =>
      spares_of_unstopped (.bind (.write _) fun _ => .pure _)

theorem createClientHello_sane : Maintains (Sane env .initiator) (createClientHello env coins) := by
  intro h sane
  rcases ran : createClientHello env coins h with ⟨error | hello, h'⟩
  · exact createClientHello_spares
      (stableClientRandom_maintains fun _ _ sane => { sane with }) encapsulateToPin_sane
      advertisePSK_sane h error h' sane ran
  · have small := createClientHello_length ran
    obtain ⟨-, random, keyPair, staticCT, staticSecret, -, -, leg, -, -, rfl⟩ :=
      createClientHello_ok_iff.mp ran
    have secrets : ∀ secret, staticSecret = some secret → secret.length = 32 := by
      rintro secret rfl
      obtain ⟨_, _, _, -, -, ⟨⟩, width⟩ := (pinnedLeg_cases leg).resolve_left nofun
      exact width
    refine { sane with
      staticSize := ?_, foldSize := ?_, keySize := ?_, idSize := nofun, firstSize := ?_,
      keyed := nofun }
    · intro secret held
      cases staticSecret with
      | none => exact sane.staticSize secret (by simpa [clientHelloSent] using held)
      | some fresh => exact secrets secret (by simpa [clientHelloSent] using held)
    · intro folds
      cases configured : h.session.psk with
      | none =>
        have kept : h.foldPSK = true := by simpa [clientHelloSent, configured] using folds
        simpa [clientHelloSent, configured] using sane.foldSize kept
      | some key => simpa [clientHelloSent, configured] using sane.keySize key configured
    · exact sane.keySize
    · change (h.firstClientHello.getD hello).length ≤ maxUint32
      cases first : h.firstClientHello with
      | none => exact small.le.trans (by decide)
      | some before => simpa [first] using sane.firstSize

end Keeping

variable {ciphertext : List Byte} {remote : PublicKey Byte} {left : Leftover Byte}

/-! The responder's builders: what each leaves behind when it stops. -/
section Answering
variable {h' : Handshake Byte}

omit [Octet Byte] in
theorem staticLeg_size (leg : staticLeg env session ciphertext = .ok (some secret)) :
    secret.length = 32 := by
  unfold staticLeg at leg
  split at leg
  · cases leg
  · split at leg
    · simp only [except_bind_ok_iff, except_pure_ok_iff, Option.some.injEq] at leg
      obtain ⟨suite, -, ct, -, opened, ran, rfl⟩ := leg
      exact suite.decapsulated_size _ _ _ _ ran
    · cases leg

theorem chosenPSK_size {identity key : List Byte}
    (keySize : ∀ key, session.psk = some key → key.length = 32)
    (selected : chosenPSK coins session identity = .ok (some key)) : key.length = 32 := by
  unfold chosenPSK at selected
  cases held : responderPSK session identity with
  | some found =>
    rw [held] at selected
    obtain rfl := Option.some.inj (Except.ok.inj selected)
    unfold responderPSK at held
    split at held
    · cases held
    · split at held
      · dsimp only at held
        split at held
        · obtain rfl := Option.some.inj held
          assumption
        · cases held
      · split at held
        · exact keySize _ held
        · cases held
  | none =>
    rw [held] at selected
    dsimp only at selected
    split at selected
    · split at selected
      · cases selected
      · rename_i dummy _
        obtain rfl := Option.some.inj (Except.ok.inj selected)
        exact dummy.2
    · cases selected

inductive Remains (env : Env Byte) (coins : Coins Byte) (h : Handshake Byte) (data : List Byte)
    (left : Leftover Byte) : Prop where
  | early (secret : left.secret = h.staticSecret)
      (key : left.foldPSK = h.foldPSK ∧ left.key = h.pskKey)
  | secret {msg : ClientHello Byte} {suite : Suite Byte} {remote : PublicKey Byte}
      {opened : Option (List Byte)} {stop : QError}
      (greets : Greets env h data msg suite remote opened)
      (refused : chosenPSK coins h.session msg.pskIdentity = .error stop)
      (secret : left.secret = opened.or h.staticSecret)
      (key : left.foldPSK = h.foldPSK ∧ left.key = h.pskKey)
  | cipher {msg : ClientHello Byte} {suite : Suite Byte} {remote : PublicKey Byte}
      {opened key : Option (List Byte)} (greets : Greets env h data msg suite remote opened)
      (selected : chosenPSK coins h.session msg.pskIdentity = .ok key)
      (refused : isSupported (selectCipherSuite env msg.cipherSuites) = false)
      (secret : left.secret = opened.or h.staticSecret)
      (folds : left.foldPSK = (h.foldPSK || key.isSome)) (kept : left.key = key.getD h.pskKey)

theorem processClientHello_stops (ticketless : h.ticketManager = none)
    (ran : processClientHello env coins data h = (.error error, h')) :
    h' = h ∨ h.state = .initial ∧ ∃ left, h' = withLeftover h left ∧
    Remains env coins h data left := by
  rw [processClientHello, read_bind, reject_bind_error_iff] at ran
  rcases ran with ⟨-, -, rfl⟩ | ⟨state, ran⟩
  · exact .inl rfl
  rw [lift_bind_error_iff] at ran
  rcases ran with ⟨-, rfl⟩ | ⟨msg, read, ran⟩
  · exact .inl rfl
  rw [reject_bind_error_iff] at ran
  rcases ran with ⟨-, -, rfl⟩ | ⟨version, ran⟩
  · exact .inl rfl
  cases known : getSuite env.registry msg.kemSuite with
  | none =>
    rw [known] at ran
    dsimp only at ran
    rw [steerClient, read_bind, reject_bind_error_iff] at ran
    rcases ran with ⟨-, -, rfl⟩ | ⟨-, ran⟩
    · exact .inl rfl
    cases mutual' : selectMutualKEMSuite msg.kemSuites with
    | none =>
      rw [mutual'] at ran
      exact .inl (congrArg Prod.snd ran).symm
    | some suite =>
      rw [mutual'] at ran
      cases ran
  | some suite =>
    refine .inr ⟨not_not.mp state, ?_⟩
    rw [known] at ran
    dsimp only at ran
    rw [run_acceptClientHello _ _ _ _ _ _ ticketless, greeted] at ran
    cases parsed : suite.parsePublicKey msg.chkemPublicKey with
    | error stop =>
      rw [parsed] at ran
      exact ⟨_, (congrArg Prod.snd ran).symm, .early rfl ⟨rfl, rfl⟩⟩
    | ok remote =>
      rw [parsed] at ran
      dsimp only at ran
      split at ran
      · exact ⟨_, (congrArg Prod.snd ran).symm, .early rfl ⟨rfl, rfl⟩⟩
      rename_i required
      cases leg : staticLeg env h.session msg.chkemStaticCiphertext with
      | error stop =>
        rw [leg] at ran
        exact ⟨_, (congrArg Prod.snd ran).symm, .early rfl ⟨rfl, rfl⟩⟩
      | ok opened =>
        have greets : Greets env h data msg suite remote opened :=
          ⟨not_not.mp state, read, by simpa using version, known, parsed, required, leg⟩
        rw [leg] at ran
        dsimp only at ran
        cases selected : chosenPSK coins h.session msg.pskIdentity with
        | error stop =>
          rw [selected] at ran
          exact ⟨_, (congrArg Prod.snd ran).symm, .secret greets selected rfl ⟨rfl, rfl⟩⟩
        | ok key =>
          rw [selected] at ran
          dsimp only at ran
          split at ran
          · rename_i refused
            exact ⟨_, (congrArg Prod.snd ran).symm, .cipher greets selected refused rfl rfl rfl⟩
          · cases ran

omit [Octet Byte] in
theorem selectCipherSuite_usable_of_supported {offered : List UInt16}
    (supported : isSupported (selectCipherSuite env offered) = true) :
    Usable env (selectCipherSuite env offered) := by
  unfold selectCipherSuite at supported ⊢
  cases found : offered.find? fun suite => decide (suite ∈ supportedCipherSuites env) with
  | none =>
    rw [found] at supported
    exact absurd supported (by decide)
  | some suite =>
    have member := List.find?_some found
    exact supportedCipherSuites_supported suite (by simpa using member)

/-- With a sane handshake a ServerHello fails for the KEM's sake alone. -/
theorem createServerHello_stops (sized : XofSized env.xof) (sane : Sane env .responder h)
    (usable : Usable env h.session.cipherSuite) (known : h.session.remotePublicKey = some remote)
    (ran : createServerHello env coins h = (.error error, h')) :
    (∃ random, h' = { h with serverRandom := random }) ∧
      (error = .panic ∨ ∃ stop, h.session.kemSuite.encapsulate remote .responder coins.enc =
        .error stop) := by
  cases drawn : coins.random with
  | none =>
    simp only [createServerHello, read_bind, known, mustRandom, drawn] at ran
    cases ran
    exact ⟨⟨h.serverRandom, rfl⟩, .inl rfl⟩
  | some random =>
    cases sent : h.session.kemSuite.encapsulate remote .responder coins.enc with
    | error stop =>
      simp only [createServerHello, read_bind, known, mustRandom, drawn, sent] at ran
      cases ran
      exact ⟨⟨_, rfl⟩, .inr ⟨stop, rfl⟩⟩
    | ok made =>
      obtain ⟨ct, freshSecret⟩ := made
      have sizes := h.session.kemSuite.ciphertext_size _ _ _ _ _ sent
      obtain ⟨secret, folded, width⟩ :=
        foldedSecret_total sized sizes.2 sane.staticSize sane.foldSize
      obtain ⟨ciphers, keyed⟩ := handshakeCiphers_total sized h.session.role width usable.1 usable.2
      have valid : (serverHelloOf h random.1 ct.raw).validate = .ok () := by
        refine (ServerHello.validate_ok_iff _).mpr ⟨rfl, random.2, sane.idSize rfl, ?_, usable.1⟩
        apply List.length_pos_iff.mp
        change 0 < ct.raw.length
        rw [sizes.1]
        exact h.session.kemSuite.ciphertextSize_bound.1
      have finished : createServerHello env coins h = (.ok _, _) := createServerHello_ok_iff.mpr
        ⟨remote, random, ct, freshSecret, freshSecret, secret, ciphers, known, drawn, sent,
          by simp [baseSecret, sane.resumed], valid, rfl, folded, keyed, rfl⟩
      rw [ran] at finished
      cases finished

theorem processClientFinished_stops (sized : XofSized env.xof) (sane : Sane env .responder h)
    (ran : processClientFinished env coins data h = (.error error, h')) : h' = h := by
  rw [processClientFinished, read_bind, reject_bind_error_iff] at ran
  rcases ran with ⟨-, -, rfl⟩ | ⟨sent, ran⟩
  · rfl
  cases present : h.recvCipher with
  | none =>
    rw [present] at ran
    exact (congrArg Prod.snd ran).symm
  | some cipher =>
    rw [present] at ran
    dsimp only at ran
    rw [bind_error_iff] at ran
    rcases ran with stopped | ⟨plaintext, h₁, opened, ran⟩
    · exact restores_of_keeps (openFinished_keeps _ _ _) _ _ _ stopped
    obtain ⟨-, -, -, -, rfl⟩ := openFinished_ok_iff.mp opened
    rw [bind_error_iff] at ran
    rcases ran with stopped | ⟨_, _, -, impossible⟩
    · -- The session can always be keyed.
      obtain ⟨size, usable, alive⟩ := sane.keyed rfl (.inr (not_not.mp sent))
      obtain ⟨ciphers, made⟩ :=
        deriveDatagramCiphers_total sized h₁.session.role size usable.1 usable.2
      obtain ⟨prefixes, drawn⟩ := noncePrefixes_total sized h₁.datagram size
      have finished : initializeSessionKeys env coins h₁ = (.ok (), _) :=
        initializeSessionKeys_ok_iff.mpr ⟨alive, size, ciphers, prefixes, made, drawn, rfl⟩
      rw [stopped] at finished
      cases finished
    · cases impossible

omit [Octet Byte] in
theorem Sane.withLeftover (sane : Sane env .responder h) (state : h.state = .initial)
    (secretSize : ∀ secret, left.secret = some secret → secret.length = 32)
    (foldSize : left.foldPSK = true → left.key.length = 32) :
    Sane env .responder (withLeftover h left) :=
  { sane with
    staticSize := secretSize
    foldSize := foldSize
    keyed := fun _ past => by
      rcases past with past | past <;> exact absurd (state.symm.trans past) (by decide) }

omit [Octet Byte] in
theorem opened_size {opened held : Option (List Byte)}
    (leg : staticLeg env session ciphertext = .ok opened)
    (heldSize : ∀ secret, held = some secret → secret.length = 32)
    (same : opened.or held = some secret) : secret.length = 32 := by
  cases opened with
  | none => exact heldSize secret same
  | some fresh =>
    obtain rfl := Option.some.inj same
    exact staticLeg_size leg

theorem selected_size {identity : List Byte} {key : Option (List Byte)}
    (sane : Sane env .responder h) (selected : chosenPSK coins h.session identity = .ok key)
    (folds : (h.foldPSK || key.isSome) = true) : (key.getD h.pskKey).length = 32 := by
  cases key with
  | none => exact sane.foldSize (by simpa using folds)
  | some fresh => exact chosenPSK_size sane.keySize selected

theorem Remains.sane (sane : Sane env .responder h) (state : h.state = .initial)
    (remains : Remains env coins h data left) :
    Sane env .responder (DatagramTwins.withLeftover h left) := by
  cases remains with
  | early secret key =>
    refine sane.withLeftover state (fun held same => sane.staticSize held (secret.symm.trans same))
      fun folds => ?_
    rw [key.2]
    exact sane.foldSize (key.1.symm.trans folds)
  | secret greets refused secret key =>
    refine sane.withLeftover state (fun held same => ?_) fun folds => ?_
    · exact opened_size greets.leg sane.staticSize (secret.symm.trans same)
    · rw [key.2]
      exact sane.foldSize (key.1.symm.trans folds)
  | cipher greets selected refused secret folds kept =>
    refine sane.withLeftover state (fun held same => ?_) fun folding => ?_
    · exact opened_size greets.leg sane.staticSize (secret.symm.trans same)
    · rw [kept]
      exact selected_size sane selected (folds.symm.trans folding)

theorem clientHelloAccepted_sane {msg : ClientHello Byte} {chosen : Selection Byte}
    (sane : Sane env .responder h) (state : h.state = .initial)
    (selects : Selects env coins h msg chosen) :
    Sane env .responder (clientHelloAccepted env h msg data chosen) := by
  have unticketed : chosen.ticket = none := by
    rw [selects.ticket, sane.ticketless]
    rfl
  exact { sane with
    resumed := by simp [clientHelloAccepted, unticketed, sane.resumed]
    staticSize := fun secret same => opened_size selects.staticSecret sane.staticSize same
    foldSize := fun folds => selected_size sane selects.key folds
    idSize := fun _ => by simpa [clientHelloAccepted, unticketed] using sane.idSize rfl
    keyed := fun _ past => by
      rcases past with past | past <;> exact absurd (state.symm.trans past) (by decide) }

theorem processClientHello_sane (fits : data.length ≤ maxUint32) :
    Maintains (Sane env .responder) (processClientHello env coins data) := by
  intro h sane
  rcases ran : processClientHello env coins data h with ⟨error | _, h'⟩
  · rcases processClientHello_stops sane.ticketless ran with rfl | ⟨state, left, rfl, remains⟩
    · exact sane
    · exact remains.sane sane state
  · obtain ⟨state, msg, -, -, ⟨-, -, suite, -, rfl⟩ | ⟨chosen, -, selects, rfl⟩⟩ :=
      processClientHello_ok_iff.mp ran
    · exact { sane with firstSize := fits }
    · exact clientHelloAccepted_sane sane state selects

theorem createHelloRetryRequest_sane (role : Role) :
    Maintains (Sane env role) (createHelloRetryRequest env) := by
  refine .read_bind fun h _ => .reject_bind fun _ => ?_
  refine .bind (.read_bind fun h _ => ?_) fun _ => ?_
  · exact .lift_bind fun _ _ => .write fun _ sane => { sane with }
  · exact .bind (.write fun _ sane => { sane with }) fun _ => .pure _

theorem createServerHello_sane (sized : XofSized env.xof) (sane : Sane env .responder h)
    (usable : Usable env h.session.cipherSuite) (known : h.session.remotePublicKey = some remote)
    (alive : h.session.state ≠ .closed) :
    Sane env .responder (createServerHello env coins h).2 := by
  rcases ran : createServerHello env coins h with ⟨error | data, h'⟩
  · obtain ⟨⟨random, rfl⟩, -⟩ := createServerHello_stops sized sane usable known ran
    exact { sane with }
  · obtain ⟨_, random, ct, freshSecret, base, secret, ciphers, -, -, sent, mixed, -, -, folded,
        -, rfl⟩ :=
      createServerHello_ok_iff.mp ran
    obtain rfl : freshSecret = base := by
      simpa [baseSecret, sane.resumed] using mixed
    have sizes := h.session.kemSuite.ciphertext_size _ _ _ _ _ sent
    obtain ⟨secret', folded', width⟩ :=
      foldedSecret_total sized sizes.2 sane.staticSize sane.foldSize
    obtain rfl : secret' = secret := Except.ok.inj (folded'.symm.trans folded)
    exact { sane with staticSize := (by rintro _ ⟨⟩), keyed := fun _ _ => ⟨width, usable, alive⟩ }

theorem createServerFinished_sane : Maintains (Sane env .responder) (createServerFinished env) := by
  intro h sane
  rcases ran : createServerFinished env h with ⟨error | data, h'⟩
  · have spares : Spares (Sane env .responder) (createServerFinished env) := by
      refine .bind .read fun _ => .bind (.reject _ _) fun _ =>
        .bind (.lift _) fun _ => .bind (.lift _) fun _ =>
        .bind (sealFinished_maintains (fun _ _ _ sane => { sane with }) _) fun _ =>
        spares_of_unstopped (.bind (.write _) fun _ => .pure _)
    exact spares h error h' sane ran
  · obtain ⟨sent, _, _, _, -, -, -, -, rfl⟩ := createServerFinished_ok_iff.mp ran
    exact { sane with keyed := fun _ _ => sane.keyed rfl (.inl sent) }

omit [Octet Byte] in
theorem established_kept (datagram : Bool) (s : Session Byte) (now : Int) (secret : List Byte)
    (ciphers : Cipher Byte × Cipher Byte) (prefixes : List Byte × List Byte) :
    (established datagram s now secret ciphers prefixes).role = s.role ∧
    (established datagram s now secret ciphers prefixes).psk = s.psk ∧
    (established datagram s now secret ciphers prefixes).id = s.id := by
  unfold established
  split <;> exact ⟨rfl, rfl, rfl⟩

theorem processClientFinished_sane (sized : XofSized env.xof) (data : List Byte) :
    Maintains (Sane env .responder) (processClientFinished env coins data) := by
  intro h sane
  rcases ran : processClientFinished env coins data h with ⟨error | _, h'⟩
  · rwa [processClientFinished_stops sized sane ran]
  · obtain ⟨-, _, _, _, ciphers, prefixes, -, -, -, -, -, -, -, -, rfl⟩ :=
      processClientFinished_ok_iff.mp ran
    obtain ⟨role, psk, id⟩ := established_kept h.datagram h.session coins.now h.sharedSecret
      ciphers prefixes
    exact { sane with
      owner := role.trans sane.owner
      keySize := fun key configured => sane.keySize key (psk.symm.trans configured)
      idSize := fun _ => id.symm ▸ sane.idSize rfl
      keyed := fun _ past => by rcases past with past | past <;> cases past }

end Answering

/-! The machine. -/
section Machine
variable {role : Role} {d d' : DgramHandshake Byte}

def SaneMachine (env : Env Byte) (role : Role) (d : DgramHandshake Byte) : Prop :=
  d.role = role ∧ Sane env role d.hs

variable {body : List Byte}

omit [Octet Byte] in
/-- What a builder leaves is sane, and so is what follows where it finishes. -/
theorem onHs_bind_sane {α : Type} {builder : HandshakeProg Byte α}
    {next : α → FsmProg Byte (Reaction Byte)}
    (built : SaneMachine env role { d with hs := (builder d.hs).2 })
    (goes : ∀ value h, builder d.hs = (.ok value, h) → SaneMachine env role { d with hs := h } →
      SaneMachine env role (next value { d with hs := h }).2) :
    SaneMachine env role ((onHs builder >>= next) d).2 := by
  rw [run_bind, onHs]
  rcases outcome : builder d.hs with ⟨error | value, h⟩
  · rwa [outcome] at built
  · rw [outcome] at built
    exact goes value h outcome built

/-- A responder that has accepted a hello can answer it. -/
theorem answerClientHello_sane (sized : XofSized env.xof) (held : SaneMachine env .responder d)
    (ran : processClientHello env coins body d.hs = (.ok (), h)) (sane : Sane env .responder h) :
    SaneMachine env .responder (answerClientHello env coins { d with hs := h }).2 := by
  rw [answerClientHello, read_bind]
  have start : SaneMachine env .responder { d with hs := h } := ⟨held.1, sane⟩
  by_cases retry : h.sendHRR = true
  · rw [if_pos retry]
    refine Maintains.bind (onHs_plays (createHelloRetryRequest_sane .responder))
      (fun _ => ?_) _ start
    exact .bind (.write fun _ held => held) fun _ => .pure _
  rw [if_neg retry]
  obtain ⟨-, msg, -, -, ⟨-, -, suite, -, rfl⟩ | ⟨chosen, -, selects, rfl⟩⟩ :=
    processClientHello_ok_iff.mp ran
  · exact absurd rfl retry
  have created : Sane env .responder
      (createServerHello env coins (clientHelloAccepted env d.hs msg body chosen)).2 :=
    createServerHello_sane sized sane (selectCipherSuite_usable_of_supported selects.cipher) rfl
      (by simp [clientHelloAccepted])
  refine onHs_bind_sane ⟨held.1, created⟩ fun hello h₁ finished next => ?_
  refine Maintains.bind (onHs_plays createServerFinished_sane) (fun _ => ?_) _ next
  exact .bind (.write fun _ held => held) fun _ => .pure _

theorem advanceClientHello_sane (sized : XofSized env.xof) (fits : body.length ≤ maxUint32) :
    Maintains (SaneMachine env .responder) (advanceClientHello env coins body) := by
  refine dropping_maintains (.read_bind fun d _ => .ite (fun _ => .pure _) fun _ => ?_)
  intro d held
  have kept : Sane env .responder (processClientHello env coins body d.hs).2 :=
    processClientHello_sane fits d.hs held.2
  exact onHs_bind_sane ⟨held.1, kept⟩ fun _ h finished next =>
    answerClientHello_sane sized held finished next.2

theorem onMessage_sane (sized : XofSized env.xof) (m : Inbound Byte) :
    Maintains (SaneMachine env role) (onMessage env m.coins m.typ m.body) := by
  cases role with
  | initiator =>
    exact onMessage_leads processServerHello_sane processServerFinished_sane
      createClientFinished_sane processHelloRetryRequest_sane createClientHello_sane
  | responder =>
    refine onMessage_plays (.read_bind fun d held => ?_)
    rw [held.1]
    exact .ite (fun _ => advanceClientHello_sane sized m.fits) fun _ =>
      .ite (fun _ => advanceClientFinished_plays (processClientFinished_sane sized m.body))
        fun _ => .pure _

omit [Octet Byte] in
theorem newDgramHandshake_sane (configured : Configured session) :
    SaneMachine env session.role (newDgramHandshake session) :=
  ⟨rfl, {
    owner := rfl
    ticket := rfl
    ticketless := rfl
    resumed := rfl
    staticSize := nofun
    foldSize := nofun
    keySize := configured.keySize
    idSize := fun _ => configured.idSize
    firstSize := by simp [newDgramHandshake, newHandshake]
    keyed := fun _ past => by rcases past with past | past <;> cases past }⟩

theorem Reachable.sane (sized : XofSized env.xof) (configured : Configured session)
    (reached : Reachable env session d) : SaneMachine env session.role d := by
  induction reached with
  | new => exact newDgramHandshake_sane configured
  | started owner ran =>
    rename_i coins out d
    have begun : Maintains (SaneMachine env .initiator) (start env coins) :=
      .bind (onHs_plays createClientHello_sane) fun _ =>
        .bind (.write fun _ held => held) fun _ => .pure _
    have kept := begun _ (owner ▸ newDgramHandshake_sane configured)
    rw [ran] at kept
    rwa [owner]
  | message _ ran ih =>
    rename_i d d' m reaction _
    have kept := onMessage_sane sized m d ih
    rwa [ran] at kept

/-! A message that came to nothing. -/

theorem onMessage_advances {typ : UInt8} (advances : Advances d typ) :
    onMessage env coins typ body d = advance env coins typ body d := by
  rw [onMessage, read_bind]
  rcases advances with expected | retry
  · rw [if_pos expected]
  · by_cases expected : typ ≠ 0 ∧ typ = d.expecting
    · rw [if_pos expected]
    · rw [if_neg expected, if_pos retry]

variable {program : FsmProg Byte (Reaction Byte)}

omit [Octet Byte] in
theorem dropping_ok_iff {reaction : Reaction Byte} :
    dropping program d = (.ok reaction, d') ↔ program d = (.ok reaction, d') ∨
      reaction = ([], false) ∧ ∃ error, program d = (.error (.err error), d') := by
  unfold dropping
  rcases program d with ⟨(error | _) | outcome, after⟩ <;> simp [eq_comm]

omit [Octet Byte] in
theorem onHs_iff {α : Type} {builder : HandshakeProg Byte α} {outcome : Except Fault α} :
    onHs builder d = (outcome, d') ↔ ∃ h, builder d.hs = (outcome, h) ∧ d' = { d with hs := h } :=
  run_part_iff (builder d.hs) fun hs => { d with hs }

def Nothing (program : FsmProg Byte (Reaction Byte)) (d d' : DgramHandshake Byte) : Prop :=
  program d = (.ok ([], false), d') ∨ ∃ error, program d = (.error (.err error), d')

omit [Octet Byte] in
theorem dropping_nothing
    (ran : dropping program d = (.ok ([], false), d')) : Nothing program d d' := by
  rcases dropping_ok_iff.mp ran with returned | ⟨-, stopped⟩
  · exact .inl returned
  · exact .inr stopped

omit [Octet Byte] in
/-- Either the builder refused the message or it finished and the rest came to nothing. -/
theorem Nothing.split {α : Type} {builder : HandshakeProg Byte α}
    {next : α → FsmProg Byte (Reaction Byte)} (nothing : Nothing (onHs builder >>= next) d d') :
    (∃ error h, builder d.hs = (.error (.err error), h) ∧ d' = { d with hs := h }) ∨
    ∃ value h, builder d.hs = (.ok value, h) ∧ Nothing (next value) { d with hs := h } d' := by
  rcases nothing with returned | ⟨error, stopped⟩
  · obtain ⟨value, _, ran, rest⟩ := bind_ok_iff.mp returned
    obtain ⟨h, built, rfl⟩ := onHs_iff.mp ran
    exact .inr ⟨value, h, built, .inl rest⟩
  · rcases bind_error_iff.mp stopped with stopped | ⟨value, _, ran, rest⟩
    · obtain ⟨h, refused, rfl⟩ := onHs_iff.mp stopped
      exact .inl ⟨error, h, refused, rfl⟩
    · obtain ⟨h, built, rfl⟩ := onHs_iff.mp ran
      exact .inr ⟨value, h, built, .inr ⟨error, rest⟩⟩

omit [Octet Byte] in
/-- The rest maintains what holds before it, however it ends. -/
theorem Nothing.maintains {inv : DgramHandshake Byte → Prop} (nothing : Nothing program d d')
    (kept : Maintains inv program) (held : inv d) : inv d' := by
  have after := kept d held
  rcases nothing with ran | ⟨error, ran⟩ <;> rwa [ran] at after

omit [Octet Byte] in
theorem Alike.same (held : SaneMachine env role d) : Alike role d d :=
  ⟨held.1, d.hs, rfl, twinOf_refl role d.hs⟩

theorem createClientFinished_left {state : HandshakeState} (open' : state ≠ .complete) :
    Maintains (fun h : Handshake Byte => h.state ≠ state) (createClientFinished env coins) := by
  refine .read_bind fun h _ => .reject_bind fun _ => ?_
  refine .lift_bind fun _ _ => .lift_bind fun plaintext _ => ?_
  refine .bind (sealFinished_maintains (fun _ _ _ => id) _) fun _ =>
    .bind ((initializeSessionKeys_state env coins).maintains (· ≠ state)) fun _ => ?_
  exact .bind (.write fun _ _ same => open' same.symm) fun _ =>
    .bind (.write fun _ left => left) fun _ => .pure _

theorem advanceServerHello_dropped (sized : XofSized env.xof) (held : SaneMachine env .initiator d)
    (still : d'.hs.state = d.hs.state)
    (ran : advanceServerHello env coins body d = (.ok ([], false), d')) :
    Alike .initiator d d' ∨ SuiteRefused env d.hs body := by
  rcases (dropping_nothing ran).split with ⟨error, h, stopped, rfl⟩ | ⟨_, h, processed, rest⟩
  · rcases processServerHello_stops sized held.2 stopped with off | refused
    · exact .inl ⟨held.1, h, rfl, off⟩
    · exact .inr refused
  · -- The state has moved past the ServerHello.
    obtain ⟨sent, _, _, _, _, _, _, _, -, -, -, -, -, -, -, -, -, rfl⟩ :=
      processServerHello_ok_iff.mp processed
    have left : Plays .initiator (fun h => h.state ≠ .clientHelloSent) d' := by
      refine rest.maintains (.bind (.write fun _ left => left) fun _ =>
        .read_bind fun d _ => ?_) ⟨held.1, by simp [serverHelloReceived]⟩
      cases d.earlyFinished with
      | none => exact .pure _
      | some early =>
        exact .bind (.write fun _ left => left) fun _ =>
          advanceServerFinished_plays ((processServerFinished_moves early).maintains
            (· ≠ .clientHelloSent) (by decide)) (createClientFinished_left (by decide))
    exact absurd (still.trans sent) left.2

theorem advanceServerFinished_dropped
    (held : SaneMachine env .initiator d) (still : d'.hs.state = d.hs.state)
    (ran : advanceServerFinished env coins body d = (.ok ([], false), d')) :
    Alike .initiator d d' := by
  rcases (dropping_nothing ran).split with ⟨error, h, stopped, rfl⟩ | ⟨_, h, processed, rest⟩
  · obtain rfl : h = d.hs := processServerFinished_restores body _ _ _ stopped
    exact Alike.same held
  · obtain ⟨received, _, _, _, -, -, -, -, rfl⟩ := processServerFinished_ok_iff.mp processed
    have left : Plays .initiator (fun h => h.state ≠ .serverHelloReceived) d' :=
      rest.maintains (.bind (onHs_plays (createClientFinished_left (by decide))) fun _ =>
        .bind (.write fun _ left => left) fun _ => .pure _)
        ⟨held.1, by simp [finishedBy]⟩
    exact absurd (still.trans received) left.2

theorem advanceHelloRetryRequest_dropped
    (held : SaneMachine env .initiator d) (still : d'.hs.state = d.hs.state)
    (ran : advanceHelloRetryRequest env coins body d = (.ok ([], false), d')) :
    Alike .initiator d d' := by
  rcases (dropping_nothing ran).split with ⟨error, h, stopped, rfl⟩ | ⟨_, h, processed, rest⟩
  · obtain rfl := processHelloRetryRequest_stops held.2.firstSize stopped
    exact Alike.same held
  · obtain ⟨sent, -, _, _, _, _, -, -, -, -, -, rfl⟩ := processHelloRetryRequest_ok_iff.mp processed
    rcases rest.split with ⟨error, h, stopped, rfl⟩ | ⟨reply, h, created, rest⟩
    · -- A second hello that fails stays in the initial state.
      have spares : Spares (fun h : Handshake Byte => h.state = .initial)
          (createClientHello env coins) :=
        createClientHello_spares (stableClientRandom_maintains fun _ _ => id)
          (encapsulateToPin_maintains fun _ _ _ => id) (advertisePSK_maintains fun _ _ _ _ _ => id)
      have waiting := spares _ _ _ (by simp [retried]) stopped
      exact absurd (waiting.symm.trans (still.trans sent)) (by decide)
    · rcases rest with returned | ⟨error, stopped⟩
      · cases returned
      · cases stopped

/-- What a hello left is nothing that a later hello can see, unless it is one of the late
refusals. -/
theorem Remains.twin (held : SaneMachine env .responder d) (state : d.hs.state = .initial)
    (remains : Remains env coins d.hs body left) :
    Twin d.hs (withLeftover d.hs left) ∨ SecretLeft env coins d.hs body ∨
    KeyLeft env coins d.hs body := by
  -- A static secret is excused where every hello must bring one.
  have secrets {msg : ClientHello Byte} {suite : Suite Byte} {remote : PublicKey Byte}
      {opened : Option (List Byte)} (greets : Greets env d.hs body msg suite remote opened)
      (secret : left.secret = opened.or d.hs.staticSecret)
      (refused : (∃ error, chosenPSK coins d.hs.session msg.pskIdentity = .error error) ∨
        isSupported (selectCipherSuite env msg.cipherSuites) = false) :
      (left.secret = d.hs.staticSecret ∨ d.hs.session.requireStaticAuth = true ∧
        d.hs.session.staticKeyPair.isSome = true) ∨ SecretLeft env coins d.hs body := by
    cases opened with
    | none => exact .inl (.inl secret)
    | some fresh =>
      by_cases must : d.hs.session.requireStaticAuth = true
      · refine .inl (.inr ⟨must, ?_⟩)
        by_contra missing
        have empty := greets.leg
        rw [staticLeg, Option.not_isSome_iff_eq_none.mp missing] at empty
        cases empty
      · exact .inr ⟨by simpa using must, msg, suite, remote, fresh, greets, refused⟩
  have waits (excused : Excused d.hs left) : Twin d.hs (withLeftover d.hs left) :=
    .inr ⟨state, held.2.ticketless, left, rfl, excused⟩
  cases remains with
  | early secret key => exact .inl (waits ⟨.inl secret, .inl key⟩)
  | secret greets refused secret key =>
    rcases secrets greets secret (.inl ⟨_, refused⟩) with excused | late
    · exact .inl (waits ⟨excused, .inl key⟩)
    · exact .inr (.inl late)
  | @cipher msg suite remote opened key greets selected refused secret folds kept =>
    rcases secrets greets secret (.inr refused) with excused | late
    · cases key with
      | none => exact .inl (waits ⟨excused, .inl ⟨by simpa using folds, by simpa using kept⟩⟩)
      | some fresh =>
        by_cases must : d.hs.session.requirePSK = true
        · exact .inl (waits ⟨excused, .inr must⟩)
        · exact .inr (.inr ⟨by simpa using must, msg, suite, remote, opened, fresh, greets,
            selected, refused⟩)
    · exact .inr (.inl late)

theorem answerClientHello_dropped (sized : XofSized env.xof) (sane : Sane env .responder h)
    (still : d'.hs.state = d.hs.state) (ran : processClientHello env coins body d.hs = (.ok (), h))
    (nothing : Nothing (answerClientHello env coins) { d with hs := h } d') :
    EncapsulationFails env coins d.hs body := by
  rw [Nothing, answerClientHello, read_bind] at nothing
  by_cases retry : h.sendHRR = true
  · rw [if_pos retry] at nothing
    rcases Nothing.split nothing with ⟨error, h', stopped, rfl⟩ | ⟨hrr, h', -, rest⟩
    · rw [createHelloRetryRequest, read_bind, reject_bind_error_iff] at stopped
      rcases stopped with ⟨unasked, -, -⟩ | ⟨-, stopped⟩
      · exact absurd retry (Bool.eq_false_iff.mp unasked)
      · rcases bind_error_iff.mp stopped with stopped | ⟨_, _, -, impossible⟩
        · exact absurd stopped (replaceFirstHelloWithHash_unstopped sane.firstSize)
        · cases impossible
    · rcases rest with returned | ⟨error, stopped⟩
      · cases returned
      · cases stopped
  rw [if_neg retry] at nothing
  obtain ⟨state, msg, read, version, ⟨-, -, suite, -, rfl⟩ | ⟨chosen, known, selects, rfl⟩⟩ :=
    processClientHello_ok_iff.mp ran
  · exact absurd rfl retry
  rcases Nothing.split nothing with ⟨error, h', stopped, rfl⟩ | ⟨hello, h', created, rest⟩
  · obtain ⟨-, panicked | ⟨stop, failed⟩⟩ := createServerHello_stops sized sane
      (selectCipherSuite_usable_of_supported selects.cipher) rfl stopped
    · cases panicked
    · exact ⟨state, msg, chosen, stop, read, version, known, selects, failed⟩
  · -- The state has moved past the hello.
    obtain ⟨answered, -⟩ := armed_of_createServerHello created
    have left : Plays d.role (fun h => h.state ≠ .initial) d' :=
      rest.maintains (.bind (onHs_plays (createServerFinished_forwards env)) fun _ =>
        .bind (.write fun _ left => left) fun _ => .pure _)
        ⟨rfl, by simp [answered]⟩
    exact absurd (still.trans state) left.2

theorem advanceClientHello_dropped (sized : XofSized env.xof) (fits : body.length ≤ maxUint32)
    (held : SaneMachine env .responder d) (still : d'.hs.state = d.hs.state)
    (ran : advanceClientHello env coins body d = (.ok ([], false), d')) :
    Alike .responder d d' ∨ SecretLeft env coins d.hs body ∨ KeyLeft env coins d.hs body ∨
      EncapsulationFails env coins d.hs body := by
  have nothing := dropping_nothing ran
  rw [Nothing, read_bind] at nothing
  split at nothing
  · rename_i repeated
    rcases nothing with returned | ⟨error, stopped⟩
    · -- A replayed flight is not empty.
      have empty : d.cached = [] := congrArg Prod.fst (Except.ok.inj (congrArg Prod.fst returned))
      rw [empty] at repeated
      exact absurd repeated.2.1 (by simp)
    · cases stopped
  rcases Nothing.split nothing with ⟨error, h, stopped, rfl⟩ | ⟨_, h, processed, rest⟩
  · rcases processClientHello_stops held.2.ticketless stopped with rfl | ⟨state, left, rfl, remains⟩
    · exact .inl (Alike.same held)
    · rcases remains.twin held state with twin | late | late
      · exact .inl ⟨held.1, _, rfl, twin⟩
      · exact .inr (.inl late)
      · exact .inr (.inr (.inl late))
  · have kept : Sane env .responder (processClientHello env coins body d.hs).2 :=
      processClientHello_sane fits d.hs held.2
    rw [processed] at kept
    exact .inr (.inr (.inr (answerClientHello_dropped sized kept still processed rest)))

theorem advanceClientFinished_dropped (sized : XofSized env.xof)
    (held : SaneMachine env .responder d)
    (ran : advanceClientFinished env coins body d = (.ok ([], false), d')) :
    Alike .responder d d' := by
  rcases (dropping_nothing ran).split with ⟨error, h, stopped, rfl⟩ | ⟨_, h, -, rest⟩
  · obtain rfl := processClientFinished_stops sized held.2 stopped
    exact Alike.same held
  · rcases rest with returned | ⟨error, stopped⟩
    · cases returned
    · cases stopped

theorem Dropped.alike (sized : XofSized env.xof) {m : Inbound Byte} (held : SaneMachine env role d)
    (dropped : Dropped env d m d') (early : ¬ LateRefusal env d m) : Alike role d d' := by
  obtain ⟨advances, ran, still⟩ := dropped
  rw [onMessage_advances advances, advance, read_bind] at ran
  have unchanged (same : (pure ([], false) : FsmProg Byte (Reaction Byte)) d =
      (.ok ([], false), d')) : Alike role d d' := by
    obtain rfl : d = d' := congrArg Prod.snd same
    exact Alike.same held
  rw [LateRefusal, held.1] at early
  rw [held.1] at ran
  cases role with
  | initiator =>
    dsimp only at ran early
    split at ran
    · rename_i hello
      rcases advanceServerHello_dropped sized held still ran with alike | refused
      · exact alike
      · exact absurd ⟨hello, refused⟩ early
    split at ran
    · exact advanceServerFinished_dropped held still ran
    split at ran
    · exact advanceHelloRetryRequest_dropped held still ran
    · exact unchanged ran
  | responder =>
    dsimp only at ran early
    split at ran
    · rename_i hello
      rcases advanceClientHello_dropped sized m.fits held still ran with alike | late
      · exact alike
      · exact absurd ⟨hello, late⟩ early
    split at ran
    · exact advanceClientFinished_dropped sized held ran
    · exact unchanged ran

/-- A dropped message leaves no trace, unless it was refused late. -/
theorem dropped_leaves_no_trace (sized : XofSized env.xof) {session : Session Byte}
    {m : Inbound Byte} (configured : Configured session) (reached : Reachable env session d)
    (dropped : Dropped env d m d') (early : ¬ LateRefusal env d m) : Indistinguishable env d d' :=
  (dropped.alike sized (reached.sane sized configured) early).indistinguishable

end Machine

/-- A ServerHello whose ciphertext is too short. -/
def shortHello : List Letter :=
  (encodeServerHello ⟨current, List.replicate 32 (lit 1), [], suiteCHKEMv1, [lit 0],
    cipherSuiteAES256GCM⟩).toOption.getD []

/-- An initiator waits for the ServerHello, and takes the random of one that it then drops. -/
theorem dropped_leaves_no_trace_symbolic : ∃ (session : Session Letter)
    (d d' : DgramHandshake Letter) (m : Inbound Letter),
    Configured session ∧ Reachable SymbolicKem.env session d ∧
    d.expecting = messageTypeServerHello ∧ Dropped SymbolicKem.env d m d' ∧
    ¬ LateRefusal SymbolicKem.env d m ∧ d'.hs.serverRandom ≠ d.hs.serverRandom ∧
    Indistinguishable SymbolicKem.env d d' := by
  let i := (newSession SymbolicKem.registry.chkemV1 .initiator [] []).toOption.get rfl
  let m : Inbound Letter :=
    ⟨StreamAgreement.steadyCoins, messageTypeServerHello, shortHello, by decide +kernel⟩
  let started := start SymbolicKem.env StreamAgreement.steadyCoins (newDgramHandshake i)
  have configured : Configured i := ⟨Nat.zero_le _, by rintro _ ⟨⟩⟩
  obtain ⟨out, sent⟩ : ∃ out, started.1 = .ok out := by
    have finishes : started.1.toOption.isSome = true := by decide +kernel
    rcases outcome : started.1 with stop | out
    · rw [outcome] at finishes
      cases finishes
    · exact ⟨out, rfl⟩
  have reached : Reachable SymbolicKem.env i started.2 :=
    .started (by decide +kernel) ((Prod.eta started).symm.trans (congrArg (·, started.2) sent))
  -- The run is evaluated here and opaque from here on.
  obtain ⟨d, reached, role, waits, silent, still, heard, size⟩ : ∃ d,
      Reachable SymbolicKem.env i d ∧ d.role = .initiator ∧ d.expecting = messageTypeServerHello ∧
      (onMessage SymbolicKem.env m.coins m.typ m.body d).1 = .ok ([], false) ∧
      (onMessage SymbolicKem.env m.coins m.typ m.body d).2.hs.state = d.hs.state ∧
      (onMessage SymbolicKem.env m.coins m.typ m.body d).2.hs.serverRandom ≠ d.hs.serverRandom ∧
      d.hs.session.kemSuite.ciphertextSize = 1600 :=
    ⟨started.2, reached, by decide +kernel, by decide +kernel, by decide +kernel,
      by decide +kernel, by decide +kernel, by decide +kernel⟩
  have dropped : Dropped SymbolicKem.env d m (onMessage SymbolicKem.env m.coins m.typ m.body d).2 :=
    ⟨.inl ⟨by decide, waits.symm⟩, Prod.ext silent rfl, still⟩
  have early : ¬ LateRefusal SymbolicKem.env d m := by
    rw [LateRefusal, role]
    rintro ⟨-, -, msg, ct, _, _, read, -, -, parsed, -⟩
    have short : (decodeServerHello shortHello).toOption.map (·.chkemCiphertext.length) =
        some 1 := by decide +kernel
    rw [show decodeServerHello shortHello = .ok msg from read] at short
    have one : msg.chkemCiphertext.length = 1 := Option.some.inj short
    have long := d.hs.session.kemSuite.parsed_size _ _ parsed
    rw [size, one] at long
    cases long
  exact ⟨i, d, _, m, configured, reached, waits, dropped, early, heard,
    dropped_leaves_no_trace SymbolicKem.env_ideal.xof.length configured reached dropped early⟩

end QuantumGo.DroppedMessages
