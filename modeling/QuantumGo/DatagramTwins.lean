import QuantumGo.Coupling
import QuantumGo.DatagramHandshake

/-!
States of the handshake that no later message can tell apart. An initiator never
reads the server's random again. A responder that is still waiting for a hello
overwrites most of what an earlier, refused hello left in it before it reads any
of that. Machines in such states answer every message alike.
-/

namespace QuantumGo.DatagramTwins

open Octets Effect Coupling Wire HelloCodec Aead Kem Tunnel Flights
open FlightSpecs ResponderSpecs DatagramHandshake
open KeySchedule hiding deriveHandshakeKeys

variable {Byte : Type} [Octet Byte] {env : Env Byte} {coins : Coins Byte}

/-! The initiator. -/
section Initiator

def OffRandom (a b : Handshake Byte) : Prop := ∃ random, b = { a with serverRandom := random }

omit [Octet Byte] in
theorem OffRandom.refl (a : Handshake Byte) : OffRandom a a := ⟨a.serverRandom, rfl⟩

omit [Octet Byte] in
theorem offRandom_read_bind {α : Type} {next : Handshake Byte → HandshakeProg Byte α}
    (same : ∀ a random, next { a with serverRandom := random } = next a)
    (tail : ∀ a, Blind OffRandom (next a)) : Blind OffRandom (read >>= next) := by
  refine .read_bind ?_
  rintro a _ ⟨random, rfl⟩
  rw [same a random]
  exact tail a

omit [Octet Byte] in
theorem offRandom_write {update : Handshake Byte → Handshake Byte}
    (commutes : ∀ a random, OffRandom (update a) (update { a with serverRandom := random })) :
    Blind OffRandom (write update : HandshakeProg Byte Unit) := by
  refine .write ?_
  rintro a _ ⟨random, rfl⟩
  exact commutes a random

omit [Octet Byte] in
theorem onSession_blind {α : Type} (method : SessionProg Byte α) :
    Blind OffRandom (onSession method) := by
  rintro a _ ⟨random, rfl⟩
  rcases outcome : method a.session with ⟨error | value, s⟩
  · exact .inr ⟨error, _, _, by rw [onSession, outcome], by rw [onSession, outcome], random, rfl⟩
  · exact .inl ⟨value, _, _, by rw [onSession, outcome], by rw [onSession, outcome], random, rfl⟩

theorem createClientHello_blind : Blind OffRandom (createClientHello env coins) := by
  refine offRandom_read_bind (fun _ _ => rfl) fun h => .bind (.reject _ _) fun _ => ?_
  refine .bind (offRandom_read_bind (fun _ _ => rfl) fun h => ?_) fun random => ?_
  · cases h.clientRandom with
    | some random => exact .pure _
    | none =>
      refine .bind ?_ fun _ => .bind (offRandom_write fun _ r => ⟨r, rfl⟩) fun _ => .pure _
      unfold mustRandom
      cases coins.random with
      | none => exact .fail _
      | some bytes => exact .pure _
  cases h.session.localKeyPair with
  | none => exact .fail _
  | some keyPair =>
    refine .bind (offRandom_read_bind (fun _ _ => rfl) fun h => ?_) fun staticCT => ?_
    · cases h.session.pinnedServerKey with
      | none => exact .pure _
      | some pin =>
        exact .bind (.lift _) fun _ => .bind (.lift _) fun _ =>
          .bind (offRandom_write fun _ r => ⟨r, rfl⟩) fun _ => .pure _
    refine .bind (offRandom_read_bind (fun _ _ => rfl) fun h => ?_) fun identity => ?_
    · cases h.session.psk with
      | none => exact .pure _
      | some psk =>
        exact .bind (offRandom_write fun _ r => ⟨r, rfl⟩) fun _ => .pure _
    exact .bind (.lift _) fun _ => .bind (offRandom_write fun _ r => ⟨r, rfl⟩) fun _ => .pure _

theorem processHelloRetryRequest_blind (data : List Byte) :
    Blind OffRandom (processHelloRetryRequest env coins data) := by
  refine offRandom_read_bind (fun _ _ => rfl) fun h => .bind (.reject _ _) fun _ => ?_
  refine .bind (.reject _ _) fun _ => .bind (.lift _) fun msg => ?_
  refine .bind (.reject _ _) fun _ => .bind (.lift _) fun suite => ?_
  refine .bind (.reject _ _) fun _ => .bind (.lift _) fun keyPair => ?_
  refine .bind (offRandom_write fun _ r => ⟨r, rfl⟩) fun _ => ?_
  refine .bind (offRandom_read_bind (fun _ _ => rfl) fun h => ?_) fun _ =>
    offRandom_write fun _ r => ⟨r, rfl⟩
  exact .bind (.lift _) fun _ => offRandom_write fun _ r => ⟨r, rfl⟩

theorem deriveHandshakeSecrets_blind : Blind OffRandom (deriveHandshakeSecrets env) := by
  refine .bind (offRandom_read_bind (fun _ _ => rfl) fun h => ?_) fun _ =>
    .bind (offRandom_read_bind (fun _ _ => rfl) fun h => ?_) fun _ => ?_
  · cases h.staticSecret with
    | none => exact .pure _
    | some secret =>
      exact .bind (.lift _) fun _ => offRandom_write fun _ r => ⟨r, rfl⟩
  · exact .ite (fun _ => .bind (Blind.lift _) fun _ => offRandom_write fun _ r => ⟨r, rfl⟩)
      fun _ => Blind.pure _
  · refine offRandom_read_bind (fun _ _ => rfl) fun h => .bind (.lift _) fun keys => ?_
    refine .bind (offRandom_write fun _ r => ⟨r, rfl⟩) fun _ => .bind (.lift _) fun _ => ?_
    exact .bind (offRandom_write fun _ r => ⟨r, rfl⟩) fun _ => .bind (.lift _) fun _ => .pure _

theorem processServerHello_blind (data : List Byte) :
    Blind OffRandom (processServerHello env data) := by
  refine offRandom_read_bind (fun _ _ => rfl) fun h => .bind (.reject _ _) fun _ => ?_
  refine .bind (.lift _) fun msg => .bind (.reject _ _) fun _ => ?_
  refine .bind (.reject _ _) fun _ => .bind (offRandom_write fun _ r => ⟨_, rfl⟩) fun _ => ?_
  refine .bind (offRandom_read_bind (fun _ _ => rfl) fun h => ?_) fun freshSecret => ?_
  · refine .bind (.lift _) fun ct => ?_
    cases h.session.localKeyPair with
    | none => exact .fail _
    | some keyPair => exact .lift _
  refine .bind (offRandom_read_bind (fun _ _ => rfl) fun h => .ite (fun _ => ?_) fun _ => ?_)
    fun _ => ?_
  · exact .bind (offRandom_write fun _ r => ⟨r, rfl⟩) fun _ =>
      .bind (Blind.lift _) fun _ => Blind.pure _
  · exact offRandom_write fun _ r => ⟨r, rfl⟩
  exact .bind (offRandom_write fun _ r => ⟨r, rfl⟩) fun _ =>
    .bind deriveHandshakeSecrets_blind fun _ => offRandom_write fun _ r => ⟨r, rfl⟩

theorem openFinished_blind (domain : Domain) (cipher : Cipher Byte) (data : List Byte) :
    Blind OffRandom (openFinished env domain cipher data) := by
  have compared (plaintext : List Byte) : Blind OffRandom (do
      let received ← lift (decodeFinished plaintext)
      let h ← read
      let expected ← lift (verifyData env.toCrypto domain h.sharedSecret h.transcript)
      reject (received ≠ expected) (.err .authenticationFailed)
      return plaintext : HandshakeProg Byte (List Byte)) :=
    .bind (.lift _) fun _ => offRandom_read_bind (fun _ _ => rfl) fun _ =>
      .bind (.lift _) fun _ => .bind (.reject _ _) fun _ => .pure _
  unfold openFinished
  cases openNext env.toCrypto cipher data [] with
  | error stop => exact .bind (.fail _) compared
  | ok plaintext => exact .bind (.pure _) compared

theorem processServerFinished_blind (data : List Byte) :
    Blind OffRandom (processServerFinished env data) := by
  refine offRandom_read_bind (fun _ _ => rfl) fun h => .bind (.reject _ _) fun _ => ?_
  cases h.recvCipher with
  | none => exact .fail _
  | some cipher =>
    exact .bind (openFinished_blind _ _ _) fun _ => offRandom_write fun _ r => ⟨r, rfl⟩

theorem createClientFinished_blind : Blind OffRandom (createClientFinished env coins) := by
  refine offRandom_read_bind (fun _ _ => rfl) fun h => .bind (.reject _ _) fun _ => ?_
  refine .bind (.lift _) fun verify => .bind (.lift _) fun plaintext => ?_
  refine .bind (offRandom_read_bind (fun _ _ => rfl) fun h => ?_) fun ciphertext => ?_
  · cases h.sendCipher with
    | none => exact .fail _
    | some cipher => exact .bind (offRandom_write fun _ r => ⟨r, rfl⟩) fun _ => .lift _
  refine .bind (offRandom_read_bind (fun _ _ => rfl) fun h => ?_) fun _ => ?_
  · exact .ite (fun _ => onSession_blind _) fun _ => onSession_blind _
  exact .bind (offRandom_write fun _ r => ⟨r, rfl⟩) fun _ =>
    .bind (offRandom_write fun _ r => ⟨none, rfl⟩) fun _ => .pure _

end Initiator

/-! The responder. -/

structure Leftover (Byte : Type) where
  suite : Suite Byte
  remote : Option (PublicKey Byte)
  cipher : UInt16
  random : Option (List Byte)
  secret : Option (List Byte)
  foldPSK : Bool
  key : List Byte

def own {Byte : Type} (h : Handshake Byte) : Leftover Byte :=
  ⟨h.session.kemSuite, h.session.remotePublicKey, h.session.cipherSuite, h.clientRandom,
    h.staticSecret, h.foldPSK, h.pskKey⟩

def withLeftover {Byte : Type} (h : Handshake Byte) (left : Leftover Byte) : Handshake Byte :=
  { h with
    clientRandom := left.random, staticSecret := left.secret
    foldPSK := left.foldPSK, pskKey := left.key
    session := { h.session with
      kemSuite := left.suite, remotePublicKey := left.remote, cipherSuite := left.cipher } }

section Hello
variable (env : Env Byte) (coins : Coins Byte) (h : Handshake Byte) (msg : ClientHello Byte)
  (suite : Suite Byte)

def heard : Leftover Byte := { own h with suite := suite, random := some msg.random }

def named (remote : PublicKey Byte) : Leftover Byte :=
  { heard h msg suite with remote := some remote }

def opened (remote : PublicKey Byte) (secret : Option (List Byte)) : Leftover Byte :=
  { named h msg suite remote with secret := secret.or h.staticSecret }

def chosen (remote : PublicKey Byte) (secret key : Option (List Byte)) : Leftover Byte :=
  { opened h msg suite remote secret with
    foldPSK := h.foldPSK || key.isSome, key := key.getD h.pskKey
    cipher := selectCipherSuite env msg.cipherSuites }

def greeted (data : List Byte) : Except Fault Unit × Handshake Byte :=
  match suite.parsePublicKey msg.chkemPublicKey with
  | .error error => (.error (.err error), withLeftover h (heard h msg suite))
  | .ok remote =>
    if h.session.requireStaticAuth = true ∧ msg.chkemStaticCiphertext.length = 0 then
      (.error (.err .staticAuthRequired), withLeftover h (named h msg suite remote))
    else match staticLeg env h.session msg.chkemStaticCiphertext with
      | .error error => (.error (.err error), withLeftover h (named h msg suite remote))
      | .ok secret =>
        match chosenPSK coins h.session msg.pskIdentity with
        | .error error => (.error (.err error), withLeftover h (opened h msg suite remote secret))
        | .ok key =>
          let accepted := withLeftover h (chosen env h msg suite remote secret key)
          if isSupported (selectCipherSuite env msg.cipherSuites) = false then
            (.error (.err .unsupportedCipherSuite), accepted)
          else (.ok (), { accepted with
            transcript := h.transcript ++ data
            session := { accepted.session with
              version := msg.version, state := .handshaking } })

theorem run_acceptClientHello (data : List Byte) (ticketless : h.ticketManager = none) :
    acceptClientHello env coins data msg suite h = greeted env coins h msg suite data := by
  have idle : tryResume env coins msg.sessionID (withLeftover h (heard h msg suite)) =
      (.ok (), withLeftover h (heard h msg suite)) := by
    rw [run_tryResume]
    simp only [withLeftover, ticketless, presentedTicket, resumedBy_none]
  unfold acceptClientHello greeted
  rw [write_bind]
  refine (run_bind_ok idle).trans ?_
  rw [run_liftErr_bind]
  cases suite.parsePublicKey msg.chkemPublicKey with
  | error error => rfl
  | ok remote =>
    dsimp only
    rw [write_bind, read_bind]
    by_cases missing : h.session.requireStaticAuth = true ∧ msg.chkemStaticCiphertext.length = 0
    · rw [if_pos missing]
      exact run_bind_error (run_reject_pos _ missing)
    rw [if_neg missing]
    refine (run_bind_ok (run_reject_neg _ missing)).trans ?_
    have static : decapsulateStatic env msg.chkemStaticCiphertext
        (withLeftover h (named h msg suite remote)) =
        match staticLeg env h.session msg.chkemStaticCiphertext with
        | .error error => (.error (.err error), withLeftover h (named h msg suite remote))
        | .ok secret => (.ok (), withLeftover h (opened h msg suite remote secret)) :=
      run_decapsulateStatic _
    cases leg : staticLeg env h.session msg.chkemStaticCiphertext with
    | error error =>
      rw [leg] at static
      exact run_bind_error static
    | ok secret =>
      rw [leg] at static
      refine (run_bind_ok static).trans ?_
      have selected : selectPSK coins msg.pskIdentity
          (withLeftover h (opened h msg suite remote secret)) =
          match chosenPSK coins h.session msg.pskIdentity with
          | .error error => (.error (.err error), withLeftover h (opened h msg suite remote secret))
          | .ok key => (.ok (), withLeftover h { opened h msg suite remote secret with
              foldPSK := h.foldPSK || key.isSome, key := key.getD h.pskKey }) :=
        run_selectPSK _
      cases psk : chosenPSK coins h.session msg.pskIdentity with
      | error error =>
        rw [psk] at selected
        exact run_bind_error selected
      | ok key =>
        rw [psk] at selected
        refine (run_bind_ok selected).trans ?_
        rw [write_bind]
        by_cases unsupported : isSupported (selectCipherSuite env msg.cipherSuites) = false
        · simp only [if_pos unsupported]
          exact run_bind_error (run_reject_pos _ unsupported)
        · simp only [if_neg unsupported]
          exact run_bind_ok (run_reject_neg _ unsupported)

end Hello

/-- Leftovers that the next hello overwrites before anything reads them: a static
secret where every hello must bring one, a key where every hello selects one. -/
structure Excused (h : Handshake Byte) (left : Leftover Byte) : Prop where
  secret : left.secret = h.staticSecret ∨
    h.session.requireStaticAuth = true ∧ h.session.staticKeyPair.isSome = true
  key : (left.foldPSK = h.foldPSK ∧ left.key = h.pskKey) ∨ h.session.requirePSK = true

structure Idle (a b : Handshake Byte) : Prop where
  state : a.state = .initial
  ticketless : a.ticketManager = none
  differs : ∃ left, b = withLeftover a left ∧ Excused a left

def Twin (a b : Handshake Byte) : Prop := a = b ∨ Idle a b

variable {session : Session Byte} {a b : Handshake Byte}

section Responder

omit [Octet Byte] in
theorem idle_over {h : Handshake Byte} {left left' : Leftover Byte} (state : h.state = .initial)
    (ticketless : h.ticketManager = none) (secret : left'.secret = left.secret ∨
      h.session.requireStaticAuth = true ∧ h.session.staticKeyPair.isSome = true)
    (key : (left'.foldPSK = left.foldPSK ∧ left'.key = left.key) ∨ h.session.requirePSK = true) :
    Idle (withLeftover h left) (withLeftover h left') :=
  ⟨state, ticketless, left', rfl, secret, key⟩

omit [Octet Byte] in
theorem staticLeg_isSome {ciphertext : List Byte} {secret : Option (List Byte)}
    (leg : staticLeg env session ciphertext = .ok secret)
    (holder : session.staticKeyPair.isSome = true) (offered : ciphertext.length ≠ 0) :
    secret.isSome = true := by
  obtain ⟨keyPair, held⟩ := Option.isSome_iff_exists.mp holder
  simp only [staticLeg, held, if_pos (Nat.pos_of_ne_zero offered), except_bind_ok_iff,
    except_pure_ok_iff] at leg
  obtain ⟨_, -, _, -, _, -, rfl⟩ := leg
  rfl

theorem chosenPSK_isSome {identity : List Byte} {key : Option (List Byte)}
    (selected : chosenPSK coins session identity = .ok key) (must : session.requirePSK = true) :
    key.isSome = true := by
  unfold chosenPSK at selected
  rw [if_pos must] at selected
  split at selected
  · obtain rfl := Except.ok.inj selected
    rfl
  · split at selected
    · cases selected
    · obtain rfl := Except.ok.inj selected
      rfl

/-- A hello in a known suite cannot tell such responders apart, and where it is accepted
nothing of the leftovers remains. -/
theorem acceptClientHello_coupled (data : List Byte) (msg : ClientHello Byte) (suite : Suite Byte) :
    Coupled Idle (acceptClientHello env coins data msg suite)
      (acceptClientHello env coins data msg suite) Eq Twin := by
  rintro a _ ⟨state, ticketless, left, rfl, excused⟩
  rw [run_acceptClientHello env coins a msg suite data ticketless,
    run_acceptClientHello env coins (withLeftover a left) msg suite data ticketless]
  have required : (withLeftover a left).session.requireStaticAuth = a.session.requireStaticAuth :=
    rfl
  have static : staticLeg env (withLeftover a left).session msg.chkemStaticCiphertext =
      staticLeg env a.session msg.chkemStaticCiphertext := rfl
  have psk : chosenPSK coins (withLeftover a left).session msg.pskIdentity =
      chosenPSK coins a.session msg.pskIdentity := rfl
  unfold greeted
  rw [required, static, psk]
  cases suite.parsePublicKey msg.chkemPublicKey with
  | error error =>
    exact .inr ⟨_, _, _, rfl, rfl, .inr (idle_over state ticketless excused.secret excused.key)⟩
  | ok remote =>
    by_cases missing : a.session.requireStaticAuth = true ∧ msg.chkemStaticCiphertext.length = 0
    · simp only [if_pos missing]
      exact .inr ⟨_, _, _, rfl, rfl, .inr (idle_over state ticketless excused.secret excused.key)⟩
    simp only [if_neg missing]
    cases leg : staticLeg env a.session msg.chkemStaticCiphertext with
    | error error =>
      exact .inr ⟨_, _, _, rfl, rfl, .inr (idle_over state ticketless excused.secret excused.key)⟩
    | ok secret =>
      -- A static secret that must be there is this hello's own.
      have secrets : secret.or left.secret = secret.or a.staticSecret := by
        rcases excused.secret with same | ⟨must, holder⟩
        · rw [same]
        · obtain ⟨fresh, rfl⟩ := Option.isSome_iff_exists.mp (staticLeg_isSome leg holder
            fun empty => missing ⟨must, empty⟩)
          rfl
      cases selected : chosenPSK coins a.session msg.pskIdentity with
      | error error =>
        exact .inr ⟨_, _, _, rfl, rfl, .inr (idle_over state ticketless (.inl secrets) excused.key)⟩
      | ok key =>
        have keys : (left.foldPSK || key.isSome) = (a.foldPSK || key.isSome) ∧
            key.getD left.key = key.getD a.pskKey := by
          rcases excused.key with ⟨folds, same⟩ | must
          · rw [folds, same]
            exact ⟨rfl, rfl⟩
          · obtain ⟨fresh, rfl⟩ := Option.isSome_iff_exists.mp (chosenPSK_isSome selected must)
            simp
        have same : withLeftover (withLeftover a left)
            (chosen env (withLeftover a left) msg suite remote secret key) =
            withLeftover a (chosen env a msg suite remote secret key) := by
          simp only [chosen, opened, named, heard, own, withLeftover, secrets, keys.1, keys.2]
        dsimp only
        rw [same]
        by_cases unsupported : isSupported (selectCipherSuite env msg.cipherSuites) = false
        · rw [if_pos unsupported]
          exact .inr ⟨_, _, _, rfl, if_pos unsupported, .inl rfl⟩
        · rw [if_neg unsupported]
          exact .inl ⟨_, _, _, rfl, if_neg unsupported, rfl⟩

def Answering (a b : Handshake Byte) : Prop := a = b ∨ Idle a b ∧ a.sendHRR = true

omit [Octet Byte] in
theorem steerClient_coupled (data : List Byte) (msg : ClientHello Byte) :
    Coupled Idle (steerClient data msg) (steerClient data msg) Answering Twin := by
  refine .read_bind ?_
  rintro a _ ⟨state, ticketless, left, rfl, excused⟩
  have idle : Idle a (withLeftover a left) := ⟨state, ticketless, left, rfl, excused⟩
  refine .bind (.reject _ _ ?_) fun _ => ?_
  · rintro _ _ ⟨rfl, rfl⟩
    exact .inr idle
  cases selectMutualKEMSuite msg.kemSuites with
  | none =>
    refine .fail _ ?_
    rintro _ _ ⟨⟨rfl, rfl⟩, -⟩
    exact .inr idle
  | some suite =>
    refine .write ?_
    rintro _ _ ⟨⟨rfl, rfl⟩, -⟩
    exact .inr ⟨⟨state, ticketless, left, rfl, excused.secret, excused.key⟩, rfl⟩

theorem processClientHello_coupled (data : List Byte) :
    Coupled Twin (processClientHello env coins data) (processClientHello env coins data)
      Answering Twin := by
  rintro a b (rfl | idle)
  · exact ((Coupled.refl _).weaken (fun _ _ same => same) (fun _ _ same => .inl same)
      fun _ _ same => .inl same) a a rfl
  refine (.read_bind ?_ : Coupled Idle _ _ Answering Twin) a b idle
  rintro a _ ⟨state, ticketless, left, rfl, excused⟩
  have idle : Idle a (withLeftover a left) := ⟨state, ticketless, left, rfl, excused⟩
  have paired : ∀ x y, x = a ∧ y = withLeftover a left → Twin x y := by
    rintro _ _ ⟨rfl, rfl⟩
    exact .inr idle
  refine .bind (.reject _ _ paired) fun _ => ?_
  refine .bind (.lift _ fun x y both => paired x y both.1) fun msg => ?_
  refine .bind (.reject _ _ fun x y both => paired x y both.1) fun _ => ?_
  cases getSuite env.registry msg.kemSuite with
  | none =>
    refine (steerClient_coupled data msg).weaken ?_ (fun _ _ after => after) fun _ _ after => after
    rintro _ _ ⟨⟨⟨rfl, rfl⟩, -⟩, -⟩
    exact idle
  | some suite =>
    refine (acceptClientHello_coupled data msg suite).weaken ?_ (fun _ _ same => .inl same)
      fun _ _ after => after
    rintro _ _ ⟨⟨⟨rfl, rfl⟩, -⟩, -⟩
    exact idle

theorem replaceFirstHelloWithHash_coupled (hrrFrame : List Byte) :
    Coupled Idle (replaceFirstHelloWithHash env hrrFrame) (replaceFirstHelloWithHash env hrrFrame)
      Idle Twin := by
  refine .read_bind ?_
  rintro a _ ⟨state, ticketless, left, rfl, excused⟩
  refine .bind (.lift _ ?_) fun hash => .write ?_
  · rintro _ _ ⟨rfl, rfl⟩
    exact .inr ⟨state, ticketless, left, rfl, excused⟩
  · rintro _ _ ⟨rfl, rfl⟩
    exact ⟨state, ticketless, left, rfl, excused.secret, excused.key⟩

theorem createHelloRetryRequest_coupled :
    Coupled Answering (createHelloRetryRequest env) (createHelloRetryRequest env) Twin Twin := by
  rintro a b (rfl | ⟨idle, -⟩)
  · exact ((Coupled.refl _).weaken (fun _ _ same => same) (fun _ _ same => .inl same)
      fun _ _ same => .inl same) a a rfl
  refine (.read_bind ?_ : Coupled Idle _ _ Twin Twin) a b idle
  rintro a _ ⟨state, ticketless, left, rfl, excused⟩
  have idle : Idle a (withLeftover a left) := ⟨state, ticketless, left, rfl, excused⟩
  refine .bind (.reject _ _ ?_) fun _ => ?_
  · rintro _ _ ⟨rfl, rfl⟩
    exact .inr idle
  have marked : Blind Idle (write fun h => { h with sendHRR := false, hrrDone := true } :
      HandshakeProg Byte Unit) := by
    refine .write ?_
    rintro a _ ⟨state, ticketless, left, rfl, excused⟩
    exact ⟨state, ticketless, left, rfl, excused.secret, excused.key⟩
  refine .bind ((replaceFirstHelloWithHash_coupled _).weaken ?_ (fun _ _ after => after)
    fun _ _ after => after) fun _ => .bind (marked.weaken (fun _ _ before => before)
    (fun _ _ after => after) fun _ _ after => .inr after) fun _ => ?_
  · rintro _ _ ⟨⟨rfl, rfl⟩, -⟩
    exact idle
  · exact .pure _ fun _ _ after => .inr after

/-- A waiting responder refuses a ClientFinished unread. -/
theorem processClientFinished_coupled (data : List Byte) :
    Coupled Twin (processClientFinished env coins data) (processClientFinished env coins data)
      Eq Twin := by
  rintro a b (rfl | ⟨state, ticketless, left, rfl, excused⟩)
  · exact ((Coupled.refl _).weaken (fun _ _ same => same) (fun _ _ same => same)
      fun _ _ same => .inl same) a a rfl
  · have early : a.state ≠ .serverFinishedSent := by
      rw [state]
      decide
    refine .inr ⟨.err .invalidState, a, withLeftover a left, ?_, ?_,
      .inr ⟨state, ticketless, left, rfl, excused⟩⟩
    · rw [processClientFinished, read_bind]
      exact run_bind_error (run_reject_pos a early)
    · rw [processClientFinished, read_bind]
      exact run_bind_error (run_reject_pos (withLeftover a left) early)

end Responder

variable {rel : Handshake Byte → Handshake Byte → Prop} {role : Role}

/-! The machines. -/
section Machine

def Lifted (rel : Handshake Byte → Handshake Byte → Prop) (d d' : DgramHandshake Byte) : Prop :=
  ∃ hs, d' = { d with hs } ∧ rel d.hs hs

omit [Octet Byte] in
theorem onHs_coupled {α : Type} {pre post stop : Handshake Byte → Handshake Byte → Prop}
    {left right : HandshakeProg Byte α} (coupled : Coupled pre left right post stop) :
    Coupled (Lifted pre) (onHs left) (onHs right) (Lifted post) (Lifted stop) := by
  rintro d _ ⟨hs, rfl, related⟩
  rcases coupled d.hs hs related with
    ⟨value, a, b, ran, ran', after⟩ | ⟨error, a, b, ran, ran', after⟩
  · exact .inl ⟨value, { d with hs := a }, { d with hs := b }, by rw [onHs, ran],
      by rw [onHs, ran'], b, rfl, after⟩
  · exact .inr ⟨error, { d with hs := a }, { d with hs := b }, by rw [onHs, ran],
      by rw [onHs, ran'], b, rfl, after⟩

omit [Octet Byte] in
/-- A dropped message leaves what the stopped builder left. -/
theorem dropping_coupled {pre post : DgramHandshake Byte → DgramHandshake Byte → Prop}
    {left right : FsmProg Byte (Reaction Byte)} (coupled : Coupled pre left right post post) :
    Coupled pre (dropping left) (dropping right) post post := by
  intro d d' related
  rcases coupled d d' related with ⟨value, a, b, ran, ran', after⟩ | ⟨error, a, b, ran, ran', after⟩
  · exact .inl ⟨value, a, b, by rw [dropping, ran], by rw [dropping, ran'], after⟩
  · cases error with
    | err error => exact .inl ⟨_, a, b, by rw [dropping, ran], by rw [dropping, ran'], after⟩
    | panic => exact .inr ⟨_, a, b, by rw [dropping, ran], by rw [dropping, ran'], after⟩

omit [Octet Byte] in
theorem lifted_write {update : DgramHandshake Byte → DgramHandshake Byte}
    (kept : ∀ d hs, update { d with hs } = { update d with hs } ∧ (update d).hs = d.hs) :
    Blind (Lifted rel) (write update : FsmProg Byte Unit) := by
  refine .write ?_
  rintro d _ ⟨hs, rfl, related⟩
  exact ⟨hs, (kept d hs).1, by rwa [(kept d hs).2]⟩

omit [Octet Byte] in
theorem commit_blind (processed next : UInt8) (out : List (HsMessage Byte)) :
    Blind (Lifted rel) (commit processed out next) :=
  lifted_write fun _ _ => ⟨rfl, rfl⟩

theorem advanceServerFinished_blind (body : List Byte) :
    Blind (Lifted OffRandom) (advanceServerFinished env coins body) :=
  dropping_coupled (.bind (onHs_coupled (processServerFinished_blind body)) fun _ =>
    .bind (onHs_coupled createClientFinished_blind) fun _ =>
    .bind (commit_blind _ _ _) fun _ => Blind.pure _)

theorem advanceServerHello_blind (body : List Byte) :
    Blind (Lifted OffRandom) (advanceServerHello env coins body) := by
  refine dropping_coupled (.bind (onHs_coupled (processServerHello_blind body)) fun _ =>
    .bind (lifted_write fun _ _ => ⟨rfl, rfl⟩) fun _ => Blind.read_bind ?_)
  rintro d _ ⟨hs, rfl, -⟩
  dsimp only
  cases d.earlyFinished with
  | none => exact Blind.pure _
  | some early =>
    exact .bind (lifted_write fun _ _ => ⟨rfl, rfl⟩) fun _ => advanceServerFinished_blind early

theorem advanceHelloRetryRequest_blind (body : List Byte) :
    Blind (Lifted OffRandom) (advanceHelloRetryRequest env coins body) :=
  dropping_coupled (.bind (onHs_coupled (processHelloRetryRequest_blind body)) fun _ =>
    .bind (onHs_coupled createClientHello_blind) fun _ =>
    .bind (commit_blind _ _ _) fun _ => Blind.pure _)

theorem answerClientHello_coupled :
    Coupled (Lifted Answering) (answerClientHello env coins) (answerClientHello env coins)
      (Lifted Twin) (Lifted Twin) := by
  refine .read_bind ?_
  rintro d _ ⟨hs, rfl, answering⟩
  have flag : hs.sendHRR = d.hs.sendHRR := by
    rcases answering with rfl | ⟨⟨-, -, left, rfl, -⟩, -⟩ <;> rfl
  dsimp only
  rw [flag]
  refine .ite (fun _ => ?_) fun straight => ?_
  · refine .bind ((onHs_coupled createHelloRetryRequest_coupled).weaken ?_
      (fun _ _ after => after) fun _ _ after => after) fun hrr =>
      .bind (commit_blind _ _ _) fun _ => Blind.pure _
    rintro _ _ ⟨rfl, rfl⟩
    exact ⟨hs, rfl, answering⟩
  · -- No retry is asked for, so the two handshakes are equal.
    obtain rfl : d.hs = hs := by
      rcases answering with same | ⟨-, retry⟩
      · exact same
      · exact absurd retry straight
    refine ((Coupled.refl _).weaken ?_ ?_ ?_)
    · rintro _ _ ⟨rfl, rfl⟩
      rfl
    · rintro a _ rfl
      exact ⟨a.hs, rfl, .inl rfl⟩
    · rintro a _ rfl
      exact ⟨a.hs, rfl, .inl rfl⟩

theorem advanceClientHello_blind (body : List Byte) :
    Blind (Lifted Twin) (advanceClientHello env coins body) := by
  refine dropping_coupled (Blind.read_bind ?_)
  rintro d _ ⟨hs, rfl, twin⟩
  have same : hs.hrrDone = d.hs.hrrDone ∧ hs.firstClientHello = d.hs.firstClientHello := by
    rcases twin with rfl | ⟨-, -, left, rfl, -⟩ <;> exact ⟨rfl, rfl⟩
  dsimp only
  rw [same.1, same.2]
  refine .ite (fun _ => Blind.pure _) fun _ => ?_
  exact .bind (onHs_coupled (processClientHello_coupled body)) fun _ => answerClientHello_coupled

theorem advanceClientFinished_blind (body : List Byte) :
    Blind (Lifted Twin) (advanceClientFinished env coins body) := by
  refine dropping_coupled (.bind ((onHs_coupled (processClientFinished_coupled body)).weaken
    (fun _ _ before => before) ?_ fun _ _ after => after) fun _ =>
    .bind (lifted_write fun _ _ => ⟨rfl, rfl⟩) fun _ => Blind.pure _)
  rintro d _ ⟨hs, rfl, same⟩
  exact ⟨hs, rfl, .inl same⟩

def twinOf : Role → Handshake Byte → Handshake Byte → Prop
  | .initiator => OffRandom
  | .responder => Twin

omit [Octet Byte] in
theorem twinOf_refl (role : Role) (h : Handshake Byte) : twinOf role h h := by
  cases role with
  | initiator => exact OffRandom.refl h
  | responder => exact .inl rfl

omit [Octet Byte] in
theorem twinOf_hrrDone (twin : twinOf role a b) : b.hrrDone = a.hrrDone := by
  cases role with
  | initiator =>
    obtain ⟨random, rfl⟩ := twin
    rfl
  | responder => rcases twin with rfl | ⟨-, -, left, rfl, -⟩ <;> rfl

def Alike (role : Role) (d d' : DgramHandshake Byte) : Prop :=
  d.role = role ∧ Lifted (twinOf role) d d'

theorem advance_coupled (role : Role) (typ : UInt8) (body : List Byte) :
    Coupled (Alike role) (advance env coins typ body) (advance env coins typ body)
      (Lifted (twinOf role)) (Lifted (twinOf role)) := by
  refine .read_bind ?_
  rintro d _ ⟨owner, hs, rfl, twin⟩
  have paired : ∀ x y, x = d ∧ y = { d with hs } → Lifted (twinOf role) x y := by
    rintro _ _ ⟨rfl, rfl⟩
    exact ⟨hs, rfl, twin⟩
  refine Coupled.weaken ?_ paired (fun _ _ after => after) fun _ _ after => after
  dsimp only
  rw [owner]
  cases role with
  | initiator =>
    refine .ite (fun _ => advanceServerHello_blind body) fun _ => ?_
    refine .ite (fun _ => advanceServerFinished_blind body) fun _ => ?_
    exact .ite (fun _ => advanceHelloRetryRequest_blind body) fun _ => Blind.pure _
  | responder =>
    refine .ite (fun _ => advanceClientHello_blind body) fun _ => ?_
    exact .ite (fun _ => advanceClientFinished_blind body) fun _ => Blind.pure _

theorem onMessage_blind (role : Role) (typ : UInt8) (body : List Byte) :
    Blind (Alike role) (onMessage env coins typ body) := by
  have reacts : Coupled (Alike role) (onMessage env coins typ body) (onMessage env coins typ body)
      (Lifted (twinOf role)) (Lifted (twinOf role)) := by
    refine .read_bind ?_
    rintro d _ ⟨owner, hs, rfl, twin⟩
    have paired : ∀ x y, x = d ∧ y = { d with hs } → Lifted (twinOf role) x y := by
      rintro _ _ ⟨rfl, rfl⟩
      exact ⟨hs, rfl, twin⟩
    have advances : Coupled (fun x y => x = d ∧ y = { d with hs }) (advance env coins typ body)
        (advance env coins typ body) (Lifted (twinOf role)) (Lifted (twinOf role)) := by
      refine (advance_coupled role typ body).weaken ?_ (fun _ _ after => after)
        fun _ _ after => after
      rintro _ _ ⟨rfl, rfl⟩
      exact ⟨owner, hs, rfl, twin⟩
    dsimp only
    rw [twinOf_hrrDone twin]
    refine .ite (fun _ => advances) fun _ => .ite (fun _ => advances) fun _ => ?_
    refine .ite (fun _ => ?_) fun _ => .ite (fun _ => .pure _ paired) fun _ =>
      .ite (fun _ => .pure _ paired) fun _ => .pure _ paired
    refine Coupled.weaken ?_ paired (fun _ _ after => after) fun _ _ after => after
    exact .bind (lifted_write fun _ _ => ⟨rfl, rfl⟩) fun _ => Blind.pure _
  exact .keeping reacts (onMessage_keeps_role typ body)

/-- One message and the draws made for it. A reassembled message is far shorter. -/
structure Inbound (Byte : Type) where
  coins : Coins Byte
  typ : UInt8
  body : List Byte
  fits : body.length ≤ maxUint32

def onMessages (env : Env Byte) : List (Inbound Byte) → FsmProg Byte (List (Reaction Byte))
  | [] => return []
  | m :: rest => do
    let reaction ← onMessage env m.coins m.typ m.body
    let reactions ← onMessages env rest
    return reaction :: reactions

theorem onMessages_blind (role : Role) (messages : List (Inbound Byte)) :
    Blind (Alike role) (onMessages env messages) := by
  induction messages with
  | nil => exact .pure _
  | cons m rest ih =>
    exact .bind (onMessage_blind role m.typ m.body) fun _ => .bind ih fun _ => .pure _

structure Keys (Byte : Type) where
  masterSecret : Option (List Byte)
  sendCipher : Option (Cipher Byte)
  recvCipher : Option (Cipher Byte)
  sendNoncePrefix : List Byte
  recvNoncePrefix : List Byte
  dgramEpochs : Option (DatagramEpochState Byte)

def keysOf (s : Session Byte) : Keys Byte :=
  ⟨s.masterSecret, s.sendCipher, s.recvCipher, s.sendNoncePrefix, s.recvNoncePrefix, s.dgramEpochs⟩

def Indistinguishable (env : Env Byte) (d d' : DgramHandshake Byte) : Prop :=
  ∀ messages, (onMessages env messages d).1 = (onMessages env messages d').1 ∧
    (onMessages env messages d).2.hs.state = (onMessages env messages d').2.hs.state ∧
    keysOf (onMessages env messages d).2.hs.session =
      keysOf (onMessages env messages d').2.hs.session

omit [Octet Byte] in
theorem twinOf_observed (twin : twinOf role a b) :
    a.state = b.state ∧ keysOf a.session = keysOf b.session := by
  cases role with
  | initiator =>
    obtain ⟨random, rfl⟩ := twin
    exact ⟨rfl, rfl⟩
  | responder => rcases twin with rfl | ⟨-, -, left, rfl, -⟩ <;> exact ⟨rfl, rfl⟩

theorem Alike.indistinguishable {d d' : DgramHandshake Byte} (alike : Alike role d d') :
    Indistinguishable env d d' := by
  intro messages
  rcases onMessages_blind role messages d d' alike with ⟨value, a, b, ran, ran', -, hs, rfl, twin⟩ |
      ⟨error, a, b, ran, ran', -, hs, rfl, twin⟩
  · rw [ran, ran']
    exact ⟨rfl, twinOf_observed twin⟩
  · rw [ran, ran']
    exact ⟨rfl, twinOf_observed twin⟩

end Machine

end QuantumGo.DatagramTwins
