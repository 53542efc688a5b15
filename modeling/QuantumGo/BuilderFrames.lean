import QuantumGo.ResponderSpecs

/-!
What the parts of the handshake builders leave alone, whether they finish or stop: the state, the
marks of a retry and the traffic keys of the session.
-/

namespace QuantumGo.BuilderFrames

open Octets Effect Wire HelloCodec Aead Kem Tunnel Flights
open KeySchedule hiding deriveHandshakeKeys

variable {Byte : Type}

abbrev Marks (Byte : Type) :=
  HandshakeState × Bool × Bool × List (List Byte × List Byte) × Option (Cipher Byte) ×
    Option (Cipher Byte) × Option (DatagramEpochState Byte)

def marks (h : Handshake Byte) : Marks Byte :=
  (h.state, h.hrrDone, h.sendHRR, h.sealed, h.session.sendCipher, h.session.recvCipher,
    h.session.dgramEpochs)

variable {env : Env Byte} {coins : Coins Byte}

/-! What the writes of a part maintain, the part maintains. -/
section Parts
variable {inv : Handshake Byte → Prop}

theorem mustRandom_maintains : Maintains inv (mustRandom coins) := by
  unfold mustRandom
  cases coins.random with
  | none => exact .fail _
  | some random => exact .pure _

theorem advertisePSK_maintains (folds : ∀ s h psk, inv s → s.session.psk = some psk → inv h →
    inv { h with foldPSK := true, pskKey := psk }) :
    Maintains inv (advertisePSK : HandshakeProg Byte (List Byte)) := by
  refine .read_bind fun s held => ?_
  cases configured : s.session.psk with
  | none => exact .pure _
  | some psk => exact .bind (.write fun h => folds s h psk held configured) fun _ => .pure _

theorem stableClientRandom_maintains
    (draws : ∀ h random, inv h → inv { h with clientRandom := some random }) :
    Maintains inv (stableClientRandom coins) := by
  refine .read_bind fun h _ => ?_
  cases h.clientRandom with
  | some random => exact .pure _
  | none =>
    exact .bind mustRandom_maintains fun _ => .bind (.write fun h => draws h _) fun _ => .pure _

theorem encapsulateToPin_maintains (stores : ∀ h secret, secret.length = 32 → inv h →
    inv { h with staticSecret := some secret }) : Maintains inv (encapsulateToPin env coins) := by
  refine .read_bind fun h _ => ?_
  cases h.session.pinnedServerKey with
  | none => exact .pure _
  | some pin =>
    refine .lift_bind fun suite _ => .lift_bind fun sent made => ?_
    have size : sent.2.length = 32 := by
      cases outcome : suite.encapsulate pin .initiator coins.staticEnc with
      | error stop => simp [outcome, Except.mapError] at made
      | ok value =>
        obtain rfl : value = sent := by simpa [outcome, Except.mapError] using made
        exact (suite.ciphertext_size _ _ _ _ _ outcome).2
    exact .bind (.write fun h => stores h _ size) fun _ => .pure _

section Secrets
variable [Octet Byte]
  (installs : ∀ h sharedSecret, inv h → inv { h with sharedSecret })
include installs

theorem installSharedSecret_maintains (secret : List Byte) :
    Maintains inv (installSharedSecret env secret) := by
  refine .read_bind fun h _ => .ite (fun _ => ?_) fun _ => .write fun h => installs h _
  exact .bind (.write fun h => installs h _) fun _ => .lift_bind fun _ _ => .pure _

theorem deriveHandshakeSecrets_maintains
    (clears : ∀ h, inv h → inv { h with staticSecret := none })
    (keys : ∀ h sendCipher recvCipher, inv h → inv { h with sendCipher, recvCipher }) :
    Maintains inv (deriveHandshakeSecrets env) := by
  refine .bind (.read_bind fun h _ => ?_) fun _ => .bind ?_ fun _ => ?_
  · cases h.staticSecret with
    | none => exact .pure _
    | some secret =>
      exact .lift_bind fun mixed _ => .write fun h held => clears _ (installs h mixed held)
  · exact .read_bind fun h _ => .ite
      (fun _ => .lift_bind fun _ _ => .write fun h => installs h _) fun _ => .pure _
  · refine .read_bind fun h _ => .lift_bind fun _ _ => ?_
    refine .bind (.write fun h => keys h _ h.recvCipher) fun _ => .lift_bind fun _ _ => ?_
    exact .bind (.write fun h => keys h h.sendCipher _) fun _ => .lift_bind fun _ _ => .pure _

end Secrets

theorem sealFinished_maintains [Octet Byte]
    (seals : ∀ h sendCipher sealed, inv h → inv { h with sendCipher, sealed })
    (plaintext : List Byte) : Maintains inv (sealFinished env plaintext) := by
  refine .read_bind fun h _ => ?_
  cases h.sendCipher with
  | none => exact .fail _
  | some cipher => exact .bind (.write fun h => seals h _ _) fun _ => .lift _

end Parts

theorem decapsulateFresh_keeps (ciphertext : List Byte) :
    Keeps (id : Handshake Byte → Handshake Byte) (decapsulateFresh ciphertext) := by
  refine .read_bind fun h => .lift_bind fun ct => ?_
  cases h.session.localKeyPair with
  | none => exact .fail _
  | some keyPair => exact .lift _

theorem selectPSK_keeps [Octet Byte] (identity : List Byte) :
    Keeps marks (selectPSK coins identity) := by
  refine .read_bind fun h => ?_
  cases responderPSK h.session identity with
  | some key => exact .write fun _ => rfl
  | none =>
    refine .ite ?_ (.pure _)
    cases coins.dummyPSK with
    | none => exact .fail _
    | some dummy => exact .write fun _ => rfl

theorem decapsulateStatic_keeps (ciphertext : List Byte) :
    Keeps marks (decapsulateStatic env ciphertext) := by
  refine .read_bind fun h => ?_
  cases h.session.staticKeyPair with
  | none => exact .pure _
  | some keyPair =>
    exact .ite (.lift_bind fun _ => .lift_bind fun _ =>
      .lift_bind fun _ => .write fun _ => rfl) (.pure _)

variable [Octet Byte]

theorem replaceFirstHelloWithHash_keeps (frame : List Byte) :
    Keeps marks (replaceFirstHelloWithHash env frame) :=
  .read_bind fun _ => .lift_bind fun _ => .write fun _ => rfl

/-- A ticket brings its cipher suite into the session and no key. -/
theorem tryResume_keeps (sessionID : List Byte) : Keeps marks (tryResume env coins sessionID) := by
  intro h
  rw [ResponderSpecs.run_tryResume]
  rfl

theorem acceptClientHello_keeps (data : List Byte) (msg : ClientHello Byte)
    (suite : Suite Byte) : Keeps marks (acceptClientHello env coins data msg suite) := by
  refine .write_bind (fun _ => rfl) fun _ => ?_
  refine .bind (tryResume_keeps _) fun _ => .lift_bind fun _ => ?_
  refine .write_bind (fun _ => rfl) fun _ => .read_bind fun h => ?_
  refine .reject_bind fun _ => .bind (decapsulateStatic_keeps _) fun _ => ?_
  refine .bind (selectPSK_keeps _) fun _ => .write_bind (fun _ => rfl) fun _ => ?_
  exact .reject_bind fun _ => .write fun _ => rfl

theorem openFinished_keeps (domain : Domain) (cipher : Cipher Byte) (data : List Byte) :
    Keeps (id : Handshake Byte → Handshake Byte) (openFinished env domain cipher data) := by
  unfold openFinished
  cases openNext env.toCrypto cipher data [] with
  | error stop => exact fun h => rfl
  | ok plaintext =>
    exact .bind (.pure _) fun _ => .lift_bind fun received =>
      .read_bind fun h => .lift_bind fun expected =>
      .bind (.reject (received ≠ expected) _) fun _ => .pure _

theorem processServerFinished_restores (data : List Byte) :
    Restores id (processServerFinished env data) := by
  refine .bind .read fun h => .bind (.reject _ _) fun _ => ?_
  cases h.recvCipher with
  | none => exact restores_of_keeps (.fail _)
  | some cipher =>
    exact .bind (openFinished_keeps .serverFinished cipher data) fun _ =>
      restores_of_unstopped (.write _)

/-! The builders that move the state and leave the other marks alone. -/

def Moved (seen : Marks Byte) (state : HandshakeState) (now : Marks Byte) : Prop :=
  now.2 = seen.2 ∧ (now.1 = seen.1 ∨ now.1 = state)

def MovesTo {α : Type} (state : HandshakeState) (program : HandshakeProg Byte α) : Prop :=
  ∀ seen, Maintains (fun h => Moved seen state (marks h)) program

section Moves
variable {α : Type} {state : HandshakeState} {program : HandshakeProg Byte α}

omit [Octet Byte] in
theorem MovesTo.rest (moves : MovesTo state program) (h : Handshake Byte) :
    (marks (program h).2).2 = (marks h).2 :=
  (moves (marks h) h ⟨rfl, .inl rfl⟩).1

omit [Octet Byte] in
theorem MovesTo.maintains (moves : MovesTo state program) (fact : HandshakeState → Prop)
    (there : fact state) : Maintains (fun h => fact h.state) program := by
  intro h held
  rcases (moves (marks h) h ⟨rfl, .inl rfl⟩).2 with same | moved
  · exact (show (program h).2.state = h.state from same) ▸ held
  · exact (show (program h).2.state = state from moved) ▸ there


theorem createClientHello_moves : MovesTo .clientHelloSent (createClientHello env coins) := by
  refine fun seen => .read_bind fun h _ => .reject_bind fun _ =>
    .bind (stableClientRandom_maintains fun _ _ => id) fun _ => ?_
  cases h.session.localKeyPair with
  | none => exact .fail _
  | some keyPair =>
    exact .bind (encapsulateToPin_maintains fun _ _ _ => id) fun _ =>
      .bind (advertisePSK_maintains fun _ _ _ _ _ => id) fun _ =>
      .lift_bind fun _ _ =>
      .bind (.write fun _ held => ⟨held.1, .inr rfl⟩) fun _ => .pure _

theorem processServerHello_moves (data : List Byte) :
    MovesTo .serverHelloReceived (processServerHello env data) :=
  fun _ => .read_bind fun _ _ => .reject_bind fun _ => .lift_bind fun _ _ => .reject_bind fun _ =>
    .reject_bind fun _ => .bind (.write fun _ held => held) fun _ =>
    .bind ((decapsulateFresh_keeps _).maintains fun h => Moved _ _ (marks h)) fun _ =>
    .bind (installSharedSecret_maintains (fun _ _ => id) _) fun _ =>
    .bind (.write fun _ held => held) fun _ =>
    .bind (deriveHandshakeSecrets_maintains (fun _ _ => id) (fun _ => id) fun _ _ _ => id) fun _ =>
    .write fun _ held => ⟨held.1, .inr rfl⟩

theorem processServerFinished_moves (data : List Byte) :
    MovesTo .serverFinishedReceived (processServerFinished env data) := by
  refine fun seen => .read_bind fun h _ => .reject_bind fun _ => ?_
  cases h.recvCipher with
  | none => exact .fail _
  | some cipher =>
    exact .bind ((openFinished_keeps _ _ _).maintains fun h => Moved _ _ (marks h)) fun _ =>
      .write fun _ held => ⟨held.1, .inr rfl⟩

theorem createServerHello_moves : MovesTo .serverHelloSent (createServerHello env coins) := by
  refine fun seen => .read_bind fun h _ => ?_
  cases h.session.remotePublicKey with
  | none => exact .fail _
  | some remote =>
    exact .bind mustRandom_maintains fun _ => .bind (.write fun _ held => held) fun _ =>
      .lift_bind fun _ _ =>
      .bind (installSharedSecret_maintains (fun _ _ => id) _) fun _ =>
      .lift_bind fun _ _ =>
      .bind (.write fun _ held => held) fun _ =>
      .bind (deriveHandshakeSecrets_maintains (fun _ _ => id) (fun _ => id) fun _ _ _ => id)
        fun _ =>
      .bind (.write fun _ held => ⟨held.1, .inr rfl⟩) fun _ => .pure _

end Moves

/-! What is done with keys: the record of sealing and the traffic keys of the session. -/
section KeyUse
variable {α : Type} {program : HandshakeProg Byte α}

def keyUse (h : Handshake Byte) := (marks h).2.2.2

omit [Octet Byte] in
theorem keyUse_kept (kept : Keeps marks program) : Keeps keyUse program :=
  fun h => congrArg (fun seen => seen.2.2.2) (kept h)

omit [Octet Byte] in
theorem MovesTo.keyUse {state : HandshakeState} (moves : MovesTo state program) :
    Keeps keyUse program :=
  fun h => congrArg (fun seen => seen.2.2) (moves.rest h)

theorem createHelloRetryRequest_keeps :
    Keeps (fun h : Handshake Byte => (h.state, keyUse h)) (createHelloRetryRequest env) :=
  .read_bind fun _ => .reject_bind fun _ =>
    .bind (fun h => congrArg (fun kept => (kept.1, kept.2.2.2))
      (replaceFirstHelloWithHash_keeps _ h)) fun _ =>
    .write_bind (fun _ => rfl) fun _ => .pure _


theorem processHelloRetryRequest_keyUse (data : List Byte) :
    Keeps keyUse (processHelloRetryRequest env coins data) :=
  .read_bind fun _ => .reject_bind fun _ => .reject_bind fun _ => .lift_bind fun _ =>
    .reject_bind fun _ => .lift_bind fun _ =>
    .reject_bind fun _ => .lift_bind fun _ =>
    .write_bind (fun _ => rfl) fun _ =>
    .bind (keyUse_kept (replaceFirstHelloWithHash_keeps _)) fun _ => .write fun _ => rfl

theorem processClientHello_keyUse (data : List Byte) :
    Keeps keyUse (processClientHello env coins data) := by
  refine .read_bind fun _ => .reject_bind fun _ => .lift_bind fun msg => .reject_bind fun _ => ?_
  cases getSuite env.registry msg.kemSuite with
  | none =>
    refine .read_bind fun _ => .reject_bind fun _ => ?_
    cases selectMutualKEMSuite msg.kemSuites with
    | none => exact .fail _
    | some suite => exact .write fun _ => rfl
  | some suite => exact keyUse_kept (acceptClientHello_keeps data msg suite)

end KeyUse

/-! A builder of a Finished seals once. -/
section Sealing
variable {α γ : Type} {first : HandshakeProg Byte α} {next : α → HandshakeProg Byte γ} {n : Nat}

def SealsAtMost (n : Nat) (program : HandshakeProg Byte α) : Prop :=
  ∀ h, (program h).2.sealed.length ≤ h.sealed.length + n

omit [Octet Byte] in
theorem keeps_then_seals (head : Keeps Handshake.sealed first)
    (tail : ∀ value, SealsAtMost n (next value)) : SealsAtMost n (first >>= next) := by
  intro h
  have kept := head h
  rw [run_bind]
  rcases outcome : first h with ⟨stop | value, h'⟩
  · rw [outcome] at kept
    exact kept ▸ Nat.le_add_right _ _
  · rw [outcome] at kept
    exact kept ▸ tail value h'

omit [Octet Byte] in
theorem seals_then_keeps (head : SealsAtMost n first)
    (tail : ∀ value, Keeps Handshake.sealed (next value)) : SealsAtMost n (first >>= next) := by
  intro h
  have few := head h
  rw [run_bind]
  rcases outcome : first h with ⟨stop | value, h'⟩
  · rwa [outcome] at few
  · rw [outcome] at few
    exact (congrArg List.length (tail value h')).le.trans few

theorem sealFinished_seals (plaintext : List Byte) :
    SealsAtMost 1 (sealFinished env plaintext) := by
  intro h
  rw [sealFinished, read_bind]
  cases h.sendCipher with
  | none => exact Nat.le_succ _
  | some cipher => exact (List.length_append).le

theorem createServerFinished_seals : SealsAtMost 1 (createServerFinished env) :=
  keeps_then_seals .read fun _ => keeps_then_seals (.reject _ _) fun _ =>
    keeps_then_seals (.lift _) fun _ => keeps_then_seals (.lift _) fun _ =>
    seals_then_keeps (sealFinished_seals _) fun _ => .write_bind (fun _ => rfl) fun _ => .pure _

theorem createClientFinished_seals : SealsAtMost 1 (createClientFinished env coins) :=
  keeps_then_seals .read fun _ => keeps_then_seals (.reject _ _) fun _ =>
    keeps_then_seals (.lift _) fun _ => keeps_then_seals (.lift _) fun _ =>
    seals_then_keeps (sealFinished_seals _) fun _ =>
      .bind (.read_bind fun _ => .ite (fun _ => rfl) fun _ => rfl) fun _ =>
      .write_bind (fun _ => rfl) fun _ => .write_bind (fun _ => rfl) fun _ => .pure _

end Sealing

end QuantumGo.BuilderFrames
