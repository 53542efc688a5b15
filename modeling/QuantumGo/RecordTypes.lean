import QuantumGo.SymbolicKem
import QuantumGo.StreamTransport
import Mathlib.Logic.Relation

/-!
Which records a stream peer takes for data and which for rekey payloads. The seal
covers the sequence number and not the type byte in the header, so the purpose of a
record is the sender's only as far as the network leaves that byte alone.
-/

namespace QuantumGo.RecordTypes

open Octets Effect Symbolic Wire HelloCodec HelloRoundTrip Aead KeySchedule Kem Tunnel Records
open StreamTransport SymbolicKem

variable {Byte : Type} [Octet Byte]

/-! The keys of the two directions. -/

def Outbound (crypto : Crypto Byte) (role : Role) (key : List Byte) : Prop :=
  ∃ secret keys, deriveTrafficKeys crypto secret = .ok keys ∧ key = (byRole role keys).1

def Inbound (crypto : Crypto Byte) (role : Role) (key : List Byte) : Prop :=
  ∃ secret keys, deriveTrafficKeys crypto secret = .ok keys ∧ key = (byRole role keys).2

variable {crypto : Crypto Byte}

theorem deriveTrafficKeys_ok_iff {secret : List Byte} {keys : List Byte × List Byte} :
    deriveTrafficKeys crypto secret = .ok keys ↔
      secret.length = sharedSecretSize ∧ secret.length ≤ maxUint32 ∧
      keys = (slice (crypto.xof (prefixed 4 Domain.traffic.bytes ++ prefixed 4 secret) 64) 0 32,
        slice (crypto.xof (prefixed 4 Domain.traffic.bytes ++ prefixed 4 secret) 64) 32 64) := by
  unfold deriveTrafficKeys deriveFromMaster
  simp only [except_bind_ok_iff, except_pure_ok_iff, guard_ok_iff, deriveKey_ok_iff, ne_eq, not_not]
  constructor
  · rintro ⟨_, ⟨size, -, short, rfl⟩, rfl⟩
    exact ⟨size, short, rfl⟩
  · rintro ⟨size, short, rfl⟩
    exact ⟨_, ⟨size, by decide, short, rfl⟩, rfl⟩

variable {role : Role}

/-- The two directions never share a key, not even across rekeys. -/
theorem outbound_ne_inbound (ideal : XofIdeal 32 crypto.xof) {key key' : List Byte}
    (outbound : Outbound crypto role key) (inbound : Inbound crypto role key') : key ≠ key' := by
  obtain ⟨secret, keys, derived, rfl⟩ := outbound
  obtain ⟨secret', keys', derived', rfl⟩ := inbound
  obtain ⟨-, -, rfl⟩ := deriveTrafficKeys_ok_iff.mp derived
  obtain ⟨-, -, rfl⟩ := deriveTrafficKeys_ok_iff.mp derived'
  intro same
  cases role with
  | initiator =>
    exact absurd (ideal.block _ _ 64 64 0 32 (by decide) (by decide) same).2 (by decide)
  | responder =>
    exact absurd (ideal.block _ _ 64 64 32 0 (by decide) (by decide) same).2 (by decide)

structure KeyedAs (crypto : Crypto Byte) (role : Role) (s : Session Byte) : Prop where
  owner : s.role = role
  send : ∀ c, s.sendCipher = some c ∨ s.pendingSendCipher = some c → Outbound crypto role c.key
  recv : ∀ c, s.recvCipher = some c ∨ s.pendingRecvCipher = some c → Inbound crypto role c.key
  seq : s.sendSeq < seqLimit

variable {ciphertext coins : List Byte} {seq activationSeq : Nat} {now : Int}

section Methods
variable {s s' : Session Byte}

@[simp] theorem buildAEADNonce_length (noncePrefix : List Byte) (seq : Nat) :
    (buildAEADNonce noncePrefix seq).length = aesNonceSize := by
  simp [buildAEADNonce, noncePrefixSize, aesNonceSize]

variable {plaintext : List Byte} {cipher : Cipher Byte}

theorem encrypt_ok_iff : encrypt crypto plaintext s = (.ok (ciphertext, seq), s') ↔
      seq = s.sendSeq ∧ s' = { s with sendSeq := (s.sendSeq + 1) % seqLimit } ∧
      ¬ (s.sendSeq ≥ s.sendEpochStartSeq ∧
        s.sendSeq - s.sendEpochStartSeq ≥ maxPacketsBeforeRekey) ∧
      ∃ cipher, s.sendCipher = some cipher ∧ ciphertext = crypto.sealText cipher.suite cipher.key
          (buildAEADNonce s.sendNoncePrefix s.sendSeq) plaintext (toBE 8 s.sendSeq) := by
  unfold encrypt
  rw [read_bind, write_bind]
  cases present : s.sendCipher with
  | none => simp
  | some cipher =>
    simp only [sealWithNonce, buildAEADNonce_length, ne_eq, not_true_eq_false, if_false,
      reject_bind_ok_iff, lift_bind_ok_iff, Except.ok.injEq, pure_ok_iff, Prod.mk.injEq,
      Option.some.injEq, exists_eq_left']
    constructor
    · rintro ⟨fresh, ⟨rfl, rfl⟩, rfl⟩
      exact ⟨rfl, rfl, fresh, rfl⟩
    · rintro ⟨rfl, rfl, fresh, rfl⟩
      exact ⟨fresh, ⟨rfl, rfl⟩, rfl⟩

theorem encrypt_state :
    (encrypt crypto plaintext s).2 = { s with sendSeq := (s.sendSeq + 1) % seqLimit } := by
  rw [encrypt, read_bind, write_bind]
  cases s.sendCipher with
  | none => rfl
  | some cipher =>
    exact (.reject_bind fun _ => .lift_bind fun _ => .pure _ : Keeps id _) _

theorem encrypt_maintains : Maintains (KeyedAs crypto role) (encrypt crypto plaintext) := by
  intro s held
  rw [encrypt_state]
  exact { held with seq := Nat.mod_lt _ (by decide) }

omit [Octet Byte] in
theorem openWithNonce_ok {nonce aad : List Byte}
    (opened : openWithNonce crypto cipher nonce ciphertext aad = .ok plaintext) :
    crypto.openText cipher.suite cipher.key nonce ciphertext aad = some plaintext := by
  unfold openWithNonce at opened
  rw [guard_ok_iff, guard_ok_iff] at opened
  obtain ⟨-, -, opened⟩ := opened
  split at opened
  · rw [← Except.ok.inj opened]
    assumption
  · cases opened

omit [Octet Byte] in
theorem trialOpen_cipher {pending : Option (Cipher Byte)} {nonce aad : List Byte} {promoted : Bool}
    (tried : trialOpen crypto cipher pending nonce ciphertext aad = .ok (plaintext, promoted)) :
    ∃ used, (promoted = false ∧ used = cipher ∨ promoted = true ∧ pending = some used) ∧
      crypto.openText used.suite used.key nonce ciphertext aad = some plaintext := by
  unfold trialOpen at tried
  split at tried
  · rename_i text first
    obtain ⟨rfl, rfl⟩ := Prod.mk.inj (Except.ok.inj tried)
    exact ⟨cipher, .inl ⟨rfl, rfl⟩, openWithNonce_ok first⟩
  · split at tried
    · rename_i text second
      obtain ⟨rfl, rfl⟩ := Prod.mk.inj (Except.ok.inj tried)
      obtain ⟨used, rfl, opened⟩ := Option.map_eq_some_iff.mp second
      exact ⟨used, .inr ⟨rfl, rfl⟩, openWithNonce_ok opened⟩
    · cases tried

section Outcomes
variable (crypto : Crypto Byte) (s : Session Byte) (ciphertext : List Byte) (seq : Nat)
  (coins publicKey : List Byte) (activationSeq : Nat) (now : Int)

/-- A record is opened with the current key or with the pending one, which then replaces it. -/
inductive Decrypts : Except Fault (List Byte) × Session Byte → Prop
  | keyless (stop : Fault) (none : s.recvCipher = none) : Decrypts (.error stop, s)
  | refused (stop : Fault) (keyed : s.recvCipher.isSome = true) :
      Decrypts (.error stop, { s with replayWindow := (ReplayWindow.check s.replayWindow seq).2 })
  | opened (cipher : Cipher Byte) (pending : Option (Cipher Byte)) (text : List Byte)
      (fresh : (ReplayWindow.check s.replayWindow seq).1 = true)
      (opens : crypto.openText cipher.suite cipher.key (buildAEADNonce s.recvNoncePrefix seq)
        ciphertext (toBE 8 seq) = some text)
      (which : s.recvCipher = some cipher ∧ pending = s.pendingRecvCipher ∨
        s.pendingRecvCipher = some cipher ∧ pending = none) :
      Decrypts (.ok text, { s with
        replayWindow := (ReplayWindow.check s.replayWindow seq).2
        recvCipher := some cipher, pendingRecvCipher := pending })

/-- Every check comes before the one write. -/
inductive Prepares : Except Fault (List Byte) × Session Byte → Prop
  | refused (stop : Fault) : Prepares (.error stop, s)
  | prepared (pub : PublicKey Byte) (ct : Ciphertext Byte) (fresh secret : List Byte)
      (keys : List Byte × List Byte) (recv send : Cipher Byte)
      (parsed : s.kemSuite.parsePublicKey publicKey = .ok pub)
      (encapsulated : s.kemSuite.encapsulate pub .responder coins = .ok (ct, fresh))
      (mixed : deriveRekeySecret crypto (s.masterSecret.getD []) fresh = .ok secret)
      (derived : deriveTrafficKeys crypto secret = .ok keys)
      (receives : newAEAD crypto s.cipherSuite keys.1 = .ok recv)
      (sends : newAEAD crypto s.cipherSuite keys.2 = .ok send) :
      Prepares (.ok ct.raw, { s with
        rekeyInProgress := true, rekeyActivationSeq := activationSeq
        pendingRecvCipher := some recv, pendingSendCipher := some send
        pendingRekeySecret := some secret, state := .rekeying })

inductive Completes : Except Fault Unit × Session Byte → Prop
  | refused (stop : Fault) : Completes (.error stop, s)
  | completed (keyPair : KeyPair Byte) (ct : Ciphertext Byte) (fresh secret : List Byte)
      (keys : List Byte × List Byte) (send recv : Cipher Byte)
      (asked : s.pendingRekeyKeyPair = some keyPair)
      (parsed : s.kemSuite.parseCiphertext ciphertext = .ok ct)
      (decapsulated : s.kemSuite.decapsulate ct keyPair .initiator = .ok fresh)
      (mixed : deriveRekeySecret crypto (s.masterSecret.getD []) fresh = .ok secret)
      (derived : deriveTrafficKeys crypto secret = .ok keys)
      (sends : newAEAD crypto s.cipherSuite keys.1 = .ok send)
      (receives : newAEAD crypto s.cipherSuite keys.2 = .ok recv) :
      Completes (.ok (), { s with
        sendCipher := some send, sendEpochStartSeq := s.sendSeq, pendingRecvCipher := some recv
        pendingRekeyKeyPair := none, masterSecret := some secret, pendingRekeySecret := none
        rekeyInProgress := false, rekeyActivationSeq := 0
        establishedAt := some now, state := .established })

theorem decrypt_decrypts : Decrypts crypto s ciphertext seq (decrypt crypto ciphertext seq s) := by
  rw [decrypt, read_bind]
  cases held : s.recvCipher with
  | none => exact .keyless _ held
  | some cipher =>
    have keyed : s.recvCipher.isSome = true := by rw [held]; rfl
    simp only [write_bind]
    by_cases stale : (ReplayWindow.check s.replayWindow seq).1 = false
    · rw [run_bind_error (run_reject_pos _ stale)]
      exact .refused _ keyed
    rw [run_bind_ok (run_reject_neg _ stale)]
    cases tried : trialOpen crypto cipher s.pendingRecvCipher (buildAEADNonce s.recvNoncePrefix seq)
        ciphertext (toBE 8 seq) with
    | error stop => exact .refused stop keyed
    | ok result =>
      obtain ⟨text, promoted⟩ := result
      have fresh : (ReplayWindow.check s.replayWindow seq).1 = true := by simpa using stale
      obtain ⟨used, ⟨rfl, rfl⟩ | ⟨rfl, waiting⟩, opens⟩ := trialOpen_cipher tried
      · have opened := Decrypts.opened used _ text fresh opens (.inl ⟨held, rfl⟩)
        rwa [← held] at opened
      · simp only [run_bind, run_lift, promoteIf, if_true, promotePendingRecvCipher,
          run_read, waiting, run_write, run_pure]
        exact .opened used none text fresh opens (.inr ⟨waiting, rfl⟩)

theorem prepareRekeyResponse_prepares : Prepares crypto s coins publicKey activationSeq
    (prepareRekeyResponse crypto coins publicKey activationSeq s) := by
  rcases run : prepareRekeyResponse crypto coins publicKey activationSeq s with ⟨stop | raw, s'⟩
  · have same : s' = s := (.bind .read fun _ => .bind (.reject _ _) fun _ =>
      .bind (.lift _) fun _ => .bind (.lift _) fun _ =>
      .bind (.lift _) fun _ => .bind (.lift _) fun _ =>
      .bind (.lift _) fun _ => .bind (.lift _) fun _ =>
      restores_of_unstopped (.bind (.write _) fun _ => .pure _) :
      Restores id _) s stop s' run
    exact same ▸ .refused stop
  · simp only [prepareRekeyResponse, read_bind, reject_bind_ok_iff, FlightSpecs.liftErr_bind_ok_iff,
      lift_bind_ok_iff, write_bind, pure_ok_iff] at run
    obtain ⟨-, pub, parsed, result, encapsulated, secret, mixed, keys, derived, recv,
      receives, send, sends, rfl, rfl⟩ := run
    exact .prepared pub result.1 result.2 secret keys recv send parsed encapsulated mixed derived
      receives sends

theorem processRekeyResponse_restores :
    Restores id (processRekeyResponse crypto now ciphertext) := by
  refine .bind .read fun s => ?_
  cases s.pendingRekeyKeyPair with
  | none => exact restores_of_keeps (.fail _)
  | some keyPair =>
    exact .bind (.reject _ _) fun _ => .bind (.lift _) fun _ => .bind (.lift _) fun _ =>
      .bind (.lift _) fun _ => .bind (.lift _) fun _ =>
      .bind (.lift _) fun _ => .bind (.lift _) fun _ =>
      restores_of_unstopped (.bind (.write _) fun _ => .write _)

theorem processRekeyResponse_completes : Completes crypto s ciphertext now
    (processRekeyResponse crypto now ciphertext s) := by
  rcases run : processRekeyResponse crypto now ciphertext s with ⟨stop | done, s'⟩
  · have same : s' = s := processRekeyResponse_restores crypto ciphertext now s stop s' run
    exact same ▸ .refused stop
  · rw [processRekeyResponse, read_bind] at run
    cases asked : s.pendingRekeyKeyPair with
    | none => simp [asked] at run
    | some keyPair =>
      simp only [asked, reject_bind_ok_iff, FlightSpecs.liftErr_bind_ok_iff, lift_bind_ok_iff,
        write_bind, finalizeRekeyState, write_ok_iff] at run
      obtain ⟨-, ct, parsed, fresh, decapsulated, secret, mixed, keys, derived, send, sends, recv,
        receives, rfl⟩ := run
      exact .completed keyPair ct fresh secret keys send recv asked parsed decapsulated
        mixed derived sends receives

omit [Octet Byte] in
/-- A rekey starts outside of one, with a new key pair, or nothing changes. -/
theorem initiateRekey_cases : (∃ stop, initiateRekey coins s = (.error stop, s)) ∨
      ∃ keyPair, s.rekeyInProgress = false ∧ s.state = .established ∧
        s.kemSuite.generateKeyPair coins = .ok keyPair ∧
        initiateRekey coins s = (.ok (keyPair.publicRaw, (s.sendSeq + 16) % seqLimit), { s with
          rekeyInProgress := true, pendingRekeyKeyPair := some keyPair
          rekeyActivationSeq := (s.sendSeq + 16) % seqLimit, state := .rekeying }) := by
  unfold initiateRekey
  rw [read_bind]
  by_cases started : s.rekeyInProgress = true
  · exact .inl ⟨_, run_bind_error (run_reject_pos _ started)⟩
  rw [run_bind_ok (run_reject_neg _ started)]
  by_cases early : s.state ≠ .established
  · exact .inl ⟨_, run_bind_error (run_reject_pos _ early)⟩
  rw [run_bind_ok (run_reject_neg _ early), FlightSpecs.run_liftErr_bind]
  cases made : s.kemSuite.generateKeyPair coins with
  | error stop => exact .inl ⟨_, rfl⟩
  | ok keyPair => exact .inr ⟨keyPair, by simpa using started, not_not.mp early, rfl, rfl⟩

end Outcomes

theorem decrypt_maintains : Maintains (KeyedAs crypto role) (decrypt crypto ciphertext seq) := by
  intro s held
  have outcome := decrypt_decrypts crypto s ciphertext seq
  generalize decrypt crypto ciphertext seq s = run at outcome ⊢
  cases outcome with
  | keyless | refused => exact { held with }
  | opened cipher pending text _ _ which =>
    refine { held with recv := ?_ }
    rintro c (live | waiting)
    · obtain rfl : cipher = c := Option.some.inj live
      exact held.recv _ (which.imp And.left And.left)
    · rcases which with ⟨-, rfl⟩ | ⟨-, rfl⟩
      · exact held.recv c (.inr waiting)
      · cases waiting

/-- What is opened was opened with a cipher the session held. -/
theorem decrypt_opened (opened : decrypt crypto ciphertext seq s = (.ok plaintext, s')) :
    ∃ cipher nonce, (s.recvCipher = some cipher ∨ s.pendingRecvCipher = some cipher) ∧
      crypto.openText cipher.suite cipher.key nonce ciphertext (toBE 8 seq) = some plaintext := by
  have outcome := decrypt_decrypts crypto s ciphertext seq
  rw [opened] at outcome
  cases outcome with
  | opened cipher _ _ _ opens which => exact ⟨cipher, _, which.imp And.left And.left, opens⟩

omit [Octet Byte] in
theorem newAEAD_key {suite : UInt16} {key : List Byte}
    (made : newAEAD crypto suite key = .ok cipher) : cipher.key = key := by
  obtain ⟨-, -, -, rfl⟩ := newAEAD_ok_iff.mp made
  rfl

theorem initiateRekey_maintains : Maintains (KeyedAs crypto role) (initiateRekey coins) := by
  intro s held
  obtain ⟨stop, run⟩ | ⟨keyPair, -, -, -, run⟩ := initiateRekey_cases s coins <;> rw [run]
  · exact held
  · exact { held with }

/-- Only a responder answers a rekey. -/
theorem prepareRekeyResponse_maintains {publicKey : List Byte} :
    Maintains (KeyedAs crypto .responder)
      (prepareRekeyResponse crypto coins publicKey activationSeq) := by
  intro s held
  have outcome := prepareRekeyResponse_prepares crypto s coins publicKey activationSeq
  generalize prepareRekeyResponse crypto coins publicKey activationSeq s = run at outcome ⊢
  cases outcome with
  | refused => exact held
  | prepared _ _ _ secret keys recv send _ _ _ derived receives sends =>
    refine { held with send := ?_, recv := ?_ }
    · rintro c (live | pending)
      · exact held.send c (.inl live)
      · obtain rfl : send = c := Option.some.inj pending
        exact ⟨secret, keys, derived, newAEAD_key sends⟩
    · rintro c (live | pending)
      · exact held.recv c (.inl live)
      · obtain rfl : recv = c := Option.some.inj pending
        exact ⟨secret, keys, derived, newAEAD_key receives⟩

/-- Only an initiator completes a rekey. -/
theorem processRekeyResponse_maintains :
    Maintains (KeyedAs crypto .initiator) (processRekeyResponse crypto now ciphertext) := by
  intro s held
  have outcome := processRekeyResponse_completes crypto s ciphertext now
  generalize processRekeyResponse crypto now ciphertext s = run at outcome ⊢
  cases outcome with
  | refused => exact held
  | completed _ _ _ secret keys send recv _ _ _ _ derived sends receives =>
    refine { held with send := ?_, recv := ?_ }
    · rintro c (live | pending)
      · obtain rfl : send = c := Option.some.inj live
        exact ⟨secret, keys, derived, newAEAD_key sends⟩
      · exact held.send c (.inr pending)
    · rintro c (live | pending)
      · exact held.recv c (.inl live)
      · obtain rfl : recv = c := Option.some.inj pending
        exact ⟨secret, keys, derived, newAEAD_key receives⟩

theorem activateRekeySend_maintains : Maintains (KeyedAs crypto role) (activateRekeySend now) := by
  intro s held
  rw [activateRekeySend, read_bind]
  cases pending : s.pendingSendCipher with
  | none => exact { held with }
  | some cipher =>
    refine { held with send := ?_ }
    rintro c (live | absent)
    · obtain rfl : cipher = c := Option.some.inj live
      exact held.send _ (.inr pending)
    · cases (show (none : Option (Cipher Byte)) = some c from absent)

theorem closeSession_maintains : Maintains (KeyedAs crypto role) closeSession := by
  refine .write fun s held => ⟨held.owner, ?_, ?_, held.seq⟩
  · rintro c (absent | pending)
    · cases (show (none : Option (Cipher Byte)) = some c from absent)
    · exact held.send c (.inr pending)
  · rintro c (absent | pending)
    · cases (show (none : Option (Cipher Byte)) = some c from absent)
    · exact held.recv c (.inr pending)

end Methods

/-! One transport: its log, and what each call adds to it. -/

structure SealedBy (crypto : Crypto Byte) (role : Role) (e : Sealing Byte) : Prop where
  key : Outbound crypto role e.key
  seq : e.seq < seqLimit
  sealed : ∃ suite nonce,
    e.ciphertext = crypto.sealText suite e.key nonce e.plaintext (toBE 8 e.seq)

structure Tracks (crypto : Crypto Byte) (role : Role) (base : List (Sealing Byte))
    (opens : List (Opening Byte)) (t : Transport Byte) : Prop where
  session : KeyedAs crypto role t.session
  log : ∀ e ∈ t.sealings, SealedBy crypto role e
  grown : ∀ e ∈ base, e ∈ t.sealings
  opened : t.openings = opens

variable {base : List (Sealing Byte)} {opens : List (Opening Byte)} {kind : Kind}
  {messageType : UInt8}

section Transports

theorem onSession_maintains {α : Type} {method : SessionProg Byte α}
    (kept : Maintains (KeyedAs crypto role) method) :
    Maintains (Tracks crypto role base opens) (onSession method) := by
  intro t held
  exact ⟨kept _ held.session, held.log, held.grown, held.opened⟩

variable {msg : List Byte}

theorem writeFrame_maintains : Maintains (Tracks crypto role base opens) (writeFrame msg) :=
  .write fun _ held => ⟨held.session, held.log, held.grown, held.opened⟩

theorem checkClosed_maintains : Maintains (Tracks crypto role base opens) checkClosed :=
  .read_bind fun _ _ => .reject _ _

theorem markClosed_maintains : Maintains (Tracks crypto role base opens) markClosed :=
  .write fun _ held => ⟨held.session, held.log, held.grown, held.opened⟩

theorem sealAs_maintains {plaintext : List Byte} :
    Maintains (Tracks crypto role base opens) (sealAs crypto kind plaintext) := by
  intro t held
  have kept : KeyedAs crypto role (encrypt crypto plaintext t.session).2 :=
    encrypt_maintains t.session held.session
  unfold sealAs
  rw [read_bind, run_bind]
  simp only [onSession]
  rcases outcome : encrypt crypto plaintext t.session with ⟨stop | ⟨ciphertext, seq⟩, s'⟩
  · rw [outcome] at kept
    exact ⟨kept, held.log, held.grown, held.opened⟩
  · rw [outcome] at kept
    obtain ⟨rfl, -, -, cipher, present, sealed⟩ := encrypt_ok_iff.mp outcome
    refine ⟨kept, ?_, fun e earlier => List.mem_append_left _ (held.grown e earlier), held.opened⟩
    intro e logged
    rcases List.mem_append.mp logged with earlier | last
    · exact held.log e earlier
    · obtain rfl := List.mem_singleton.mp last
      simp only [present, Option.map_some, Option.getD_some]
      exact ⟨held.session.send cipher (.inl present), held.session.seq, cipher.suite, _, sealed⟩

theorem sealAndWrite_maintains {text : List Byte} :
    Maintains (Tracks crypto role base opens) (sealAndWrite crypto text) :=
  .bind sealAs_maintains fun _ => .lift_bind fun _ _ =>
    writeFrame_maintains

variable {t : Transport Byte}

theorem sendRekey_maintains : Maintains (Tracks crypto role base opens) (sendRekey crypto coins) :=
  .bind checkClosed_maintains fun _ => .bind (onSession_maintains initiateRekey_maintains) fun _ =>
    .lift_bind fun _ _ => .bind sealAs_maintains fun _ =>
    writeFrame_maintains

theorem sendRekeyResponse_maintains :
    Maintains (Tracks crypto role base opens) (sendRekeyResponse crypto ciphertext activationSeq) :=
  .lift_bind fun _ _ => .bind sealAs_maintains fun _ =>
    writeFrame_maintains

omit [Octet Byte] in
theorem ignoringErrors_maintains {inv : Transport Byte → Prop} {program : TransportProg Byte Unit}
    (kept : Maintains inv program) : Maintains inv (ignoringErrors program) := by
  intro t held
  have next := kept t held
  unfold ignoringErrors
  rcases outcome : program t with ⟨(error | _) | _, t'⟩ <;> rw [outcome] at next <;> exact next

theorem send_maintains {worn : Bool} {text : List Byte} :
    Maintains (Tracks crypto role base opens) (send crypto worn coins text) := by
  refine .bind checkClosed_maintains fun _ => .reject_bind fun _ =>
    .bind sealAndWrite_maintains fun _ => ignoringErrors_maintains ?_
  exact .read_bind fun _ _ => .ite (fun _ => sendRekey_maintains) fun _ => .pure _

theorem sendPing_maintains : Maintains (Tracks crypto role base opens) sendPing :=
  .bind checkClosed_maintains fun _ => writeFrame_maintains

theorem close_maintains : Maintains (Tracks crypto role base opens) close := by
  refine .read_bind fun t _ => .ite (fun _ => .pure _) fun _ =>
    .bind markClosed_maintains fun _ => ?_
  have closing : Maintains (Tracks crypto role base opens) (onSession closeSession) :=
    onSession_maintains closeSession_maintains
  exact .ite (fun _ => .bind writeFrame_maintains fun _ => closing) fun _ => closing

theorem applyRekeyPayload_maintains {publicKey : List Byte} :
    Maintains (Tracks crypto role base opens)
      (applyRekeyPayload crypto coins now publicKey activationSeq) := by
  refine .read_bind fun t held => .ite ?_ fun _ => .ite ?_ fun _ => .pure _
  · rintro ⟨answers, -⟩
    obtain rfl : .responder = role := answers.symm.trans held.session.owner
    exact .bind (onSession_maintains prepareRekeyResponse_maintains) fun _ =>
      .bind sendRekeyResponse_maintains fun _ =>
      onSession_maintains activateRekeySend_maintains
  · rintro ⟨asks, -⟩
    obtain rfl : .initiator = role := asks.symm.trans held.session.owner
    exact onSession_maintains processRekeyResponse_maintains

structure OpenedFrom (crypto : Crypto Byte) (s : Session Byte) (msg : List Byte)
    (o : Opening Byte) : Prop where
  messageType : msg.head?.map val = some o.kind.messageType
  ciphertext : o.ciphertext = msg.drop (headerSize + 8)
  seq : o.seq < seqLimit
  opened : ∃ cipher nonce, (s.recvCipher = some cipher ∨ s.pendingRecvCipher = some cipher) ∧
    crypto.openText cipher.suite cipher.key nonce o.ciphertext (toBE 8 o.seq) = some o.plaintext

def Receives (crypto : Crypto Byte) (role : Role) (base : List (Sealing Byte))
    (opens : List (Opening Byte)) (s : Session Byte) (msg : List Byte)
    (t : Transport Byte) : Prop :=
  ∃ opens', Tracks crypto role base opens' t ∧ ∀ o ∈ opens', o ∈ opens ∨ OpenedFrom crypto s msg o

theorem Tracks.receives {s : Session Byte} (held : Tracks crypto role base opens t) :
    Receives crypto role base opens s msg t :=
  ⟨opens, held, fun _ => .inl⟩

theorem decodeRecord_ok (decoded : decodeRecord messageType msg = .ok (seq, ciphertext)) :
    msg.head?.map val = some messageType ∧ ciphertext = msg.drop (headerSize + 8) ∧
    seq < seqLimit := by
  unfold decodeRecord at decoded
  rw [guard_ok_iff, guard_ok_iff, not_not, Except.ok.injEq, Prod.mk.injEq] at decoded
  obtain ⟨long, kind, rfl, rfl⟩ := decoded
  refine ⟨kind, rfl, ?_⟩
  have small := ofBE_lt (slice msg headerSize (headerSize + 8))
  rwa [slice_length (Nat.not_lt.mp long)] at small

theorem openAs_receives {α : Type} {next : List Byte → TransportProg Byte α}
    (decoded : decodeRecord kind.messageType msg = .ok (seq, ciphertext))
    (kept : ∀ plaintext opens, Maintains (Tracks crypto role base opens) (next plaintext))
    (held : Tracks crypto role base opens t) :
    Receives crypto role base opens t.session msg
      ((openAs crypto kind ciphertext seq >>= next) t).2 := by
  obtain ⟨messageType, rfl, small⟩ := decodeRecord_ok decoded
  have session : KeyedAs crypto role (decrypt crypto (msg.drop (headerSize + 8)) seq t.session).2 :=
    decrypt_maintains t.session held.session
  rcases outcome : decrypt crypto (msg.drop (headerSize + 8)) seq t.session with
    ⟨stop | plaintext, s'⟩ <;> rw [outcome] at session
  · have stopped : (openAs crypto kind (msg.drop (headerSize + 8)) seq >>= next) t =
        (.error stop, { t with session := s' }) := by
      simp [openAs, onSession, run_bind, outcome]
    rw [stopped]
    exact Tracks.receives ⟨session, held.log, held.grown, held.opened⟩
  · let o : Opening Byte := ⟨kind, seq, plaintext, msg.drop (headerSize + 8)⟩
    have opened : openAs crypto kind (msg.drop (headerSize + 8)) seq t =
        (.ok plaintext, { t with session := s', openings := t.openings ++ [o] }) := by
      simp [openAs, onSession, run_bind, outcome, o]
    rw [run_bind_ok opened]
    refine ⟨opens ++ [o], kept plaintext _ _ ⟨session, held.log, held.grown,
      congrArg (· ++ [o]) held.opened⟩, fun o' member => ?_⟩
    rcases List.mem_append.mp member with earlier | last
    · exact .inl earlier
    · obtain rfl := List.mem_singleton.mp last
      obtain ⟨cipher, nonce, live, opens'⟩ := decrypt_opened outcome
      exact .inr ⟨messageType, rfl, small, cipher, nonce, live, opens'⟩

/-- Decoding a record, opening it and going on with what keeps the log. -/
theorem opened_receives {α : Type} (kind : Kind) {next : List Byte → TransportProg Byte α}
    (kept : ∀ plaintext opens, Maintains (Tracks crypto role base opens) (next plaintext))
    (held : Tracks crypto role base opens t) :
    Receives crypto role base opens t.session msg
      ((lift (decodeRecord kind.messageType msg) >>= fun record =>
        openAs crypto kind record.2 record.1 >>= next : TransportProg Byte α) t).2 := by
  cases decoded : decodeRecord kind.messageType msg with
  | error refused => exact held.receives
  | ok record => exact openAs_receives decoded kept held

theorem receiveMessage_receives (held : Tracks crypto role base opens t) :
    Receives crypto role base opens t.session msg (receiveMessage crypto coins now msg t).2 := by
  unfold receiveMessage
  cases closed : t.closed with
  | true =>
    have stopped : checkClosed t = (.error (.err .tunnelClosed), t) := by
      simp [checkClosed, run_reject, closed]
    rw [run_bind_error stopped]
    exact held.receives
  | false =>
    have going : checkClosed t = (.ok (), t) := by
      simp [checkClosed, run_reject, closed]
    rw [run_bind_ok going]
    by_cases data : msg.head?.map val = some messageTypeData
    · rw [if_pos data, handleData, bind_bind]
      exact opened_receives .data (fun _ _ => .pure _) held
    rw [if_neg data]
    by_cases ping : msg.head?.map val = some messageTypePing
    · rw [if_pos ping]
      exact Tracks.receives (Maintains.bind writeFrame_maintains (fun _ => .pure _) t held)
    rw [if_neg ping]
    by_cases pong : msg.head?.map val = some messageTypePong
    · rw [if_pos pong]
      exact held.receives
    rw [if_neg pong]
    by_cases ending : msg.head?.map val = some messageTypeClose
    · rw [if_pos ending]
      exact Tracks.receives (Maintains.bind markClosed_maintains (fun _ => .fail _) t held)
    rw [if_neg ending]
    by_cases rekey : msg.head?.map val = some messageTypeRekey
    · rw [if_pos rekey, handleRekey, bind_bind]
      simp only [bind_bind]
      exact opened_receives .rekey (fun _ _ => .lift_bind fun _ _ =>
        .bind applyRekeyPayload_maintains fun _ => .pure _) held
    rw [if_neg rekey]
    by_cases alert : msg.head?.map val = some messageTypeAlert
    · rw [if_pos alert]
      exact Tracks.receives (Maintains.ite (fun _ => .bind markClosed_maintains fun _ => .fail _)
        (fun _ => .fail _) t held)
    rw [if_neg alert]
    exact held.receives

end Transports

/-! Two peers and the network between them. -/

structure System (Byte : Type) where
  initiator : Transport Byte
  responder : Transport Byte

def System.side (sys : System Byte) : Role → Transport Byte
  | .initiator => sys.initiator
  | .responder => sys.responder

def System.update (sys : System Byte) (role : Role) (t : Transport Byte) : System Byte :=
  match role with
  | .initiator => { sys with initiator := t }
  | .responder => { sys with responder := t }

/-- The calls on a transport. The network chooses what a `receive` is handed. -/
inductive Action (Byte : Type) where
  | send (worn : Bool) (coins data : List Byte)
  | rekey (coins : List Byte)
  | ping
  | close
  | receive (coins : List Byte) (now : Int) (msg : List Byte)

def perform (crypto : Crypto Byte) : Action Byte → TransportProg Byte Unit
  | .send worn coins data => send crypto worn coins data
  | .rekey coins => sendRekey crypto coins
  | .ping => sendPing
  | .close => close
  | .receive coins now msg => do
    let _ ← receiveMessage crypto coins now msg
    return ()

def body (msg : List Byte) : List Byte := msg.drop (headerSize + 8)

/-- The network does not forge: a ciphertext that opens under a key of the receiver
was sealed by one of the two. -/
def Unforged (crypto : Crypto Byte) (sys : System Byte) (role : Role) : Action Byte → Prop
  | .receive _ _ msg => ∀ cipher nonce aad text, ((sys.side role).session.recvCipher = some cipher ∨
        (sys.side role).session.pendingRecvCipher = some cipher) →
      crypto.openText cipher.suite cipher.key nonce (body msg) aad = some text →
      ∃ owner, ∃ e ∈ (sys.side owner).sealings, e.ciphertext = body msg
  | _ => True

/-- The network leaves the type byte alone: a sealed record arrives with the type that
belongs to the function that sealed it. -/
def TypeKept (sys : System Byte) : Action Byte → Prop
  | .receive _ _ msg => ∀ owner, ∀ e ∈ (sys.side owner).sealings, e.ciphertext = body msg →
      msg.head?.map val = some e.kind.messageType
  | _ => True

inductive Step (crypto : Crypto Byte) (allowed : System Byte → Role → Action Byte → Prop) :
    System Byte → System Byte → Prop where
  | act (sys : System Byte) (role : Role) (action : Action Byte) (ok : allowed sys role action) :
      Step crypto allowed sys (sys.update role (perform crypto action (sys.side role)).2)

/-- Every record taken for data was sealed as data by the peer, and every record taken
for a rekey payload was sealed as one by the peer. -/
def Authentic (sys : System Byte) : Prop :=
  ∀ role, ∀ o ∈ (sys.side role).openings, ∃ e ∈ (sys.side role.peer).sealings,
    e.kind = o.kind ∧ e.seq = o.seq ∧ e.plaintext = o.plaintext ∧ e.ciphertext = o.ciphertext

structure KeyedAlike (crypto : Crypto Byte) (sys : System Byte) : Prop where
  mirrored : ∃ secret, Agreement.Mirrored crypto secret sys.initiator.session sys.responder.session
  leads : sys.initiator.session.role = .initiator
  follows : sys.responder.session.role = .responder
  settled : ∀ role, (sys.side role).session.pendingSendCipher = none ∧
    (sys.side role).session.pendingRecvCipher = none
  seq : ∀ role, (sys.side role).session.sendSeq < seqLimit
  fresh : ∀ role, (sys.side role).sealings = [] ∧ (sys.side role).openings = []

structure Sound (crypto : Crypto Byte) (sys : System Byte) : Prop where
  tracks : ∀ role, Tracks crypto role [] (sys.side role).openings (sys.side role)
  authentic : Authentic sys

section Runs
variable {sys sys' : System Byte}

omit [Octet Byte] in
@[simp] theorem side_update_same (role : Role) (t : Transport Byte) :
    (sys.update role t).side role = t := by
  cases role <;> rfl

omit [Octet Byte] in
@[simp] theorem side_update_peer (role : Role) (t : Transport Byte) :
    (sys.update role t).side role.peer = sys.side role.peer := by
  cases role <;> rfl

theorem role_cases (role owner : Role) : owner = role ∨ owner = role.peer := by
  cases role <;> cases owner <;> simp [Role.peer]

theorem peer_peer (role : Role) : role.peer.peer = role := by
  cases role <;> rfl

theorem KeyedAlike.sound (start : KeyedAlike crypto sys) : Sound crypto sys := by
  obtain ⟨secret, mirrored⟩ := start.mirrored
  obtain ⟨toServer, toClient, derived, sends, receives, receives', sends'⟩ := mirrored.keys
  have keyed (role : Role) : KeyedAs crypto role (sys.side role).session := by
    obtain ⟨noSend, noRecv⟩ := start.settled role
    cases role with
    | initiator =>
      refine ⟨start.leads, ?_, ?_, start.seq .initiator⟩
      · rintro c (live | pending)
        · obtain rfl : toServer = c := Option.some.inj (sends.symm.trans live)
          exact ⟨secret, _, derived, rfl⟩
        · cases noSend.symm.trans pending
      · rintro c (live | pending)
        · obtain rfl : toClient = c := Option.some.inj (receives'.symm.trans live)
          exact ⟨secret, _, derived, rfl⟩
        · cases noRecv.symm.trans pending
    | responder =>
      refine ⟨start.follows, ?_, ?_, start.seq .responder⟩
      · rintro c (live | pending)
        · obtain rfl : toClient = c := Option.some.inj (sends'.symm.trans live)
          exact ⟨secret, _, derived, rfl⟩
        · cases noSend.symm.trans pending
      · rintro c (live | pending)
        · obtain rfl : toServer = c := Option.some.inj (receives.symm.trans live)
          exact ⟨secret, _, derived, rfl⟩
        · cases noRecv.symm.trans pending
  constructor
  · intro role
    obtain ⟨noSealings, noOpenings⟩ := start.fresh role
    exact ⟨keyed role, by simp [noSealings], by simp, rfl⟩
  · intro role o member
    rw [(start.fresh role).2] at member
    cases member

/-- A record opened out of an unforged message was sealed by the peer. -/
theorem opened_sealed (xof : XofIdeal 32 crypto.xof) (aead : AeadIdeal crypto)
    (sound : Sound crypto sys) {msg : List Byte} {o : Opening Byte}
    (unforged : Unforged crypto sys role (.receive coins now msg))
    (kept : TypeKept sys (.receive coins now msg))
    (opened : OpenedFrom crypto (sys.side role).session msg o) :
    ∃ e ∈ (sys.side role.peer).sealings,
      e.kind = o.kind ∧ e.seq = o.seq ∧ e.plaintext = o.plaintext ∧
      e.ciphertext = o.ciphertext := by
  obtain ⟨cipher, nonce, live, text⟩ := opened.opened
  rw [opened.ciphertext] at text
  obtain ⟨owner, e, logged, same⟩ := unforged cipher nonce _ _ live text
  have sealed := (sound.tracks owner).log e logged
  obtain ⟨suite, nonce', shape⟩ := sealed.sealed
  rw [show msg.drop (headerSize + 8) = e.ciphertext from same.symm, shape] at text
  obtain ⟨-, keys, -, texts, numbers⟩ := aead.unseal_sealed text
  -- The receiver's own records are under the keys of the other direction.
  have inbound := (sound.tracks role).session.recv cipher live
  rw [keys] at inbound
  rcases role_cases role owner with rfl | rfl
  · exact absurd rfl (outbound_ne_inbound xof sealed.key inbound)
  · have types := kept _ e logged same
    rw [opened.messageType] at types
    refine ⟨e, logged, ?_, (toBE_injective opened.seq sealed.seq numbers).symm, texts.symm, ?_⟩
    · cases one : e.kind <;> cases other : o.kind <;> rw [one, other] at types <;>
        first | rfl | exact absurd types (by decide)
    · rw [same, opened.ciphertext]
      rfl

theorem perform_tracks {t : Transport Byte} (held : Tracks crypto role base opens t)
    (action : Action Byte) :
    ∃ opens', Tracks crypto role base opens' (perform crypto action t).2 ∧
      ∀ o ∈ opens', o ∈ opens ∨ ∃ coins now msg, action = .receive coins now msg ∧
        OpenedFrom crypto t.session msg o := by
  cases action with
  | send worn coins data => exact ⟨opens, send_maintains t held, fun _ => .inl⟩
  | rekey coins => exact ⟨opens, sendRekey_maintains t held, fun _ => .inl⟩
  | ping => exact ⟨opens, sendPing_maintains t held, fun _ => .inl⟩
  | close => exact ⟨opens, close_maintains t held, fun _ => .inl⟩
  | receive coins now msg =>
    have state : (perform crypto (.receive coins now msg) t).2 =
        (receiveMessage crypto coins now msg t).2 := by
      rw [perform, run_bind]
      rcases receiveMessage crypto coins now msg t with ⟨stop | value, t'⟩ <;> rfl
    obtain ⟨opens', tracks, origin⟩ := receiveMessage_receives held
    rw [state]
    exact ⟨opens', tracks, fun o member => (origin o member).imp_right
      fun opened => ⟨coins, now, msg, rfl, opened⟩⟩

theorem step_sound (xof : XofIdeal 32 crypto.xof) (aead : AeadIdeal crypto)
    (step : Step crypto (fun sys role action => Unforged crypto sys role action ∧
      TypeKept sys action) sys sys') (sound : Sound crypto sys) : Sound crypto sys' := by
  obtain ⟨role, action, unforged, kept⟩ := step
  have grown : Tracks crypto role (sys.side role).sealings (sys.side role).openings
      (sys.side role) :=
    ⟨(sound.tracks role).session, (sound.tracks role).log, fun _ => id, rfl⟩
  obtain ⟨opens', tracks, origin⟩ := perform_tracks grown action
  constructor
  · intro owner
    rcases role_cases role owner with rfl | rfl
    · rw [side_update_same]
      exact ⟨tracks.session, tracks.log, by simp, rfl⟩
    · rw [side_update_peer]
      exact sound.tracks _
  · intro owner o member
    rcases role_cases role owner with rfl | rfl
    · rw [side_update_same, tracks.opened] at member
      rw [side_update_peer]
      rcases origin o member with earlier | ⟨coins, now, msg, rfl, opened⟩
      · exact sound.authentic owner o earlier
      · exact opened_sealed xof aead sound unforged kept opened
    · rw [side_update_peer] at member
      obtain ⟨e, logged, agreed⟩ := sound.authentic _ o member
      rw [peer_peer] at logged
      rw [peer_peer, side_update_same]
      exact ⟨e, tracks.grown e logged, agreed⟩

end Runs

/-! Sealing a record and opening it at the peer. -/
section Exchange

theorem body_frame : body (frame messageType (toBE 8 seq ++ ciphertext)) = ciphertext := by
  rw [body, ← List.drop_drop, frame_drop, List.drop_left' (by simp)]

/-- A sealed record reads back behind a header of either type. -/
theorem decodeRecord_frame (small : seq < seqLimit) :
    decodeRecord messageType (frame messageType (toBE 8 seq ++ ciphertext)) =
      .ok (seq, ciphertext) := by
  have number : slice (frame messageType (toBE 8 seq ++ ciphertext)) headerSize (headerSize + 8) =
      toBE 8 seq := by
    rw [slice, frame_drop, Nat.add_sub_cancel_left, List.take_left' (by simp)]
  unfold decodeRecord
  rw [guard_ok_iff, guard_ok_iff, number, ofBE_toBE_of_lt small]
  refine ⟨by simp, by simp [frame], ?_⟩
  rw [← body, body_frame]

def rekeyAsked (s : Session Byte) (keyPair : KeyPair Byte) : Session Byte :=
  { s with
    rekeyInProgress := true, pendingRekeyKeyPair := some keyPair
    rekeyActivationSeq := (s.sendSeq + 16) % seqLimit, state := .rekeying }

end Exchange

/-! The symbolic build. -/
section Symbolic

def symbolicCipher (key : List Letter) : Cipher Letter :=
  ⟨cipherSuiteAES256GCM, key, 0, maxPacketsBeforeRekey⟩

def keyedTransport (s : Session Letter) (secret out into : List Letter) : Transport Letter where
  session := { s with
    state := .established, masterSecret := some secret
    sendCipher := some (symbolicCipher out), recvCipher := some (symbolicCipher into) }
  closed := false
  written := []
  sealings := []
  openings := []

/-- A small KEM keeps runs short enough to evaluate. -/
def IsStart (sys : System Letter) : Prop :=
  ∃ i r keys, newSession (suite suiteXWing 4 4 (by decide) (by decide)) .initiator [] [] = .ok i ∧
    newSession (suite suiteXWing 4 4 (by decide) (by decide)) .responder [] [] = .ok r ∧
    deriveTrafficKeys env.toCrypto (secretOf 0) = .ok keys ∧
    sys = ⟨keyedTransport i (secretOf 0) keys.1 keys.2,
      keyedTransport r (secretOf 0) keys.2 keys.1⟩

theorem IsStart.keyed {sys : System Letter} (start : IsStart sys) :
    KeyedAlike env.toCrypto sys := by
  obtain ⟨i, r, keys, made, made', derived, rfl⟩ := start
  cases made
  cases made'
  exact {
    mirrored := ⟨_, ⟨symbolicCipher keys.1, symbolicCipher keys.2, derived, rfl, rfl, rfl, rfl⟩,
      ⟨rfl, rfl⟩, rfl, rfl⟩
    leads := rfl
    follows := rfl
    settled := by rintro (_ | _) <;> exact ⟨rfl, rfl⟩
    seq := by rintro (_ | _) <;> exact (show 0 < seqLimit by decide)
    fresh := by rintro (_ | _) <;> exact ⟨rfl, rfl⟩ }

def behindData (e : Sealing Letter) : Action Letter :=
  .receive [] 0 (frame messageTypeData (toBE 8 0 ++ e.ciphertext))

variable {sys : System Letter} {t : Transport Letter} {e : Sealing Letter}

/-- What the initiator has just sealed may be relayed behind any header. -/
theorem behindData_unforged (logged : t.sealings = [e]) :
    Unforged env.toCrypto (sys.update .initiator t) .responder (behindData e) := by
  intro _ _ _ _ _ _
  have sealed : e ∈ ((sys.update .initiator t).side .initiator).sealings := by
    show e ∈ t.sealings
    rw [logged]
    exact List.mem_singleton.mpr rfl
  exact ⟨.initiator, e, sealed, body_frame.symm⟩

theorem behindData_typeKept (logged : t.sealings = [e]) (sealedAs : e.kind = .data)
    (silent : sys.responder.sealings = []) : TypeKept (sys.update .initiator t) (behindData e) := by
  rintro (_ | _) e' member same
  · have member' : e' ∈ t.sealings := member
    rw [logged] at member'
    obtain rfl := List.mem_singleton.mp member'
    simp [frame, sealedAs, Kind.messageType]
  · have member' : e' ∈ sys.responder.sealings := member
    rw [silent] at member'
    cases member'

def relayed (action : Action Letter) (sys : System Letter) : List Kind × List Kind :=
  let sealings := (perform env.toCrypto action sys.initiator).2.sealings
  (sealings.map (·.kind), sealings.flatMap fun e =>
    (perform env.toCrypto (behindData e) sys.responder).2.openings.map (·.kind))

theorem relayed_run (allowed : System Letter → Role → Action Letter → Prop) {action : Action Letter}
    (relay : relayed action sys = ([kind], [.data])) (ok : allowed sys .initiator action)
    (ok' : ∀ t e, t.sealings = [e] → e.kind = kind →
      allowed (sys.update .initiator t) .responder (behindData e)) :
    ∃ sys' e o, Relation.ReflTransGen (Step env.toCrypto allowed) sys sys' ∧
      sys'.initiator.sealings = [e] ∧ e.kind = kind ∧ sys'.responder.openings = [o] ∧
      o.kind = .data := by
  obtain ⟨sealings, openings⟩ := Prod.mk.inj relay
  obtain ⟨e, logged, sealedAs⟩ := List.map_eq_singleton_iff.mp sealings
  rw [logged, List.flatMap_singleton] at openings
  obtain ⟨o, taken, takenFor⟩ := List.map_eq_singleton_iff.mp openings
  exact ⟨_, e, o, .tail (.single (.act sys .initiator action ok))
    (.act _ .responder _ (ok' _ e logged sealedAs)), logged, sealedAs, taken, takenFor⟩

/-- In every run in which the network leaves the type bytes of sealed records alone,
every record is taken for what its sender sealed it as. -/
theorem record_types_authentic {crypto : Crypto Byte} {sys sys' : System Byte}
    (xof : XofIdeal 32 crypto.xof) (aead : AeadIdeal crypto)
    (start : KeyedAlike crypto sys) (run : Relation.ReflTransGen (Step crypto fun sys role action =>
      Unforged crypto sys role action ∧ TypeKept sys action) sys sys') : Authentic sys' := by
  have sound : Sound crypto sys' := by
    induction run with
    | refl => exact start.sound
    | tail _ step ih => exact step_sound xof aead step ih
  exact sound.authentic

theorem record_types_authentic_symbolic : ∃ sys sys' : System Letter,
    KeyedAlike env.toCrypto sys ∧ sys'.responder.openings ≠ [] ∧ Authentic sys' := by
  obtain ⟨sys, start⟩ : ∃ sys, IsStart sys := ⟨_, _, _, _, rfl, rfl, rfl, rfl⟩
  have relay : relayed (.send false [] []) sys = ([.data], [.data]) := by
    obtain ⟨i, r, keys, made, made', derived, rfl⟩ := id start
    cases made
    cases made'
    cases derived
    decide +kernel
  obtain ⟨sys', e, o, run, -, -, taken, -⟩ := relayed_run
    (fun sys role action => Unforged env.toCrypto sys role action ∧ TypeKept sys action)
    relay ⟨trivial, trivial⟩ fun t e logged sealedAs => ⟨behindData_unforged logged,
      behindData_typeKept logged sealedAs (start.keyed.fresh .responder).1⟩
  refine ⟨sys, sys', start.keyed, ?_, record_types_authentic env_ideal.xof
    env_ideal.aead start.keyed run⟩
  rw [taken]
  simp

/-- A rekey request that the network relabels is handed to the application. -/
theorem rekey_taken_for_data : ∃ sys sys' : System Letter, KeyedAlike env.toCrypto sys ∧
    Relation.ReflTransGen (Step env.toCrypto (Unforged env.toCrypto)) sys sys' ∧
    ¬ Authentic sys' := by
  obtain ⟨sys, start⟩ : ∃ sys, IsStart sys := ⟨_, _, _, _, rfl, rfl, rfl, rfl⟩
  have relay : relayed (.rekey []) sys = ([.rekey], [.data]) := by
    obtain ⟨i, r, keys, made, made', derived, rfl⟩ := id start
    cases made
    cases made'
    cases derived
    decide +kernel
  obtain ⟨sys', e, o, run, logged, sealedAs, taken, takenFor⟩ := relayed_run
    (Unforged env.toCrypto) relay trivial fun t e logged _ => behindData_unforged logged
  refine ⟨sys, sys', start.keyed, run, fun authentic => ?_⟩
  obtain ⟨e', member, kinds, -⟩ := authentic .responder o (taken ▸ List.mem_singleton.mpr rfl)
  obtain rfl := List.mem_singleton.mp (logged ▸ member)
  rw [sealedAs, takenFor] at kinds
  cases kinds

end Symbolic

end QuantumGo.RecordTypes
