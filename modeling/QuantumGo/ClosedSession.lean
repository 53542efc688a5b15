import QuantumGo.Interleaving
import QuantumGo.RecordTypes

/-!
A closed stream session under further calls of its methods. Most of them look at the
state or miss a field that Close has cleared. Three do neither: ActivateRekeySend,
ActivatePendingKeys and Rekey bring a closed session back.
-/

namespace QuantumGo.ClosedSession

open Octets Effect Symbolic Interleaving Wire Aead KeySchedule Tunnel Records RecordTypes
  SymbolicKem

inductive Op (Byte : Type) where
  | initializeKeys (now : Int) (masterSecret : List Byte) (cipherSuite : UInt16)
  | encrypt (plaintext : List Byte)
  | decrypt (ciphertext : List Byte) (seq : Nat)
  | rekey (now : Int) (newMasterSecret : List Byte)
  | initiateRekey (coins : List Byte)
  | prepareRekeyResponse (coins newPublicKey : List Byte) (activationSeq : Nat)
  | processRekeyResponse (now : Int) (ciphertext : List Byte)
  | activateRekeySend (now : Int)
  | activatePendingKeys (now : Int)
  | close

variable {Byte : Type} [Octet Byte]

def perform (crypto : Crypto Byte) : Op Byte → SessionProg Byte Unit
  | .initializeKeys now masterSecret cipherSuite =>
    initializeKeys crypto now masterSecret cipherSuite
  | .encrypt plaintext => do
    let _ ← encrypt crypto plaintext
  | .decrypt ciphertext seq => do
    let _ ← decrypt crypto ciphertext seq
  | .rekey now newMasterSecret => rekey crypto now newMasterSecret
  | .initiateRekey coins => do
    let _ ← initiateRekey coins
  | .prepareRekeyResponse coins newPublicKey activationSeq => do
    let _ ← prepareRekeyResponse crypto coins newPublicKey activationSeq
  | .processRekeyResponse now ciphertext => processRekeyResponse crypto now ciphertext
  | .activateRekeySend now => activateRekeySend now
  | .activatePendingKeys now => activatePendingKeys now
  | .close => closeSession

def step (crypto : Crypto Byte) (s : Session Byte) (op : Op Byte) : Session Byte :=
  (perform crypto op s).2

def after (crypto : Crypto Byte) (ops : List (Op Byte)) (s : Session Byte) : Session Byte :=
  run (step crypto) ops s

structure Refuses (crypto : Crypto Byte) (s : Session Byte) : Prop where
  state : s.state = .closed
  seals : ∀ plaintext, ∃ error, (encrypt crypto plaintext s).1 = .error error
  opens : ∀ ciphertext seq, ∃ error, (decrypt crypto ciphertext seq s).1 = .error error

def Reopens (crypto : Crypto Byte) : Op Byte → Session Byte → Prop
  | .activateRekeySend _, _ => True
  | .activatePendingKeys _, s => s.rekeyInProgress = true
  | .rekey _ newMasterSecret, s =>
    newMasterSecret.length = sharedSecretSize ∧ isSupported s.cipherSuite = true ∧
      (crypto.fips = true → isFIPSApproved s.cipherSuite = true)
  | _, _ => False

def Spared (crypto : Crypto Byte) (s : Session Byte) (op : Op Byte) : Prop :=
  ¬ Reopens crypto op s

structure Shut (s : Session Byte) : Prop where
  state : s.state = .closed
  masterSecret : s.masterSecret = none
  sendCipher : s.sendCipher = none
  recvCipher : s.recvCipher = none

section Calls
variable {crypto : Crypto Byte} {s : Session Byte}

omit [Octet Byte] in
theorem closeSession_shut (s : Session Byte) : Shut (closeSession s).2 := ⟨rfl, rfl, rfl, rfl⟩

theorem Shut.refuses (shut : Shut s) : Refuses crypto s where
  state := shut.state
  seals plaintext := by
    refine ⟨.err .invalidState, ?_⟩
    simp [encrypt, shut.sendCipher]
  opens ciphertext seq := by
    refine ⟨.err .invalidState, ?_⟩
    simp [decrypt, shut.recvCipher]

/-- Rekey fails on a session whose cipher suite makes no cipher. -/
theorem rekey_unchanged {now : Int} {secret : List Byte}
    (spared : ¬ Reopens crypto (.rekey now secret) s) : (rekey crypto now secret s).2 = s := by
  rw [rekey, read_bind]
  by_cases size : secret.length = sharedSecretSize
  · rw [run_bind_ok (run_reject_neg s (not_not.mpr size))]
    cases derived : deriveTrafficKeys crypto secret with
    | error stop => rfl
    | ok keys =>
      rw [run_bind_ok (show lift (.ok keys) s = (.ok keys, s) from rfl)]
      dsimp only
      cases made : newAEAD crypto s.cipherSuite (byRole s.role keys).1 with
      | error stop => rfl
      | ok cipher =>
        obtain ⟨approved, -, supported, -⟩ := newAEAD_ok_iff.mp made
        exact absurd ⟨size, supported, approved⟩ spared
  · rw [run_bind_error (run_reject_pos s size)]

omit [Octet Byte] in
theorem initiateRekey_unchanged {coins : List Byte} (shut : Shut s) :
    (initiateRekey coins s).2 = s := by
  obtain ⟨stop, run⟩ | ⟨keyPair, -, live, -⟩ := initiateRekey_cases s coins
  · rw [run]
  · cases shut.state.symm.trans live

theorem prepareRekeyResponse_refused {coins publicKey : List Byte} {activationSeq : Nat}
    (shut : Shut s) : prepareRekeyResponse crypto coins publicKey activationSeq s =
      (.error (.err .invalidState), s) := by
  have dead : s.state ≠ .established ∧ s.state ≠ .rekeying := by simp [shut.state]
  rw [prepareRekeyResponse, read_bind, run_bind_error (run_reject_pos s dead)]

/-- Without a master secret the rekey secret cannot be derived. -/
theorem processRekeyResponse_unchanged {now : Int} {ciphertext : List Byte} (shut : Shut s) :
    (processRekeyResponse crypto now ciphertext s).2 = s := by
  have outcome := processRekeyResponse_completes crypto s ciphertext now
  generalize processRekeyResponse crypto now ciphertext s = run at outcome ⊢
  cases outcome with
  | refused => rfl
  | completed _ _ fresh _ _ _ _ _ _ _ mixed =>
    simp [deriveRekeySecret, shut.masterSecret, sharedSecretSize] at mixed

/-- Every call but the three leaves a session shut. -/
theorem perform_shut (shut : Shut s) (op : Op Byte) (spared : ¬ Reopens crypto op s) :
    Shut (perform crypto op s).2 := by
  have discarded {α : Type} (method : SessionProg Byte α) :
      ((do let _ ← method : SessionProg Byte Unit) s).2 = (method s).2 := by
    rw [run_bind]
    rcases method s with ⟨_ | _, _⟩ <;> rfl
  cases op with
  | initializeKeys now masterSecret cipherSuite =>
    rw [perform, initializeKeys, read_bind, run_bind_error (run_reject_pos s shut.state)]
    exact shut
  | encrypt plaintext =>
    rw [perform, discarded]
    simp only [encrypt, read_bind, write_bind, shut.sendCipher, run_fail]
    exact ⟨shut.state, shut.masterSecret, rfl, shut.recvCipher⟩
  | decrypt ciphertext seq =>
    rw [perform, discarded]
    simp only [decrypt, read_bind, shut.recvCipher, run_fail]
    exact shut
  | rekey now newMasterSecret =>
    rw [perform, rekey_unchanged spared]
    exact shut
  | initiateRekey coins =>
    rw [perform, discarded, initiateRekey_unchanged shut]
    exact shut
  | prepareRekeyResponse coins newPublicKey activationSeq =>
    rw [perform, discarded, prepareRekeyResponse_refused shut]
    exact shut
  | processRekeyResponse now ciphertext =>
    rw [perform, processRekeyResponse_unchanged shut]
    exact shut
  | activateRekeySend now => exact absurd trivial spared
  | activatePendingKeys now =>
    have idle : ¬ s.rekeyInProgress = true := spared
    rw [perform, activatePendingKeys, read_bind, if_neg idle]
    exact shut
  | close => exact closeSession_shut s

/-- Rekey on a session with a usable cipher suite makes it seal again. -/
theorem rekey_reopens (sized : XofSized crypto.xof) {now : Int} {secret : List Byte}
    (reopens : Reopens crypto (.rekey now secret) s) :
    ¬ Refuses crypto (rekey crypto now secret s).2 := by
  obtain ⟨size, supported, approved⟩ := reopens
  obtain ⟨keys, derived, first, second⟩ : ∃ keys, deriveTrafficKeys crypto secret = .ok keys ∧
      (byRole s.role keys).1.length = aesKeySize ∧ (byRole s.role keys).2.length = aesKeySize := by
    refine ⟨_, deriveTrafficKeys_ok_iff.mpr ⟨size, by rw [size]; decide, rfl⟩, ?_⟩
    cases s.role <;> simp [byRole, slice, sized _ _, aesKeySize]
  have sends : newAEAD crypto s.cipherSuite (byRole s.role keys).1 = .ok _ :=
    newAEAD_ok_iff.mpr ⟨approved, first, supported, rfl⟩
  have receives : newAEAD crypto s.cipherSuite (byRole s.role keys).2 = .ok _ :=
    newAEAD_ok_iff.mpr ⟨approved, second, supported, rfl⟩
  have keyed : rekey crypto now secret s = (.ok (), { s with
      sendCipher := some ⟨s.cipherSuite, (byRole s.role keys).1, 0, maxPacketsBeforeRekey⟩
      recvCipher := some ⟨s.cipherSuite, (byRole s.role keys).2, 0, maxPacketsBeforeRekey⟩
      sendEpochStartSeq := s.sendSeq, masterSecret := some secret
      replayWindow := ReplayWindow.newWindow, establishedAt := some now }) := by
    rw [rekey, read_bind, run_bind_ok (run_reject_neg s (not_not.mpr size)), derived]
    simp only [run_bind, run_lift, sends, receives, run_write]
  rw [keyed]
  intro refuses
  obtain ⟨error, refused⟩ := refuses.seals []
  have fresh : ¬ (s.sendSeq ≥ s.sendSeq ∧ s.sendSeq - s.sendSeq ≥ maxPacketsBeforeRekey) := by
    rw [Nat.sub_self]
    exact fun exhausted => absurd exhausted.2 (by decide)
  rw [encrypt_ok_iff.mpr ⟨rfl, rfl, fresh, _, rfl, rfl⟩] at refused
  cases refused

/-- The three calls do bring a session back: its state is no longer Closed, or it seals. -/
theorem perform_reopens (sized : XofSized crypto.xof) (op : Op Byte)
    (reopens : Reopens crypto op s) : ¬ Refuses crypto (perform crypto op s).2 := by
  cases op with
  | activateRekeySend now =>
    intro refuses
    have state := refuses.state
    simp only [perform, activateRekeySend, read_bind] at state
    cases pending : s.pendingSendCipher with
    | none | some cipher =>
      rw [pending] at state
      cases state
  | activatePendingKeys now =>
    intro refuses
    have busy : s.rekeyInProgress = true := reopens
    have state := refuses.state
    rw [perform, activatePendingKeys, read_bind, if_pos busy] at state
    cases state
  | rekey now newMasterSecret => exact rekey_reopens sized reopens
  | _ => exact absurd reopens id

/-- A shut session refuses everything for as long as no call reopens it, and no longer. -/
theorem shut_refuses_iff (sized : XofSized crypto.xof) (shut : Shut s) (ops : List (Op Byte)) :
    (∀ done, done <+: ops → Refuses crypto (after crypto done s)) ↔
      Along (step crypto) (Spared crypto) ops s := by
  induction ops generalizing s with
  | nil =>
    constructor
    · exact fun _ => trivial
    · intro _ done short
      rw [List.prefix_nil.mp short]
      exact shut.refuses
  | cons op rest ih =>
    constructor
    · intro refuses
      have spared : ¬ Reopens crypto op s := fun reopens =>
        perform_reopens sized op reopens (refuses [op] (by simp))
      refine ⟨spared, (ih (perform_shut shut op spared)).mp fun done short => ?_⟩
      exact refuses (op :: done) (List.cons_prefix_cons.mpr ⟨rfl, short⟩)
    · rintro ⟨spared, later⟩ done short
      cases done with
      | nil => exact shut.refuses
      | cons first tail =>
        obtain ⟨rfl, within⟩ := List.cons_prefix_cons.mp short
        exact (ih (perform_shut shut first spared)).mpr later tail within

end Calls

/-- Whatever was called before it: behind a Close the session stays closed and refuses to
seal and to open, for as long as no later call reopens it, and no longer. -/
theorem closed_final_iff {crypto : Crypto Byte} (sized : XofSized crypto.xof) (s : Session Byte)
    (before later : List (Op Byte)) :
    (∀ done, done <+: later → Refuses crypto (after crypto (before ++ .close :: done) s)) ↔
      Along (step crypto) (Spared crypto) later (after crypto (before ++ [.close]) s) := by
  have shut : Shut (after crypto (before ++ [.close]) s) := by
    rw [after, run_append]
    exact closeSession_shut _
  have split (done : List (Op Byte)) : after crypto (before ++ .close :: done) s =
      after crypto done (after crypto (before ++ [.close]) s) := by
    rw [after, after, after, ← run_append, List.append_assoc]
    rfl
  rw [← shut_refuses_iff sized shut later]
  exact forall_congr' fun done => by rw [split done]

/-- A session that is closed while its rekey request is out, and then gets a record and
a late answer. -/
theorem closed_final_initiator : ∃ s, IsNew .initiator s ∧
      ∀ done, done <+: [.decrypt [] 0, .processRekeyResponse 1 [], .initiateRekey []] →
        Refuses env.toCrypto (after env.toCrypto ([
          .initializeKeys 0 (secretOf 0) cipherSuiteAES256GCM, .initiateRekey []] ++
          .close :: done) s) :=
  ⟨_, rfl, (closed_final_iff env_ideal.xof.length _ _ _).mpr ⟨id, id, id, trivial⟩⟩

/-- A responder closes between preparing a rekey response and switching to the new key:
it is established again and seals records under that key. -/
theorem response_in_flight_reopens : ∃ s, IsNew .responder s ∧
      let reopened := after env.toCrypto [
        .initializeKeys 0 (secretOf 0) cipherSuiteAES256GCM,
        .prepareRekeyResponse [] (List.replicate 1600 (lit 0)) 16, .close, .activateRekeySend 1] s
      reopened.state = .established ∧
        (encrypt env.toCrypto [] reopened).1.toOption.isSome = true := by
  refine ⟨_, rfl, ?_, ?_⟩
  · decide +kernel
  · decide +kernel

end QuantumGo.ClosedSession
