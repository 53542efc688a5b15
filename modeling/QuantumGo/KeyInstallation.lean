import QuantumGo.BuilderFrames
import QuantumGo.Interleaving
import QuantumGo.StreamAgreement
import QuantumGo.RecordTypes

/-!
When a handshake installs traffic keys, over every order in which the methods of its role
can be called. CreateClientFinished and ProcessClientFinished are the only two that do, and
the state field lets them only behind the peer's Finished. The state of a completed
handshake is final for an initiator. For a responder it is not: CreateServerHello looks at
no state and starts the exchange again.
-/

namespace QuantumGo.KeyInstallation

open Octets Effect Symbolic Wire HelloCodec Aead Kem Ticket Tunnel Flights FlightSpecs
open ResponderSpecs BuilderFrames Agreement HelloRoundTrip HonestRuns StreamAgreement
open KeySchedule hiding deriveHandshakeKeys
open Interleaving
open RecordTypes (deriveTrafficKeys_ok_iff)
open HelloRuns (initiatorStart)

inductive Call (Byte : Type) : Role → Type where
  | setTicket (ticket : Option (List Byte)) (secret : List Byte) : Call Byte .initiator
  | createClientHello (coins : Coins Byte) : Call Byte .initiator
  | processHelloRetryRequest (coins : Coins Byte) (data : List Byte) : Call Byte .initiator
  | processServerHello (data : List Byte) : Call Byte .initiator
  | processServerFinished (data : List Byte) : Call Byte .initiator
  | createClientFinished (coins : Coins Byte) : Call Byte .initiator
  | setTicketManager (tm : Option (TicketManager Byte)) : Call Byte .responder
  | processClientHello (coins : Coins Byte) (data : List Byte) : Call Byte .responder
  | createHelloRetryRequest : Call Byte .responder
  | createServerHello (coins : Coins Byte) : Call Byte .responder
  | createServerFinished : Call Byte .responder
  | processClientFinished (coins : Coins Byte) (data : List Byte) : Call Byte .responder


variable {Byte : Type} [Octet Byte] {role : Role}

def perform (env : Env Byte) : {role : Role} → Handshake Byte → Call Byte role → Handshake Byte
  | _, h, .setTicket ticket secret => { h with ticket, ticketSecret := secret }
  | _, h, .createClientHello coins => (createClientHello env coins h).2
  | _, h, .processHelloRetryRequest coins data => (processHelloRetryRequest env coins data h).2
  | _, h, .processServerHello data => (processServerHello env data h).2
  | _, h, .processServerFinished data => (processServerFinished env data h).2
  | _, h, .createClientFinished coins => (createClientFinished env coins h).2
  | _, h, .setTicketManager tm => { h with ticketManager := tm }
  | _, h, .processClientHello coins data => (processClientHello env coins data h).2
  | _, h, .createHelloRetryRequest => (createHelloRetryRequest env h).2
  | _, h, .createServerHello coins => (createServerHello env coins h).2
  | _, h, .createServerFinished => (createServerFinished env h).2
  | _, h, .processClientFinished coins data => (processClientFinished env coins data h).2

def after (env : Env Byte) (calls : List (Call Byte role)) (h : Handshake Byte) :
    Handshake Byte :=
  run (perform env) calls h

/-- The call initialises the traffic keys of the session. Behind that nothing in it fails. -/
def initialises (env : Env Byte) : {role : Role} → Call Byte role → Handshake Byte → Bool
  | _, .createClientFinished coins, h => (createClientFinished env coins h).1.toOption.isSome
  | _, .processClientFinished coins data, h =>
    (processClientFinished env coins data h).1.toOption.isSome
  | _, _, _ => false

def initialisations (env : Env Byte) : List (Call Byte role) → Handshake Byte → Nat
  | [], _ => 0
  | call :: rest, h =>
    (initialises env call h).toNat + initialisations env rest (perform env h call)

def Verifies (env : Env Byte) (domain : Domain) (data : List Byte) (h : Handshake Byte) : Prop :=
  ∃ cipher plaintext verify, h.recvCipher = some cipher ∧
    openNext env.toCrypto cipher data [] = .ok plaintext ∧ decodeFinished plaintext = .ok verify ∧
    verifyData env.toCrypto domain h.sharedSecret h.transcript = .ok verify

/-- The calls made `before` this one contain, or this one is, the verification of the
peer's Finished under the secret that the handshake has now. -/
def Verified (env : Env Byte) : {role : Role} → List (Call Byte role) → Call Byte role →
    Handshake Byte → Prop
  | .initiator, before, _, h =>
    ∃ first data rest, before = first ++ .processServerFinished data :: rest ∧
      Verifies env .serverFinished data (after env first h) ∧
      (after env first h).sharedSecret = (after env before h).sharedSecret
  | .responder, before, call, h => ∃ coins data, call = .processClientFinished coins data ∧
      Verifies env .clientFinished data (after env before h)

def trafficKeys (s : Session Byte) :=
  (s.sendCipher, s.recvCipher, s.dgramEpochs)

def Gains (s s' : Session Byte) : Prop :=
  (s'.sendCipher ≠ none ∧ s'.sendCipher ≠ s.sendCipher) ∨
    (s'.recvCipher ≠ none ∧ s'.recvCipher ≠ s.recvCipher) ∨ s'.dgramEpochs ≠ s.dgramEpochs

/-- No ServerHello is created on a handshake that is complete. -/
def Unfinished : {role : Role} → Handshake Byte → Call Byte role → Prop
  | _, h, .createServerHello _ => h.state ≠ .complete
  | _, _, _ => True

variable {env : Env Byte} {h h' : Handshake Byte} {coins : Coins Byte} {state : HandshakeState}
  {s s' : Session Byte}

/-! The calls. -/
section Calls

variable {data : List Byte}

/-- The state that a method asks for before it does anything. -/
def asks : {role : Role} → Call Byte role → Option HandshakeState
  | _, .createClientHello _ | _, .processClientHello .. => some .initial
  | _, .processHelloRetryRequest .. | _, .processServerHello _ => some .clientHelloSent
  | _, .processServerFinished _ => some .serverHelloReceived
  | _, .createClientFinished _ => some .serverFinishedReceived
  | _, .createServerFinished => some .serverHelloSent
  | _, .processClientFinished .. => some .serverFinishedSent
  | _, .setTicket .. | _, .setTicketManager _ | _, .createHelloRetryRequest
  | _, .createServerHello _ => none

omit [Octet Byte] in
theorem guarded {α : Type} {bad : Handshake Byte → Prop} [DecidablePred bad] {stop : Fault}
    {next : Handshake Byte → Unit → HandshakeProg Byte α} (wrong : bad h) :
    (read >>= fun h => reject (bad h) stop >>= next h) h = (.error stop, h) := by
  rw [read_bind, run_bind_error (run_reject_pos h wrong)]

theorem perform_rejected {call : Call Byte role} (asked : asks call = some state)
    (wrong : h.state ≠ state) : initialises env call h = false ∧ perform env h call = h := by
  cases call <;> cases asked
  case createClientFinished coins =>
    have rejected : createClientFinished env coins h = _ := guarded (.inl wrong)
    rw [initialises, perform, rejected]
    exact ⟨rfl, rfl⟩
  case createServerFinished => exact ⟨rfl, congrArg Prod.snd (guarded (.inl wrong))⟩
  case processClientFinished coins data =>
    have rejected : processClientFinished env coins data h = _ := guarded wrong
    rw [initialises, perform, rejected]
    exact ⟨rfl, rfl⟩
  all_goals exact ⟨rfl, congrArg Prod.snd (guarded wrong)⟩

theorem sealFinished_keys (plaintext : List Byte) :
    Keeps (fun h => trafficKeys h.session) (sealFinished env plaintext) :=
  keeps_of_maintains fun _ => sealFinished_maintains (fun _ _ _ => id) plaintext

theorem createServerFinished_keys :
    Keeps (fun h => trafficKeys h.session) (createServerFinished env) :=
  .read_bind fun _ => .reject_bind fun _ => .lift_bind fun _ => .lift_bind fun _ =>
    .bind (sealFinished_keys _) fun _ => .write_bind (fun _ => rfl) fun _ => .pure _

/-! The state behind a call. -/

def Waiting (h : Handshake Byte) : Prop := h.state ≠ .serverFinishedReceived

theorem processHelloRetryRequest_waiting (coins : Coins Byte) (data : List Byte) :
    Maintains Waiting (processHelloRetryRequest env coins data) :=
  .read_bind fun _ _ => .reject_bind fun _ => .reject_bind fun _ => .lift_bind fun _ _ =>
    .reject_bind fun _ => .lift_bind fun _ _ =>
    .reject_bind fun _ => .lift_bind fun _ _ =>
    .bind (.write fun _ waiting => waiting) fun _ =>
    .bind ((replaceFirstHelloWithHash_keeps _).maintains
      fun seen => seen.1 ≠ .serverFinishedReceived) fun _ =>
    .write fun _ _ => nofun

theorem initializeSessionKeys_secret (coins : Coins Byte) :
    Keeps (fun h : Handshake Byte => h.sharedSecret) (initializeSessionKeys env coins) := by
  refine .read_bind fun h => .ite ?_ ?_
  · exact fun h => rfl
  · exact fun h => rfl

theorem createClientFinished_restores (coins : Coins Byte) :
    Restores (fun h : Handshake Byte => h.sharedSecret) (createClientFinished env coins) :=
  .bind .read fun _ => .bind (.reject _ _) fun _ =>
    .bind (.lift _) fun _ => .bind (.lift _) fun _ =>
    .bind (keeps_of_maintains fun _ => sealFinished_maintains (fun _ _ _ => id) _) fun _ =>
    .bind (initializeSessionKeys_secret coins) fun _ =>
    restores_of_unstopped (.bind (.write _) fun _ => .bind (.write _) fun _ => .pure _)

/-- A handshake that has accepted a ServerFinished keeps its secret until it is complete. -/
theorem received_stays (received : h.state = .serverFinishedReceived) (call : Call Byte .initiator)
    (still : (perform env h call).state = .serverFinishedReceived) :
    (perform env h call).sharedSecret = h.sharedSecret := by
  cases call with
  | setTicket ticket secret => rfl
  | createClientFinished coins =>
    rw [perform] at still ⊢
    rcases run : createClientFinished env coins h with ⟨stop | data, h'⟩
    · exact createClientFinished_restores coins h stop h' run
    · rw [run] at still
      obtain ⟨-, _, _, _, _, _, -, -, -, -, -, -, -, -, rfl⟩ := createClientFinished_ok_iff.mp run
      cases still
  | _ => rw [(perform_rejected rfl (by simp [received])).2]

/-- The one call that accepts a ServerFinished verifies it. -/
theorem received_now (waiting : Waiting h) (call : Call Byte .initiator)
    (now : (perform env h call).state = .serverFinishedReceived) :
    ∃ data, call = .processServerFinished data ∧ Verifies env .serverFinished data h ∧
      (perform env h call).sharedSecret = h.sharedSecret := by
  cases call with
  | setTicket ticket secret => exact absurd now waiting
  | createClientHello coins =>
    exact absurd now (createClientHello_moves.maintains (· ≠ .serverFinishedReceived)
      (by decide) h waiting)
  | processHelloRetryRequest coins data =>
    exact absurd now (processHelloRetryRequest_waiting coins data h waiting)
  | processServerHello data =>
    exact absurd now ((processServerHello_moves data).maintains (· ≠ .serverFinishedReceived)
      (by decide) h waiting)
  | processServerFinished data =>
    rw [perform] at now ⊢
    rcases run : processServerFinished env data h with ⟨stop | done, h'⟩
    · rw [run] at now
      have same := congrArg Handshake.state (processServerFinished_restores data h stop h' run)
      exact absurd (same.symm.trans now) waiting
    · obtain ⟨-, cipher, plaintext, verify, present, opened, read, computed, rfl⟩ :=
        processServerFinished_ok_iff.mp run
      exact ⟨data, rfl, ⟨cipher, plaintext, verify, present, opened, read, computed⟩, rfl⟩
  | createClientFinished coins =>
    rw [(perform_rejected rfl waiting).2] at now
    exact absurd now waiting

theorem initialises_completes (call : Call Byte role) (done : initialises env call h = true) :
    (perform env h call).state = .complete := by
  cases call with
  | createClientFinished coins =>
    rw [initialises] at done
    rcases run : createClientFinished env coins h with ⟨stop | data, h'⟩
    · simp [run, Except.toOption] at done
    · obtain ⟨-, _, _, _, _, _, -, -, -, -, -, -, -, -, rfl⟩ := createClientFinished_ok_iff.mp run
      rw [perform, run]
      rfl
  | processClientFinished coins data =>
    rw [initialises] at done
    rcases run : processClientFinished env coins data h with ⟨stop | _, h'⟩
    · simp [run, Except.toOption] at done
    · obtain ⟨-, _, _, _, _, _, -, -, -, -, -, -, -, -, rfl⟩ := processClientFinished_ok_iff.mp run
      rw [perform, run]
      rfl
  | _ => simp [initialises] at done

/-- Nothing but CreateServerHello moves a completed handshake. -/
theorem complete_final (call : Call Byte role) (complete : h.state = .complete)
    (fresh : Unfinished h call) :
    initialises env call h = false ∧ (perform env h call).state = .complete := by
  cases call with
  | setTicket ticket secret | setTicketManager tm => exact ⟨rfl, complete⟩
  | createHelloRetryRequest =>
    exact ⟨rfl, (congrArg Prod.fst (createHelloRetryRequest_keeps h)).trans complete⟩
  | createServerHello coins => exact absurd complete fresh
  | _ =>
    refine (perform_rejected rfl ?_).imp_right fun stays => by rw [stays, complete]
    simp [complete]

/-! Where the keys come from. -/

structure Shrinks (s s' : Session Byte) : Prop where
  send : s'.sendCipher = s.sendCipher ∨ s'.sendCipher = none
  recv : s'.recvCipher = s.recvCipher ∨ s'.recvCipher = none
  epochs : s'.dgramEpochs = s.dgramEpochs

omit [Octet Byte] in
theorem Shrinks.not_gains (shrinks : Shrinks s s') : ¬Gains s s' := by
  rintro (⟨present, new⟩ | ⟨present, new⟩ | new)
  · exact shrinks.send.elim new present
  · exact shrinks.recv.elim new present
  · exact new shrinks.epochs

omit [Octet Byte] in
theorem shrinks_of_kept (kept : trafficKeys s' = trafficKeys s) : Shrinks s s' := by
  simp only [trafficKeys, Prod.mk.injEq] at kept
  exact ⟨.inl kept.1, .inl kept.2.1, kept.2.2⟩

omit [Octet Byte] in
theorem shrinks_of_keyUse (kept : keyUse h' = keyUse h) : Shrinks h.session h'.session :=
  shrinks_of_kept (congrArg Prod.snd kept)

variable {stop : Fault}

/-- InitializeKeys fails before it has made a cipher, or because it cannot make one. -/
theorem initializeKeys_shrinks (sized : XofSized env.xof) {now : Int} {secret : List Byte}
    {suite : UInt16} (failed : initializeKeys env.toCrypto now secret suite s = (.error stop, s')) :
    Shrinks s s' := by
  simp only [initializeKeys, read_bind, reject_bind_error_iff, write_bind,
    lift_bind_error_iff] at failed
  rcases failed with ⟨-, -, rfl⟩ | ⟨-, ⟨-, -, rfl⟩ | ⟨size, ⟨-, rfl⟩ | ⟨keys, derived, late⟩⟩⟩
  · exact ⟨.inl rfl, .inl rfl, rfl⟩
  · exact ⟨.inl rfl, .inl rfl, rfl⟩
  · exact ⟨.inl rfl, .inl rfl, rfl⟩
  rcases late with ⟨unmade, rfl⟩ | ⟨send, made, ⟨unmade, rfl⟩ | ⟨recv, made',
    ⟨underived, -⟩ | ⟨_, _, last⟩⟩⟩
  · exact ⟨.inr (by simp [unmade, Except.toOption]), .inl rfl, rfl⟩
  · -- Both keys have one length, so the second cipher is made if the first is.
    obtain ⟨approved, -, supported, -⟩ := newAEAD_ok_iff.mp made
    obtain ⟨-, -, rfl⟩ := deriveTrafficKeys_ok_iff.mp derived
    obtain ⟨_, recv, -, made'⟩ := newAEAD_total s.role supported approved (sized _ 64).ge
    exact absurd (unmade.symm.trans made') (by simp)
  · obtain ⟨prefixes, drawn⟩ : ∃ prefixes, noncePrefixes env false secret = .ok prefixes :=
      noncePrefixes_total sized false (not_not.mp size)
    exact absurd (underived.symm.trans drawn) (by simp)
  · cases last

theorem initializeDatagramKeys_shrinks {now : Int} {secret : List Byte} {suite : UInt16}
    (failed : initializeDatagramKeys env.toCrypto now secret suite s = (.error stop, s')) :
    Shrinks s s' := by
  have restored : Restores trafficKeys (initializeDatagramKeys env.toCrypto now secret suite) :=
    .bind .read fun _ => .bind (.reject _ _) fun _ =>
      .bind (.reject _ _) fun _ => .bind (.write fun _ => rfl) fun _ =>
      .bind (.lift _) fun _ => .bind (.lift _) fun _ =>
      restores_of_unstopped (.write _)
  exact shrinks_of_kept (restored s stop s' failed)

theorem initializeSessionKeys_shrinks (sized : XofSized env.xof)
    (failed : initializeSessionKeys env coins h = (.error stop, h')) :
    Shrinks h.session h'.session := by
  rw [initializeSessionKeys, read_bind] at failed
  by_cases datagram : h.datagram = true
  · rw [if_pos datagram, onSession] at failed
    rcases run : initializeDatagramKeys env.toCrypto coins.now h.sharedSecret h.session.cipherSuite
      h.session with ⟨outcome, s'⟩
    rw [run] at failed
    obtain ⟨rfl, rfl⟩ := Prod.mk.inj failed
    exact initializeDatagramKeys_shrinks run
  · rw [if_neg datagram, onSession] at failed
    rcases run : initializeKeys env.toCrypto coins.now h.sharedSecret h.session.cipherSuite
      h.session with ⟨outcome, s'⟩
    rw [run] at failed
    obtain ⟨rfl, rfl⟩ := Prod.mk.inj failed
    exact initializeKeys_shrinks sized run

theorem createClientFinished_shrinks (sized : XofSized env.xof)
    (failed : createClientFinished env coins h = (.error stop, h')) :
    Shrinks h.session h'.session := by
  simp only [createClientFinished, read_bind, reject_bind_error_iff, lift_bind_error_iff] at failed
  rcases failed with ⟨-, -, rfl⟩ | ⟨-, ⟨-, rfl⟩ | ⟨verify, -, ⟨-, rfl⟩ | ⟨plaintext, -, late⟩⟩⟩
  · exact shrinks_of_kept rfl
  · exact shrinks_of_kept rfl
  · exact shrinks_of_kept rfl
  have kept : trafficKeys (sealFinished env plaintext h).2.session = trafficKeys h.session :=
    sealFinished_keys plaintext h
  rcases bind_error_iff.mp late with unsealed | ⟨ciphertext, h₁, sealedText, late⟩
  · rw [unsealed] at kept
    exact shrinks_of_kept kept
  · rw [sealedText] at kept
    rcases bind_error_iff.mp late with unkeyed | ⟨_, h₂, _, rest⟩
    · obtain ⟨send, recv, epochs⟩ := initializeSessionKeys_shrinks sized unkeyed
      simp only [trafficKeys, Prod.mk.injEq] at kept
      exact ⟨kept.1 ▸ send, kept.2.1 ▸ recv, epochs.trans kept.2.2⟩
    · exact absurd rest (Unstopped.bind (.write _) (fun _ =>
        .bind (.write _) fun _ => .pure _) _ _ _)

theorem processClientFinished_shrinks (sized : XofSized env.xof)
    (failed : processClientFinished env coins data h = (.error stop, h')) :
    Shrinks h.session h'.session := by
  rw [processClientFinished, read_bind, reject_bind_error_iff] at failed
  rcases failed with ⟨-, -, rfl⟩ | ⟨-, late⟩
  · exact shrinks_of_kept rfl
  cases present : h.recvCipher with
  | none =>
    rw [present] at late
    obtain ⟨-, rfl⟩ := Prod.mk.inj late
    exact shrinks_of_kept rfl
  | some cipher =>
    rw [present] at late
    have kept : (openFinished env .clientFinished cipher data h).2 = h :=
      openFinished_keeps .clientFinished cipher data h
    rcases bind_error_iff.mp late with unopened | ⟨plaintext, h₁, openedText, behind⟩
    · rw [unopened] at kept
      exact shrinks_of_kept (congrArg (fun h => trafficKeys h.session) kept)
    · rw [openedText] at kept
      subst kept
      rcases bind_error_iff.mp behind with unkeyed | ⟨_, h₂, _, rest⟩
      · exact initializeSessionKeys_shrinks sized unkeyed
      · exact absurd rest (Unstopped.bind (.write _) (fun _ => .write _) _ _ _)

/-- A session gains traffic keys in an initialising call only. -/
theorem gains_initialises (sized : XofSized env.xof) (call : Call Byte role)
    (gains : Gains h.session (perform env h call).session) : initialises env call h = true := by
  cases call with
  | setTicket ticket secret => exact absurd gains (shrinks_of_kept rfl).not_gains
  | createClientHello coins =>
    exact absurd gains (shrinks_of_keyUse (createClientHello_moves.keyUse h)).not_gains
  | processHelloRetryRequest coins data =>
    exact absurd gains (shrinks_of_keyUse (processHelloRetryRequest_keyUse data h)).not_gains
  | processServerHello data =>
    exact absurd gains (shrinks_of_keyUse ((processServerHello_moves data).keyUse h)).not_gains
  | processServerFinished data =>
    exact absurd gains (shrinks_of_keyUse ((processServerFinished_moves data).keyUse h)).not_gains
  | createClientFinished coins =>
    rw [perform] at gains
    rw [initialises]
    rcases run : createClientFinished env coins h with ⟨stop | text, h'⟩
    · rw [run] at gains
      exact absurd gains (createClientFinished_shrinks sized run).not_gains
    · rfl
  | setTicketManager tm => exact absurd gains (shrinks_of_kept rfl).not_gains
  | processClientHello coins data =>
    exact absurd gains (shrinks_of_keyUse (processClientHello_keyUse data h)).not_gains
  | createHelloRetryRequest =>
    have kept : (_, keyUse (createHelloRetryRequest env h).2) = (_, keyUse h) :=
      createHelloRetryRequest_keeps h
    exact absurd gains (shrinks_of_keyUse (Prod.mk.inj kept).2).not_gains
  | createServerHello coins =>
    exact absurd gains (shrinks_of_keyUse (createServerHello_moves.keyUse h)).not_gains
  | createServerFinished =>
    exact absurd gains (shrinks_of_kept (createServerFinished_keys h)).not_gains
  | processClientFinished coins data =>
    rw [perform] at gains
    rw [initialises]
    rcases run : processClientFinished env coins data h with ⟨stop | done, h'⟩
    · rw [run] at gains
      exact absurd gains (processClientFinished_shrinks sized run).not_gains
    · rfl

end Calls

/-! Runs. -/
section Runs

theorem received_verified (waiting : Waiting h) (before : List (Call Byte .initiator))
    (received : (after env before h).state = .serverFinishedReceived) :
    ∃ first data rest, before = first ++ .processServerFinished data :: rest ∧
      Verifies env .serverFinished data (after env first h) ∧
      (after env first h).sharedSecret = (after env before h).sharedSecret := by
  -- Induction on the last call: either the state was reached before it, or it is the one.
  induction before using List.reverseRecOn with
  | nil => exact absurd received waiting
  | append_singleton before call ih =>
    rw [after, run_append] at received ⊢
    by_cases already : (after env before h).state = .serverFinishedReceived
    · obtain ⟨first, data, rest, rfl, verifies, secrets⟩ := ih already
      exact ⟨first, data, rest ++ [call], by simp, verifies,
        secrets.trans (received_stays already call received).symm⟩
    · obtain ⟨data, rfl, verifies, secrets⟩ := received_now already call received
      exact ⟨before, data, [], rfl, verifies, secrets.symm⟩

/-- An initialising call comes behind the verification of the peer's Finished, or contains it. -/
theorem initialises_verified (waiting : Waiting h) (before : List (Call Byte role))
    (call : Call Byte role)
    (done : initialises env call (after env before h) = true) : Verified env before call h := by
  cases call with
  | createClientFinished coins =>
    rw [initialises] at done
    rcases run : createClientFinished env coins (after env before h) with ⟨stop | data, h'⟩
    · simp [run, Except.toOption] at done
    · exact received_verified waiting before (createClientFinished_ok_iff.mp run).1
  | processClientFinished coins data =>
    rw [initialises] at done
    rcases run : processClientFinished env coins data (after env before h) with ⟨stop | _, h'⟩
    · simp [run, Except.toOption] at done
    · obtain ⟨-, cipher, plaintext, verify, _, _, present, opened, read, computed, -⟩ :=
        processClientFinished_ok_iff.mp run
      exact ⟨coins, data, rfl, cipher, plaintext, verify, present, opened, read, computed⟩
  | _ => simp [initialises] at done

theorem initialisations_complete (calls : List (Call Byte role)) (complete : h.state = .complete)
    (unfinished : Along (perform env) Unfinished calls h) : initialisations env calls h = 0 := by
  induction calls generalizing h with
  | nil => rfl
  | cons call rest ih =>
    obtain ⟨none, stays⟩ :
        initialises env call h = false ∧ (perform env h call).state = .complete :=
      complete_final call complete unfinished.1
    rw [initialisations, none, ih stays unfinished.2]
    rfl

theorem initialisations_le_one (calls : List (Call Byte role))
    (unfinished : Along (perform env) Unfinished calls h) : initialisations env calls h ≤ 1 := by
  induction calls generalizing h with
  | nil => exact Nat.zero_le 1
  | cons call rest ih =>
    rw [initialisations]
    cases done : initialises env call h with
    | false => simpa using ih unfinished.2
    | true =>
      rw [initialisations_complete rest (initialises_completes call done) unfinished.2]
      rfl

end Runs

def start (session : Session Byte) (datagram : Bool) : Handshake Byte :=
  { newHandshake session with datagram }

/-- However the methods of a role are called: the traffic keys are initialised behind the
verified Finished of the peer, no other call brings a traffic key into the session, and it
happens once at most if no ServerHello is created on a completed handshake. -/
theorem keys_installed {env : Env Byte} (sized : XofSized env.xof) (session : Session Byte)
    (datagram : Bool) (calls : List (Call Byte role))
    (unfinished : Along (perform env) Unfinished calls (start session datagram)) :
    (∀ before call later, calls = before ++ call :: later →
      initialises env call (after env before (start session datagram)) = true →
      Verified env before call (start session datagram)) ∧
    (∀ before call later, calls = before ++ call :: later →
      Gains (after env before (start session datagram)).session
        (perform env (after env before (start session datagram)) call).session →
      initialises env call (after env before (start session datagram)) = true) ∧
    initialisations env calls (start session datagram) ≤ 1 := by
  refine ⟨fun before call later _ done => ?_, fun before call later _ gains => ?_, ?_⟩
  · exact initialises_verified (nofun : Waiting (start session datagram)) before call done
  · exact gains_initialises sized call gains
  · exact initialisations_le_one calls unfinished

/-! A responder that goes on behind its own completion. -/
section Again

/-- A responder that has sent its hello takes the Finished of a peer with its secret. -/
theorem finishes_with_peer (ideal : IdealEnv env) {send recv : Cipher Byte}
    (armed : Armed env h send recv) (sent : h.state = .serverHelloSent)
    (size : h.sharedSecret.length = 32) (small : ∀ verify : List Byte, verify.length = 32 →
      (h.transcript ++ frame messageTypeServerFinished verify).length ≤ maxUint32)
    (alive : h.session.state ≠ .closed) (coins : Coins Byte) :
    ∃ serverFinished clientFinished h₁ h₂, createServerFinished env h = (.ok serverFinished, h₁) ∧
      processClientFinished env coins clientFinished h₁ = (.ok (), h₂) := by
  obtain ⟨-, left, supported, approved⟩ := handshakeCiphers_fresh armed.ciphers
  obtain ⟨serverFinished, h₁, finished⟩ := createServerFinished_total ideal.xof armed sent size
    (le_trans (by simp) (small (List.replicate 32 (lit 0)) List.length_replicate))
  obtain ⟨-, _, verify, moved, -, -, length, -, rfl⟩ := createServerFinished_ok_iff.mp finished
  obtain ⟨verify', computed, length'⟩ := verifyData_total ideal.xof.length .clientFinished size
    (small verify length)
  obtain ⟨clientFinished, moved', sealedText⟩ : ∃ data moved',
      sealNext env.toCrypto (frame messageTypeClientFinished verify') [] recv =
        (.ok data, moved') :=
    ⟨_, _, run_sealNext _ _ left⟩
  have opened := openNext_sealed ideal.aead (by simp [frame]) sealedText
  obtain ⟨ciphers, made⟩ := deriveDatagramCiphers_total ideal.xof.length h.session.role size
    supported approved
  obtain ⟨prefixes, drawn⟩ := noncePrefixes_total ideal.xof.length h.datagram size
  exact ⟨serverFinished, clientFinished, _, _, finished, processClientFinished_ok_iff.mpr
    ⟨rfl, recv, _, verify', ciphers, prefixes, armed.receives, opened,
      decodeFinished_frame (.inl rfl) length', computed, alive, size, made, drawn, rfl⟩⟩

variable {accepted : Handshake Byte}

/-- What a completed responder has kept is all that another ServerHello needs. -/
theorem createServerHello_again {serverHello serverFinished clientFinished : List Byte}
    {helloSent responder complete : Handshake Byte} {coins' : Coins Byte}
    (unfolded : accepted.staticSecret = none)
    (answer : createServerHello env coins accepted = (.ok serverHello, helloSent))
    (finishes : createServerFinished env helloSent = (.ok serverFinished, responder))
    (completes : processClientFinished env coins' clientFinished responder = (.ok (), complete)) :
    ∃ again, createServerHello env coins complete = (.ok serverHello, again) ∧
      again.sharedSecret = helloSent.sharedSecret ∧ again.transcript = serverHello ∧
      again.session.state ≠ .closed := by
  obtain ⟨remote, random, ct, freshSecret, base, secret, ciphers, known, drawn, encapsulated, mixed,
    valid, rfl, fold, made, rfl⟩ := createServerHello_ok_iff.mp answer
  obtain ⟨-, _, _, _, -, -, -, -, rfl⟩ := createServerFinished_ok_iff.mp finishes
  obtain ⟨-, _, _, _, traffic, prefixes, -, -, -, -, -, -, -, -, left⟩ :=
    processClientFinished_ok_iff.mp completes
  rw [unfolded] at fold
  generalize (finishedBy _ _ _).datagram = datagram at left
  obtain rfl := left
  cases datagram <;>
    exact ⟨_, createServerHello_ok_iff.mpr ⟨remote, random, ct, freshSecret, base, secret, ciphers,
      known, drawn, encapsulated, mixed, valid, rfl, fold, made, rfl⟩, rfl,
      List.nil_append _, nofun⟩

/-- A handshake without a static identity takes no static secret from a hello. -/
theorem processClientHello_unfolded {data : List Byte}
    (accepts : processClientHello env coins data h = (.ok (), accepted))
    (straight : accepted.sendHRR = false) (plain : h.session.staticKeyPair = none)
    (empty : h.staticSecret = none) : accepted.staticSecret = none := by
  obtain ⟨-, msg, -, -, ⟨-, -, _, -, rfl⟩ | ⟨chosen, -, selects, rfl⟩⟩ :=
    processClientHello_ok_iff.mp accepts
  · cases straight
  · have leg := selects.staticSecret
    simp only [staticLeg, plain, Except.ok.injEq] at leg
    simp [clientHelloAccepted, ← leg, empty]

end Again

/-- The states of an honest exchange of new sessions in the symbolic build. -/
theorem symbolic_exchange : ∃ i r : Session Letter, r.staticKeyPair = none ∧
    Nonempty (Exchange SymbolicKem.env (fun _ => steadyCoins) (fun _ => steadyCoins)
      (initiatorStart i none []) (start r false)) := by
  obtain ⟨i, r, -, made', compatible, fresh⟩ := symbolic_sessions
  refine ⟨i, r, ?_, ?_⟩
  · obtain rfl := Except.ok.inj made'
    rfl
  · exact honest_exchange SymbolicKem.env_ideal symbolic_correct compatible fresh.startable
        (⟨rfl, rfl, rfl, rfl, rfl, rfl, rfl, by simp [start, newHandshake]⟩ :
        Answerable r (start r false)) fresh.known rfl (fun _ => steadyCoins)
        (fun _ => steadyCoins) rfl rfl

/-- A responder that is driven through one exchange installs its keys there. -/
theorem keys_installed_once : ∃ (session : Session Letter) (calls : List (Call Letter .responder)),
    Along (perform SymbolicKem.env) Unfinished calls (start session false) ∧
    initialisations SymbolicKem.env calls (start session false) = 1 ∧
    ∀ before call later, calls = before ++ call :: later →
      initialises SymbolicKem.env call (after SymbolicKem.env before (start session false)) = true →
      Verified SymbolicKem.env before call (start session false) := by
  obtain ⟨i, r, -, ⟨run⟩⟩ := symbolic_exchange
  let calls : List (Call Letter .responder) := [.processClientHello steadyCoins run.clientHello,
    .createServerHello steadyCoins, .createServerFinished,
    .processClientFinished steadyCoins run.clientFinished]
  have early : run.accepted.state ≠ .complete := by
    obtain ⟨initial, msg, -, -, ⟨-, -, _, -, left⟩ | ⟨chosen, -, -, left⟩⟩ :=
      processClientHello_ok_iff.mp run.accepts <;>
    · rw [left]
      exact fun complete => absurd (initial.symm.trans complete) (by simp)
  have unfinished : Along (perform SymbolicKem.env) Unfinished calls (start r false) := by
    refine ⟨trivial, ?_, trivial, trivial, trivial⟩
    rw [perform, run.accepts]
    exact early
  refine ⟨r, calls, unfinished, ?_,
    (keys_installed SymbolicKem.env_ideal.xof.length r false calls unfinished).1⟩
  simp only [calls, initialisations, initialises, perform, run.accepts, run.answer, run.finishes,
    run.completes', Except.toOption]
  rfl

/-- A completed responder creates another ServerHello, and a peer that knows the new secret
makes it install traffic keys again. -/
theorem keys_installed_twice : ∃ (session : Session Letter) (calls : List (Call Letter .responder)),
    initialisations SymbolicKem.env calls (start session false) = 2 := by
  obtain ⟨i, r, plain, ⟨run⟩⟩ := symbolic_exchange
  have unfolded := processClientHello_unfolded run.accepts run.answers plain rfl
  obtain ⟨again, answered, secrets, transcript, alive⟩ := createServerHello_again unfolded
    run.answer run.finishes run.completes'
  obtain ⟨sent, send, recv, armed⟩ := armed_of_createServerHello answered
  obtain ⟨-, _, _, _, _, _, -, -, -, computed, -, size, -⟩ :=
    processClientFinished_ok_iff.mp run.completes'
  obtain ⟨-, _, verify, _, -, -, length, -, left⟩ := createServerFinished_ok_iff.mp run.finishes
  obtain ⟨_, _, _, _, _, _, _, -, -, -, -, -, -, -, -, left'⟩ :=
    createServerHello_ok_iff.mp run.answer
  -- The new transcript is a part of the one that the first exchange was verified over.
  have bound : run.responder.transcript.length ≤ maxUint32 :=
    (deriveKeyMultiple_ok_iff.mp computed).2.2.1 _ (by simp)
  have small (verify' : List Letter) (length' : verify'.length = 32) :
      (again.transcript ++ frame messageTypeServerFinished verify').length ≤ maxUint32 := by
    rw [left, left'] at bound
    simp only [finishedBy, sealing, ResponderSpecs.serverHelloSent, List.length_append,
      frame_length] at bound
    rw [transcript, List.length_append, frame_length, length']
    omega
  rw [left] at size
  obtain ⟨serverFinished, clientFinished, h₁, h₂, finishes, completes⟩ :=
    finishes_with_peer SymbolicKem.env_ideal armed sent (secrets ▸ size) small alive steadyCoins
  refine ⟨r, [.processClientHello steadyCoins run.clientHello, .createServerHello steadyCoins,
    .createServerFinished, .processClientFinished steadyCoins run.clientFinished,
    .createServerHello steadyCoins, .createServerFinished,
    .processClientFinished steadyCoins clientFinished], ?_⟩
  simp only [initialisations, initialises, perform, run.accepts, run.answer, run.finishes,
    run.completes', answered, finishes, completes, Except.toOption]
  rfl

end QuantumGo.KeyInstallation
