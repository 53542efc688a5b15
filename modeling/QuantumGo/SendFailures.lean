import QuantumGo.SessionReplay

/-!
What a failed send leaves behind (pkg/tunnel/transport.go). SendRekey marks the session as
rekeying before the first step that can fail, and no error path takes the mark back, so a
rekey that fails once is never tried again. Send checks the size of the payload, and
EncodeData checks the size of the sealed record against the same limit: a payload within a
tag of the limit passes the first check, is sealed under a number of its own, and fails the
second.
-/

namespace QuantumGo.SendFailures

open Octets Effect Symbolic Wire HelloCodec Aead KeySchedule Kem Tunnel Records RecordTypes
  StreamTransport
open SymbolicKem
open FlightSpecs (liftErr_bind_ok_iff)

variable {Byte : Type} [Octet Byte] (crypto : Crypto Byte)

def Seals (s : Session Byte) : Prop :=
  s.sendCipher.isSome = true ∧
    ¬(s.sendSeq ≥ s.sendEpochStartSeq ∧ s.sendSeq - s.sendEpochStartSeq ≥ maxPacketsBeforeRekey)

instance (s : Session Byte) : Decidable (Seals s) := inferInstanceAs (Decidable (_ ∧ _))

def numbered (s : Session Byte) : Session Byte := { s with sendSeq := (s.sendSeq + 1) % seqLimit }

variable {s : Session Byte} {t : Transport Byte}

section Sealing
variable {crypto : Crypto Byte}

theorem encrypt_seals (crypto : Crypto Byte) (plaintext : List Byte) (seals : Seals s) :
    ∃ cipher, s.sendCipher = some cipher ∧ encrypt crypto plaintext s =
      (.ok (crypto.sealText cipher.suite cipher.key (buildAEADNonce s.sendNoncePrefix s.sendSeq)
        plaintext (toBE 8 s.sendSeq), s.sendSeq), numbered s) := by
  obtain ⟨cipher, present⟩ := Option.isSome_iff_exists.mp seals.1
  exact ⟨cipher, present, encrypt_ok_iff.mpr ⟨rfl, rfl, seals.2, cipher, present, rfl⟩⟩

theorem encrypt_refuses (crypto : Crypto Byte) (plaintext : List Byte) (worn : ¬Seals s) :
    ∃ stop, (stop = .invalidState ∨ stop = .nonceExhausted) ∧
      encrypt crypto plaintext s = (.error (.err stop), numbered s) := by
  cases present : s.sendCipher with
  | none => exact ⟨.invalidState, .inl rfl, by simp [encrypt, present, numbered]⟩
  | some cipher =>
    have exhausted : s.sendSeq ≥ s.sendEpochStartSeq ∧
        s.sendSeq - s.sendEpochStartSeq ≥ maxPacketsBeforeRekey := by
      by_contra fresh
      exact worn ⟨by simp [present], fresh⟩
    refine ⟨.nonceExhausted, .inr rfl, ?_⟩
    rw [encrypt, read_bind, write_bind, present]
    dsimp only
    rw [run_bind, run_reject_pos _ exhausted]
    simp [numbered, present]

theorem sealAs_seals (crypto : Crypto Byte) (kind : Kind) (plaintext : List Byte)
    (seals : Seals t.session) : ∃ entry : Sealing Byte,
    entry.kind = kind ∧ entry.plaintext = plaintext ∧
    (∃ suite key nonce, entry.ciphertext =
      crypto.sealText suite key nonce plaintext (toBE 8 entry.seq)) ∧
    sealAs crypto kind plaintext t = (.ok (entry.ciphertext, entry.seq),
      { t with session := numbered t.session, sealings := t.sealings ++ [entry] }) := by
  obtain ⟨cipher, present, encrypted⟩ := encrypt_seals crypto plaintext seals
  refine ⟨⟨kind, t.session.sendSeq, cipher.key, plaintext, crypto.sealText cipher.suite cipher.key
    (buildAEADNonce t.session.sendNoncePrefix t.session.sendSeq) plaintext
    (toBE 8 t.session.sendSeq)⟩,
    rfl, rfl, ⟨_, _, _, rfl⟩, ?_⟩
  simp [sealAs, onSession, run_bind, encrypted, present]

theorem sealAs_refuses (crypto : Crypto Byte) (kind : Kind) (plaintext : List Byte)
    (worn : ¬Seals t.session) : ∃ stop, (stop = .invalidState ∨ stop = .nonceExhausted) ∧
    sealAs crypto kind plaintext t = (.error (.err stop),
      { t with session := numbered t.session }) := by
  obtain ⟨stop, which, refused⟩ := encrypt_refuses crypto plaintext worn
  refine ⟨stop, which, ?_⟩
  simp [sealAs, onSession, run_bind, refused]

end Sealing

/-! A rekey that fails. -/

def writeFrameTo (answer : Except QError Unit) (msg : List Byte) : TransportProg Byte Unit := do
  liftErr answer
  writeFrame msg

def sendRekeyTo (answer : Except QError Unit) (coins : List Byte) :
    TransportProg Byte Unit := do
  checkClosed
  let (newPublicKey, activationSeq) ← onSession (initiateRekey coins)
  let innerPayload ← lift (encodeRekeyPayload newPublicKey activationSeq)
  let (ciphertext, seq) ← sealAs crypto .rekey innerPayload
  writeFrameTo answer (encodeRekey seq ciphertext)

inductive Attempt (Byte : Type) where
  | request (coins : List Byte) (answer : Except QError Unit)
  | response (now : Int) (ciphertextBytes : List Byte)

def attempt : Attempt Byte → TransportProg Byte Unit
  | .request coins answer => sendRekeyTo crypto answer coins
  | .response now ciphertextBytes => onSession (processRekeyResponse crypto now ciphertextBytes)

def CanStart (s : Session Byte) : Prop := s.rekeyInProgress = false ∧ s.state = .established

instance (s : Session Byte) : Decidable (CanStart s) := inferInstanceAs (Decidable (_ ∧ _))

def Begun : Attempt Byte → Session Byte → Prop
  | .request _ _, s => CanStart s
  | .response _ _, s => s.rekeyInProgress = true ∧ s.pendingRekeyKeyPair.isSome = true

/-- No step behind the mark fails. For a request: the session seals, and the connection takes
the frame. For a response: it parses, the pending key opens it, and the keys it leads to can
be used. -/
def Smooth : Attempt Byte → Session Byte → Prop
  | .request coins answer, s =>
    ∀ keyPair, s.kemSuite.generateKeyPair coins = .ok keyPair → Seals s ∧ answer = .ok ()
  | .response _ ciphertextBytes, s => ∀ keyPair, s.pendingRekeyKeyPair = some keyPair →
      ∃ ciphertext freshSecret newSecret keys newSendCipher newRecvCipher,
        s.kemSuite.parseCiphertext ciphertextBytes = .ok ciphertext ∧
        s.kemSuite.decapsulate ciphertext keyPair .initiator = .ok freshSecret ∧
        deriveRekeySecret crypto (s.masterSecret.getD []) freshSecret = .ok newSecret ∧
        deriveTrafficKeys crypto newSecret = .ok keys ∧
        newAEAD crypto s.cipherSuite keys.1 = .ok newSendCipher ∧
        newAEAD crypto s.cipherSuite keys.2 = .ok newRecvCipher

variable {ciphertextBytes : List Byte}

section Retrying
variable {crypto : Crypto Byte} {t' : Transport Byte} {coins : List Byte}
  {answer : Except QError Unit} {keyPair : KeyPair Byte}

omit [Octet Byte] in
theorem checkClosed_running (running : t.closed = false) : checkClosed t = (.ok (), t) := by
  simp [checkClosed, run_reject, running]

omit [Octet Byte] in
theorem initiateRekey_asks (can : CanStart s)
    (made : s.kemSuite.generateKeyPair coins = .ok keyPair) :
    initiateRekey coins s = (.ok (keyPair.publicRaw, (s.sendSeq + 16) % seqLimit),
      rekeyAsked s keyPair) := by
  simp [initiateRekey, can.1, can.2, made, run_bind, run_reject, liftErr, Except.mapError,
    rekeyAsked]

/-- A generated key has the size of its suite, so its payload can be encoded. -/
theorem encodeRekeyPayload_generated {suite : Suite Byte}
    (made : suite.generateKeyPair coins = .ok keyPair) (seq : Nat) :
    encodeRekeyPayload keyPair.publicRaw seq =
      .ok (prefixed 2 keyPair.publicRaw ++ toBE 8 seq) := by
  have size := suite.keyPair_size _ _ made
  have bound := suite.publicKeySize_bound
  refine if_neg ?_
  rw [size, maxMessageSize]
  omega

theorem sendRekeyTo_marked (crypto : Crypto Byte) (answer : Except QError Unit)
    (running : t.closed = false) (can : CanStart t.session)
    (made : t.session.kemSuite.generateKeyPair coins = .ok keyPair) :
    sendRekeyTo crypto answer coins t =
      (sealAs crypto .rekey (prefixed 2 keyPair.publicRaw ++
        toBE 8 ((t.session.sendSeq + 16) % seqLimit)) >>=
        fun record => writeFrameTo answer (encodeRekey record.2 record.1))
        { t with session := rekeyAsked t.session keyPair } := by
  have asked : onSession (initiateRekey coins) t =
      (.ok (keyPair.publicRaw, (t.session.sendSeq + 16) % seqLimit),
      { t with session := rekeyAsked t.session keyPair }) := by
    rw [onSession, initiateRekey_asks can made]
  rw [sendRekeyTo, run_bind_ok (checkClosed_running running), run_bind_ok asked]
  dsimp only
  rw [encodeRekeyPayload_generated made]
  rfl

/-- The request goes out, or it fails behind the mark and leaves it in place. -/
theorem sendRekeyTo_ends (crypto : Crypto Byte) (answer : Except QError Unit)
    (running : t.closed = false) (can : CanStart t.session)
    (made : t.session.kemSuite.generateKeyPair coins = .ok keyPair) :
    (Seals t.session ∧ answer = .ok ()) ∧ (∃ t', sendRekeyTo crypto answer coins t = (.ok (), t')) ∨
    ¬(Seals t.session ∧ answer = .ok ()) ∧ ∃ stop t', sendRekeyTo crypto answer coins t =
      (.error stop, t') ∧ t'.session.rekeyInProgress = true := by
  rw [sendRekeyTo_marked crypto answer running can made]
  by_cases seals : Seals t.session
  · have still : Seals (rekeyAsked t.session keyPair) := seals
    obtain ⟨entry, -, -, -, sealedAs⟩ :=
      sealAs_seals (t := { t with session := rekeyAsked t.session keyPair }) crypto .rekey
        (prefixed 2 keyPair.publicRaw ++ toBE 8 ((t.session.sendSeq + 16) % seqLimit)) still
    rw [run_bind_ok sealedAs]
    cases answer with
    | ok => exact .inl ⟨⟨seals, rfl⟩, _, rfl⟩
    | error stop => exact .inr ⟨fun both => absurd both.2 (by rintro ⟨⟩), .err stop, _, rfl, rfl⟩
  · have still : ¬Seals (rekeyAsked t.session keyPair) := seals
    obtain ⟨stop, -, refused⟩ :=
      sealAs_refuses (t := { t with session := rekeyAsked t.session keyPair }) crypto .rekey
        (prefixed 2 keyPair.publicRaw ++ toBE 8 ((t.session.sendSeq + 16) % seqLimit)) still
    rw [run_bind_error refused]
    exact .inr ⟨fun both => seals both.1, _, _, rfl, rfl⟩

theorem request_retriable_iff (running : t.closed = false) (can : CanStart t.session) :
    (∀ stop t', sendRekeyTo crypto answer coins t = (.error stop, t') → CanStart t'.session) ↔
      Smooth crypto (.request coins answer) t.session := by
  cases made : t.session.kemSuite.generateKeyPair coins with
  | error stop =>
    -- Without a key pair the session is as before.
    have unasked : onSession (initiateRekey coins) t = (.error (.err stop), t) := by
      simp [onSession, initiateRekey, run_bind, run_reject, can.1, can.2, made, liftErr,
        Except.mapError]
    have failed : sendRekeyTo crypto answer coins t = (.error (.err stop), t) := by
      rw [sendRekeyTo, run_bind_ok (checkClosed_running running), run_bind_error unasked]
    constructor
    · intro _ keyPair same
      rw [made] at same
      cases same
    · intro _ stop t' ended
      rw [failed] at ended
      cases ended
      exact can
  | ok keyPair =>
    have smooth : Smooth crypto (.request coins answer) t.session ↔ Seals t.session ∧
        answer = .ok () := by
      simp [Smooth, made]
    rw [smooth]
    rcases sendRekeyTo_ends crypto answer running can made with
      ⟨goes, t', ended⟩ | ⟨stops, stop, t', ended, marked⟩
    · refine ⟨fun _ => goes, fun _ stop t'' failed => ?_⟩
      rw [ended] at failed
      cases failed
    · refine ⟨fun retriable => ?_, fun goes => absurd goes stops⟩
      have free := (retriable stop t' ended).1
      rw [marked] at free
      cases free

theorem processRekeyResponse_ends_iff {now : Int} (marked : s.rekeyInProgress = true)
    (asked : s.pendingRekeyKeyPair = some keyPair) :
    (∃ s', processRekeyResponse crypto now ciphertextBytes s = (.ok (), s')) ↔
      Smooth crypto (.response now ciphertextBytes) s := by
  simp only [processRekeyResponse, read_bind, asked, reject_bind_ok_iff, liftErr_bind_ok_iff,
    lift_bind_ok_iff, write_bind, finalizeRekeyState, write_ok_iff, marked, Smooth]
  constructor
  · rintro ⟨s', -, ciphertext, parsed, freshSecret, opened, newSecret, mixed, keys, derived,
      send, sends, recv, receives, -⟩ _ ⟨⟩
    exact ⟨ciphertext, freshSecret, newSecret, keys, send, recv, parsed, opened, mixed,
      derived, sends, receives⟩
  · intro smooth
    obtain ⟨ciphertext, freshSecret, newSecret, keys, send, recv, parsed, opened, mixed,
      derived, sends, receives⟩ := smooth keyPair rfl
    exact ⟨_, by simp, ciphertext, parsed, freshSecret, opened, newSecret, mixed, keys,
      derived, send, sends, recv, receives, rfl⟩

/-- A response that fails leaves the mark in place. -/
theorem response_retriable_iff {now : Int} (marked : t.session.rekeyInProgress = true)
    (waits : t.session.pendingRekeyKeyPair.isSome = true) :
    (∀ stop t', onSession (processRekeyResponse crypto now ciphertextBytes) t = (.error stop, t') →
      CanStart t'.session) ↔ Smooth crypto (.response now ciphertextBytes) t.session := by
  obtain ⟨keyPair, asked⟩ := Option.isSome_iff_exists.mp waits
  rw [← processRekeyResponse_ends_iff marked asked]
  rcases run : processRekeyResponse crypto now ciphertextBytes t.session with ⟨stop | done, s'⟩
  · have same : s' = t.session :=
      processRekeyResponse_restores crypto ciphertextBytes now t.session stop s' run
    constructor
    · intro retriable
      have free := (retriable stop { t with session := s' } (by rw [onSession, run])).1
      rw [same, marked] at free
      cases free
    · rintro ⟨_, ⟨⟩⟩
  · refine ⟨fun _ => ⟨s', rfl⟩, fun _ stop t' failed => ?_⟩
    rw [onSession, run] at failed
    cases failed

end Retrying

/-- After a rekey has failed another one can start exactly if none of the steps behind the mark
fails: of the failures, only that of the key generation itself leaves the session able to
try again. -/
theorem failed_rekey_retriable_iff (crypto : Crypto Byte) (a : Attempt Byte) {t : Transport Byte}
    (running : t.closed = false) (begun : Begun a t.session) :
    (∀ stop t', attempt crypto a t = (.error stop, t') → CanStart t'.session) ↔
      Smooth crypto a t.session := by
  cases a with
  | request coins answer => exact request_retriable_iff running begun
  | response now ciphertextBytes => exact response_retriable_iff begun.1 begun.2

/-- Generating a key pair fails without entropy. -/
def drawingKem : Suite Letter := { registry.chkemV1 with
  generateKeyPair := fun coins =>
    if coins.isEmpty then .error .keyGenerationFailed else registry.chkemV1.generateKeyPair coins
  keyPair_size := by
    intro coins keyPair made
    split at made
    · cases made
    · exact registry.chkemV1.keyPair_size coins keyPair made }

/-- The request fails before the mark, and the next one can start. -/
theorem failed_rekey_retriable_unmarked : ∃ (i : Session Letter) (t t' : Transport Letter),
    newSession drawingKem .initiator [] [lit 0] = .ok i ∧ t = keyedTransport i (secretOf 0) [] [] ∧
    Begun (.request [] (.ok ())) t.session ∧ attempt env.toCrypto (.request [] (.ok ())) t =
      (.error (.err .keyGenerationFailed), t') ∧ CanStart t'.session := by
  let i := (newSession drawingKem .initiator [] [lit 0]).toOption.get rfl
  let t := keyedTransport i (secretOf 0) [] []
  have smooth : Smooth env.toCrypto (.request [] (.ok ())) t.session := by rintro _ ⟨⟩
  have begun : Begun (.request [] (.ok ())) t.session := ⟨rfl, rfl⟩
  exact ⟨i, t, _, rfl, rfl, begun, rfl,
    (failed_rekey_retriable_iff env.toCrypto _ rfl begun).mpr smooth _ _ rfl⟩

/-- The connection refuses one write, or the peer answers with one byte: the rekey fails, and
from then on every request is refused although nothing is under way. -/
theorem failed_rekey_locks_out :
    ∃ (i : Session Letter) (t refused asked answered : Transport Letter), IsNew .initiator i ∧
    t = keyedTransport i (secretOf 0) [] [] ∧
    refused = (sendRekeyTo env.toCrypto (.error .endOfStream) [] t).2 ∧
    asked = (sendRekeyTo env.toCrypto (.ok ()) [] t).2 ∧
    answered = (onSession (processRekeyResponse env.toCrypto 1 [lit 0]) asked).2 ∧
    refused.closed = false ∧ answered.closed = false ∧
    (sendRekeyTo env.toCrypto (.error .endOfStream) [] t).1 = .error (.err .endOfStream) ∧
    (sendRekeyTo env.toCrypto (.ok ()) [] refused).1 = .error (.err .rekeyInProgress) ∧
    (onSession (processRekeyResponse env.toCrypto 1 [lit 0]) asked).1 =
      .error (.err .invalidCiphertext) ∧
    (sendRekeyTo env.toCrypto (.ok ()) [] answered).1 = .error (.err .rekeyInProgress) := by
  refine ⟨_, _, _, _, _, rfl, rfl, rfl, rfl, rfl, ?_, ?_, ?_, ?_, ?_, ?_⟩ <;> decide +kernel

/-! A payload near the limit. -/

def Encoded (before after : Transport Byte) : Prop :=
  ∀ entry ∈ after.sealings, entry ∈ before.sealings ∨
    frame entry.kind.messageType (toBE 8 entry.seq ++ entry.ciphertext) ∈ after.written

section Sizes
variable {crypto : Crypto Byte} {base : Transport Byte} {data : List Byte}

theorem Encoded.refl (t : Transport Byte) : Encoded t t := fun _ held => .inl held

theorem Encoded.append (encoded : Encoded base t) (session : Session Byte) {entry : Sealing Byte}
    {msg : List Byte}
    (same : msg = frame entry.kind.messageType (toBE 8 entry.seq ++ entry.ciphertext)) :
    Encoded base { t with
      session, sealings := t.sealings ++ [entry], written := t.written ++ [msg] } := by
  intro other held
  rcases List.mem_append.mp held with old | last
  · exact (encoded other old).imp_right (List.mem_append_left _)
  · cases List.mem_singleton.mp last
    exact .inr (List.mem_append_right _ (List.mem_singleton.mpr same.symm))

theorem sealThenWrite_maintains (kind : Kind) (plaintext : List Byte) :
    Maintains (Encoded base) (sealAs crypto kind plaintext >>= fun record =>
      writeFrame (frame kind.messageType (toBE 8 record.2 ++ record.1))) := by
  intro t encoded
  by_cases seals : Seals t.session
  · obtain ⟨entry, rfl, -, -, ended⟩ := sealAs_seals crypto kind plaintext seals
    rw [run_bind_ok ended]
    exact encoded.append _ rfl
  · obtain ⟨stop, -, ended⟩ := sealAs_refuses crypto kind plaintext seals
    rw [run_bind_error ended]
    exact encoded

theorem onSession_encoded {α : Type} (method : SessionProg Byte α) :
    Maintains (Encoded base) (onSession method) := fun _ encoded => encoded

theorem checkAndRekey_encoded (crypto : Crypto Byte) (worn : Bool) (coins : List Byte) :
    Maintains (Encoded base) (checkAndRekey crypto worn coins) := by
  refine .read_bind fun t _ => .ite (fun _ => ?_) fun _ => .pure _
  exact .bind (.read_bind fun _ _ => .reject _ _) fun _ =>
    .bind (onSession_encoded _) fun _ => .lift_bind fun _ _ =>
    sealThenWrite_maintains .rekey _

omit [Octet Byte] in
theorem ignoringErrors_err {program : TransportProg Byte Unit} {stop : QError} :
    (ignoringErrors program t).1 ≠ .error (.err stop) := by
  unfold ignoringErrors
  split
  · rintro ⟨⟩
  · rename_i outcome t' unlike ran
    rintro rfl
    exact unlike _ rfl

/-- A sealed payload has its tag behind it. -/
theorem encodeData_sealed {seq : Nat} {ciphertext : List Byte}
    (sized : ciphertext.length = data.length + aesTagSize) :
    encodeData seq ciphertext = if data.length + aesTagSize ≤ maxPayloadSize then
        .ok (frame messageTypeData (toBE 8 seq ++ ciphertext))
      else .error (.err .messageTooLarge) := by
  unfold encodeData
  rw [sized]
  split <;> split <;> first | rfl | omega

/-- A payload that the session cannot seal, one that fits with its tag, and one that does not. -/
theorem sealAndWrite_ends
    (sized : ∀ suite key nonce text aad, (crypto.sealText suite key nonce text aad).length =
      text.length + aesTagSize)
    (data : List Byte) (t : Transport Byte) :
    ¬Seals t.session ∧ (∃ stop, stop ≠ .messageTooLarge ∧ sealAndWrite crypto data t =
        (.error (.err stop), { t with session := numbered t.session })) ∨
    Seals t.session ∧ ∃ entry : Sealing Byte, entry.kind = .data ∧
      sealAndWrite crypto data t = if data.length + aesTagSize ≤ maxPayloadSize then
        (.ok (), { t with
          session := numbered t.session, sealings := t.sealings ++ [entry]
          written := t.written ++ [frame messageTypeData (toBE 8 entry.seq ++ entry.ciphertext)] })
      else (.error (.err .messageTooLarge),
        { t with session := numbered t.session, sealings := t.sealings ++ [entry] }) := by
  by_cases seals : Seals t.session
  · obtain ⟨entry, kind, -, ⟨suite, key, nonce, text⟩, ended⟩ :=
      sealAs_seals crypto .data data seals
    have encoded : encodeData entry.seq entry.ciphertext = _ :=
      encodeData_sealed (text ▸ sized suite key nonce data _)
    refine .inr ⟨seals, entry, kind, ?_⟩
    rw [sealAndWrite, run_bind_ok ended]
    dsimp only
    rw [encoded]
    split <;> rfl
  · obtain ⟨stop, which, ended⟩ := sealAs_refuses crypto .data data seals
    refine .inl ⟨seals, stop, ?_, by rw [sealAndWrite, run_bind_error ended]⟩
    rcases which with rfl | rfl <;> rintro ⟨⟩

theorem send_accepted (worn : Bool) (coins : List Byte) (running : t.closed = false)
    (accepted : data.length ≤ maxPayloadSize) : StreamTransport.send crypto worn coins data t =
      (sealAndWrite crypto data >>= fun _ => ignoringErrors (checkAndRekey crypto worn coins))
        t := by
  rw [StreamTransport.send, run_bind_ok (checkClosed_running running),
    run_bind_ok (run_reject_neg t (Nat.not_lt.mpr accepted))]

end Sizes

/-- A payload that Send accepts is never refused as too large, and every record sealed for it
goes on the wire, exactly if the payload fits with its tag or the session cannot seal it. -/
theorem send_encodes_iff {crypto : Crypto Byte} (sized : ∀ suite key nonce text aad,
      (crypto.sealText suite key nonce text aad).length = text.length + aesTagSize)
    {t : Transport Byte} (running : t.closed = false) (worn : Bool) (coins : List Byte)
    {data : List Byte} (accepted : data.length ≤ maxPayloadSize) :
    ((StreamTransport.send crypto worn coins data t).1 ≠ .error (.err .messageTooLarge) ∧
      Encoded t (StreamTransport.send crypto worn coins data t).2) ↔
    (Seals t.session → data.length + aesTagSize ≤ maxPayloadSize) := by
  rw [send_accepted worn coins running accepted]
  rcases sealAndWrite_ends sized data t with
    ⟨worn, stop, other, ended⟩ | ⟨seals, entry, kind, ended⟩
  · rw [run_bind_error ended]
    refine ⟨fun _ seals => absurd seals worn, fun _ => ⟨?_, Encoded.refl t⟩⟩
    intro same
    cases same
    exact other rfl
  · by_cases fits : data.length + aesTagSize ≤ maxPayloadSize
    · rw [if_pos fits] at ended
      rw [run_bind_ok ended]
      have written : Encoded t _ := (Encoded.refl t).append (numbered t.session) (by rw [kind])
      have kept := ignoringErrors_maintains (checkAndRekey_encoded crypto worn coins) _ written
      exact ⟨fun _ _ => fits, fun _ => ⟨ignoringErrors_err, kept⟩⟩
    · rw [if_neg fits] at ended
      rw [run_bind_error ended]
      exact ⟨fun both => absurd rfl both.1, fun small => absurd (small seals) fits⟩

/-- The largest payload that fits with its tag. -/
theorem send_encodes_full : ∃ (i : Session Letter) (t : Transport Letter) (data : List Letter),
    IsNew .initiator i ∧ t = keyedTransport i (secretOf 0) [] [] ∧ Seals t.session ∧
    data.length + aesTagSize = maxPayloadSize ∧
    (StreamTransport.send env.toCrypto false [] data t).1 ≠ .error (.err .messageTooLarge) ∧
    Encoded t (StreamTransport.send env.toCrypto false [] data t).2 := by
  obtain ⟨i, new, seals⟩ : ∃ i, IsNew .initiator i ∧
      Seals (keyedTransport i (secretOf 0) [] []).session := ⟨_, rfl, by decide +kernel⟩
  have size : (List.replicate 65491 (lit 7 : Letter)).length + aesTagSize = maxPayloadSize := by
    rw [List.length_replicate]
    rfl
  exact ⟨i, _, _, new, rfl, seals, size, (send_encodes_iff env_ideal.aead.length rfl false []
    (Nat.le_of_add_right_le size.le)).mpr fun _ => size.le⟩

/-- The largest payload: Send accepts it, spends a number on it, and refuses it as too large. -/
theorem largest_payload_refused :
    ∃ (i : Session Letter) (t t' : Transport Letter) (data : List Letter), IsNew .initiator i ∧
    t = keyedTransport i (secretOf 0) [] [] ∧ data.length = maxPayloadSize ∧
    StreamTransport.send env.toCrypto false [] data t = (.error (.err .messageTooLarge), t') ∧
    t.session.sendSeq = 0 ∧ t'.session.sendSeq = 1 ∧ t'.written = [] := by
  have size : (List.replicate maxPayloadSize (lit 0 : Letter)).length = maxPayloadSize :=
    List.length_replicate
  obtain ⟨i, made⟩ : ∃ i, IsNew .initiator i := ⟨_, rfl⟩
  have seals : Seals (keyedTransport i (secretOf 0) [] []).session := by
    obtain rfl := Except.ok.inj made
    decide +kernel
  have first : (keyedTransport i (secretOf 0) [] []).session.sendSeq = 0 := by
    obtain rfl := Except.ok.inj made
    rfl
  rcases sealAndWrite_ends env_ideal.aead.length (List.replicate maxPayloadSize (lit 0))
    (keyedTransport i (secretOf 0) [] []) with ⟨worn, -⟩ | ⟨-, entry, -, ended⟩
  · exact absurd seals worn
  · rw [if_neg (by rw [size]; decide)] at ended
    have sent := (send_accepted false [] rfl size.le).trans (run_bind_error ended)
    refine ⟨i, _, _, _, made, rfl, size, sent, first, ?_, rfl⟩
    simp only [numbered, first]
    rfl

end QuantumGo.SendFailures
