import QuantumGo.StreamHandshake

/-!
Two sides that share a Finished message agree. What a side has done is the chain
of builder calls behind its state, whoever delivered the bytes in between, so the
argument holds for every network: the Finished fixes the shared secret and the
transcript, the transcript cuts into its messages in one way, and the ServerHello
carries the rest.
-/

namespace QuantumGo.Agreement

open Octets Effect Symbolic Wire HelloCodec HelloRoundTrip Aead Tunnel Flights
open FlightSpecs HelloRuns StreamHandshake
open KeySchedule hiding deriveHandshakeKeys

variable {Byte : Type} [Octet Byte]

def HashNeverHello (digest : List Byte → List Byte) : Prop :=
  ∀ input hello message, decodeClientHello hello = .ok message → ¬ digest input <+: hello

structure IdealEnv (env : Env Byte) : Prop where
  xof : XofIdeal 32 env.xof
  digest : DigestIdeal 32 env.digest
  aead : AeadIdeal env.toCrypto
  hashNeverHello : HashNeverHello env.digest

variable {rest rest' : List Byte}

/-- Exact frames are self-delimiting. -/
theorem exact_append_inj {left right : List Byte} (exact : Exact left) (exact' : Exact right)
    (same : left ++ rest = right ++ rest') : left = right ∧ rest = rest' := by
  have framed {data : List Byte} (exact : Exact data) :
      Framed headerSize (fun head => headerSize + payloadLen head) data :=
    ⟨exact.1, by simpa only [payloadLen_take] using exact.2⟩
  exact framed_append_inj (framed exact) (framed exact') same

variable {hello : List Byte} {message : ClientHello Byte}

theorem hello_long (read : decodeClientHello hello = .ok message) : 32 ≤ hello.length := by
  obtain ⟨-, -, whole, enough⟩ := decodeClientHello_wellFramed read
  unfold headerSize at whole
  unfold clientHelloMinPayload at enough
  omega

variable {hello' : List Byte}

section Cutting
variable {env : Env Byte} (ideal : IdealEnv env)
include ideal

/-- A direct preamble and one behind a retry never look alike. -/
theorem direct_ne_retried {first hash : List Byte} (read : decodeClientHello hello = .ok message)
    (hashed : transcriptHash env.toCrypto [first] = .ok hash) : hello ++ rest ≠ hash ++ rest' := by
  intro same
  obtain ⟨-, -, rfl⟩ := transcriptHash_ok_iff.mp hashed
  have short := ideal.digest.length (toBE 4 [first].length ++ [first].flatMap (prefixed 4))
  apply ideal.hashNeverHello _ _ _ read
  have inWhole : env.digest (toBE 4 [first].length ++ [first].flatMap (prefixed 4)) <+:
      hello ++ rest := same ▸ List.prefix_append _ _
  exact List.prefix_of_prefix_length_le inWhole (List.prefix_append _ _) (short ▸ hello_long read)

/-- A transcript cuts into preamble and ServerHello in one way. -/
theorem preamble_append_inj {pre pre' : List Byte} (shape : Preamble env pre hello)
    (shape' : Preamble env pre' hello') (same : pre ++ rest = pre' ++ rest') :
    pre = pre' ∧ hello = hello' ∧ rest = rest' := by
  cases shape with
  | direct exact read =>
    cases shape' with
    | direct exact' =>
      obtain ⟨hellos, rests⟩ := exact_append_inj exact exact' same
      exact ⟨hellos, hellos, rests⟩
    | retried hashed =>
      rw [List.append_assoc] at same
      exact absurd same (direct_ne_retried ideal read hashed)
  | retried hashed exactRetry exact =>
    cases shape' with
    | direct exact' read' =>
      rw [List.append_assoc] at same
      exact absurd same.symm (direct_ne_retried ideal read' hashed)
    | retried hashed' exactRetry' exact' =>
      simp only [List.append_assoc] at same
      obtain ⟨-, -, rfl⟩ := transcriptHash_ok_iff.mp hashed
      obtain ⟨-, -, rfl⟩ := transcriptHash_ok_iff.mp hashed'
      obtain ⟨hashes, retries⟩ := List.append_inj same (by
        rw [ideal.digest.length, ideal.digest.length])
      obtain ⟨retries, hellos⟩ := exact_append_inj exactRetry exactRetry' retries
      obtain ⟨hellos, rests⟩ := exact_append_inj exact exact' hellos
      exact ⟨by rw [hashes, retries, hellos], hellos, rests⟩

end Cutting

structure Agrees (initiator responder : Handshake Byte) : Prop where
  transcript : initiator.transcript = responder.transcript
  sharedSecret : initiator.sharedSecret = responder.sharedSecret
  kemSuite : initiator.session.kemSuite.id = responder.session.kemSuite.id
  cipherSuite : initiator.session.cipherSuite = responder.session.cipherSuite
  sessionID : initiator.session.id = responder.session.id

variable {env : Env Byte} (ideal : IdealEnv env)
  {initiator initiator' responder responder' : Handshake Byte}
include ideal

variable {data : List Byte}

/-- A record sealed by one side and opened by another carries the sealer's text. -/
theorem opened_is_sealed {cipher cipher' moved : Cipher Byte} {text plaintext : List Byte}
    (sealed : sealNext env.toCrypto text [] cipher = (.ok data, moved))
    (opened : openNext env.toCrypto cipher' data [] = .ok plaintext) :
    plaintext = text ∧ cipher'.key = cipher.key := by
  obtain ⟨-, rfl, -⟩ := sealNext_ok_iff.mp sealed
  obtain ⟨-, opened⟩ := openNext_ok_iff.mp opened
  rw [List.take_left' (counterNonce_length _), List.drop_left' (counterNonce_length _)] at opened
  obtain ⟨-, keys, -, texts, -⟩ := ideal.aead.unseal_sealed opened
  exact ⟨texts, keys⟩

/-- The Finished fixes the secret and the transcript. -/
theorem serverFinished_binds (created : createServerFinished env responder = (.ok data, responder'))
    (accepted : processServerFinished env data initiator = (.ok (), initiator')) :
    initiator.sharedSecret = responder.sharedSecret ∧
    initiator.transcript = responder.transcript ∧
    initiator'.transcript = responder'.transcript := by
  obtain ⟨-, cipher, verify, moved, -, computed, size, sealed, rfl⟩ :=
    createServerFinished_ok_iff.mp created
  obtain ⟨-, cipher', plaintext, verify', -, opened, read, computed', rfl⟩ :=
    processServerFinished_ok_iff.mp accepted
  obtain ⟨rfl, -⟩ := opened_is_sealed ideal sealed opened
  rw [decodeFinished_frame (.inr rfl) size] at read
  obtain rfl := Except.ok.inj read
  obtain ⟨-, inputs⟩ := deriveKeyMultiple_injective ideal.xof computed' computed
  obtain ⟨secrets, transcripts⟩ := List.cons_eq_cons.mp inputs
  have transcripts := (List.cons_eq_cons.mp transcripts).1
  exact ⟨secrets, transcripts, by simp only [finishedBy, sealing, transcripts]⟩

theorem clientFinished_binds {coins coins' : Coins Byte}
    (created : createClientFinished env coins initiator = (.ok data, initiator'))
    (accepted : processClientFinished env coins' data responder = (.ok (), responder')) :
    initiator.sharedSecret = responder.sharedSecret ∧
    initiator.transcript = responder.transcript := by
  obtain ⟨-, _, verify, _, _, _, -, computed, size, sealed, -⟩ :=
    createClientFinished_ok_iff.mp created
  obtain ⟨-, _, plaintext, verify', _, _, -, opened, read, computed', -⟩ :=
    processClientFinished_ok_iff.mp accepted
  obtain ⟨rfl, -⟩ := opened_is_sealed ideal sealed opened
  rw [decodeFinished_frame (.inl rfl) size] at read
  obtain rfl := Except.ok.inj read
  obtain ⟨-, inputs⟩ := deriveKeyMultiple_injective ideal.xof computed computed'
  obtain ⟨secrets, transcripts⟩ := List.cons_eq_cons.mp inputs
  exact ⟨secrets, (List.cons_eq_cons.mp transcripts).1⟩

variable {serverHello serverHello' : List Byte}

/-- Transcripts that begin alike begin with the same ClientHello. -/
theorem clientHello_of_transcripts (done : HellosDone env initiator hello serverHello)
    (done' : HellosDone env responder hello' serverHello')
    (same : initiator.transcript ++ rest = responder.transcript ++ rest') : hello = hello' := by
  obtain ⟨pre, shape, whole⟩ := done.transcript
  obtain ⟨pre', shape', whole'⟩ := done'.transcript
  rw [whole, whole', List.append_assoc, List.append_assoc] at same
  exact (preamble_append_inj ideal shape shape' same).2.1

/-- Sides that share a ServerFinished agree, and read the same hellos. -/
theorem agrees_of_serverFinished (done : HellosDone env initiator hello serverHello)
    (done' : HellosDone env responder hello' serverHello')
    (created : createServerFinished env responder = (.ok data, responder'))
    (accepted : processServerFinished env data initiator = (.ok (), initiator')) :
    Agrees initiator' responder' ∧ hello = hello' ∧ serverHello = serverHello' := by
  obtain ⟨secrets, transcripts, final⟩ := serverFinished_binds ideal created accepted
  obtain ⟨pre, shape, whole⟩ := done.transcript
  obtain ⟨pre', shape', whole'⟩ := done'.transcript
  rw [whole, whole'] at transcripts
  obtain ⟨-, hellos, rfl⟩ := preamble_append_inj ideal shape shape' transcripts
  obtain ⟨msg, read, ids, kems, suites⟩ := done.read
  obtain ⟨msg', read', ids', kems', suites'⟩ := done'.read
  obtain rfl : msg = msg' := Except.ok.inj (read.symm.trans read')
  obtain ⟨-, _, _, _, -, -, -, -, rfl⟩ := createServerFinished_ok_iff.mp created
  obtain ⟨-, _, _, _, -, -, -, -, rfl⟩ := processServerFinished_ok_iff.mp accepted
  exact ⟨⟨final, secrets, kems.symm.trans kems', suites.symm.trans suites', ids.symm.trans ids'⟩,
    hellos, rfl⟩

variable {ciphers ciphers' : Cipher Byte × Cipher Byte}

omit ideal

theorem deriveDatagramCiphers_mirrored {crypto : Crypto Byte} {secret : List Byte} {suite : UInt16}
    (made : deriveDatagramCiphers crypto .initiator secret suite = .ok ciphers)
    (made' : deriveDatagramCiphers crypto .responder secret suite = .ok ciphers') :
    deriveTrafficKeys crypto secret = .ok (ciphers.1.key, ciphers.2.key) ∧
    ciphers'.1 = ciphers.2 ∧ ciphers'.2 = ciphers.1 := by
  unfold deriveDatagramCiphers at made made'
  simp only [except_bind_ok_iff, except_pure_ok_iff, byRole] at made made'
  obtain ⟨keys, derived, send, first, recv, second, rfl⟩ := made
  obtain ⟨keys', derived', send', first', recv', second', rfl⟩ := made'
  obtain rfl : keys = keys' := Except.ok.inj (derived.symm.trans derived')
  obtain rfl : recv = send' := Except.ok.inj (second.symm.trans first')
  obtain rfl : send = recv' := Except.ok.inj (first.symm.trans second')
  obtain ⟨-, -, -, rfl⟩ := newAEAD_ok_iff.mp first
  obtain ⟨-, -, -, rfl⟩ := newAEAD_ok_iff.mp second
  exact ⟨derived, rfl, rfl⟩

/-- The two sessions run on the traffic keys of one secret, each sending with
what the other receives with. -/
structure Mirrored (crypto : Crypto Byte) (secret : List Byte)
    (initiator responder : Session Byte) : Prop where
  keys : ∃ toServer toClient : Cipher Byte,
    deriveTrafficKeys crypto secret = .ok (toServer.key, toClient.key) ∧
    initiator.sendCipher = some toServer ∧ responder.recvCipher = some toServer ∧
    initiator.recvCipher = some toClient ∧ responder.sendCipher = some toClient
  prefixes : initiator.sendNoncePrefix = responder.recvNoncePrefix ∧
    initiator.recvNoncePrefix = responder.sendNoncePrefix
  masterSecret : initiator.masterSecret = some secret ∧ responder.masterSecret = some secret

theorem established_mirrored {datagram : Bool} {s s' : Session Byte} {now now' : Int}
    {secret : List Byte} {prefixes : List Byte × List Byte} (leads : s.role = .initiator)
    (follows : s'.role = .responder)
    (made : deriveDatagramCiphers env.toCrypto .initiator secret s.cipherSuite = .ok ciphers)
    (made' : deriveDatagramCiphers env.toCrypto .responder secret s.cipherSuite = .ok ciphers') :
    Mirrored env.toCrypto secret (established datagram s now secret ciphers prefixes)
      (established datagram s' now' secret ciphers' prefixes) := by
  obtain ⟨derived, first, second⟩ := deriveDatagramCiphers_mirrored made made'
  cases datagram <;>
  · refine ⟨⟨ciphers.1, ciphers.2, derived, rfl, congrArg some second, rfl,
      congrArg some first⟩, ?_, rfl, rfl⟩
    simp [established, keyedDatagram, keyed, leads, follows, byRole]

theorem mirrored_of_agrees {coins coins' : Coins Byte} {data' : List Byte}
    {keyedInitiator keyedResponder : Handshake Byte} (agrees : Agrees initiator responder)
    (leads : initiator.session.role = .initiator) (follows : responder.session.role = .responder)
    (transport : initiator.datagram = responder.datagram)
    (finished : createClientFinished env coins initiator = (.ok data, keyedInitiator))
    (accepted : processClientFinished env coins' data' responder = (.ok (), keyedResponder)) :
    Mirrored env.toCrypto initiator.sharedSecret keyedInitiator.session keyedResponder.session := by
  obtain ⟨-, _, _, _, ciphers, prefixes, -, -, -, -, -, -, made, drawn, rfl⟩ :=
    createClientFinished_ok_iff.mp finished
  obtain ⟨-, _, _, _, ciphers', prefixes', -, -, -, -, -, -, made', drawn', rfl⟩ :=
    processClientFinished_ok_iff.mp accepted
  rw [leads] at made
  rw [follows, ← agrees.sharedSecret, ← agrees.cipherSuite] at made'
  rw [← agrees.sharedSecret, ← transport] at drawn'
  obtain rfl : prefixes = prefixes' := Except.ok.inj (drawn.symm.trans drawn')
  simp only [completed]
  rw [← transport, ← agrees.sharedSecret]
  exact established_mirrored leads follows made made'

end QuantumGo.Agreement
