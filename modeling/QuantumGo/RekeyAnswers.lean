import QuantumGo.ClosedDatagram

/-!
When a responder answers a RekeyInit. A new one is opened before it is answered. A cached
response goes out for any message that names its epoch; what the message holds is not read.
-/

namespace QuantumGo.RekeyAnswers

open Octets Effect Symbolic Wire Aead Tunnel Records DatagramSession DatagramSpecs DatagramConn
open SymbolicKem

variable {Byte Addr : Type} [Octet Byte]

def SealedByPeer (crypto : Crypto Byte) (now : Int) (epoch : UInt8) (body : List Byte)
    (s : Session Byte) : Prop :=
  8 ≤ body.length ∧ ∃ cipher payload, datagramRecvCipher now epoch s = some cipher ∧
    body.drop 8 = crypto.sealText cipher.suite cipher.key
      (buildAEADNonce s.recvNoncePrefix (ofBE (body.take 8))) payload
      (rekeyAAD messageTypeDatagramRekeyInit epoch (ofBE (body.take 8)))

def Answered (epoch : UInt8) (c : Conn Byte Addr) : Prop :=
  ∃ response, c.answered = some (epoch, response)

section Answers
variable {crypto : Crypto Byte} {coins : List Byte} {now : Int} {epoch : UInt8} {body : List Byte}

theorem sealedByPeer_of_opened (ideal : AeadIdeal crypto) {s : Session Byte} {payload : List Byte}
    (opened : openRekeyControl crypto now messageTypeDatagramRekeyInit epoch body s = .ok payload) :
    SealedByPeer crypto now epoch body s := by
  rw [openRekeyControl, guard_ok_iff] at opened
  obtain ⟨long, opened⟩ := opened
  obtain ⟨cipher, found, made⟩ := openUnder_sealed ideal opened
  exact ⟨not_lt.mp long, cipher, payload, found, made⟩

/-- A RekeyInit that is refused is not answered. -/
theorem answerRekeyInit_refuses {c : Conn Byte Addr} {stop : Fault}
    (refused : openRekeyControl crypto now messageTypeDatagramRekeyInit epoch body c.session =
      .error stop) : (answerRekeyInit crypto coins now epoch body c).2.written = c.written := by
  have stopped : respondToDatagramRekey crypto coins now epoch body c.session =
      (.error stop, c.session) := by
    rw [respondToDatagramRekey, read_bind, refused, run_bind_error (run_lift _ _)]
  unfold answerRekeyInit
  cases present : c.session.dgramEpochs with
  | none => simp [onSession, datagramSendEpoch, epochsOf, present, run_bind]
  | some epochs =>
    have current : onSession datagramSendEpoch c = (.ok epochs.cur.epoch, c) := by
      simp [onSession, datagramSendEpoch, epochsOf, present, run_bind]
    rw [run_bind_ok current]
    split
    · rfl
    · cases stop <;> simp [ifOk, onSession, stopped, run_bind]

theorem handleRekeyInit_cached {c : Conn Byte Addr} (registered : c.registered = true)
    (answered : Answered epoch c) :
    (handleRekeyInit crypto coins now epoch body c).2.written ≠ c.written := by
  obtain ⟨response, cached⟩ := answered
  simp [handleRekeyInit, read_bind, registered, cached, writeTo]

theorem handleRekeyInit_new {c : Conn Byte Addr} (unanswered : ¬ Answered epoch c) {stop : Fault}
    (refused : openRekeyControl crypto now messageTypeDatagramRekeyInit epoch body c.session =
      .error stop) : (handleRekeyInit crypto coins now epoch body c).2.written = c.written := by
  rw [handleRekeyInit, read_bind]
  split
  · rfl
  · cases cached : c.answered with
    | none => exact answerRekeyInit_refuses refused
    | some answer =>
      obtain ⟨source, response⟩ := answer
      have other : source ≠ epoch := by
        rintro rfl
        exact unanswered ⟨response, cached⟩
      dsimp only
      rw [if_neg other]
      exact answerRekeyInit_refuses refused

end Answers

/-- Only a RekeyInit of the peer is answered, exactly if no response to the epoch it names is
cached, or the session is gone, or it is one. -/
theorem answers_peer_iff {crypto : Crypto Byte} (ideal : AeadIdeal crypto) (coins : List Byte)
    (now : Int) (epoch : UInt8) (body : List Byte) (c : Conn Byte Addr) :
    ((handleRekeyInit crypto coins now epoch body c).2.written ≠ c.written →
        SealedByPeer crypto now epoch body c.session) ↔
      (c.registered = true ∧ Answered epoch c → SealedByPeer crypto now epoch body c.session) := by
  constructor
  · rintro authentic ⟨registered, answered⟩
    exact authentic (handleRekeyInit_cached registered answered)
  · intro authentic writes
    by_cases cached : c.registered = true ∧ Answered epoch c
    · exact authentic cached
    · cases opened : openRekeyControl crypto now messageTypeDatagramRekeyInit epoch body
          c.session with
      | ok payload => exact sealedByPeer_of_opened ideal opened
      | error stop =>
        exfalso
        refine writes ?_
        by_cases registered : c.registered = true
        · exact handleRekeyInit_new (fun answered => cached ⟨registered, answered⟩) opened
        · simp [handleRekeyInit, read_bind, registered]

/-- A genuine RekeyInit reaches a session that has answered nothing. -/
theorem answers_peer_unanswered : ∃ initiator responder, DatagramRekey.IsPair initiator responder ∧
      ∃ keyPair body, DatagramRekey.shortKem.generateKeyPair [lit 0] = .ok keyPair ∧
        (buildDatagramRekeyInit env.toCrypto keyPair initiator).1 = .ok (body, 0) ∧
        (handleRekeyInit env.toCrypto [] 1 0 body
          (ClosedDatagram.connected responder)).2.written ≠ [] ∧
        SealedByPeer env.toCrypto 1 0 body responder := by
  refine ⟨_, _, ⟨_, _, rfl, rfl, rfl, rfl⟩, _, _, rfl, rfl, ?_⟩
  rw [and_iff_left_of_imp]
  · decide +kernel
  · refine (answers_peer_iff env_ideal.aead [] 1 0 _ (ClosedDatagram.connected _)).mpr ?_
    rintro ⟨-, response, ⟨⟩⟩

/-- The responder answers a genuine RekeyInit, and then an empty body with the same response. -/
theorem empty_body_answered : ∃ initiator responder, DatagramRekey.IsPair initiator responder ∧
      let answer (body : List Letter) (c : Conn Letter Unit) :=
        (handleRekeyInit env.toCrypto [] 1 0 body c).2
      ∃ keyPair body, DatagramRekey.shortKem.generateKeyPair [lit 0] = .ok keyPair ∧
        (buildDatagramRekeyInit env.toCrypto keyPair initiator).1 = .ok (body, 0) ∧
        (answer body (ClosedDatagram.connected responder)).written.length = 1 ∧
        (answer [] (answer body (ClosedDatagram.connected responder))).written.length = 2 ∧
        ¬ SealedByPeer env.toCrypto 1 0 []
          (answer body (ClosedDatagram.connected responder)).session := by
  refine ⟨_, _, ⟨_, _, rfl, rfl, rfl, rfl⟩, _, _, rfl, rfl, ?_, ?_, ?_⟩
  · decide +kernel
  · decide +kernel
  · rintro ⟨long, -⟩
    exact absurd long (by decide)

end QuantumGo.RekeyAnswers
