import QuantumGo.RekeyChannel
import QuantumGo.DatagramRekey

/-!
Delivery across stream rekeys. The next record of either direction opens as long as no
record of a rekey is overtaken by as many as the replay window is wide.
-/

namespace QuantumGo.RekeyDelivery

open Octets Effect Symbolic Interleaving Wire HelloCodec Aead KeySchedule Kem Tunnel Records
open FlightSpecs DatagramSpecs ReplayFilter StreamRekey RekeyChannel
open StreamTransport (Kind)

variable {Byte : Type} [Octet Byte]

structure Peer (suite : UInt16) (kem : Suite Byte) (secrets : Nat → List Byte) (role : Role)
    (side : Side Byte) : Prop where
  role : side.session.role = role
  kem : side.session.kemSuite = kem
  suite : side.session.cipherSuite = suite
  master : side.session.masterSecret = some (secrets side.generation)

def Asked (kem : Suite Byte) (initiator : Side Byte) (requests : List (Option (List Byte))) :
    Prop :=
  ∃ coins keyPair, kem.generateKeyPair coins = .ok keyPair ∧
    initiator.session.pendingRekeyKeyPair = some keyPair ∧ requests = [some keyPair.publicRaw]

def Answered (crypto : Crypto Byte) (kem : Suite Byte) (secrets : Nat → List Byte) (last : Nat)
    (initiator : Side Byte) (responses : List (Option (List Byte))) : Prop :=
  ∃ keyPair ct fresh, initiator.session.pendingRekeyKeyPair = some keyPair ∧
    responses = [some ct.raw] ∧ kem.parseCiphertext ct.raw = .ok ct ∧
    kem.decapsulate ct keyPair .initiator = .ok fresh ∧
    deriveRekeySecret crypto (secrets initiator.generation) fresh = .ok (secrets last)

/-- The responder is the first to know a secret. At most one payload is on its way, and
the initiator's next attempt waits for the end of the last. -/
structure Rekeying (crypto : Crypto Byte) (suite : UInt16) (kem : Suite Byte)
    (secrets : Nat → List Byte) (last : Nat) (initiator responder : Side Byte)
    (requests responses : List (Option (List Byte))) : Prop where
  asker : Peer suite kem secrets .initiator initiator
  answerer : Peer suite kem secrets .responder responder
  sizes : ∀ g ≤ last, (secrets g).length = sharedSecretSize
  initiatorLag : initiator.generation ≤ last ∧ last ≤ initiator.generation + 1
  responderLag : responder.generation ≤ last ∧ last ≤ responder.generation + 1
  resting : initiator.session.rekeyInProgress = false → last = initiator.generation ∧ requests = []
  level : last = initiator.generation →
    responses = [] ∧ (requests = [] ∨ Asked kem initiator requests)
  ahead : last = initiator.generation + 1 →
    initiator.session.rekeyInProgress = true ∧ requests = [] ∧
    (responder.generation = initiator.generation ∧ responder.handling ≠ .replying ∧ responses = [] ∨
      Answered crypto kem secrets last initiator responses)
  preparing : last = responder.generation + 1 → responder.session.rekeyInProgress = true ∧
    responder.session.pendingSendCipher = some (cipherAt crypto suite secrets .responder last) ∧
    responder.session.pendingRekeySecret = some (secrets last)
  settled : last = responder.generation → responder.session.rekeyInProgress = false
  replying : responder.handling = .replying → last = responder.generation + 1
  answering : responder.rekeyer ≠ .free → responder.handling = .replying
  asking : initiator.handling ≠ .replying

structure Delivers (crypto : Crypto Byte) (suite : UInt16) (kem : Suite Byte)
    (secrets : Nat → List Byte) (last : Nat) (sys : System Byte) : Prop where
  sends : ∀ role, Sending crypto suite secrets (sys.side role)
  toResponder : Channel crypto suite secrets sys.initiator sys.responder last
  toInitiator : Channel crypto suite secrets sys.responder sys.initiator sys.initiator.generation
  rekeying : Rekeying crypto suite kem secrets last sys.initiator sys.responder
    (parcels sys.initiator sys.responder) (parcels sys.responder sys.initiator)

variable {sys : System Byte} {responses' : List (Option (List Byte))}
  {sendCipher : Option (Cipher Byte)} {key secret coins : List Byte} {handling : Handling Byte}
  {source side : Side Byte} {role : Role}

section Steps
variable {crypto : Crypto Byte} {suite : UInt16} {kem : Suite Byte} {secrets : Nat → List Byte}
  {last : Nat} {initiator responder : Side Byte} {requests responses : List (Option (List Byte))}
  {activationSeq : Nat}

section Attempts
variable (rekeying : Rekeying crypto suite kem secrets last initiator responder requests responses)
include rekeying

theorem Rekeying.requests_short :
    requests = [] ∨ last = initiator.generation ∧ Asked kem initiator requests := by
  obtain ⟨lower, upper⟩ := rekeying.initiatorLag
  rcases Nat.lt_or_ge initiator.generation last with behind | level
  · exact .inl (rekeying.ahead (by omega)).2.1
  · exact (rekeying.level (by omega)).2.imp_right fun asked => ⟨by omega, asked⟩

theorem Rekeying.responses_short : responses = [] ∨ last = initiator.generation + 1 ∧
      Answered crypto kem secrets last initiator responses := by
  obtain ⟨lower, upper⟩ := rekeying.initiatorLag
  rcases Nat.lt_or_ge initiator.generation last with behind | level
  · rcases (rekeying.ahead (by omega)).2.2 with ⟨-, -, lost⟩ | answered
    · exact .inl lost
    · exact .inr ⟨by omega, answered⟩
  · exact .inl (rekeying.level (by omega)).1

theorem Rekeying.of_eq {requests' : List (Option (List Byte))} (same : requests' = requests)
    (same' : responses' = responses) :
    Rekeying crypto suite kem secrets last initiator responder requests' responses' := by
  rw [same, same']
  exact rekeying

theorem Rekeying.readable : none ∉ requests ∧ none ∉ responses := by
  constructor
  · rcases rekeying.requests_short with rfl | ⟨-, coins, keyPair, -, -, rfl⟩ <;> simp
  · rcases rekeying.responses_short with rfl | ⟨-, keyPair, ct, fresh, -, rfl, -⟩ <;> simp

theorem Rekeying.activates {now : Int} (doing : responder.handling = .replying)
    (free : responder.rekeyer = .free) :
    Rekeying crypto suite kem secrets last initiator { responder with
      session := { responder.session with
        sendCipher, pendingSendCipher := none, sendEpochStartSeq := responder.session.sendSeq
        masterSecret := some (secrets last), pendingRekeySecret := none, rekeyInProgress := false
        rekeyActivationSeq := 0, establishedAt := some now, state := .established }
      generation := responder.generation + 1, handling := .idle } requests responses := by
  have behind := rekeying.replying doing
  refine { rekeying with
    answerer := { rekeying.answerer with master := by rw [behind] }
    responderLag := ⟨behind.ge, behind ▸ Nat.le_succ _⟩
    ahead := fun ahead => ?_
    preparing := fun impossible => absurd (behind.symm.trans impossible) (by simp)
    settled := fun _ => rfl, replying := nofun, answering := fun late => absurd free late }
  obtain ⟨started, none, ⟨-, idle, -⟩ | answered⟩ := rekeying.ahead ahead
  · exact absurd doing idle
  · exact ⟨started, none, .inr answered⟩

end Attempts

theorem payload_alone {α : Type} {x y : α} {rest : List α} (whole : x :: rest = [y]) :
    x = y ∧ rest = [] := by
  simpa using whole

theorem Rekeying.request {rest : List (Option (List Byte))}
    (rekeying : Rekeying crypto suite kem secrets last initiator responder (some key :: rest)
      responses) :
    last = initiator.generation ∧ rest = [] ∧ ∃ coins keyPair,
      kem.generateKeyPair coins = .ok keyPair ∧
      initiator.session.pendingRekeyKeyPair = some keyPair ∧ key = keyPair.publicRaw := by
  obtain ⟨level, coins, keyPair, made, waiting, single⟩ :=
    rekeying.requests_short.resolve_left nofun
  obtain ⟨same, empty⟩ := payload_alone single
  exact ⟨level, empty, coins, keyPair, made, waiting, Option.some.inj same⟩

/-- The responder is one secret ahead from here on. -/
theorem Rekeying.prepares {rekeyer : Stage Byte} {keyPair : KeyPair Byte} {ct : Ciphertext Byte}
    {fresh : List Byte} {secrets' : Nat → List Byte}
    (rekeying : Rekeying crypto suite kem secrets last initiator responder [some keyPair.publicRaw]
      responses) (waiting : initiator.session.pendingRekeyKeyPair = some keyPair)
    (level : last = initiator.generation) (own : last = responder.generation)
    (agree : ∀ g ≤ last, secrets' g = secrets g) (newest : secrets' (last + 1) = secret)
    (size : secret.length = sharedSecretSize) (parsed : kem.parseCiphertext ct.raw = .ok ct)
    (decapsulated : kem.decapsulate ct keyPair .initiator = .ok fresh)
    (derived : deriveRekeySecret crypto (secrets last) fresh = .ok secret)
    (reply : responses' = [some ct.raw] ∧ handling = .replying ∨
      responses' = [] ∧ rekeyer = .free ∧ handling = .idle) :
    Rekeying crypto suite kem secrets' (last + 1) initiator { responder with
      session := { responder.session with
        rekeyInProgress := true, rekeyActivationSeq := activationSeq
        pendingRecvCipher := some (cipherOf responder.session.cipherSuite
          (trafficKey crypto .initiator secret))
        pendingSendCipher := some (cipherOf responder.session.cipherSuite
          (trafficKey crypto .responder secret))
        pendingRekeySecret := some secret, state := .rekeying }
      rekeyer, handling } [] responses' := by
  have started : initiator.session.rekeyInProgress = true := by
    by_contra settled
    cases (rekeying.resting (by simpa using settled)).2
  refine {
    asker := { rekeying.asker with master := ?_ }
    answerer := { rekeying.answerer with master := ?_ }
    sizes := ?_, initiatorLag := ⟨Nat.le_succ_of_le level.ge, by omega⟩
    responderLag := ⟨Nat.le_succ_of_le own.ge, Nat.succ_le_succ own.le⟩
    resting := fun settled => ?_, level := fun impossible => ?_,
    ahead := fun _ => ⟨started, rfl, ?_⟩
    preparing := fun _ => ⟨rfl, ?_, congrArg some newest.symm⟩, settled := fun impossible => ?_
    replying := fun _ => congrArg (· + 1) own, answering := fun late => ?_
    asking := rekeying.asking }
  · rw [agree _ level.ge]
    exact rekeying.asker.master
  · rw [agree _ own.ge]
    exact rekeying.answerer.master
  · intro g upper
    rcases upper.eq_or_lt with rfl | lower
    · rw [newest]
      exact size
    · rw [agree g (by omega)]
      exact rekeying.sizes g (by omega)
  · rw [started] at settled
    cases settled
  · exact absurd (impossible.trans level.symm) (by simp)
  · rcases reply with ⟨rfl, -⟩ | ⟨rfl, -, rfl⟩
    · refine .inr ⟨keyPair, ct, fresh, waiting, rfl, parsed, decapsulated, ?_⟩
      rw [newest, agree _ level.ge, ← level]
      exact derived
    · exact .inl ⟨own.symm.trans level, nofun, rfl⟩
  · rw [cipherAt, newest, rekeying.answerer.suite]
  · exact absurd (impossible.trans own.symm) (by simp)
  · rcases reply with ⟨-, rfl⟩ | ⟨-, rfl, -⟩
    · rfl
    · exact absurd rfl late

theorem Rekeying.completes {now : Int} {pendingRecvCipher : Option (Cipher Byte)}
    (rekeying : Rekeying crypto suite kem secrets last initiator responder [] responses)
    (ahead : last = initiator.generation + 1) :
    Rekeying crypto suite kem secrets last { initiator with
      session := { initiator.session with
        sendCipher, sendEpochStartSeq := initiator.session.sendSeq, pendingRecvCipher
        pendingRekeyKeyPair := none, masterSecret := some (secrets last), pendingRekeySecret := none
        rekeyInProgress := false, rekeyActivationSeq := 0
        establishedAt := some now, state := .established }
      generation := initiator.generation + 1, handling := .idle } responder [] [] :=
  { rekeying with
    asker := { rekeying.asker with master := by rw [ahead] }
    initiatorLag := ⟨ahead.ge, ahead ▸ Nat.le_succ _⟩
    resting := fun _ => ⟨ahead, rfl⟩
    level := fun _ => ⟨rfl, .inl rfl⟩
    ahead := fun impossible => absurd (ahead.symm.trans impossible) (by simp)
    asking := nofun }

variable {side' : Side Byte}

theorem front_empty {α : Type} {front back : List α} {x : α} (whole : front ++ back = [x])
    (some_ : back ≠ []) : front = [] := by
  rcases List.append_eq_singleton_iff.mp whole with ⟨empty, -⟩ | ⟨-, empty⟩
  · exact empty
  · exact absurd empty some_

theorem parcels_payload (doing : side.handling = .payload key activationSeq) :
    parcels source side = some key :: (written source.log side.taken ++
      carried source.rekeyer) := by
  simp [parcels, doing, held]

theorem parcels_nil (empty : parcels source side = []) :
    held side.handling = [] ∧ written source.log side.taken = [] ∧ carried source.rekeyer = [] := by
  simpa [parcels] using empty

theorem receive_eq {e : Entry Byte} (crypto : Crypto Byte) (idle : side.handling = .idle)
    (next : source.log[side.taken]? = some e) {s' : Session Byte}
    (head : e.msg.head?.map val = some e.kind.messageType)
    (opened : openRecord crypto e.kind e.msg side.session = (.ok e.text, s')) :
    receive crypto source side = { side with
      session := s', taken := side.taken + 1
      handling := match e.kind, decodeRekeyPayload e.text with
        | .rekey, .ok (key, activationSeq) => .payload key activationSeq
        | _, _ => .idle } := by
  unfold receive
  simp only [idle, next, head]
  cases kind : e.kind with
  | data =>
    rw [kind] at opened
    have other : (some Kind.data.messageType = some messageTypeRekey) = False := by
      simp [Kind.messageType, messageTypeData, messageTypeRekey]
    simp only [other, if_false, opened]
  | rekey =>
    rw [kind] at opened
    simp only [Kind.messageType, if_true, opened]
    cases decodeRekeyPayload e.text <;> rfl

structure Receives (side side' : Side Byte) : Prop where
  frame : ∃ replayWindow recvCipher pendingRecvCipher taken handling, side' = { side with
    session := { side.session with replayWindow, recvCipher, pendingRecvCipher }, taken, handling }
  handling : side'.handling = side.handling ∨ side.handling = .idle ∧ side'.handling ≠ .replying

/-- Reading the next record hands its payload over, if it has one. -/
theorem receive_step {top : Nat} (aead : AeadIdeal crypto)
    (sending : Sending crypto suite secrets source)
    (channel : Channel crypto suite secrets source side top)
    (readable : none ∉ parcels source side) :
    Receives side (receive crypto source side) ∧
      Channel crypto suite secrets source (receive crypto source side) top ∧
      parcels source (receive crypto source side) = parcels source side := by
  have stays : Receives side side := ⟨⟨_, _, _, _, _, rfl⟩, .inl rfl⟩
  cases doing : side.handling with
  | payload | replying =>
    rw [show receive crypto source side = side by simp only [receive, doing]]
    exact ⟨stays, channel, rfl⟩
  | idle =>
    cases next : source.log[side.taken]? with
    | none =>
      rw [show receive crypto source side = side by simp only [receive, doing, next]]
      exact ⟨stays, channel, rfl⟩
    | some e =>
      have sealed := (sending.logged e (List.mem_of_getElem? next)).1
      have head : e.msg.head?.map val = some e.kind.messageType := by
        rw [encode_ok sealed.msg]
        simp [frame]
      obtain ⟨pending, opened, level⟩ := channel.opens sending next aead doing
      rw [receive_eq crypto doing next head opened]
      have before : parcels source side = (if e.kind = .rekey then [decoded e.text] else []) ++
          (written source.log (side.taken + 1) ++ carried source.rekeyer) := by
        simp only [parcels, doing, held, List.nil_append, written_next next, List.append_assoc]
      cases kind : e.kind with
      | data =>
        simp only [kind, reduceCtorEq, if_false, List.nil_append] at before
        refine ⟨⟨⟨_, _, _, _, _, rfl⟩, .inr ⟨doing, (by rintro ⟨⟩)⟩⟩, ?_, before.symm⟩
        exact channel.read sending doing next level (by simp [Busy, kind])
      | rekey =>
        simp only [kind, if_true] at before
        cases payload : decodeRekeyPayload e.text with
        | error stop =>
          exact absurd (by simp [before, decoded, payload, Except.toOption]) readable
        | ok content =>
          refine ⟨⟨⟨_, _, _, _, _, rfl⟩, .inr ⟨doing, (by rintro ⟨⟩)⟩⟩, ?_, ?_⟩
          · exact channel.read sending doing next level (by simp [Busy, kind])
          · rw [before]
            simp [parcels, held, decoded, payload, Except.toOption]

/-- What a side sends does not depend on what it receives. -/
theorem Receives.out {top : Nat} (receives : Receives side side')
    (sending : Sending crypto suite secrets side)
    (channel : Channel crypto suite secrets side source top) :
    Sending crypto suite secrets side' ∧ Channel crypto suite secrets side' source top ∧
      parcels side' source = parcels side source := by
  obtain ⟨window, recv, pending, taken, handling, rfl⟩ := receives.frame
  refine ⟨{ sending with }, ?_, rfl⟩
  exact { channel with holds := channel.holds.imp fun _ holds => { holds with } }

def Explained (crypto : Crypto Byte) (suite : UInt16) (kem : Suite Byte) (sys : System Byte) :
    Prop :=
  ∃ secrets last, Delivers crypto suite kem secrets last sys

section Delivery
variable (delivers : Delivers crypto suite kem secrets last sys)
include delivers

theorem Delivers.ofInitiator (sends : Sending crypto suite secrets side')
    (out : Channel crypto suite secrets side' sys.responder last)
    (back : Channel crypto suite secrets sys.responder side' side'.generation)
    (rekeying : Rekeying crypto suite kem secrets last side' sys.responder
      (parcels side' sys.responder) (parcels sys.responder side')) :
    Delivers crypto suite kem secrets last (sys.update .initiator side') := by
  refine ⟨?_, out, back, rekeying⟩
  rintro (_ | _)
  · exact sends
  · exact delivers.sends .responder

theorem Delivers.ofResponder (sends : Sending crypto suite secrets side')
    (out : Channel crypto suite secrets sys.initiator side' last)
    (back : Channel crypto suite secrets side' sys.initiator sys.initiator.generation)
    (rekeying : Rekeying crypto suite kem secrets last sys.initiator side'
      (parcels sys.initiator side') (parcels side' sys.initiator)) :
    Delivers crypto suite kem secrets last (sys.update .responder side') := by
  refine ⟨?_, out, back, rekeying⟩
  rintro (_ | _)
  · exact delivers.sends .initiator
  · exact sends

theorem Delivers.moves (sends : Sending crypto suite secrets side')
    (moves : Moves (sys.side role) side') :
    Delivers crypto suite kem secrets last (sys.update role side') := by
  have rekeying := delivers.rekeying
  cases role with
  | initiator =>
    refine delivers.ofInitiator sends (delivers.toResponder.moves_out moves) ?_ ?_
    · have kept := delivers.toInitiator.moves_in moves
      obtain ⟨n, sender, rekeyer, log, rfl, -⟩ := moves
      exact kept
    · rw [moves.parcels_out delivers.toResponder.reach, moves.parcels_in]
      obtain ⟨n, sender, rekeyer, log, rfl, -⟩ := moves
      exact { rekeying with asker := { rekeying.asker with } }
  | responder =>
    refine delivers.ofResponder sends (delivers.toResponder.moves_in moves)
      (delivers.toInitiator.moves_out moves) ?_
    rw [moves.parcels_out delivers.toInitiator.reach, moves.parcels_in]
    obtain ⟨n, sender, rekeyer, log, rfl, busy, -⟩ := moves
    exact { rekeying with
      answerer := { rekeying.answerer with }
      answering := fun late => rekeying.answering (busy late) }

/-- A request that is not sealed is lost, and no other is on its way. -/
theorem Delivers.abandons_request (busy : sys.initiator.rekeyer ≠ .free) :
    Delivers crypto suite kem secrets last
      (sys.update .initiator (abandon .rekey sys.initiator)) := by
  have rekeying := delivers.rekeying
  have given : abandon .rekey sys.initiator = { sys.initiator with rekeyer := .free } := by
    obtain ⟨handling, given, ⟨impossible, -⟩ | ⟨-, rfl⟩⟩ := abandon_rekey sys.initiator
    · exact absurd impossible rekeying.asking
    · exact given
  have lost : parcels (abandon .rekey sys.initiator) sys.responder = [] := by
    rw [given]
    rcases rekeying.requests_short with empty | ⟨-, coins, keyPair, -, -, single⟩
    · exact absurd (List.append_eq_nil_iff.mp empty).2 (carried_nonempty busy)
    · exact (List.append_nil _).trans (front_empty single (carried_nonempty busy))
  have back := delivers.toInitiator.abandon_in
  refine delivers.ofInitiator (abandon_sending (delivers.sends .initiator) .rekey)
    delivers.toResponder.abandon_out ?_ ?_
  · rw [given] at back ⊢
    exact back
  · rw [lost, given]
    exact { rekeying with
      asker := { rekeying.asker with }
      resting := fun settled => ⟨(rekeying.resting settled).1, rfl⟩
      level := fun level => ⟨(rekeying.level level).1, .inl rfl⟩
      ahead := fun ahead => ⟨(rekeying.ahead ahead).1, rfl, (rekeying.ahead ahead).2.2⟩ }

/-- A reply that is not sealed is lost. The responder keeps its old send key. -/
theorem Delivers.abandons_reply (busy : sys.responder.rekeyer ≠ .free) :
    Delivers crypto suite kem secrets last
      (sys.update .responder (abandon .rekey sys.responder)) := by
  have rekeying := delivers.rekeying
  have replying := rekeying.answering busy
  have given : abandon .rekey sys.responder =
      { sys.responder with rekeyer := .free, handling := .idle } := by
    obtain ⟨handling, given, ⟨-, rfl⟩ | ⟨impossible, -⟩⟩ := abandon_rekey sys.responder
    · exact given
    · exact absurd replying impossible
  obtain ⟨ahead, keyPair, ct, fresh, -, single, -⟩ :=
    rekeying.responses_short.resolve_left fun empty =>
      carried_nonempty busy (List.append_eq_nil_iff.mp empty).2
  have lost : parcels (abandon .rekey sys.responder) sys.initiator = [] := by
    rw [given]
    exact (List.append_nil _).trans (front_empty single (carried_nonempty busy))
  have same : parcels sys.initiator (abandon .rekey sys.responder) =
      parcels sys.initiator sys.responder := by
    rw [given]
    simp [parcels, held, replying]
  have behind := rekeying.replying replying
  refine delivers.ofResponder (abandon_sending (delivers.sends .responder) .rekey)
    delivers.toResponder.abandon_in delivers.toInitiator.abandon_out ?_
  rw [lost, same, given]
  exact { rekeying with
    answerer := { rekeying.answerer with }
    level := fun level => ⟨rfl, (rekeying.level level).2⟩
    ahead := fun ahead => ⟨(rekeying.ahead ahead).1, (rekeying.ahead ahead).2.1,
      .inl ⟨show sys.responder.generation = _ by omega, (by rintro ⟨⟩), rfl⟩⟩
    replying := (by rintro ⟨⟩), answering := fun late => absurd rfl late }

theorem Delivers.read_initiator (receives : Receives sys.initiator side')
    (back : Channel crypto suite secrets sys.responder side' sys.initiator.generation)
    (same : parcels sys.responder side' = parcels sys.responder sys.initiator) :
    Delivers crypto suite kem secrets last (sys.update .initiator side') := by
  have rekeying := delivers.rekeying
  obtain ⟨sends, out, requests⟩ := receives.out (delivers.sends .initiator) delivers.toResponder
  obtain ⟨⟨window, recv, pending, taken, handling, rfl⟩, doing⟩ := receives
  refine delivers.ofInitiator sends out back ?_
  rw [requests, same]
  refine { rekeying with asker := { rekeying.asker with }, asking := ?_ }
  rcases doing with kept | ⟨-, other⟩
  · exact fun replying => rekeying.asking (kept.symm.trans replying)
  · exact other

theorem Delivers.read_responder (receives : Receives sys.responder side')
    (out : Channel crypto suite secrets sys.initiator side' last)
    (same : parcels sys.initiator side' = parcels sys.initiator sys.responder) :
    Delivers crypto suite kem secrets last (sys.update .responder side') := by
  have rekeying := delivers.rekeying
  obtain ⟨sends, back, responses⟩ := receives.out (delivers.sends .responder) delivers.toInitiator
  obtain ⟨⟨window, recv, pending, taken, handling, rfl⟩, doing⟩ := receives
  refine delivers.ofResponder sends out back ?_
  rw [responses, same]
  have replying : handling = .replying ↔ sys.responder.handling = .replying := by
    rcases doing with kept | ⟨idle, other⟩
    · rw [show handling = sys.responder.handling from kept]
    · exact ⟨fun replying => absurd replying other,
        fun replying => by rw [idle] at replying; cases replying⟩
  exact { rekeying with
    answerer := { rekeying.answerer with }
    ahead := fun ahead => ⟨(rekeying.ahead ahead).1, (rekeying.ahead ahead).2.1,
      (rekeying.ahead ahead).2.2.imp_left fun lost => ⟨lost.1, mt replying.mp lost.2.1, lost.2.2⟩⟩
    replying := fun late => rekeying.replying (replying.mp late)
    answering := fun late => replying.mpr (rekeying.answering late) }

theorem Delivers.receives (aead : AeadIdeal crypto) (role : Role) :
    Delivers crypto suite kem secrets last
      (sys.update role (receive crypto (sys.side role.peer) (sys.side role))) := by
  obtain ⟨requests, responses⟩ := delivers.rekeying.readable
  cases role with
  | initiator =>
    obtain ⟨receives, back, same⟩ := receive_step aead (delivers.sends .responder)
      delivers.toInitiator responses
    exact delivers.read_initiator receives back same
  | responder =>
    obtain ⟨receives, out, same⟩ := receive_step aead (delivers.sends .initiator)
      delivers.toResponder requests
    exact delivers.read_responder receives out same

/-- A new attempt finds no payload on its way. -/
theorem Delivers.initiates (coins : List Byte) :
    Delivers crypto suite kem secrets last
      (sys.update .initiator (initiate coins sys.initiator)) := by
  have rekeying := delivers.rekeying
  rcases RecordTypes.initiateRekey_cases sys.initiator.session coins with
    ⟨stop, failed⟩ | ⟨keyPair, settled, -, made, started⟩
  · have same : initiate coins sys.initiator = sys.initiator := by simp only [initiate, failed]
    rw [same]
    exact delivers
  obtain ⟨level, empty⟩ := rekeying.resting settled
  obtain ⟨unheld, unwritten, uncarried⟩ := parcels_nil empty
  -- The rest of the call either begins a record or, if the payload is not encoded, does not.
  have asked (rekeyer : Stage Byte) (fresh : drawn rekeyer = .none)
      (carries : carried rekeyer = [] ∨ carried rekeyer = [some keyPair.publicRaw]) :
      Delivers crypto suite kem secrets last (sys.update .initiator { sys.initiator with
        session := { sys.initiator.session with
          rekeyInProgress := true, pendingRekeyKeyPair := some keyPair
          rekeyActivationSeq := (sys.initiator.session.sendSeq + 16) % seqLimit,
          state := .rekeying }
        rekeyer }) := by
    have sending := delivers.sends .initiator
    refine delivers.ofInitiator { sending with rekeyer := ?_, rekeyerReady := ?_ }
      { delivers.toResponder with
        holds := delivers.toResponder.holds.imp fun _ holds => { holds with }
        aligned := fun _ => level.symm }
      { delivers.toInitiator with
        holds := delivers.toInitiator.holds.imp fun _ holds => { holds with } } ?_
    · intro n has
      cases fresh.symm.trans has
    · rintro e rfl
      cases fresh
    · refine { rekeying with
        asker := { rekeying.asker with }
        resting := (by rintro ⟨⟩), level := fun _ => ⟨(rekeying.level level).1, ?_⟩
        ahead := fun ahead => absurd (level.symm.trans ahead) (by simp) }
      have rest : parcels { sys.initiator with rekeyer } sys.responder = carried rekeyer := by
        simp [parcels, unheld, unwritten]
      rcases carries with nothing | key
      · exact .inl (rest.trans nothing)
      · exact .inr ⟨coins, keyPair, rekeying.asker.kem ▸ made, rfl, rest.trans key⟩
  have small : keyPair.publicRaw.length < 2 ^ 16 := by
    rw [sys.initiator.session.kemSuite.keyPair_size coins keyPair made]
    exact sys.initiator.session.kemSuite.publicKeySize_bound.2
  have idle := free_of_carried uncarried
  cases encoded : encodeRekeyPayload keyPair.publicRaw
      ((sys.initiator.session.sendSeq + 16) % seqLimit) with
  | error stop =>
    have done := asked sys.initiator.rekeyer (by rw [idle]; rfl) (.inl uncarried)
    simpa only [initiate, started, encoded] using done
  | ok text =>
    have done := asked (.begun text) rfl (.inr (by
      rw [carried, encodeRekeyPayload_decoded small encoded]))
    simpa only [initiate, started, encoded] using done

/-- A request that the responder does not answer. -/
theorem Delivers.drops (doing : sys.responder.handling = .payload key activationSeq) :
    Delivers crypto suite kem secrets last
      (sys.update .responder { sys.responder with handling := .idle }) := by
  have rekeying := delivers.rekeying
  rw [parcels_payload doing] at rekeying
  obtain ⟨level, empty, -⟩ := rekeying.request
  refine delivers.ofResponder { delivers.sends .responder with }
    (delivers.toResponder.release (delivers.sends .initiator) level.ge)
    { delivers.toInitiator with
      holds := delivers.toInitiator.holds.imp fun _ holds => { holds with } } ?_
  rw [show parcels _ { sys.responder with handling := .idle } = [] from empty]
  refine { rekeying with
    answerer := { rekeying.answerer with }
    resting := fun settled => ⟨(rekeying.resting settled).1, rfl⟩
    level := fun level => ⟨(rekeying.level level).1, .inl rfl⟩
    ahead := fun ahead => absurd (level.symm.trans ahead) (by simp)
    replying := (by rintro ⟨⟩), answering := fun late => ?_ }
  rw [rekeying.answering late] at doing
  cases doing

/-- The responder derives the next secret and replies under its old key. -/
theorem Delivers.prepares (correct : Correct kem) {raw : List Byte} {s' : Session Byte}
    (doing : sys.responder.handling = .payload key activationSeq)
    (settled : sys.responder.session.rekeyInProgress = false)
    (prepared : prepareRekeyResponse crypto coins key activationSeq sys.responder.session =
      (.ok raw, s')) {rekeyer : Stage Byte}
    (reply : carried rekeyer = [some raw] ∧ drawn rekeyer = none ∧ handling = .replying ∨
      rekeyer = sys.responder.rekeyer ∧ handling = .idle) :
    ∃ secrets', Delivers crypto suite kem secrets' (last + 1) (sys.update .responder
      { sys.responder with session := s', rekeyer, handling }) := by
  have rekeying := delivers.rekeying
  rw [parcels_payload doing] at rekeying
  obtain ⟨level, empty, coins', keyPair, made, waiting, rfl⟩ := rekeying.request
  rw [empty] at rekeying
  obtain ⟨unwritten, uncarried⟩ := List.append_eq_nil_iff.mp empty
  obtain ⟨pub, ct, fresh, secret, parsed, encapsulated, rfl, derived, size, rfl⟩ :=
    prepareRekeyResponse_ok prepared
  have own : last = sys.responder.generation := by
    obtain ⟨lower, upper⟩ := rekeying.responderLag
    by_contra behind
    have started := (rekeying.preparing (by omega)).1
    rw [settled] at started
    cases started
  have freeR : sys.responder.rekeyer = .free := by
    by_contra busy
    rw [rekeying.answering busy] at doing
    cases doing
  have freeI := free_of_carried uncarried
  -- The chain grows by the secret that both sides will have derived.
  obtain ⟨secrets', agree, newest⟩ : ∃ secrets' : Nat → List Byte,
      (∀ g ≤ last, secrets' g = secrets g) ∧ secrets' (last + 1) = secret :=
    ⟨Function.update secrets (last + 1) secret,
      fun g old => Function.update_of_ne (by omega) _ _, Function.update_self _ _ _⟩
  have sendsI := (delivers.sends .initiator).extend fun g old => agree g (old.trans level.ge)
  have sendsR := (delivers.sends .responder).extend fun g old => agree g (old.trans own.ge)
  have out := delivers.toResponder.extend agree
  have back := delivers.toInitiator.extend fun g old => agree g (old.trans level.ge)
  refine ⟨secrets', ?_, ?_, ?_, ?_⟩
  · rintro (_ | _)
    · exact sendsI
    · refine { sendsR with rekeyer := ?_, rekeyerReady := ?_ }
      · rcases reply with ⟨-, fresh, -⟩ | ⟨rfl, -⟩
        · intro n has
          cases fresh.symm.trans has
        · exact sendsR.rekeyer
      · rcases reply with ⟨-, fresh, -⟩ | ⟨rfl, -⟩
        · rintro e rfl
          cases fresh
        · exact sendsR.rekeyerReady
  · refine out.raise sendsI ⟨_, _, doing⟩ freeI unwritten (by omega) rfl rfl rfl ?_ ?_
    · rw [cipherAt, newest, rekeying.asker.role, rekeying.answerer.suite]
    · rintro key activationSeq rfl
      rcases reply with ⟨-, -, impossible⟩ | ⟨-, impossible⟩ <;> cases impossible
  · exact { back with
      holds := back.holds.imp fun _ holds => { holds with }
      aligned := fun _ => own.symm.trans level }
  · obtain ⟨unheld, unsent, -⟩ := parcels_nil (rekeying.level level).1
    have requests (session : Session Byte) :
        parcels sys.initiator { sys.responder with session, rekeyer, handling } = [] := by
      rcases reply with ⟨-, -, rfl⟩ | ⟨-, rfl⟩ <;> simp [parcels, held, unwritten, uncarried]
    have responses (session : Session Byte) :
        parcels { sys.responder with session, rekeyer, handling } sys.initiator =
          carried rekeyer := by
      simp [parcels, unheld, unsent]
    -- A correct KEM gives the initiator the secret that was encapsulated.
    rw [rekeying.answerer.kem] at parsed encapsulated
    obtain rfl : pub = keyPair.publicKey :=
      Except.ok.inj (parsed.symm.trans (correct.parses coins' keyPair made))
    obtain ⟨ct', fresh', encapsulated', parsed', decapsulated⟩ :=
      correct.encapsulates coins' keyPair made .responder coins
    obtain ⟨rfl, rfl⟩ := Prod.mk.inj (Except.ok.inj (encapsulated.symm.trans encapsulated'))
    rw [rekeying.answerer.master, ← own] at derived
    refine Rekeying.of_eq (rekeying.prepares waiting level own agree newest size parsed'
      decapsulated derived ?_) (requests _) (responses _)
    rcases reply with ⟨sent, -, rfl⟩ | ⟨rfl, rfl⟩
    · exact .inl ⟨sent, rfl⟩
    · exact .inr ⟨by rw [freeR]; rfl, freeR, rfl⟩

/-- The initiator derives the secret that the responder has and sends under it. -/
theorem Delivers.completes (sized : XofSized crypto.xof) (usable : Usable crypto suite) (now : Int)
    (doing : sys.initiator.handling = .payload key activationSeq) :
    ∃ s', processRekeyResponse crypto now key sys.initiator.session = (.ok (), s') ∧
      sys.initiator.session.rekeyInProgress = true ∧
      Delivers crypto suite kem secrets last (sys.update .initiator { sys.initiator with
        session := s', generation := sys.initiator.generation + 1, handling := .idle }) := by
  have rekeying := delivers.rekeying
  rw [parcels_payload doing] at rekeying
  obtain ⟨ahead, keyPair, ct, fresh, waiting, single, parsed, decapsulated, derived⟩ :=
    rekeying.responses_short.resolve_left (by rintro ⟨⟩)
  obtain ⟨same, empty⟩ := payload_alone single
  obtain rfl := Option.some.inj same
  rw [empty] at rekeying
  obtain ⟨unwritten, uncarried⟩ := List.append_eq_nil_iff.mp empty
  obtain ⟨started, none, -⟩ := rekeying.ahead ahead
  obtain ⟨-, -, uncarriedI⟩ := parcels_nil none
  have asker := rekeying.asker
  have freeI := free_of_carried uncarriedI
  have freeR := free_of_carried uncarried
  have completed := processRekeyResponse_run sized (asker.suite.symm ▸ usable) now waiting started
    (asker.kem.symm ▸ parsed) (asker.kem.symm ▸ decapsulated)
    (show deriveRekeySecret crypto (sys.initiator.session.masterSecret.getD []) fresh = _ by
      rw [asker.master]; exact derived) (rekeying.sizes last le_rfl)
  refine ⟨_, completed, started, delivers.ofInitiator ?_ ?_ ?_ ?_⟩
  · have cipher : cipherOf sys.initiator.session.cipherSuite
        (trafficKey crypto .initiator (secrets last)) =
        cipherAt crypto suite secrets sys.initiator.session.role
          (sys.initiator.generation + 1) := by
      rw [cipherAt, ← ahead, asker.role, asker.suite]
    exact (delivers.sends .initiator).switch freeI (Nat.le_succ _) (congrArg some cipher)
      rfl rfl rfl
  · exact { delivers.toResponder with
      holds := delivers.toResponder.holds.imp fun _ holds => { holds with }
      aligned := fun busy => absurd freeI busy
      ahead := fun later => absurd later (by rw [ahead]; exact lt_irrefl _) }
  · refine delivers.toInitiator.raise (delivers.sends .responder) ⟨_, _, doing⟩ freeR unwritten
      (ahead ▸ rekeying.responderLag.1) rfl rfl rfl ?_ (by rintro _ _ ⟨⟩)
    rw [cipherAt, ← ahead, rekeying.answerer.role, asker.suite]
  · rw [none] at rekeying
    refine Rekeying.of_eq (rekeying.completes ahead) none ?_
    simp [parcels, held, unwritten, uncarried]

/-- The responder switches its send key behind its reply, which the initiator reads first. -/
theorem Delivers.activates (now : Int) (doing : sys.responder.handling = .replying)
    (free : sys.responder.rekeyer = .free) :
    ∃ s', activateRekeySend now sys.responder.session = (.ok (), s') ∧
      sys.responder.session.pendingSendCipher.isSome = true ∧
      Delivers crypto suite kem secrets last (sys.update .responder { sys.responder with
        session := s', generation := sys.responder.generation + 1, handling := .idle }) := by
  have rekeying := delivers.rekeying
  have behind := rekeying.replying doing
  obtain ⟨-, pending, known⟩ := rekeying.preparing behind
  refine ⟨_, activateRekeySend_run now pending known, by rw [pending]; rfl, delivers.ofResponder
    ?_ ?_ ?_ ?_⟩
  · have cipher : cipherAt crypto suite secrets .responder last =
        cipherAt crypto suite secrets sys.responder.session.role
          (sys.responder.generation + 1) := by
      rw [← behind, rekeying.answerer.role]
    exact (delivers.sends .responder).switch free (Nat.le_succ _) (congrArg some cipher) rfl rfl rfl
  · have kept : Channel crypto suite secrets sys.initiator
        { sys.responder with handling := .idle } last :=
      delivers.toResponder.rehandle sys.responder.rekeyer (by simp [Busy, doing])
    exact { kept with holds := kept.holds.imp fun _ holds => { holds with } }
  · refine { delivers.toInitiator with
      holds := delivers.toInitiator.holds.imp fun _ holds => { holds with }
      aligned := fun busy => absurd free busy, ahead := fun later => ?_ }
    have ahead : last = sys.initiator.generation + 1 := by
      have upper := rekeying.initiatorLag.2
      have later : sys.initiator.generation < sys.responder.generation + 1 := later
      omega
    obtain ⟨-, -, ⟨-, idle, -⟩ | ⟨keyPair, ct, fresh, -, single, -⟩⟩ := rekeying.ahead ahead
    · exact absurd doing idle
    · -- The reply is with the initiator, or it is written and unread.
      simp only [parcels, free, carried, List.append_nil] at single
      rcases List.append_eq_singleton_iff.mp single with ⟨-, unread⟩ | ⟨holding, -⟩
      · have waiting : ∃ j, Unread sys.responder sys.initiator j :=
          unread_of_written (by rw [unread]; simp)
        exact .inr waiting
      · left
        cases working : sys.initiator.handling with
        | payload key activationSeq => exact ⟨key, activationSeq, working⟩
        | _ => simp [working, held] at holding
  · refine Rekeying.of_eq (rekeying.activates doing free) ?_ rfl
    simp [parcels, held, doing]

theorem Delivers.answers (correct : Correct kem) (coins : List Byte) (now : Int) :
    Explained crypto suite kem (sys.update .responder (apply crypto coins now sys.responder)) := by
  have role := delivers.rekeying.answerer.role
  cases doing : sys.responder.handling with
  | idle | replying =>
    rw [show apply crypto coins now sys.responder = sys.responder by simp only [apply, doing]]
    exact ⟨secrets, last, delivers⟩
  | payload key activationSeq =>
    by_cases started : sys.responder.session.rekeyInProgress = false
    · have ready : sys.responder.session.role = .responder ∧
          sys.responder.session.rekeyInProgress = false := ⟨role, started⟩
      rcases outcome : prepareRekeyResponse crypto coins key activationSeq
          sys.responder.session with
        ⟨stop | raw, s'⟩
      · have refused := RecordTypes.prepareRekeyResponse_prepares crypto sys.responder.session
          coins key activationSeq
        rw [outcome] at refused
        cases refused
        have dropped : apply crypto coins now sys.responder =
            { sys.responder with handling := .idle } := by
          simp only [apply, doing, if_pos ready, outcome]
        rw [dropped]
        exact ⟨secrets, last, delivers.drops doing⟩
      · have small : raw.length < 2 ^ 16 := by
          obtain ⟨pub, ct, fresh, secret, -, encapsulated, rfl, -⟩ :=
            prepareRekeyResponse_ok outcome
          rw [(Suite.ciphertext_size _ _ _ _ _ _ encapsulated).1]
          exact (Suite.ciphertextSize_bound _).2
        cases encoded : encodeRekeyPayload raw activationSeq with
        | error stop =>
          have lost : apply crypto coins now sys.responder =
              { sys.responder with session := s', handling := .idle } := by
            simp only [apply, doing, if_pos ready, outcome, encoded]
          rw [lost]
          obtain ⟨secrets', done⟩ := delivers.prepares correct doing started outcome
            (.inr ⟨rfl, rfl⟩)
          exact ⟨secrets', _, done⟩
        | ok text =>
          have replied : apply crypto coins now sys.responder = { sys.responder with
              session := s', rekeyer := .begun text, handling := .replying } := by
            simp only [apply, doing, if_pos ready, outcome, encoded]
          have carries : carried (.begun text) = [some raw] := by
            rw [carried, encodeRekeyPayload_decoded small encoded]
          rw [replied]
          obtain ⟨secrets', done⟩ := delivers.prepares correct doing started outcome
            (.inl ⟨carries, rfl, rfl⟩)
          exact ⟨secrets', _, done⟩
    · have dropped : apply crypto coins now sys.responder =
          { sys.responder with handling := .idle } := by
        simp [apply, doing, started, role]
      rw [dropped]
      exact ⟨secrets, last, delivers.drops doing⟩

theorem Delivers.finishes
    (sized : XofSized crypto.xof) (usable : Usable crypto suite) (coins : List Byte) (now : Int) :
    Delivers crypto suite kem secrets last
      (sys.update .initiator (apply crypto coins now sys.initiator)) := by
  have role := delivers.rekeying.asker.role
  cases doing : sys.initiator.handling with
  | idle =>
    rw [show apply crypto coins now sys.initiator = sys.initiator by simp only [apply, doing]]
    exact delivers
  | replying => exact absurd doing delivers.rekeying.asking
  | payload key activationSeq =>
    obtain ⟨s', completed, started, done⟩ := delivers.completes sized usable now doing
    have applied : apply crypto coins now sys.initiator = { sys.initiator with
        session := s', generation := sys.initiator.generation + 1, handling := .idle } := by
      simp [apply, doing, started, role, completed]
    rw [applied]
    exact done

theorem Delivers.activation (role : Role) (now : Int) :
    Delivers crypto suite kem secrets last (sys.update role (activate now (sys.side role))) := by
  have stays {role : Role} (same : activate now (sys.side role) = sys.side role) :
      Delivers crypto suite kem secrets last (sys.update role (activate now (sys.side role))) := by
    rw [same]
    cases role <;> exact delivers
  cases role with
  | initiator =>
    refine stays ?_
    cases doing : (sys.side .initiator).handling with
    | replying => exact absurd doing delivers.rekeying.asking
    | _ => simp only [activate, doing]
  | responder =>
    cases doing : (sys.side .responder).handling with
    | replying =>
      cases free : (sys.side .responder).rekeyer with
      | free =>
        obtain ⟨s', activated, pending, done⟩ := delivers.activates now doing free
        have moved : activate now (sys.side .responder) = { sys.responder with
            session := s', generation := sys.responder.generation + 1, handling := .idle } := by
          have doing : sys.responder.handling = .replying := doing
          have free : sys.responder.rekeyer = .free := free
          simp only [activate, System.side, doing, free, activated, pending, if_true]
        rw [moved]
        exact done
      | _ => exact stays (by simp only [activate, doing, free])
    | _ => exact stays (by simp only [activate, doing])

theorem Delivers.lossless (aead : AeadIdeal crypto) : Lossless crypto sys where
  ordered role := (delivers.sends role).precedes.imp fun precedes => precedes.generation
  opens role e idle next := by
    cases role with
    | initiator =>
      obtain ⟨pending, opened, -⟩ :=
        delivers.toInitiator.opens (delivers.sends .responder) next aead idle
      exact congrArg Prod.fst opened
    | responder =>
      obtain ⟨pending, opened, -⟩ :=
        delivers.toResponder.opens (delivers.sends .initiator) next aead idle
      exact congrArg Prod.fst opened

end Delivery

/-! Whole runs. -/

theorem perform_explained (sized : XofSized crypto.xof) (aead : AeadIdeal crypto)
    (correct : Correct kem) (usable : Usable crypto suite)
    (explained : Explained crypto suite kem sys) (e : Event Byte)
    (prompt : Prompt sys e) : Explained crypto suite kem (perform crypto sys e) := by
  obtain ⟨secrets, last, delivers⟩ := explained
  cases e with
  | lock role data =>
    exact ⟨_, _, delivers.moves (lock_sending (delivers.sends role) data) (lock_moves data _)⟩
  | number role kind =>
    exact ⟨_, _, delivers.moves (number_sending (delivers.sends role) kind prompt)
      (number_moves kind _)⟩
  | seals role kind =>
    refine ⟨secrets, last, ?_⟩
    have sealing : Moves (sys.side role) (sealStage crypto kind (sys.side role)) ∨ _ :=
      sealStage_moves kind (sys.side role)
    rcases sealing with moves | ⟨rfl, busy, given⟩
    · exact delivers.moves (sealStage_sending (delivers.sends role) kind) moves
    · rw [perform, given]
      cases role with
      | initiator => exact delivers.abandons_request busy
      | responder => exact delivers.abandons_reply busy
  | writes role kind =>
    have writing := writeStage_written kind (sys.side role)
    refine ⟨_, _, delivers.moves (written_sending (delivers.sends role) writing ?_)
      (written_moves (delivers.sends role) writing)⟩
    rintro rfl
    exact prompt
  | initiate coins => exact ⟨_, _, delivers.initiates coins⟩
  | receive role => exact ⟨_, _, delivers.receives aead role⟩
  | apply role coins now =>
    cases role with
    | initiator => exact ⟨_, _, delivers.finishes sized usable coins now⟩
    | responder => exact delivers.answers correct coins now
  | activate role now => exact ⟨_, _, delivers.activation role now⟩

theorem after_explained (sized : XofSized crypto.xof) (aead : AeadIdeal crypto)
    (correct : Correct kem) (usable : Usable crypto suite) (events : List (Event Byte))
    (explained : Explained crypto suite kem sys)
    (prompt : Along (perform crypto) Prompt events sys) :
    Explained crypto suite kem (after crypto events sys) := by
  have keeps (sys : System Byte) (e : Event Byte) (prompt : Prompt sys e)
      (explained : Explained crypto suite kem sys) :
      Explained crypto suite kem (perform crypto sys e) :=
    perform_explained sized aead correct usable explained e prompt
  exact invariant_run keeps prompt explained

end Steps

/-! The start of a run. -/

structure Fresh (crypto : Crypto Byte) (suite : UInt16) (kem : Suite Byte) (secret : List Byte)
    (role : Role) (s : Session Byte) : Prop where
  owner : s.role = role
  kemSuite : s.kemSuite = kem
  cipherSuite : s.cipherSuite = suite
  master : s.masterSecret = some secret
  send : s.sendCipher = some (cipherOf suite (trafficKey crypto role secret))
  recv : s.recvCipher = some (cipherOf suite (trafficKey crypto role.peer secret))
  number : s.sendSeq = 0
  window : s.replayWindow = ReplayWindow.newWindow
  rekey : s.rekeyInProgress = false

structure Joined (crypto : Crypto Byte) (suite : UInt16) (kem : Suite Byte)
    (initiator responder : Session Byte) : Prop where
  usable : Usable crypto suite
  outward : initiator.sendNoncePrefix = responder.recvNoncePrefix
  inward : responder.sendNoncePrefix = initiator.recvNoncePrefix
  fresh : ∃ secret, secret.length = sharedSecretSize ∧
    Fresh crypto suite kem secret .initiator initiator ∧
    Fresh crypto suite kem secret .responder responder

variable {s : Session Byte}

section Starts
variable {suite : UInt16} {kem : Suite Byte}

/-- What `InitializeKeys` leaves on two new sessions that it is called on with one secret. -/
theorem joined_of_initialized {env : Env Byte} (sized : XofSized env.xof) {i i' r r' : Session Byte}
    {now now' : Int} {coins' id id' : List Byte} (newI : newSession kem .initiator id coins = .ok i)
    (newR : newSession kem .responder id' coins' = .ok r)
    (keyedI : initializeKeys env.toCrypto now secret suite i = (.ok (), i'))
    (keyedR : initializeKeys env.toCrypto now' secret suite r = (.ok (), r')) :
    Joined env.toCrypto suite kem i' r' := by
  obtain ⟨roleI, kemI, numberI, windowI, rekeyI, -⟩ := newSession_ok newI
  obtain ⟨roleR, kemR, numberR, windowR, rekeyR, -⟩ := newSession_ok newR
  obtain ⟨-, size, _, prefixes, made, drawn, rfl⟩ := initializeKeys_ok_iff.mp keyedI
  obtain ⟨-, -, _, prefixes', made', drawn', rfl⟩ := initializeKeys_ok_iff.mp keyedR
  obtain rfl := Except.ok.inj (drawn.symm.trans drawn')
  obtain ⟨-, usable, rfl⟩ := (deriveDatagramCiphers_ok_iff sized).mp made
  obtain ⟨-, -, rfl⟩ := (deriveDatagramCiphers_ok_iff sized).mp made'
  refine ⟨usable, ?_, ?_, secret, size, ?_, ?_⟩
  · simp only [keyed, roleI, roleR]
    rfl
  · simp only [keyed, roleI, roleR]
    rfl
  · exact ⟨roleI, kemI, rfl, rfl, by rw [← roleI]; rfl, by rw [← roleI]; rfl, numberI,
      windowI, rekeyI⟩
  · exact ⟨roleR, kemR, rfl, rfl, by rw [← roleR]; rfl, by rw [← roleR]; rfl, numberR,
      windowR, rekeyR⟩

variable {crypto : Crypto Byte}

theorem side_sending (fresh : Fresh crypto suite kem secret role s) :
    Sending crypto suite (fun _ => secret) (StreamRekey.side s) where
  cipher := by
    rw [cipherAt, show (StreamRekey.side s).session.role = role from fresh.owner]
    exact fresh.send
  logged := nofun
  precedes := .nil
  sender := nofun
  rekeyer := nofun
  senderReady := nofun
  rekeyerReady := nofun
  room := by rw [show (StreamRekey.side s).session.sendSeq = 0 from fresh.number]; decide

theorem side_channel {source : Session Byte} (fresh : Fresh crypto suite kem secret role source)
    (fresh' : Fresh crypto suite kem secret role.peer s)
    (nonce : source.sendNoncePrefix = s.recvNoncePrefix) :
    Channel crypto suite (fun _ => secret) (StreamRekey.side source) (StreamRekey.side s) 0 where
  reach := le_rfl
  width := by rw [show (StreamRekey.side s).session.replayWindow = _ from fresh'.window]; rfl
  window := by
    rw [show (StreamRekey.side s).session.replayWindow = _ from fresh'.window]
    exact ofWords_represents _
  nonce := nonce
  holds := by
    refine ⟨0, ?_, .inl rfl, .inl rfl, fun _ => rfl⟩
    rw [cipherAt, show (StreamRekey.side source).session.role = role from fresh.owner]
    have peer : role.peer.peer = role := by cases role <;> rfl
    exact peer ▸ fresh'.recv
  aligned := fun busy => absurd rfl busy
  current := nofun
  covered := nofun
  ahead := nofun

theorem start_delivers {initiator responder : Session Byte}
    (joined : Joined crypto suite kem initiator responder) :
    Explained crypto suite kem (start initiator responder) := by
  obtain ⟨secret, size, freshI, freshR⟩ := joined.fresh
  refine ⟨fun _ => secret, 0, ?_, side_channel freshI freshR joined.outward,
    side_channel freshR freshI joined.inward, ?_⟩
  · rintro (_ | _)
    · exact side_sending freshI
    · exact side_sending freshR
  · exact {
      asker := ⟨freshI.owner, freshI.kemSuite, freshI.cipherSuite, freshI.master⟩
      answerer := ⟨freshR.owner, freshR.kemSuite, freshR.cipherSuite, freshR.master⟩
      sizes := fun _ _ => size, initiatorLag := ⟨le_rfl, Nat.zero_le _⟩
      responderLag := ⟨le_rfl, Nat.zero_le _⟩, resting := fun _ => ⟨rfl, rfl⟩
      level := fun _ => ⟨rfl, .inl rfl⟩, ahead := nofun, preparing := nofun
      settled := fun _ => freshR.rekey, replying := nofun, answering := fun busy => absurd rfl busy
      asking := nofun }

/-- In a run of prompt steps every record opens at the head of its channel, and none is
under an older key than one before it. -/
theorem rekey_lossless {initiator responder : Session Byte} (sized : XofSized crypto.xof)
    (aead : AeadIdeal crypto) (correct : Correct kem)
    (joined : Joined crypto suite kem initiator responder) (events : List (Event Byte))
    (prompt : Along (perform crypto) Prompt events (start initiator responder)) :
    Lossless crypto (after crypto events (start initiator responder)) := by
  obtain ⟨secrets, last, delivers⟩ := after_explained sized aead correct joined.usable events
    (start_delivers joined) prompt
  exact delivers.lossless aead

/-- The ends are never more than one key apart, and at the same key they have one secret. -/
theorem stream_rekey_agrees {initiator responder : Session Byte} (sized : XofSized crypto.xof)
    (aead : AeadIdeal crypto) (correct : Correct kem)
    (joined : Joined crypto suite kem initiator responder) (events : List (Event Byte))
    (prompt : Along (perform crypto) Prompt events (start initiator responder)) :
    let sys := after crypto events (start initiator responder)
    sys.initiator.generation ≤ sys.responder.generation + 1 ∧
    sys.responder.generation ≤ sys.initiator.generation + 1 ∧
    (sys.initiator.generation = sys.responder.generation →
      sys.initiator.session.masterSecret = sys.responder.session.masterSecret) := by
  obtain ⟨secrets, last, delivers⟩ := after_explained sized aead correct joined.usable events
    (start_delivers joined) prompt
  obtain ⟨initiatorLag, lagBound⟩ := delivers.rekeying.initiatorLag
  obtain ⟨responderLag, lagBound'⟩ := delivers.rekeying.responderLag
  refine ⟨by omega, by omega, fun level => ?_⟩
  rw [delivers.rekeying.asker.master, delivers.rekeying.answerer.master, level]

/-- A rekey record written behind one that is numbered 1024 ahead is refused at the other
end, which has read that one. -/
theorem late_refused (explained : Explained crypto suite kem sys) {e e' : Entry Byte}
    (ready : sys.responder.rekeyer = .ready e) (free : sys.responder.sender = .free)
    (idle : sys.initiator.handling = .idle)
    (caught : sys.initiator.taken = sys.responder.log.length) (overtook : e' ∈ sys.responder.log)
    (late : e.seq + 1024 ≤ e'.seq) :
    ¬ Lossless crypto (perform crypto sys (.writes .responder .rekey)) := by
  obtain ⟨secrets, last, delivers⟩ := explained
  have channel := delivers.toInitiator
  obtain ⟨-, sealed, -⟩ := (delivers.sends .responder).rekeyerReady e ready
  obtain ⟨base, holds⟩ := channel.holds
  have moved : writeStage .rekey (sys.side .responder) =
      { sys.responder with log := sys.responder.log ++ [e], rekeyer := .free } := by
    simp only [writeStage, Side.stage, System.side, ready, free]
  have whole : sys.responder.log.take sys.initiator.taken = sys.responder.log := by
    rw [caught, List.take_length]
  have refused : (ReplayWindow.check sys.initiator.session.replayWindow e.seq).1 = false := by
    rw [(check_refines channel.window).1, answer, channel.width, whole, if_neg]
    rintro ⟨-, empty | ⟨high, -, highest, near⟩⟩
    · have member : e'.seq ∈ (sys.responder.log.map (·.seq)).toFinset :=
        List.mem_toFinset.mpr (List.mem_map_of_mem overtook)
      rw [empty] at member
      cases member
    · have above := highest e'.seq (List.mem_toFinset.mpr (List.mem_map_of_mem overtook))
      omega
  intro lossless
  have opened := lossless.opens .initiator e
  rw [perform, moved] at opened
  have opened := opened idle (by
    show (sys.responder.log ++ [e])[sys.initiator.taken]? = some e
    rw [caught, List.getElem?_append_right le_rfl]
    simp)
  have stopped : (decrypt crypto e.ciphertext e.seq sys.initiator.session).1 =
      .error (.err .replayDetected) := by
    rw [decrypt, read_bind, holds.cipher]
    simp only [write_bind]
    rw [run_bind_error (run_reject_pos _ refused)]
  rw [openRecord, sealed.decodes] at opened
  exact absurd (stopped.symm.trans opened) (by rintro ⟨⟩)

def round : List (Event Byte) :=
  [.lock .responder [], .number .responder .data, .seals .responder .data,
    .writes .responder .data, .receive .initiator]

structure Waiting (n : Nat) (sys : System Byte) : Prop where
  ready : ∃ e, sys.responder.rekeyer = .ready e ∧ e.seq = 0
  free : sys.responder.sender = .free
  cipher : sys.responder.session.sendCipher.isSome = true
  number : sys.responder.session.sendSeq = n + 1
  epoch : sys.responder.session.sendEpochStartSeq = 0
  idle : sys.initiator.handling = .idle
  caught : sys.initiator.taken = sys.responder.log.length
  overtaken : n = 0 ∨ ∃ e' ∈ sys.responder.log, e'.seq = n

theorem sends_empty {n : Nat} (aead : AeadIdeal crypto) (free : side.sender = .free)
    (present : side.session.sendCipher.isSome = true) (seq : side.session.sendSeq = n + 1)
    (epoch : side.session.sendEpochStartSeq = 0) (few : n < 1024) :
    ∃ e, e.seq = n + 1 ∧ e.msg.head?.map val = some messageTypeData ∧
      writeStage .data (sealStage crypto .data (number .data (lock [] side))) = { side with
        session := { side.session with sendSeq := n + 2 }, log := side.log ++ [e] } := by
  obtain ⟨cipher, present⟩ := Option.isSome_iff_exists.mp present
  have next : (n + 1 + 1) % seqLimit = n + 2 := Nat.mod_eq_of_lt (by unfold seqLimit; omega)
  have numbered : number .data (lock [] side) = { side with
      session := { side.session with sendSeq := n + 2 }, sender := .numbered [] (n + 1) } := by
    simp only [lock, free, number, Side.stage, Side.withStage, takeNumber, read_bind, write_bind,
      run_pure, seq, next]
  obtain ⟨ciphertext, sealedText, size⟩ : ∃ ciphertext,
      sealNumbered crypto [] (n + 1) { side.session with sendSeq := n + 2 } = .ok ciphertext ∧
        ciphertext.length = aesTagSize := by
    have unspent : ¬ (n + 1 ≥ 0 ∧ n + 1 - 0 ≥ maxPacketsBeforeRekey) := by
      unfold maxPacketsBeforeRekey
      omega
    refine ⟨_, ?_, (aead.length cipher.suite cipher.key
      (buildAEADNonce side.session.sendNoncePrefix (n + 1)) [] (toBE 8 (n + 1))).trans
      (Nat.zero_add _)⟩
    simp only [sealNumbered, present, epoch, if_neg unspent, sealWithNonce,
      RecordTypes.buildAEADNonce_length, ne_eq, not_true_eq_false, if_false]
  have encoded : encode .data (n + 1) ciphertext =
      .ok (frame messageTypeData (toBE 8 (n + 1) ++ ciphertext)) := by
    rw [encode, encodeData, if_neg (by rw [size]; decide)]
  refine ⟨⟨.data, side.generation, n + 1, [], ciphertext,
    frame messageTypeData (toBE 8 (n + 1) ++ ciphertext)⟩, rfl, by simp [frame], ?_⟩
  rw [numbered]
  simp only [sealStage, Side.stage, sealedText, encoded, Side.withStage, writeStage]
  rw [← free]

theorem round_waits {n : Nat} (aead : AeadIdeal crypto) (waiting : Waiting n sys) (few : n < 1024) :
    Along (perform crypto) Prompt round sys ∧ Waiting (n + 1) (after crypto round sys) := by
  obtain ⟨ready, free, cipher, number, epoch, idle, caught, -⟩ := waiting
  obtain ⟨e, seq, head, sent⟩ := sends_empty aead free cipher number epoch few
  have next : (sys.responder.log ++ [e])[sys.initiator.taken]? = some e := by
    rw [caught, List.getElem?_append_right le_rfl]
    simp
  have other : ¬ e.msg.head?.map val = some messageTypeRekey := by
    rw [head]
    simp [messageTypeData, messageTypeRekey]
  have received (source : Side Byte) (log : source.log = sys.responder.log ++ [e]) :
      receive crypto source sys.initiator = { sys.initiator with
        taken := sys.initiator.taken + 1
        session := (openRecord crypto .data e.msg sys.initiator.session).2 } := by
    simp only [receive, idle, log, next, if_neg other]
  have small : sys.responder.session.sendSeq + 1 < seqLimit := by
    rw [number]
    unfold seqLimit
    omega
  have numbering : ((lock [] sys.responder).session).sendSeq + 1 < seqLimit := by
    simpa only [lock, free] using small
  have reached : after crypto round sys = {
      initiator := { sys.initiator with
        taken := sys.initiator.taken + 1
        session := (openRecord crypto .data e.msg sys.initiator.session).2 }
      responder := { sys.responder with
        session := { sys.responder.session with sendSeq := n + 2 }
        log := sys.responder.log ++ [e] } } := by
    simp only [round, after, Interleaving.run, perform, System.update, System.side, Role.peer]
    rw [sent, received _ rfl]
  refine ⟨⟨trivial, numbering, trivial, trivial, trivial, trivial⟩, ?_⟩
  rw [reached]
  exact {
    ready, free, cipher, number := rfl, epoch, idle
    caught := by simp [caught]
    overtaken := .inr ⟨e, by simp, seq⟩ }

def rounds : Nat → List (Event Byte)
  | 0 => []
  | k + 1 => round ++ rounds k

theorem rounds_wait (aead : AeadIdeal crypto) {n : Nat} (k : Nat) (waiting : Waiting n sys)
    (few : n + k ≤ 1024) :
    Along (perform crypto) Prompt (rounds k) sys ∧
    Waiting (n + k) (after crypto (rounds k) sys) := by
  induction k generalizing sys n with
  | zero => exact ⟨trivial, waiting⟩
  | succ k ih =>
    obtain ⟨prompt, next⟩ := round_waits aead waiting (by omega)
    obtain ⟨prompt', reached⟩ := ih next (by omega)
    rw [rounds, after, run_append]
    exact ⟨prompt.append prompt', by rwa [show n + 1 + k = n + (k + 1) by omega] at reached⟩

end Starts

section Symbolic

open SymbolicKem (env env_ideal suite_correct secretOf)

def keyedStream (s : Session Letter) : Except Fault Unit × Session Letter :=
  initializeKeys env.toCrypto 0 (secretOf 0) cipherSuiteAES256GCM s

def IsStreamPair (initiator responder : Session Letter) : Prop :=
  ∃ i r, newSession DatagramRekey.shortKem .initiator [] [] = .ok i ∧
    newSession DatagramRekey.shortKem .responder [] [] = .ok r ∧
    keyedStream i = (.ok (), initiator) ∧ keyedStream r = (.ok (), responder)

theorem IsStreamPair.joined {initiator responder : Session Letter}
    (pair : IsStreamPair initiator responder) :
    Joined env.toCrypto cipherSuiteAES256GCM DatagramRekey.shortKem initiator responder := by
  obtain ⟨i, r, newI, newR, keyedI, keyedR⟩ := pair
  exact joined_of_initialized env_ideal.xof.length newI newR keyedI keyedR

def answering : List (Event Letter) :=
  [.initiate [], .number .initiator .rekey, .seals .initiator .rekey, .writes .initiator .rekey,
    .receive .responder, .apply .responder [] 1, .number .responder .rekey,
    .seals .responder .rekey]

def completing : List (Event Letter) :=
  answering ++ [.writes .responder .rekey, .activate .responder 2, .lock .responder [lit 7],
    .number .responder .data, .seals .responder .data, .writes .responder .data,
    .receive .initiator, .apply .initiator [] 3]

theorem completing_lossless : ∃ initiator responder, IsStreamPair initiator responder ∧
      let sys := after env.toCrypto completing (start initiator responder)
      sys.initiator.taken = 1 ∧ sys.responder.log.map (·.generation) = [0, 1] ∧
        Lossless env.toCrypto sys := by
  obtain ⟨initiator, responder, pair⟩ : ∃ initiator responder, IsStreamPair initiator responder :=
    ⟨_, _, _, _, rfl, rfl, rfl, rfl⟩
  have reached : Along (perform env.toCrypto) Prompt completing (start initiator responder) ∧
      let sys := after env.toCrypto completing (start initiator responder)
      sys.initiator.taken = 1 ∧ sys.responder.log.map (·.generation) = [0, 1] := by
    obtain ⟨i, r, newI, newR, keyedI, keyedR⟩ := id pair
    cases newI
    cases newR
    cases keyedI
    cases keyedR
    decide +kernel
  obtain ⟨prompt, taken, generations⟩ := reached
  exact ⟨initiator, responder, pair, taken, generations, rekey_lossless
    env_ideal.xof.length env_ideal.aead suite_correct pair.joined
    completing prompt⟩

theorem stream_rekey_agrees_completed : ∃ initiator responder, IsStreamPair initiator responder ∧
      let sys := after env.toCrypto completing (start initiator responder)
      sys.initiator.session.masterSecret = sys.responder.session.masterSecret := by
  obtain ⟨_, _, pair, prompt, level⟩ : ∃ initiator responder, IsStreamPair initiator responder ∧
      Along (perform env.toCrypto) Prompt completing (start initiator responder) ∧
      let sys := after env.toCrypto completing (start initiator responder)
      sys.initiator.generation = sys.responder.generation :=
    ⟨_, _, ⟨_, _, rfl, rfl, rfl, rfl⟩, by decide +kernel⟩
  exact ⟨_, _, pair, (stream_rekey_agrees env_ideal.xof.length
    env_ideal.aead suite_correct pair.joined completing prompt).2.2 level⟩

/-- The state as far as it is seen in data: the reply is ready and nobody else sends. -/
def waits (sys : System Letter) : Bool :=
  (match sys.responder.rekeyer, sys.responder.sender, sys.initiator.handling with
    | .ready e, .free, .idle => e.seq == 0
    | _, _, _ => false) &&
  sys.responder.session.sendCipher.isSome && sys.responder.session.sendSeq == 1 &&
  sys.responder.session.sendEpochStartSeq == 0 &&
  sys.initiator.taken == sys.responder.log.length

theorem waiting_of_waits {sys : System Letter} (checked : waits sys = true) : Waiting 0 sys := by
  simp only [waits, Bool.and_eq_true, beq_iff_eq] at checked
  obtain ⟨⟨⟨⟨stages, cipher⟩, number⟩, epoch⟩, caught⟩ := checked
  split at stages
  · rename_i e ready free idle
    exact ⟨⟨e, ready, by simpa using stages⟩, free, cipher, number, epoch, idle, caught, .inl rfl⟩
  · cases stages

/-- The reply of a rekey is overtaken by 1024 records and refused. -/
theorem overtaken_reply_lost : ∃ initiator responder events, IsStreamPair initiator responder ∧
      ¬ Lossless env.toCrypto (after env.toCrypto events (start initiator responder)) := by
  obtain ⟨initiator, responder, pair⟩ : ∃ initiator responder, IsStreamPair initiator responder :=
    ⟨_, _, _, _, rfl, rfl, rfl, rfl⟩
  have aead := env_ideal.aead
  have started : Along (perform env.toCrypto) Prompt answering (start initiator responder) ∧
      waits (after env.toCrypto answering (start initiator responder)) = true := by
    obtain ⟨i, r, newI, newR, keyedI, keyedR⟩ := id pair
    cases newI
    cases newR
    cases keyedI
    cases keyedR
    decide +kernel
  obtain ⟨prompt, waiting⟩ := started
  obtain ⟨prompt', late⟩ := rounds_wait aead 1024 (waiting_of_waits waiting) le_rfl
  have explained := after_explained env_ideal.xof.length aead suite_correct
    pair.joined.usable _ (start_delivers pair.joined) (prompt.append prompt')
  rw [after, run_append] at explained
  rw [after, after] at late
  obtain ⟨e, ready, first⟩ := late.ready
  obtain impossible | ⟨e', overtook, number⟩ := late.overtaken
  · cases impossible
  refine ⟨initiator, responder, answering ++ (rounds 1024 ++ [.writes .responder .rekey]), pair, ?_⟩
  rw [after, run_append, run_append]
  exact late_refused explained ready late.free late.idle late.caught overtook (by omega)

end Symbolic

end QuantumGo.RekeyDelivery
