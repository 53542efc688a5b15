import QuantumGo.DatagramSpecs
import QuantumGo.Interleaving

/-!
The rekey of a datagram session between its two ends (pkg/tunnel/dgram_rekey.go). The
initiator opens attempts, one at a time and each with a key pair of its own; the network
may deliver every message that was ever sent, any number of times and in any order. A
response is logged with the RekeyInit that it answers, and the responder's master secrets
are logged; the program reads neither log.
-/

namespace QuantumGo.DatagramRekey

open Octets Effect Symbolic Wire Aead KeySchedule Kem Tunnel Records DatagramSession DatagramSpecs
open Interleaving SymbolicKem
open FlightSpecs (initializeDatagramKeys_ok_iff)


structure Attempt (Byte : Type) where
  keyPair : KeyPair Byte
  epoch : UInt8
  body : List Byte

structure Init (Byte : Type) where
  epoch : UInt8
  body : List Byte

structure Response (Byte : Type) where
  body : List Byte
  answers : List Byte

/-- The two ends and what was sent between them. `answered` is the responder's cached
response with the epoch it answers. -/
structure Pair (Byte : Type) where
  initiator : Session Byte
  responder : Session Byte
  attempt : Option (Attempt Byte)
  inbox : List (Response Byte)
  answered : Option (UInt8 × Response Byte)
  inits : List (Init Byte)
  responses : List (Response Byte)
  secrets : List (List Byte)
  initiatorAdvances : Nat
  responderAdvances : Nat

/-- What happens next, with the draws and the clock reading made in it. The numbers of
the messages count what was ever sent. -/
inductive Event (Byte : Type) where
  | begin (coins : List Byte)
  | timeout
  | deliverInit (number : Nat) (coins : List Byte) (now : Int)
  | deliverResponse (number : Nat)
  | take (now : Int)
  | initiatorSends
  | responderSends

def rekeyInboxCap : Nat := 4

variable {Byte : Type} [Octet Byte]

section Model

/-- `Rekey` up to its loop: one stale response is drained. -/
def begin (crypto : Crypto Byte) (coins : List Byte) (p : Pair Byte) : Pair Byte :=
  match p.attempt, p.initiator.kemSuite.generateKeyPair coins with
  | none, .ok keyPair =>
    match buildDatagramRekeyInit crypto keyPair p.initiator with
    | (.ok (body, epoch), initiator) => { p with
        initiator, attempt := some ⟨keyPair, epoch, body⟩
        inits := p.inits ++ [⟨epoch, body⟩], inbox := p.inbox.tail }
    | (.error _, initiator) => { p with initiator }
  | _, _ => p

def handleRekeyInit (crypto : Crypto Byte) (init : Init Byte) (coins : List Byte) (now : Int)
    (p : Pair Byte) : Pair Byte :=
  match p.answered with
  | some (source, response) =>
    if source = init.epoch then { p with responses := p.responses ++ [response] }
    else answer
  | none => answer
where
  answer : Pair Byte :=
    match datagramSendEpoch p.responder with
    | (.error _, _) => p
    | (.ok current, _) =>
      if init.epoch ≠ current then p
      else
        match respondToDatagramRekey crypto coins now init.epoch init.body p.responder with
        | (.error _, responder) => { p with responder }
        | (.ok (body, _), responder) => { p with
            responder, answered := some (init.epoch, ⟨body, init.body⟩)
            responses := p.responses ++ [⟨body, init.body⟩]
            secrets := responder.masterSecret.getD [] :: p.secrets
            responderAdvances := p.responderAdvances + 1 }

/-- The loop of `Rekey` takes a response: one that does not complete the rekey is ignored. -/
def takeResponse (crypto : Crypto Byte) (now : Int) (p : Pair Byte) : Pair Byte :=
  match p.attempt, p.inbox with
  | some attempt, response :: rest =>
    match completeDatagramRekey crypto now attempt.epoch response.body attempt.keyPair
      p.initiator with
    | (.ok (), initiator) => { p with
        initiator, inbox := rest, attempt := none
        initiatorAdvances := p.initiatorAdvances + 1 }
    | (.error _, initiator) => { p with initiator, inbox := rest }
  | _, _ => p

def step (crypto : Crypto Byte) (p : Pair Byte) : Event Byte → Pair Byte
  | .begin coins => begin crypto coins p
  | .timeout => { p with attempt := none }
  | .deliverInit number coins now =>
    match p.inits[number]? with
    | none => p
    | some init => handleRekeyInit crypto init coins now p
  | .deliverResponse number =>
    match p.responses[number]? with
    | none => p
    | some response =>
      if p.inbox.length < rekeyInboxCap then { p with inbox := p.inbox ++ [response] } else p
  | .take now => takeResponse crypto now p
  | .initiatorSends => { p with initiator := (nextDatagramSeq p.initiator).2 }
  | .responderSends => { p with responder := (nextDatagramSeq p.responder).2 }

def after (crypto : Crypto Byte) (events : List (Event Byte)) (p : Pair Byte) : Pair Byte :=
  run (step crypto) events p

def start (initiator responder : Session Byte) : Pair Byte where
  initiator := initiator
  responder := responder
  attempt := none
  inbox := []
  answered := none
  inits := []
  responses := []
  secrets := [responder.masterSecret.getD []]
  initiatorAdvances := 0
  responderAdvances := 0

def Own (p : Pair Byte) : Event Byte → Prop
  | .take _ => ∀ attempt response, p.attempt = some attempt → p.inbox.head? = some response →
      response.answers = attempt.body
  | _ => True

end Model

variable {crypto : Crypto Byte} {kem : Suite Byte} {secrets : List (List Byte)}
  {response : Response Byte}

/-! The invariant. -/
section Invariant
def epochAt (first : UInt8) (advances : Nat) : UInt8 := first + UInt8.ofNat advances

theorem epochAt_succ (first : UInt8) (advances : Nat) :
    epochAt first (advances + 1) = epochAt first advances + 1 := by
  simp [epochAt, UInt8.ofNat_add, UInt8.add_assoc]

def Pair.held (p : Pair Byte) : List (List Byte) :=
  p.secrets.drop (p.responderAdvances - p.initiatorAdvances)

def Asked (crypto : Crypto Byte) (suite : UInt16) (noncePrefix : List Byte)
    (secrets : List (List Byte)) (epoch : UInt8) (body payload : List Byte) : Prop :=
  ∃ secret ∈ secrets, ∃ seq, body = controlBody crypto suite (trafficKey crypto .initiator secret)
    noncePrefix messageTypeDatagramRekeyInit epoch seq payload

/-- Where a response comes from: the RekeyInit it answers carried a key under some secret,
the response a ciphertext for that key under the same secret, and the next secret of the
responder is ratcheted from the two. -/
def Made (crypto : Crypto Byte) (suite : UInt16) (kem : Suite Byte) (outward inward : List Byte)
    (secrets : List (List Byte)) (response : Response Byte) : Prop :=
  ∃ newer next secret older, secrets = newer ++ next :: secret :: older ∧
    ∃ pubBytes pub coins ct fresh epoch seq,
      Asked crypto suite outward [secret] epoch response.answers pubBytes ∧
      kem.parsePublicKey pubBytes = .ok pub ∧
      kem.encapsulate pub .responder coins = .ok (ct, fresh) ∧
      response.body = controlBody crypto suite (trafficKey crypto .responder secret) inward
        messageTypeDatagramRekeyResponse epoch seq ct.raw ∧
      deriveRekeySecret crypto secret fresh = .ok next

theorem Made.cons {suite : UInt16} {outward inward : List Byte}
    (made : Made crypto suite kem outward inward secrets response) (secret : List Byte) :
    Made crypto suite kem outward inward (secret :: secrets) response := by
  obtain ⟨newer, next, source, older, rfl, rest⟩ := made
  exact ⟨secret :: newer, next, source, older, rfl, rest⟩

structure Paced (crypto : Crypto Byte) (suite : UInt16) (kem : Suite Byte) (first : UInt8)
    (p : Pair Byte) : Prop where
  initiatorRole : p.initiator.role = .initiator
  responderRole : p.responder.role = .responder
  initiatorKem : p.initiator.kemSuite = kem
  responderKem : p.responder.kemSuite = kem
  outward : p.initiator.sendNoncePrefix = p.responder.recvNoncePrefix
  inward : p.responder.sendNoncePrefix = p.initiator.recvNoncePrefix
  lead : p.responderAdvances = p.initiatorAdvances ∨ p.responderAdvances = p.initiatorAdvances + 1
  sizes : ∀ secret ∈ p.secrets, secret.length = sharedSecretSize
  initiator : Standing crypto suite p.initiator p.held (epochAt first p.initiatorAdvances)
  responder : Standing crypto suite p.responder p.secrets (epochAt first p.responderAdvances)
  inits : ∀ init ∈ p.inits, ∃ payload,
    Asked crypto suite p.initiator.sendNoncePrefix p.held init.epoch init.body payload
  attempt : ∀ attempt, p.attempt = some attempt →
    attempt.epoch = epochAt first p.initiatorAdvances ∧
    (∃ coins, kem.generateKeyPair coins = .ok attempt.keyPair) ∧
    Asked crypto suite p.initiator.sendNoncePrefix (p.held.take 1) attempt.epoch attempt.body
      attempt.keyPair.publicRaw
  responses : ∀ response, response ∈ p.responses ∨ response ∈ p.inbox ∨
      (∃ source, p.answered = some (source, response)) →
    Made crypto suite kem p.initiator.sendNoncePrefix p.responder.sendNoncePrefix p.secrets response

section Steps
variable {suite : UInt16} {first : UInt8} {p : Pair Byte} {now : Int}

theorem begin_paced (paced : Paced crypto suite kem first p) (coins : List Byte) :
    Paced crypto suite kem first (begin crypto coins p) := by
  unfold begin
  split
  case h_2 => exact paced
  rename_i keyPair idle generated
  obtain ⟨secret, older, prev, held, keyed, follows⟩ := paced.initiator
  have sealed := sealRekeyControl_eq keyed messageTypeDatagramRekeyInit keyPair.publicRaw
  rw [buildDatagramRekeyInit, sealed]
  have asked : Asked crypto suite p.initiator.sendNoncePrefix (p.held.take 1)
      (epochAt first p.initiatorAdvances) (controlBody crypto suite
        (trafficKey crypto p.initiator.role secret) p.initiator.sendNoncePrefix
        messageTypeDatagramRekeyInit (epochAt first p.initiatorAdvances) p.initiator.sendSeq
        keyPair.publicRaw) keyPair.publicRaw :=
    ⟨secret, by simp [held], p.initiator.sendSeq, by rw [paced.initiatorRole]⟩
  refine { paced with
    initiator := paced.initiator.withSeq _, inits := ?_, attempt := ?_, responses := ?_ }
  · intro init sent
    rcases List.mem_append.mp sent with earlier | new
    · exact paced.inits init earlier
    · obtain rfl := List.mem_singleton.mp new
      obtain ⟨source, member, rest⟩ := asked
      exact ⟨keyPair.publicRaw, source, List.mem_of_mem_take member, rest⟩
  · rintro attempt ⟨⟩
    exact ⟨rfl, ⟨coins, paced.initiatorKem ▸ generated⟩, asked⟩
  · rintro response (sent | queued | cached)
    · exact paced.responses response (.inl sent)
    · exact paced.responses response (.inr (.inl (List.mem_of_mem_tail queued)))
    · exact paced.responses response (.inr (.inr cached))

theorem controlBody_drop (key noncePrefix : List Byte) (msgType epoch : UInt8) (seq : Nat)
    (payload : List Byte) :
    (controlBody crypto suite key noncePrefix msgType epoch seq payload).drop 8 =
      crypto.sealText suite key (buildAEADNonce noncePrefix seq) payload
        (rekeyAAD msgType epoch seq) :=
  List.drop_left' (toBE_length 8 seq)

/-- In a list without repetition nothing stands before the head. -/
theorem head_unpreceded {α : Type} {secret next : α} {older newer rest : List α}
    (fresh : (secret :: older).Nodup) : secret :: older ≠ newer ++ next :: secret :: rest := by
  intro same
  have again : secret ∈ older := by
    cases newer with
    | nil | cons other newer =>
      obtain ⟨-, rfl⟩ := List.cons.inj same
      simp
  exact (List.nodup_cons.mp fresh).1 again

theorem step_secrets (event : Event Byte) (p : Pair Byte) :
    p.secrets <:+ (step crypto p event).secrets := by
  have answering (init : Init Byte) (coins : List Byte) (now : Int) :
      p.secrets <:+ (handleRekeyInit crypto init coins now p).secrets := by
    unfold handleRekeyInit handleRekeyInit.answer
    repeat' split
    all_goals first | exact List.suffix_refl _ | exact List.suffix_cons _ _
  cases event with
  | begin coins =>
    rw [step, begin]
    repeat' split
    all_goals exact List.suffix_refl _
  | deliverInit number coins now =>
    rw [step]
    split
    · exact List.suffix_refl _
    · exact answering _ coins now
  | deliverResponse number =>
    rw [step]
    repeat' split
    all_goals exact List.suffix_refl _
  | take now =>
    rw [step, takeResponse]
    repeat' split
    all_goals exact List.suffix_refl _
  | _ => exact List.suffix_refl _

theorem after_secrets (events : List (Event Byte)) (p : Pair Byte) :
    p.secrets <:+ (after crypto events p).secrets := by
  have longer (q : Pair Byte) (event : Event Byte) (grown : p.secrets <:+ q.secrets) :
      p.secrets <:+ (step crypto q event).secrets :=
    grown.trans (step_secrets event q)
  exact kept_run longer events (List.suffix_refl _)

section Step
variable (xof : XofIdeal 32 crypto.xof) (ideal : AeadIdeal crypto)
  (paced : Paced crypto suite kem first p)
include xof ideal paced

/-- A RekeyInit that the responder opens was sealed under its newest secret. -/
theorem asked_newest {epoch : UInt8} {body payload pubBytes : List Byte}
    (among : ∀ secret ∈ secrets, secret ∈ p.secrets)
    (asked : Asked crypto suite p.initiator.sendNoncePrefix secrets epoch body payload)
    (opened : openRekeyControl crypto now messageTypeDatagramRekeyInit
      (epochAt first p.responderAdvances) body p.responder = .ok pubBytes) :
    payload = pubBytes ∧ ∃ secret older, p.secrets = secret :: older ∧ secret ∈ secrets ∧
      Asked crypto suite p.initiator.sendNoncePrefix [secret] epoch body payload := by
  obtain ⟨secret, older, prev, same, keyed, -⟩ := paced.responder
  obtain ⟨source, member, seq, rfl⟩ := asked
  have sealed := openRekeyControl_sealed keyed ideal opened
  rw [controlBody_drop, paced.responderRole] at sealed
  obtain ⟨-, keys, -, payloads, -⟩ := ideal.injective _ _ _ _ _ _ _ _ _ _ sealed
  obtain ⟨-, rfl⟩ := trafficKey_injective xof (paced.sizes source (among source member))
    keyed.size keys
  exact ⟨payloads, source, older, same, member, source, by simp, seq, rfl⟩

variable (fresh : p.secrets.Nodup)
include fresh

theorem handleRekeyInit_paced {init : Init Byte} (sent : init ∈ p.inits) (coins : List Byte)
    (now : Int) : Paced crypto suite kem first (handleRekeyInit crypto init coins now p) := by
  -- Either the cached response goes out once more, or the responder looks at the message.
  have answering :
      Paced crypto suite kem first (handleRekeyInit.answer crypto init coins now p) := by
    obtain ⟨secret, older, prev, same, keyed, follows⟩ := paced.responder
    have current : datagramSendEpoch p.responder =
        (.ok (epochAt first p.responderAdvances), p.responder) := by
      obtain ⟨startSeq, startedAt, epochs⟩ := keyed.epochs
      simp [datagramSendEpoch, epochsOf, epochs, run_bind]
    unfold handleRekeyInit.answer
    rw [current]
    dsimp only
    split
    · exact paced
    rename_i notOther
    obtain ⟨epoch, body⟩ := init
    obtain rfl : epoch = epochAt first p.responderAdvances := not_not.mp notOther
    rcases outcome : respondToDatagramRekey crypto coins now
      (epochAt first p.responderAdvances) body p.responder with ⟨stop | ⟨respBody, respEpoch⟩, s'⟩
    · obtain ⟨seq, rfl⟩ := respondToDatagramRekey_stopped keyed outcome
      exact { paced with responder := paced.responder.withSeq seq }
    · obtain ⟨pubBytes, pub, ct, shared, newSecret, newEpoch, opened, parsed, encapsulated,
        rfl, derived, advanced⟩ := respondToDatagramRekey_ok keyed outcome
      obtain ⟨payload, asked⟩ := paced.inits _ sent
      obtain ⟨rfl, newest, others, same', member, asked⟩ := asked_newest xof ideal paced
        (fun _ member => List.mem_of_mem_drop member) asked opened
      -- A responder that is ahead is at a secret that no RekeyInit was sealed under.
      have level : p.responderAdvances = p.initiatorAdvances := by
        refine paced.lead.resolve_right fun ahead => ?_
        rw [ahead, Nat.add_sub_cancel_left, same'] at member
        rw [same'] at fresh
        exact (List.nodup_cons.mp fresh).1 member
      obtain ⟨stands, role, kemSuite, outbound, inbound, master, size⟩ :=
        (paced.responder.withSeq _).advanced xof.length advanced
      have past : (newSecret :: p.secrets).drop (p.responderAdvances + 1 - p.initiatorAdvances) =
          p.held := by
        simp [Pair.held, level]
      have made : Made crypto suite kem p.initiator.sendNoncePrefix s'.sendNoncePrefix
          (newSecret :: p.secrets) ⟨controlBody crypto suite
            (trafficKey crypto p.responder.role secret) p.responder.sendNoncePrefix
            messageTypeDatagramRekeyResponse (epochAt first p.responderAdvances)
            p.responder.sendSeq ct.raw, body⟩ := by
        rw [same'] at same
        obtain ⟨rfl, rfl⟩ := List.cons.inj same
        refine ⟨[], newSecret, newest, others, by rw [same']; rfl, payload, pub, coins, ct, shared,
          _, p.responder.sendSeq, asked, ?_, ?_, ?_, derived⟩
        · rwa [← paced.responderKem]
        · rwa [← paced.responderKem]
        · rw [paced.responderRole, outbound]
      refine {
        initiatorRole := paced.initiatorRole
        responderRole := role.trans paced.responderRole
        initiatorKem := paced.initiatorKem
        responderKem := kemSuite.trans paced.responderKem
        outward := paced.outward.trans inbound.symm
        inward := outbound.trans paced.inward
        lead := .inr (congrArg (· + 1) level)
        sizes := ?_, initiator := ?_, responder := ?_, inits := ?_, attempt := ?_, responses := ?_ }
      · simp only [master, Option.getD_some, List.mem_cons]
        rintro other (rfl | earlier)
        · exact size
        · exact paced.sizes other earlier
      · simpa only [Pair.held, master, Option.getD_some, past] using paced.initiator
      · simpa only [master, Option.getD_some, epochAt_succ] using stands
      · simpa only [Pair.held, master, Option.getD_some, past] using paced.inits
      · simpa only [Pair.held, master, Option.getD_some, past] using paced.attempt
      · simp only [master, Option.getD_some]
        have known {response : Response Byte} (before : response ∈ p.responses ∨
            response ∈ p.inbox ∨ ∃ source, p.answered = some (source, response)) :
            Made crypto suite kem p.initiator.sendNoncePrefix s'.sendNoncePrefix
              (newSecret :: p.secrets) response := by
          rw [outbound]
          exact (paced.responses response before).cons newSecret
        rintro response (sent | queued | ⟨source, cached⟩)
        · rcases List.mem_append.mp sent with earlier | new
          · exact known (.inl earlier)
          · rwa [List.mem_singleton.mp new]
        · exact known (.inr (.inl queued))
        · cases cached
          exact made
  unfold handleRekeyInit
  split
  · rename_i source response cached
    split
    · refine { paced with responses := ?_ }
      rintro other (sent | rest)
      · rcases List.mem_append.mp sent with earlier | again
        · exact paced.responses other (.inl earlier)
        · rw [List.mem_singleton.mp again]
          exact paced.responses response (.inr (.inr ⟨source, cached⟩))
      · exact paced.responses other (.inr rest)
    · exact answering
  · exact answering

variable (correct : Correct kem)
include correct

/-- The response that an attempt completes with was made for its key under the initiator's
newest secret, so both sides ratchet to one secret. -/
theorem completed_next {attempt : Attempt Byte} (waiting : p.attempt = some attempt)
    (made : Made crypto suite kem p.initiator.sendNoncePrefix p.responder.sendNoncePrefix p.secrets
      response) (own : response.answers = attempt.body) {s' : Session Byte}
    (completed : completeDatagramRekey crypto now attempt.epoch response.body attempt.keyPair
      p.initiator = (.ok (), s')) :
    ∃ newSecret newEpoch, p.secrets = newSecret :: p.held ∧
      advanceDatagramEpoch crypto now newSecret p.initiator = (.ok newEpoch, s') := by
  obtain ⟨epoch, ⟨coins, generated⟩, source, member, seq, sent⟩ := paced.attempt attempt waiting
  obtain ⟨secret, older, prev, held, keyed, -⟩ := paced.initiator
  rw [show source = secret by simpa [held] using member] at sent
  rw [epoch] at completed
  obtain ⟨ctBytes, ct', shared', newSecret, newEpoch, opened, parsedCt, decapsulated, derived,
      advanced⟩ :=
    completeDatagramRekey_ok keyed completed
  obtain ⟨newer, next, secret', rest, split, pubBytes, pub, coins', ct, shared, epoch', seq',
    asked, parsed, encapsulated, body, ratcheted⟩ := made
  have size' : secret'.length = sharedSecretSize := paced.sizes secret' (by simp [split])
  -- The response opens under one secret only, the initiator's own.
  have sealed := openRekeyControl_sealed keyed ideal opened
  rw [body, controlBody_drop, paced.initiatorRole] at sealed
  obtain ⟨-, keys, -, rfl, -⟩ := ideal.injective _ _ _ _ _ _ _ _ _ _ sealed
  rw [(trafficKey_injective xof size' keyed.size keys).2] at split asked ratcheted
  -- The key it was made for is the attempt's.
  obtain ⟨under, asker, seq'', answers⟩ := asked
  rw [own, sent, List.mem_singleton.mp asker] at answers
  have texts := congrArg (List.drop 8) answers
  rw [controlBody_drop, controlBody_drop] at texts
  obtain ⟨-, -, -, rfl, -⟩ := ideal.injective _ _ _ _ _ _ _ _ _ _ texts
  obtain rfl : attempt.keyPair.publicKey = pub :=
    Except.ok.inj ((correct.parses coins attempt.keyPair generated).symm.trans parsed)
  obtain ⟨ct'', shared'', encapsulated', parsed', decapsulated'⟩ :=
    correct.encapsulates coins attempt.keyPair generated .responder coins'
  obtain ⟨rfl, rfl⟩ := Prod.mk.inj (Except.ok.inj (encapsulated.symm.trans encapsulated'))
  rw [paced.initiatorKem] at parsedCt decapsulated
  obtain rfl := Except.ok.inj (parsedCt.symm.trans parsed')
  obtain rfl := Except.ok.inj (decapsulated.symm.trans decapsulated')
  obtain rfl := Except.ok.inj (derived.symm.trans ratcheted)
  refine ⟨newSecret, newEpoch, ?_, advanced⟩
  -- So the responder has ratcheted already, and is one secret ahead.
  rcases paced.lead with level | ahead
  · have newest : p.secrets = secret :: older := by simpa [Pair.held, level] using held
    rw [newest] at fresh split
    exact absurd split (head_unpreceded fresh)
  · have behind : p.secrets.drop 1 = secret :: older := by
      simpa [Pair.held, ahead, Nat.add_sub_cancel_left] using held
    obtain ⟨newest, newestFirst⟩ : ∃ newest, p.secrets = newest :: secret :: older := by
      cases list : p.secrets with
      | nil => simp [list] at behind
      | cons newest tail => exact ⟨newest, by simpa [list] using behind⟩
    rw [held, newestFirst]
    rw [newestFirst] at fresh split
    cases newer with
    | nil => simpa using (List.cons.inj split).1
    | cons other newer =>
      have tail := (List.cons.inj split).2
      exact absurd tail (head_unpreceded (List.nodup_cons.mp fresh).2)

theorem takeResponse_paced (own : Own p (.take now)) :
    Paced crypto suite kem first (takeResponse crypto now p) := by
  unfold takeResponse
  split
  case h_2 => exact paced
  rename_i attempt response rest waiting queue
  have later : ∀ other, other ∈ p.responses ∨ other ∈ rest ∨
      (∃ source, p.answered = some (source, other)) → Made crypto suite kem
      p.initiator.sendNoncePrefix p.responder.sendNoncePrefix p.secrets other := by
    rintro other (sent | queued | cached)
    · exact paced.responses other (.inl sent)
    · exact paced.responses other (.inr (.inl (by simp [queue, queued])))
    · exact paced.responses other (.inr (.inr cached))
  rcases outcome : completeDatagramRekey crypto now attempt.epoch response.body attempt.keyPair
    p.initiator with ⟨stop | done, s'⟩
  · obtain rfl := completeDatagramRekey_stopped outcome
    exact { paced with responses := later }
  · have made := paced.responses response (.inr (.inl (by simp [queue])))
    obtain ⟨newSecret, newEpoch, newest, advanced⟩ := completed_next xof ideal paced fresh correct
      waiting made (own attempt response waiting (by simp [queue])) outcome
    obtain ⟨stands, role, kemSuite, outbound, inbound, -, -⟩ :=
      paced.initiator.advanced xof.length advanced
    have ahead : p.responderAdvances = p.initiatorAdvances + 1 := by
      refine paced.lead.resolve_left fun level => ?_
      have whole : p.held = p.secrets := by simp [Pair.held, level]
      rw [whole] at newest
      simpa using congrArg List.length newest
    have caughtUp : p.secrets.drop (p.responderAdvances - (p.initiatorAdvances + 1)) =
        newSecret :: p.held := by
      simp [ahead, newest]
    refine {
      initiatorRole := role.trans paced.initiatorRole
      responderRole := paced.responderRole
      initiatorKem := kemSuite.trans paced.initiatorKem
      responderKem := paced.responderKem
      outward := outbound.trans paced.outward
      inward := paced.inward.trans inbound.symm
      lead := .inl ahead
      sizes := paced.sizes
      initiator := ?_, responder := paced.responder, inits := ?_, attempt := nofun,
      responses := ?_ }
    · simpa only [Pair.held, caughtUp, epochAt_succ] using stands
    · intro init sent
      obtain ⟨payload, source, member, seq, body⟩ := paced.inits init sent
      simp only [Pair.held, caughtUp, outbound]
      exact ⟨payload, source, List.mem_cons_of_mem _ member, seq, body⟩
    · simpa only [outbound] using later

theorem step_paced {event : Event Byte} (own : Own p event) :
    Paced crypto suite kem first (step crypto p event) := by
  cases event with
  | begin coins => exact begin_paced paced coins
  | timeout => exact { paced with attempt := nofun }
  | deliverInit number coins now =>
    rw [step]
    split
    · exact paced
    · rename_i init found
      exact handleRekeyInit_paced xof ideal paced fresh (List.mem_of_getElem? found) coins now
  | deliverResponse number =>
    rw [step]
    split
    · exact paced
    · rename_i response found
      split
      · refine { paced with responses := ?_ }
        rintro other (sent | queued | cached)
        · exact paced.responses other (.inl sent)
        · rcases List.mem_append.mp queued with earlier | new
          · exact paced.responses other (.inr (.inl earlier))
          · rw [List.mem_singleton.mp new]
            exact paced.responses response (.inl (List.mem_of_getElem? found))
        · exact paced.responses other (.inr (.inr cached))
      · exact paced
  | take now => exact takeResponse_paced xof ideal paced fresh correct own
  | initiatorSends => exact { paced with initiator := paced.initiator.withSeq _ }
  | responderSends => exact { paced with responder := paced.responder.withSeq _ }

end Step

theorem after_paced (xof : XofIdeal 32 crypto.xof) (ideal : AeadIdeal crypto)
    (correct : Correct kem) (events : List (Event Byte)) (paced : Paced crypto suite kem first p)
    (own : Along (step crypto) Own events p) (fresh : (after crypto events p).secrets.Nodup) :
    Paced crypto suite kem first (after crypto events p) := by
  induction events generalizing p with
  | nil => exact paced
  | cons event rest ih =>
    have now := fresh.sublist (after_secrets (event :: rest) p).sublist
    exact ih (step_paced xof ideal paced now correct own.1) own.2 fresh

end Steps
end Invariant

variable {epochs : DatagramEpochState Byte} {receiver : Session Byte}

/-! Results. -/
section Results
variable {suite : UInt16} {first : UInt8} {initiator responder : Session Byte} {now : Int}
  {s : Session Byte}

structure Alike (crypto : Crypto Byte) (suite : UInt16) (kem : Suite Byte) (first : UInt8)
    (initiator responder : Session Byte) : Prop where
  initiatorRole : initiator.role = .initiator
  responderRole : responder.role = .responder
  initiatorKem : initiator.kemSuite = kem
  responderKem : responder.kemSuite = kem
  outward : initiator.sendNoncePrefix = responder.recvNoncePrefix
  inward : responder.sendNoncePrefix = initiator.recvNoncePrefix
  keyed : ∃ secret, Keyed crypto suite initiator secret first none ∧
    Keyed crypto suite responder secret first none

/-- What `InitializeDatagramKeys` leaves on two sessions that it is called on with one
secret. -/
theorem alike_of_initialized {env : Env Byte} (sized : XofSized env.xof) {i i' r r' : Session Byte}
    {now' : Int} {secret : List Byte} (initiatorRole : i.role = .initiator)
    (responderRole : r.role = .responder) (initiatorKem : i.kemSuite = kem)
    (responderKem : r.kemSuite = kem)
    (keyedI : initializeDatagramKeys env.toCrypto now secret suite i = (.ok (), i'))
    (keyedR : initializeDatagramKeys env.toCrypto now' secret suite r = (.ok (), r')) :
    Alike env.toCrypto suite kem 0 i' r' := by
  obtain ⟨-, size, _, prefixes, made, drawn, rfl⟩ := initializeDatagramKeys_ok_iff.mp keyedI
  obtain ⟨-, -, _, prefixes', made', drawn', rfl⟩ := initializeDatagramKeys_ok_iff.mp keyedR
  obtain rfl := Except.ok.inj (drawn.symm.trans drawn')
  obtain ⟨-, usable, rfl⟩ := (deriveDatagramCiphers_ok_iff sized).mp made
  obtain ⟨-, -, rfl⟩ := (deriveDatagramCiphers_ok_iff sized).mp made'
  have outward : (byRole i.role prefixes).1 = (byRole r.role prefixes).2 := by
    rw [initiatorRole, responderRole]
    rfl
  have inward : (byRole r.role prefixes).1 = (byRole i.role prefixes).2 := by
    rw [initiatorRole, responderRole]
    rfl
  exact ⟨initiatorRole, responderRole, initiatorKem, responderKem, outward, inward, secret,
    ⟨rfl, size, rfl, usable, 0, now, rfl⟩, ⟨rfl, size, rfl, usable, 0, now', rfl⟩⟩

theorem start_paced (alike : Alike crypto suite kem first initiator responder) :
    Paced crypto suite kem first (start initiator responder) := by
  obtain ⟨secret, keyedI, keyedR⟩ := alike.keyed
  have log : (start initiator responder).secrets = [secret] := by
    simp [start, keyedR.masterSecret]
  refine {
    initiatorRole := alike.initiatorRole
    responderRole := alike.responderRole
    initiatorKem := alike.initiatorKem
    responderKem := alike.responderKem
    outward := alike.outward
    inward := alike.inward
    lead := .inl rfl
    sizes := ?_, initiator := ?_, responder := ?_, inits := nofun, attempt := nofun,
    responses := ?_ }
  · simp [log, keyedI.size]
  · exact ⟨secret, [], none, log, by simpa [epochAt, start] using keyedI, trivial⟩
  · exact ⟨secret, [], none, log, by simpa [epochAt, start] using keyedR, trivial⟩
  · rintro response (sent | queued | ⟨source, cached⟩)
    · cases sent
    · cases queued
    · cases cached

structure Agreed (p : Pair Byte) : Prop where
  masterSecret : p.initiator.masterSecret = p.responder.masterSecret
  epochs : ∃ mine yours, p.initiator.dgramEpochs = some mine ∧
    p.responder.dgramEpochs = some yours ∧ mine.cur.epoch = yours.cur.epoch ∧
    mine.cur.sendCipher = yours.cur.recvCipher ∧ yours.cur.sendCipher = mine.cur.recvCipher

/-- Where every response taken belongs to the attempt that takes it, two ends that have
advanced equally often agree. -/
theorem rekeyed_alike (xof : XofIdeal 32 crypto.xof)
    (ideal : AeadIdeal crypto) (correct : Correct kem)
    (alike : Alike crypto suite kem first initiator responder) (events : List (Event Byte))
    (own : Along (step crypto) Own events (start initiator responder))
    (fresh : (after crypto events (start initiator responder)).secrets.Nodup)
    (level : (after crypto events (start initiator responder)).initiatorAdvances =
      (after crypto events (start initiator responder)).responderAdvances) :
    Agreed (after crypto events (start initiator responder)) := by
  have paced := after_paced xof ideal correct events (start_paced alike) own fresh
  obtain ⟨secret, older, prev, held, keyedI, -⟩ := paced.initiator
  obtain ⟨secret', older', prev', same, keyedR, -⟩ := paced.responder
  obtain ⟨rfl, -⟩ : secret = secret' ∧ older = older' := by
    simpa [Pair.held, level, same] using held.symm
  obtain ⟨_, _, epochsI⟩ := keyedI.epochs
  obtain ⟨_, _, epochsR⟩ := keyedR.epochs
  rw [paced.initiatorRole] at epochsI
  rw [paced.responderRole] at epochsR
  exact ⟨keyedI.masterSecret.trans keyedR.masterSecret.symm, _, _, epochsI, epochsR,
    congrArg (epochAt first) level, rfl, rfl⟩

/-- The receiver holds the cipher for the epoch that the sender seals data under now, so
a data frame sealed now opens on arrival. -/
structure Flows (crypto : Crypto Byte) (now : Int) (sender receiver : Session Byte) : Prop where
  matching : ∃ epochs, sender.dgramEpochs = some epochs ∧
    datagramRecvCipher now epochs.cur.epoch receiver = some epochs.cur.sendCipher
  opens : ∀ epochs aad seq plaintext ciphertext, sender.dgramEpochs = some epochs →
    (datagramSeal crypto aad seq plaintext sender).1 = .ok ciphertext →
    datagramOpen crypto now epochs.cur.epoch seq ciphertext aad receiver = .ok plaintext

def Retained (now : Int) (s : Session Byte) : Prop :=
  ∀ epochs prev, s.dgramEpochs = some epochs → epochs.prev = some prev →
    prev.retireAfter.any (now < ·) = true

omit [Octet Byte] in
theorem recvCipher_current (now : Int) (present : s.dgramEpochs = some epochs) :
    datagramRecvCipher now epochs.cur.epoch s = some epochs.cur.recvCipher := by
  simp [datagramRecvCipher, present]

theorem not_flows {sender : Session Byte} (cut : (sender.dgramEpochs.bind fun epochs =>
      datagramRecvCipher now epochs.cur.epoch receiver) = none) :
    ¬ Flows crypto now sender receiver := by
  rintro ⟨⟨epochs, present, found⟩, -⟩
  rw [present, Option.bind_some, found] at cut
  cases cut

theorem flows_of_matching (ideal : AeadIdeal crypto) {sender : Session Byte}
    (prefixes : sender.sendNoncePrefix = receiver.recvNoncePrefix)
    (present : sender.dgramEpochs = some epochs)
    (held : datagramRecvCipher now epochs.cur.epoch receiver = some epochs.cur.sendCipher) :
    Flows crypto now sender receiver := by
  refine ⟨⟨epochs, present, held⟩, ?_⟩
  intro epochs' aad seq plaintext ciphertext present' sealed
  obtain rfl := Option.some.inj (present.symm.trans present')
  have whole : datagramSeal crypto aad seq plaintext sender =
      (.ok ciphertext, (datagramSeal crypto aad seq plaintext sender).2) := Prod.ext sealed rfl
  obtain ⟨-, epochs', present'', -, text⟩ := datagramSeal_ok_iff.mp whole
  obtain rfl := Option.some.inj (present.symm.trans present'')
  have long : ¬ ciphertext.length < aesTagSize := by
    rw [text, ideal.length]
    omega
  rw [datagramOpen, held, openUnder, openWithNonce, if_neg (by simp), if_neg long, text, ← prefixes,
    ideal.opens]

omit [Octet Byte] in
theorem recvCipher_previous {cur prev : DatagramEpoch Byte}
    (present : s.dgramEpochs = some ⟨cur, some prev⟩) (other : cur.epoch ≠ prev.epoch)
    (retained : Retained now s) : datagramRecvCipher now prev.epoch s = some prev.recvCipher := by
  have kept := retained _ prev present rfl
  simp [datagramRecvCipher, present, other, kept]

theorem recvCipher_ahead {epoch : UInt8} (standing : Standing crypto suite s secrets epoch) :
    datagramRecvCipher now (epoch + 1) s = none := by
  obtain ⟨secret, older, prev, -, keyed, follows⟩ := standing
  obtain ⟨startSeq, startedAt, present⟩ := keyed.epochs
  have current : epoch ≠ epoch + 1 := by simp
  cases prev with
  | none => simp [datagramRecvCipher, present]
  | some prev =>
    cases older with
    | nil => exact absurd follows id
    | cons _ _ =>
      have before : prev.epoch ≠ epoch + 1 := by
        intro same
        have twice := follows.1
        rw [same] at twice
        have numbers := congrArg UInt8.toNat twice
        simp only [UInt8.toNat_add, UInt8.reduceToNat] at numbers
        omega
      simp [datagramRecvCipher, present, before]

/-- In such runs the initiator's data always arrives. The responder's arrives exactly when
the initiator has completed every rekey that the responder has answered: until then the
responder seals under an epoch that the initiator does not have. -/
theorem flows_iff_level (xof : XofIdeal 32 crypto.xof) (ideal : AeadIdeal crypto)
    (correct : Correct kem) (alike : Alike crypto suite kem first initiator responder)
    (events : List (Event Byte)) (own : Along (step crypto) Own events (start initiator responder))
    (fresh : (after crypto events (start initiator responder)).secrets.Nodup) {now : Int}
    (retained : Retained now (after crypto events (start initiator responder)).responder) :
    Flows crypto now (after crypto events (start initiator responder)).initiator
        (after crypto events (start initiator responder)).responder ∧
      (Flows crypto now (after crypto events (start initiator responder)).responder
          (after crypto events (start initiator responder)).initiator ↔
        (after crypto events (start initiator responder)).initiatorAdvances =
          (after crypto events (start initiator responder)).responderAdvances) := by
  have paced := after_paced xof ideal correct events (start_paced alike) own fresh
  generalize after crypto events (start initiator responder) = p at *
  obtain ⟨secret, older, prev, held, keyedI, -⟩ := paced.initiator
  obtain ⟨secret', older', prev', same, keyedR, followsR⟩ := paced.responder
  obtain ⟨_, _, epochsI⟩ := keyedI.epochs
  obtain ⟨_, _, epochsR⟩ := keyedR.epochs
  rw [paced.initiatorRole] at epochsI
  rw [paced.responderRole] at epochsR followsR
  rcases paced.lead with level | ahead
  · obtain ⟨rfl, -⟩ : secret = secret' ∧ older = older' := by
      simpa [Pair.held, level, same] using held.symm
    rw [level] at epochsR
    have toResponder := flows_of_matching ideal paced.outward epochsI
      (recvCipher_current now epochsR)
    have toInitiator := flows_of_matching ideal paced.inward epochsR
      (recvCipher_current now epochsI)
    exact ⟨toResponder, iff_of_true toInitiator level.symm⟩
  · have behind : older' = secret :: older := by
      simpa [Pair.held, ahead, Nat.add_sub_cancel_left, same] using held
    subst behind
    rw [ahead, epochAt_succ] at epochsR followsR
    constructor
    · -- The responder still keeps the epoch that the initiator is at.
      cases prev' with
      | none => exact absurd followsR id
      | some prev' =>
        obtain ⟨next, -, recvCipher⟩ := followsR
        have epoch : prev'.epoch = epochAt first p.initiatorAdvances := by simpa using next
        have found := recvCipher_previous epochsR (by simp [epoch]) retained
        rw [epoch, recvCipher] at found
        exact flows_of_matching ideal paced.outward epochsI found
    · refine iff_of_false (fun flows => ?_) (by omega)
      obtain ⟨epochs, present, found⟩ := flows.matching
      obtain rfl := Option.some.inj (epochsR.symm.trans present)
      rw [recvCipher_ahead paced.initiator] at found
      cases found

/-- In such runs the responder's epoch is the initiator's or the next. -/
theorem epochs_in_step (xof : XofIdeal 32 crypto.xof) (ideal : AeadIdeal crypto)
    (correct : Correct kem) (alike : Alike crypto suite kem first initiator responder)
    (events : List (Event Byte)) (own : Along (step crypto) Own events (start initiator responder))
    (fresh : (after crypto events (start initiator responder)).secrets.Nodup) :
    let p := after crypto events (start initiator responder)
    ∃ mine yours, p.initiator.dgramEpochs = some mine ∧ p.responder.dgramEpochs = some yours ∧
      (yours.cur.epoch = mine.cur.epoch ∨ yours.cur.epoch = mine.cur.epoch + 1) := by
  have paced := after_paced xof ideal correct events (start_paced alike) own fresh
  obtain ⟨_, _, _, -, keyed, -⟩ := paced.initiator
  obtain ⟨_, _, _, -, keyed', -⟩ := paced.responder
  obtain ⟨_, _, mine⟩ := keyed.epochs
  obtain ⟨_, _, yours⟩ := keyed'.epochs
  refine ⟨_, _, mine, yours, ?_⟩
  rcases paced.lead with level | ahead
  · exact .inl (congrArg (epochAt first) level)
  · exact .inr ((congrArg (epochAt first) ahead).trans (epochAt_succ first _))

end Results

/-! Runs over the symbolic alphabet. -/
section Symbolic

theorem short_bound : 0 < 4 ∧ 4 < 2 ^ 16 := by decide

def shortKem : Suite Letter := suite suiteXWing 4 4 short_bound short_bound

def keyedWith (s : Session Letter) : Except Fault Unit × Session Letter :=
  initializeDatagramKeys env.toCrypto 0 (secretOf 0) cipherSuiteAES256GCM s

def IsPair (initiator responder : Session Letter) : Prop :=
  ∃ i r, newSession shortKem .initiator [] [] = .ok i ∧
    newSession shortKem .responder [] [] = .ok r ∧
    keyedWith i = (.ok (), initiator) ∧ keyedWith r = (.ok (), responder)

variable {initiator responder : Session Letter}

theorem IsPair.alike (pair : IsPair initiator responder) :
    Alike env.toCrypto cipherSuiteAES256GCM shortKem 0 initiator responder := by
  obtain ⟨i, r, newI, newR, keyedI, keyedR⟩ := pair
  cases newI
  cases newR
  exact alike_of_initialized env_ideal.xof.length rfl rfl rfl rfl keyedI keyedR

def answering : List (Event Letter) := [.begin [], .deliverInit 0 [] 1]

def completing : List (Event Letter) := answering ++ [.deliverResponse 0, .take 2]

theorem own_of_check {p : Pair Letter} {now : Int} (checked : p.attempt.all (fun attempt =>
      p.inbox.head?.all fun response => response.answers = attempt.body) = true) :
    Own p (.take now) := by
  intro attempt response waiting queued
  rw [waiting, queued] at checked
  simpa using checked

theorem completing_own (pair : IsPair initiator responder) :
    Along (step env.toCrypto) Own completing (start initiator responder) := by
  obtain ⟨i, r, newI, newR, keyedI, keyedR⟩ := pair
  cases newI
  cases newR
  cases keyedI
  cases keyedR
  exact ⟨trivial, trivial, trivial, own_of_check (by decide +kernel), trivial⟩

theorem completing_fresh (pair : IsPair initiator responder) :
    let p := after env.toCrypto completing (start initiator responder)
    p.secrets.Nodup ∧ p.initiatorAdvances = 1 ∧ p.responderAdvances = 1 ∧
      p.responder.dgramEpochs.any (fun epochs => epochs.prev.all fun prev =>
        prev.retireAfter.any ((2 : Int) < ·)) = true := by
  obtain ⟨i, r, newI, newR, keyedI, keyedR⟩ := pair
  cases newI
  cases newR
  cases keyedI
  cases keyedR
  decide +kernel

theorem rekeyed_alike_once : ∃ initiator responder, IsPair initiator responder ∧
      let p := after env.toCrypto completing (start initiator responder)
      p.initiatorAdvances = 1 ∧ Agreed p := by
  obtain ⟨initiator, responder, pair⟩ : ∃ initiator responder, IsPair initiator responder :=
    ⟨_, _, _, _, rfl, rfl, rfl, rfl⟩
  obtain ⟨fresh, advanced, advanced', -⟩ := completing_fresh pair
  exact ⟨initiator, responder, pair, advanced, rekeyed_alike env_ideal.xof
    env_ideal.aead suite_correct pair.alike completing (completing_own pair)
    fresh (advanced.trans advanced'.symm)⟩

theorem flows_once : ∃ initiator responder, IsPair initiator responder ∧
      let p := after env.toCrypto completing (start initiator responder)
      Flows env.toCrypto 2 p.initiator p.responder ∧
        Flows env.toCrypto 2 p.responder p.initiator := by
  obtain ⟨initiator, responder, pair⟩ : ∃ initiator responder, IsPair initiator responder :=
    ⟨_, _, _, _, rfl, rfl, rfl, rfl⟩
  obtain ⟨fresh, advanced, advanced', kept⟩ := completing_fresh pair
  have retained : Retained 2 (after env.toCrypto completing
      (start initiator responder)).responder := by
    intro epochs prev present previous
    rw [present] at kept
    simpa [previous] using kept
  obtain ⟨outward, inward⟩ := flows_iff_level env_ideal.xof env_ideal.aead
    suite_correct pair.alike completing (completing_own pair) fresh retained
  exact ⟨initiator, responder, pair, outward, inward.mpr (advanced.trans advanced'.symm)⟩

theorem epochs_in_step_once : ∃ initiator responder, IsPair initiator responder ∧
      let p := after env.toCrypto completing (start initiator responder)
      ∃ mine yours, p.initiator.dgramEpochs = some mine ∧ p.responder.dgramEpochs = some yours ∧
        (yours.cur.epoch = mine.cur.epoch ∨ yours.cur.epoch = mine.cur.epoch + 1) := by
  obtain ⟨_, _, pair⟩ : ∃ initiator responder, IsPair initiator responder :=
    ⟨_, _, _, _, rfl, rfl, rfl, rfl⟩
  exact ⟨_, _, pair, epochs_in_step env_ideal.xof env_ideal.aead suite_correct pair.alike completing
    (completing_own pair) (completing_fresh pair).1⟩

/-- The answer to a first attempt, which timed out, completes a second one: both ends are at
epoch 1 and under different secrets. -/
theorem replayed_answer_splits : ∃ initiator responder, IsPair initiator responder ∧
      let p := after env.toCrypto (answering ++ [.timeout, .begin [lit 1],
        .deliverInit 1 [] 2, .deliverResponse 1, .take 3]) (start initiator responder)
      p.initiatorAdvances = 1 ∧ p.responderAdvances = 1 ∧
        p.initiator.dgramEpochs.map (·.cur.epoch) = some 1 ∧
        p.responder.dgramEpochs.map (·.cur.epoch) = some 1 ∧
        p.initiator.masterSecret ≠ p.responder.masterSecret :=
  ⟨_, _, ⟨_, _, rfl, rfl, rfl, rfl⟩, by decide +kernel⟩

/-- Behind its answer the responder seals under an epoch that the initiator cannot open. -/
theorem answer_cuts_off : ∃ initiator responder, IsPair initiator responder ∧
      let p := after env.toCrypto answering (start initiator responder)
      ¬ Flows env.toCrypto 2 p.responder p.initiator :=
  ⟨_, _, ⟨_, _, rfl, rfl, rfl, rfl⟩, not_flows (by decide +kernel)⟩

end Symbolic

end QuantumGo.DatagramRekey
