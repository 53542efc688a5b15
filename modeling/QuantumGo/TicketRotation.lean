import QuantumGo.Interleaving
import QuantumGo.Ticket

/-!
Tickets across key rotations (pkg/tunnel/ticket.go): what DecryptTicket makes of the tickets
that a manager has issued, and of any other string. Which keys a manager holds is read off the
calls, as the two newest keys that it was given.
-/

namespace QuantumGo.TicketRotation

open Octets Effect Symbolic Wire Aead Ticket Interleaving

variable {Byte : Type} [Octet Byte]

section Keys
omit [Octet Byte]

def perform (tm : TicketManager Byte) : Call Byte → TicketManager Byte
  | .encryptTicket _ => tm
  | .rotateKey newKey => (rotateKey newKey tm).2

def after (first : TicketManager Byte) (calls : List (Call Byte)) : TicketManager Byte :=
  run perform calls first

/-- The keys that were given, newest first. One that is not 32 bytes long is refused. -/
def give (keys : List (List Byte)) : Call Byte → List (List Byte)
  | .encryptTicket _ => keys
  | .rotateKey newKey => if newKey.length = 32 then newKey :: keys else keys

def keys (first : TicketManager Byte) (calls : List (Call Byte)) : List (List Byte) :=
  run give calls (first.currentKey :: first.previousKey.toList)

/-- A manager holds the two newest keys, for the lifetime it was made with. -/
structure Holds (lifetime : Int) (tm : TicketManager Byte) (keys : List (List Byte)) : Prop where
  newest : keys.take 2 = tm.currentKey :: tm.previousKey.toList
  lifetime : tm.lifetime = lifetime

theorem Holds.perform {lifetime : Int} {tm : TicketManager Byte} {keys : List (List Byte)}
    (holds : Holds lifetime tm keys) (call : Call Byte) :
    Holds lifetime (TicketRotation.perform tm call) (give keys call) := by
  cases call with
  | encryptTicket ticket => exact holds
  | rotateKey newKey =>
    by_cases size : newKey.length = 32
    · have newest : keys.take 1 = [tm.currentKey] := by
        simpa [List.take_take] using congrArg (List.take 1) holds.newest
      simp only [TicketRotation.perform, give, rotateKey, size, dif_pos, if_pos]
      exact ⟨by simp [newest], holds.lifetime⟩
    · simpa [TicketRotation.perform, give, rotateKey, size] using holds

theorem holds_after (first : TicketManager Byte) (calls : List (Call Byte)) :
    Holds first.lifetime (after first calls) (keys first calls) := by
  have start : Holds first.lifetime first (first.currentKey :: first.previousKey.toList) :=
    ⟨by cases first.previousKey <;> rfl, rfl⟩
  unfold after keys
  generalize first.currentKey :: first.previousKey.toList = given at start ⊢
  generalize first.lifetime = lifetime at start ⊢
  induction calls generalizing first given with
  | nil => exact start
  | cons call rest ih => exact ih _ _ (start.perform call)

theorem mem_newest {first : TicketManager Byte} {calls : List (Call Byte)} {key : List Byte} :
    key ∈ (keys first calls).take 2 ↔ key = (after first calls).currentKey ∨
      (after first calls).previousKey = some key := by
  rw [(holds_after first calls).newest, List.mem_cons, Option.mem_toList]

end Keys

/-- EncryptTicket has returned this data for the ticket, while the key was the newest. -/
def Issued (crypto : Crypto Byte) (first : TicketManager Byte) (calls : List (Call Byte))
    (key : List Byte) (ticket : SessionTicket Byte) (data : List Byte) : Prop :=
  ∃ before later, calls = before ++ .encryptTicket ticket :: later ∧
    (keys first before).head? = some key ∧
    encryptTicket crypto (after first before) ticket = .ok data

/-- What the AEAD opens under a key that the manager holds, EncryptTicket has sealed under it. -/
def Unforged (crypto : Crypto Byte) (first : TicketManager Byte) (calls : List (Call Byte))
    (data : List Byte) : Prop :=
  ∀ key ∈ (keys first calls).take 2, ∀ text,
    crypto.openText cipherSuiteAES256GCM key (data.take aesNonceSize) (data.drop aesNonceSize) [] =
      some text → ∃ ticket, Issued crypto first calls key ticket data

/-- Seconds from the first year to 1970: a time.Time counts from there in 64 bits. -/
def unixToInternal : Int := 62135596800

section Tickets
variable {crypto : Crypto Byte} {tm : TicketManager Byte} {ticket : SessionTicket Byte}
  {data key text : List Byte} {now : Int}

theorem parseTicket_plaintext (secret : ticket.masterSecret.length = 32)
    (early : 0 ≤ ticket.createdAt) (late : ticket.createdAt < 2 ^ 63) :
    (ticketPlaintext ticket).length = 43 ∧
      ofBE (slice (ticketPlaintext ticket) 35 43) ≤ 0x7FFFFFFFFFFFFFFF ∧
      parseTicket (ticketPlaintext ticket) = ticket := by
  have copied : copyInto 32 ticket.masterSecret = ticket.masterSecret := by
    simp [copyInto, secret, List.take_of_length_le secret.le]
  have start : (ticketPlaintext ticket).drop 0 = [lit ticket.version] ++
    (toBE 2 ticket.cipherSuite.toNat ++ (ticket.masterSecret ++
      toBE 8 ticket.createdAt.toNat)) := by
    rw [ticketPlaintext, copied]
    rfl
  have suite := drop_at start (rfl : _ = 1)
  have body := drop_at suite (toBE_length 2 _)
  have time := (drop_at body secret).trans (List.append_nil _).symm
  have seconds : ofBE (slice (ticketPlaintext ticket) 35 43) = ticket.createdAt.toNat := by
    rw [slice_at time (toBE_length 8 _), ofBE_toBE_of_lt (by omega)]
  refine ⟨?_, by omega, ?_⟩
  · rw [ticketPlaintext, copied]
    simp [secret]
  · have version := slice_at start (rfl : _ = 1)
    have cipherSuite := slice_at suite (toBE_length 2 _)
    have masterSecret := slice_at body secret
    rw [parseTicket, seconds, version, cipherSuite, masterSecret,
      ofBE_toBE_of_lt (UInt16.toNat_lt _)]
    simp [ofBE, Int.toNat_of_nonneg early]

omit [Octet Byte] in
theorem decryptWithKey_ok_iff : decryptWithKey crypto data key = .ok text ↔
    key.length = aesKeySize ∧ minPacketSize ≤ data.length ∧
      crypto.openText cipherSuiteAES256GCM key (data.take aesNonceSize)
        (data.drop aesNonceSize) [] = some text := by
  unfold decryptWithKey
  simp only [except_bind_ok_iff, newAEAD_ok_iff, openNext_ok_iff]
  constructor
  · rintro ⟨_, ⟨-, size, -, rfl⟩, opened⟩
    exact ⟨size, opened⟩
  · rintro ⟨size, opened⟩
    exact ⟨_, ⟨fun _ => rfl, size, rfl, rfl⟩, opened⟩

/-- A ticket opens under the key it was sealed with and no other. -/
theorem openText_issued (ideal : AeadIdeal crypto)
    (issued : encryptTicket crypto tm ticket = .ok data) :
    crypto.openText cipherSuiteAES256GCM key (data.take aesNonceSize) (data.drop aesNonceSize) [] =
      some text ↔ key = tm.currentKey ∧ text = ticketPlaintext ticket := by
  obtain ⟨-, rfl⟩ := encryptTicket_ok_iff.mp issued
  rw [List.take_left' (counterNonce_length 0), List.drop_left' (counterNonce_length 0)]
  constructor
  · intro opened
    obtain ⟨-, same, -, text, -⟩ := ideal.unseal_sealed opened
    exact ⟨same, text⟩
  · rintro ⟨rfl, rfl⟩
    exact ideal.opens _ _ _ _ _

theorem decryptWithKey_issued (ideal : AeadIdeal crypto)
    (issued : encryptTicket crypto tm ticket = .ok data) :
    decryptWithKey crypto data key = .ok text ↔ key = tm.currentKey ∧
    text = ticketPlaintext ticket := by
  rw [decryptWithKey_ok_iff, openText_issued ideal issued]
  refine ⟨fun opened => opened.2.2, fun opened => ⟨opened.1 ▸ tm.keySize, ?_, opened⟩⟩
  obtain ⟨-, rfl⟩ := encryptTicket_ok_iff.mp issued
  rw [List.length_append, ideal.length, counterNonce_length, ticketPlaintext, minPacketSize,
    List.length_cons]
  omega

/-- The text that opens under the current key, or else under the previous one. -/
def opened (crypto : Crypto Byte) (tm : TicketManager Byte) (data : List Byte) :
    Option (List Byte) :=
  (decryptWithKey crypto data tm.currentKey).toOption.or
    (tm.previousKey.bind fun key => (decryptWithKey crypto data key).toOption)

theorem decryptTicket_ok_iff (plain : crypto.fips = false) :
    decryptTicket crypto tm now data = .ok ticket ↔ ∃ text, opened crypto tm data = some text ∧
      text.length = 43 ∧ ofBE (slice text 35 43) ≤ 0x7FFFFFFFFFFFFFFF ∧
      since now (parseTicket text).createdAt ≤ tm.lifetime ∧ parseTicket text = ticket := by
  unfold decryptTicket opened
  cases decryptWithKey crypto data tm.currentKey with
  | ok text =>
    simp only [guard_ok_iff, ne_eq, not_not, gt_iff_lt, not_lt, plain, Bool.false_and,
      Bool.false_eq_true, not_false_eq_true, true_and, Except.ok.injEq, Except.toOption,
      Option.some_or, Option.some.injEq, exists_eq_left']
  | error stop =>
    cases tm.previousKey with
    | none => simp [Except.toOption]
    | some key =>
      simp only [Except.toOption, Option.none_or, Option.bind_some]
      cases decryptWithKey crypto data key with
      | ok text =>
        simp only [guard_ok_iff, ne_eq, not_not, gt_iff_lt, not_lt, plain, Bool.false_and,
          Bool.false_eq_true, not_false_eq_true, true_and, Except.ok.injEq, Option.some.injEq,
          exists_eq_left']
      | error stop => simp

theorem opened_issued (ideal : AeadIdeal crypto) {tm' : TicketManager Byte}
    (issued : encryptTicket crypto tm ticket = .ok data) :
    opened crypto tm' data = some text ↔ text = ticketPlaintext ticket ∧
      (tm.currentKey = tm'.currentKey ∨ tm'.previousKey = some tm.currentKey) := by
  have opens (key text : List Byte) : (decryptWithKey crypto data key).toOption = some text ↔
      key = tm.currentKey ∧ text = ticketPlaintext ticket := by
    rw [← decryptWithKey_issued ideal issued]
    cases decryptWithKey crypto data key <;> simp [Except.toOption]
  rw [opened, Option.or_eq_some_iff, Option.eq_none_iff_forall_ne_some]
  simp only [Option.bind_eq_some_iff, opens, ne_eq, not_and]
  constructor
  · rintro (⟨same, rfl⟩ | ⟨-, key, previous, rfl, rfl⟩)
    · exact ⟨rfl, .inl same.symm⟩
    · exact ⟨rfl, .inr previous⟩
  · rintro ⟨rfl, held⟩
    by_cases same : tm'.currentKey = tm.currentKey
    · exact .inl ⟨same, rfl⟩
    · exact .inr ⟨fun _ held => absurd held same, _, held.resolve_left (Ne.symm same), rfl, rfl⟩

theorem Issued.sealed {first : TicketManager Byte} {calls : List (Call Byte)}
    (issued : Issued crypto first calls key ticket data) : ∃ tm : TicketManager Byte,
    tm.currentKey = key ∧ encryptTicket crypto tm ticket = .ok data := by
  obtain ⟨before, -, -, newest, sealed⟩ := issued
  refine ⟨_, Option.some.inj (Eq.trans ?_ newest), sealed⟩
  have head := congrArg List.head? (holds_after first before).newest
  rw [List.head?_take] at head
  simpa using head.symm

end Tickets

/-- After any calls, a ticket comes back exactly while its key is one of the two newest and its
age is within the lifetime, and nothing else is accepted. The ticket's time is one that a
time.Time counts. -/
theorem tickets_survive_rotation {crypto : Crypto Byte} (ideal : AeadIdeal crypto)
    (plain : crypto.fips = false) (first : TicketManager Byte) (calls : List (Call Byte))
    (now : Int) :
    (∀ key ticket data, Issued crypto first calls key ticket data →
      ticket.masterSecret.length = 32 → ticket.createdAt + unixToInternal < 2 ^ 63 → ∀ found,
      decryptTicket crypto (after first calls) now data = .ok found ↔ found = ticket ∧
        key ∈ (keys first calls).take 2 ∧ since now ticket.createdAt ≤ first.lifetime) ∧
    ∀ data, Unforged crypto first calls data →
      (∀ key ticket, Issued crypto first calls key ticket data → key ∉ (keys first calls).take 2) →
      decryptTicket crypto (after first calls) now data = .error (.err .invalidTicket) := by
  refine ⟨fun key ticket data issued secret late found => ?_, fun data unforged foreign => ?_⟩
  · obtain ⟨tm, rfl, sealed⟩ := issued.sealed
    have early := (encryptTicket_ok_iff.mp sealed).1
    unfold unixToInternal at late
    obtain ⟨size, seconds, same⟩ := parseTicket_plaintext secret early (by omega)
    simp only [decryptTicket_ok_iff plain, opened_issued ideal sealed, mem_newest,
      (holds_after first calls).lifetime]
    constructor
    · rintro ⟨_, ⟨rfl, held⟩, -, -, young, rfl⟩
      rw [same] at young ⊢
      exact ⟨rfl, held, young⟩
    · rintro ⟨rfl, held, young⟩
      exact ⟨_, ⟨rfl, held⟩, size, seconds, by rwa [same], same⟩
  · have closed (key : List Byte) (held : key ∈ (keys first calls).take 2) :
        ∃ stop, decryptWithKey crypto data key = .error stop := by
      cases opens : decryptWithKey crypto data key with
      | error stop => exact ⟨stop, rfl⟩
      | ok text =>
        obtain ⟨ticket, issued⟩ := unforged key held text (decryptWithKey_ok_iff.mp opens).2.2
        exact absurd held (foreign key ticket issued)
    obtain ⟨stop, current⟩ := closed _ (mem_newest.mpr (.inl rfl))
    rw [decryptTicket, current]
    cases previous : (after first calls).previousKey with
    | none => rfl
    | some key =>
      obtain ⟨stop', second⟩ := closed key (mem_newest.mpr (.inr previous))
      dsimp only
      rw [second]

/-- Of two tickets, the one whose key was replaced twice is refused. -/
theorem tickets_survive_one_rotation :
    let crypto : Crypto Letter := ⟨symbolic, false⟩
    let first : TicketManager Letter := ⟨List.replicate 32 (lit 7), none, 1, rfl⟩
    let ticket : SessionTicket Letter := ⟨1, 1, List.replicate 32 (lit 5), 9⟩
    let calls : List (Call Letter) :=
      [.encryptTicket ticket, .rotateKey (List.replicate 32 (lit 8)),
      .encryptTicket ticket, .rotateKey (List.replicate 32 (lit 9))]
    ∃ old young, encryptTicket crypto first ticket = .ok old ∧
      encryptTicket crypto (after first (calls.take 2)) ticket = .ok young ∧
      decryptTicket crypto (after first calls) (9 * 10 ^ 9) young = .ok ticket ∧
      decryptTicket crypto (after first calls) (9 * 10 ^ 9) old = .error (.err .invalidTicket) := by
  intro crypto first ticket calls
  have ideal : AeadIdeal crypto := symbolic_seal
  obtain ⟨accepts, refuses⟩ := tickets_survive_rotation ideal rfl first calls (9 * 10 ^ 9)
  have sealed (tm : TicketManager Letter) : encryptTicket crypto tm ticket = .ok _ :=
    encryptTicket_ok_iff.mpr ⟨by decide, rfl⟩
  have replaced : first.currentKey ∉ (keys first calls).take 2 := by decide
  refine ⟨_, _, sealed first, sealed _, ?_, refuses _ (fun key held text opened => ?_) ?_⟩
  · exact (accepts _ ticket _ ⟨calls.take 2, _, rfl, rfl, sealed _⟩ rfl (by decide) ticket).mpr
      ⟨rfl, by decide, by decide⟩
  · obtain ⟨rfl, -⟩ := (openText_issued ideal (sealed first)).mp opened
    exact absurd held replaced
  · intro key other issued
    obtain ⟨tm, rfl, again⟩ := issued.sealed
    obtain ⟨same, -⟩ := (openText_issued ideal (sealed first)).mp
      ((openText_issued ideal again).mpr ⟨rfl, rfl⟩)
    rwa [same]

end QuantumGo.TicketRotation
