import QuantumGo.SealingRuns
import QuantumGo.SendFailures

/-!
When a session asks for a rekey (NeedsRekey, pkg/tunnel/session.go). The count of records and
the age belong to the key in use. The bytes and packets sent belong to the session, and no
rekey sets them back: once one of them has passed its limit, every key is worn from its first
record on. Readings of the clock are in nanoseconds; comparing them as a `float64` of seconds
with a whole number of seconds comes to the same.
-/

namespace QuantumGo.RekeyTriggers

open Octets Symbolic Interleaving Aead Tunnel Records SymbolicKem
open SessionReplay SendFailures
open SealingRuns (decrypt_keeps initiateRekey_keeps prepareRekeyResponse_keeps rekey_switches
  processRekeyResponse_switches activateRekeySend_switches activatePendingKeys_switches)
open FlightSpecs (liftErr_bind_ok_iff)

def maxBytesBeforeRekey : Nat := 2 ^ 36
def maxSessionDuration : Int := 3600 * 10 ^ 9

structure Metered (Byte : Type) where
  session : Session Byte
  bytesSent : Int
  packetsSent : Int

variable {Byte : Type} [Octet Byte]

def sealedText (crypto : Crypto Byte) : Op Byte → Session Byte → Option (List Byte)
  | .encrypt plaintext, s => (encrypt crypto plaintext s).1.toOption.map fun _ => plaintext
  | _, _ => none

def step (crypto : Crypto Byte) (m : Metered Byte) (op : Op Byte) : Metered Byte :=
  match sealedText crypto op m.session with
  | some plaintext =>
    { session := perform crypto m.session op
      bytesSent := int64 (m.bytesSent + plaintext.length)
      packetsSent := int64 (m.packetsSent + 1) }
  | none => { m with session := perform crypto m.session op }

def after (crypto : Crypto Byte) (ops : List (Op Byte)) (m : Metered Byte) : Metered Byte :=
  run (step crypto) ops m

def sealedTexts (crypto : Crypto Byte) : List (Op Byte) → Session Byte → List (List Byte)
  | [], _ => []
  | op :: rest, s =>
    (sealedText crypto op s).toList ++ sealedTexts crypto rest (perform crypto s op)

/-- The limits on bytes, packets and time. A session that was never keyed has the zero time,
which is more than any limit ago. -/
def worn (clock : Int) (m : Metered Byte) : Bool :=
  decide (m.bytesSent ≥ maxBytesBeforeRekey) || decide (m.packetsSent ≥ maxPacketsBeforeRekey) ||
    m.session.establishedAt.elim true fun since => decide (clock - since ≥ maxSessionDuration)

def needsRekeyAt (clock : Int) (m : Metered Byte) : Bool := needsRekey (worn clock m) m.session

def tenure (s : Session Byte) : Option (Cipher Byte) × Nat × Option Int :=
  (s.sendCipher, s.sendEpochStartSeq, s.establishedAt)

/-- The call leaves the key in place. -/
def Leaves (crypto : Crypto Byte) (s : Session Byte) (op : Op Byte) : Prop :=
  tenure (perform crypto s op) = tenure s

def Due (texts : List (List Byte)) (elapsed : Int) : Prop :=
  texts.length ≥ datagramRekeyHighWater ∨ (texts.map List.length).sum ≥ maxBytesBeforeRekey ∨
    elapsed ≥ maxSessionDuration

variable {crypto : Crypto Byte} {m : Metered Byte}

/-! One call. -/

section Calls
variable {s s' : Session Byte}

theorem perform_sendSeq (op : Op Byte) (other : ∀ plaintext, op ≠ .encrypt plaintext) :
    (perform crypto s op).sendSeq = s.sendSeq := by
  cases op with
  | encrypt plaintext => exact absurd rfl (other plaintext)
  | decrypt ciphertext seq => exact congrArg Prod.fst (decrypt_keeps ciphertext seq.toNat s)
  | rekey now secret => exact (rekey_switches now secret s).sendSeq
  | initiateRekey coins => exact congrArg Prod.fst (initiateRekey_keeps coins s)
  | prepareRekeyResponse coins publicKey seq =>
    exact congrArg Prod.fst (prepareRekeyResponse_keeps coins publicKey seq.toNat s)
  | processRekeyResponse now ciphertext =>
    exact (processRekeyResponse_switches now ciphertext s).sendSeq
  | activateRekeySend now => exact (activateRekeySend_switches now s).sendSeq
  | activatePendingKeys now => exact (activatePendingKeys_switches now s).sendSeq

theorem perform_encrypt (plaintext : List Byte) :
    perform crypto s (.encrypt plaintext) = numbered s := by
  by_cases seals : Seals s
  · obtain ⟨cipher, -, ran⟩ := encrypt_seals crypto plaintext seals
    rw [perform, ran]
  · obtain ⟨stop, -, ran⟩ := encrypt_refuses crypto plaintext seals
    rw [perform, ran]

theorem sealedText_encrypt (plaintext : List Byte) (seals : Seals s) :
    sealedText crypto (.encrypt plaintext) s = some plaintext := by
  obtain ⟨cipher, -, ran⟩ := encrypt_seals crypto plaintext seals
  rw [sealedText, ran]
  rfl

theorem perform_bounded (op : Op Byte) (bounded : s.sendSeq < seqLimit) :
    (perform crypto s op).sendSeq < seqLimit := by
  by_cases encrypts : ∃ plaintext, op = .encrypt plaintext
  · obtain ⟨plaintext, rfl⟩ := encrypts
    rw [perform_encrypt]
    exact Nat.mod_lt _ (by decide)
  · rw [perform_sendSeq op fun plaintext same => encrypts ⟨plaintext, same⟩]
    exact bounded

theorem processRekeyResponse_renews {now : Int} {ciphertext : List Byte}
    (completed : (processRekeyResponse crypto now ciphertext s).1 = .ok ()) : ∃ cipher,
    tenure (processRekeyResponse crypto now ciphertext s).2 = (some cipher, s.sendSeq, some now) ∧
      (processRekeyResponse crypto now ciphertext s).2.sendSeq = s.sendSeq := by
  have outcome := RecordTypes.processRekeyResponse_completes crypto s ciphertext now
  generalize processRekeyResponse crypto now ciphertext s = run at outcome completed ⊢
  cases outcome with
  | refused => cases completed
  | completed _ _ _ _ _ send => exact ⟨send, rfl, rfl⟩

end Calls

/-! What the counters say while a key is in use. -/

/-- The session as it was when its key came in, and as it is when the key has sealed these
texts. The number is followed up to the hard cap, where Encrypt starts to refuse. -/
structure Since (base : Metered Byte) (texts : List (List Byte)) (m : Metered Byte) : Prop where
  kept : tenure m.session = tenure base.session
  bytes : m.bytesSent = int64 (base.bytesSent + (texts.map List.length).sum)
  packets : m.packetsSent = int64 (base.packetsSent + texts.length)
  number : maxPacketsBeforeRekey ≤ texts.length ∨
    m.session.sendSeq = (base.session.sendSeq + texts.length) % seqLimit

variable {base : Metered Byte} {texts : List (List Byte)}

section Runs

def Fresh (m : Metered Byte) : Prop :=
  m.session.sendCipher.isSome = true ∧ m.session.sendEpochStartSeq = m.session.sendSeq ∧
    m.session.sendSeq < seqLimit

theorem step_session (op : Op Byte) : (step crypto m op).session = perform crypto m.session op := by
  unfold step
  split <;> rfl

section Tenure
variable (fresh : Fresh base) (since : Since base texts m)
include fresh since

omit [Octet Byte] in
/-- Below the hard cap nothing keeps the key from sealing. -/
theorem Since.seals (young : texts.length < maxPacketsBeforeRekey) : Seals m.session := by
  obtain ⟨keyed, start, bounded⟩ := fresh
  obtain ⟨cipher, epoch, -⟩ : m.session.sendCipher = base.session.sendCipher ∧
      m.session.sendEpochStartSeq = base.session.sendEpochStartSeq ∧ _ := by
    simpa only [tenure, Prod.mk.injEq] using since.kept
  refine ⟨cipher ▸ keyed, ?_⟩
  rcases since.number with spent | number
  · omega
  · rw [epoch, start, number]
    unfold maxPacketsBeforeRekey seqLimit at *
    omega

theorem Since.encrypt (plaintext : List Byte)
    (kept : tenure (perform crypto m.session (.encrypt plaintext)) = tenure base.session) :
    Since base (texts ++ (sealedText crypto (.encrypt plaintext) m.session).toList)
      (step crypto m (.encrypt plaintext)) := by
  cases sealedAs : sealedText crypto (.encrypt plaintext) m.session with
  | none =>
    rw [step, sealedAs, Option.toList_none, List.append_nil]
    refine ⟨kept, since.bytes, since.packets, .inl (not_lt.mp fun young => ?_)⟩
    rw [sealedText_encrypt plaintext (since.seals fresh young)] at sealedAs
    cases sealedAs
  | some text =>
    rw [step, sealedAs, Option.toList_some]
    dsimp only
    refine ⟨kept, ?_, ?_, ?_⟩
    · rw [since.bytes, int64_add, List.map_append, List.sum_append]
      simp [add_assoc]
    · rw [since.packets, int64_add]
      simp [add_assoc]
    · rw [List.length_append, List.length_singleton]
      refine since.number.imp (fun spent => by omega) fun number => ?_
      rw [perform_encrypt, numbered, number, Nat.mod_add_mod, Nat.add_assoc]

theorem Since.step (op : Op Byte)
    (leaves : tenure (perform crypto m.session op) = tenure m.session) :
    Since base (texts ++ (sealedText crypto op m.session).toList) (step crypto m op) := by
  have kept := leaves.trans since.kept
  by_cases encrypts : ∃ plaintext, op = .encrypt plaintext
  · obtain ⟨plaintext, rfl⟩ := encrypts
    exact since.encrypt fresh plaintext kept
  · have silent : sealedText crypto op m.session = none := by
      cases op with
      | encrypt plaintext => exact absurd ⟨plaintext, rfl⟩ encrypts
      | _ => rfl
    have still : (perform crypto m.session op).sendSeq = m.session.sendSeq :=
      perform_sendSeq op fun plaintext same => encrypts ⟨plaintext, same⟩
    rw [RekeyTriggers.step, silent, Option.toList_none, List.append_nil]
    exact ⟨kept, since.bytes, since.packets, since.number.imp_right still.trans⟩

theorem Since.run (later : List (Op Byte))
    (leaves : Along (perform crypto) (Leaves crypto) later m.session) :
    Since base (texts ++ sealedTexts crypto later m.session) (after crypto later m) := by
  induction later generalizing m texts with
  | nil => simpa [sealedTexts, after, run] using since
  | cons op rest ih =>
    have next := since.step fresh op leaves.1
    rw [sealedTexts, after, ← List.append_assoc, ← step_session]
    exact ih next (step_session op ▸ leaves.2)

omit [Octet Byte] in
/-- The age that NeedsRekey sees is the number of records sealed. -/
theorem Since.age (young : texts.length < maxPacketsBeforeRekey) :
    (m.session.sendSeq + seqLimit - m.session.sendEpochStartSeq) % seqLimit = texts.length := by
  obtain ⟨-, start, bounded⟩ := fresh
  obtain ⟨-, epoch, -⟩ : _ ∧ m.session.sendEpochStartSeq = base.session.sendEpochStartSeq ∧ _ := by
    simpa only [tenure, Prod.mk.injEq] using since.kept
  rcases since.number with spent | number
  · omega
  · rw [epoch, start, number]
    unfold maxPacketsBeforeRekey seqLimit at *
    omega

end Tenure

omit [Octet Byte] in
/-- NeedsRekey, as long as the key is below the hard cap. -/
theorem Since.needsRekeyAt_iff {clock since : Int} (fresh : Fresh base) (held : Since base texts m)
    (keyed : base.session.establishedAt = some since)
    (young : texts.length < maxPacketsBeforeRekey) :
    needsRekeyAt clock m = true ↔ texts.length ≥ datagramRekeyHighWater ∨
      m.bytesSent ≥ maxBytesBeforeRekey ∨ m.packetsSent ≥ maxPacketsBeforeRekey ∨
      clock - since ≥ maxSessionDuration := by
  obtain ⟨cipher, -, established⟩ : m.session.sendCipher = base.session.sendCipher ∧ _ ∧
      m.session.establishedAt = base.session.establishedAt := by
    simpa only [tenure, Prod.mk.injEq] using held.kept
  have present : m.session.sendCipher.isSome = true := cipher ▸ fresh.1
  simp only [needsRekeyAt, needsRekey, worn, present, held.age fresh young, established, keyed,
    Option.elim_some, Bool.true_and, Bool.or_eq_true, decide_eq_true_eq, or_assoc]

end Runs

/-! Histories. -/

structure Ranged (m : Metered Byte) : Prop where
  number : m.session.sendSeq < seqLimit
  bytes : -2 ^ 63 ≤ m.bytesSent ∧ m.bytesSent ≤ maxInt
  packets : -2 ^ 63 ≤ m.packetsSent ∧ m.packetsSent ≤ maxInt

section Histories

theorem Ranged.step (ranged : Ranged m) (op : Op Byte) : Ranged (step crypto m op) := by
  have number : (perform crypto m.session op).sendSeq < seqLimit := perform_bounded op ranged.number
  unfold RekeyTriggers.step
  split
  · exact ⟨number, ⟨int64_low _, int64_high _⟩, int64_low _, int64_high _⟩
  · exact ⟨number, ranged.bytes, ranged.packets⟩

theorem Ranged.after (ranged : Ranged m) (history : List (Op Byte)) :
    Ranged (after crypto history m) :=
  kept_run (fun _ op ranged => ranged.step op) history ranged

omit [Octet Byte] in
theorem ranged_new {s : Session Byte} (counted : s.sendSeq < seqLimit) : Ranged ⟨s, 0, 0⟩ := by
  have zero : (-2 ^ 63 : Int) ≤ 0 ∧ 0 ≤ maxInt := by decide
  exact ⟨counted, zero, zero⟩

omit [Octet Byte] in
theorem Ranged.since (ranged : Ranged m) : Since m [] m := by
  refine ⟨rfl, ?_, ?_, .inr ?_⟩
  · simp [int64_of_bounded ranged.bytes.1 ranged.bytes.2]
  · simp [int64_of_bounded ranged.packets.1 ranged.packets.2]
  · exact (Nat.mod_eq_of_lt ranged.number).symm

omit [Octet Byte] in
/-- Under the bounds, NeedsRekey does not ask before the key is due. -/
theorem Since.due {clock now : Int} (fresh : Fresh base) (since : Since base texts m)
    (ranged : Ranged base) (keyed : base.session.establishedAt = some now)
    (bytes : base.bytesSent ≤ 0)
    (packets : base.packetsSent + datagramRekeyHighWater ≤ maxPacketsBeforeRekey)
    (asks : needsRekeyAt clock m = true) : Due texts (clock - now) := by
  by_contra early
  obtain ⟨few, small, soon⟩ : ¬_ ∧ ¬_ ∧ ¬_ := by simpa only [Due, not_or] using early
  have cap : datagramRekeyHighWater < maxPacketsBeforeRekey := by decide
  have limits : maxPacketsBeforeRekey = 2 ^ 28 ∧ maxBytesBeforeRekey = 2 ^ 36 ∧
      maxInt = 2 ^ 63 - 1 :=
    ⟨rfl, rfl, rfl⟩
  obtain ⟨low, -⟩ := ranged.bytes
  obtain ⟨low', -⟩ := ranged.packets
  have total := since.bytes.trans (int64_of_bounded (by omega) (by omega))
  have count := since.packets.trans (int64_of_bounded (by omega) (by omega))
  rcases (since.needsRekeyAt_iff fresh keyed (by omega)).mp asks with many | wide | long | late
  · exact few many
  · omega
  · omega
  · exact soon late

/-- A young key seals whatever comes. -/
theorem Since.encrypts (fresh : Fresh base) (since : Since base texts m)
    (plaintexts : List (List Byte))
    (room : texts.length + plaintexts.length ≤ maxPacketsBeforeRekey) :
    Along (perform crypto) (Leaves crypto) (plaintexts.map .encrypt) m.session ∧
      sealedTexts crypto (plaintexts.map .encrypt) m.session = plaintexts := by
  induction plaintexts generalizing m texts with
  | nil => exact ⟨trivial, rfl⟩
  | cons plaintext rest ih =>
    rw [List.length_cons] at room
    have leaves : tenure (perform crypto m.session (.encrypt plaintext)) = tenure m.session := by
      rw [perform_encrypt]
      rfl
    have sealedAs : sealedText crypto (.encrypt plaintext) m.session = some plaintext :=
      sealedText_encrypt plaintext (since.seals fresh (by omega))
    have next := since.step fresh (.encrypt plaintext) leaves
    rw [sealedAs, Option.toList_some] at next
    obtain ⟨rests, all⟩ := ih next (by rw [List.length_append, List.length_singleton]; omega)
    rw [step_session] at rests all
    refine ⟨⟨leaves, rests⟩, ?_⟩
    rw [List.map_cons, sealedTexts, sealedAs, all]
    rfl

/-- Where NeedsRekey can be brought to ask although the key is not due. -/
theorem early_request (crypto : Crypto Byte) {now : Int} (fresh : Fresh base) (ranged : Ranged base)
    (keyed : base.session.establishedAt = some now) (total : ¬(base.bytesSent ≤ 0 ∧
      base.packetsSent + datagramRekeyHighWater ≤ maxPacketsBeforeRekey)) :
    ∃ later, Along (perform crypto) (Leaves crypto) later base.session ∧
      needsRekeyAt now (after crypto later base) = true ∧
      ¬Due (sealedTexts crypto later base.session) (now - now) := by
  have limits : maxPacketsBeforeRekey = 2 ^ 28 ∧ maxBytesBeforeRekey = 2 ^ 36 ∧
      maxInt = 2 ^ 63 - 1 :=
    ⟨rfl, rfl, rfl⟩
  have water : datagramRekeyHighWater = 241591910 := rfl
  have hour : maxSessionDuration = 3600 * 10 ^ 9 := rfl
  -- Two long records, or as many empty ones as are missing.
  obtain ⟨plaintexts, few, small, reached⟩ : ∃ plaintexts : List (List Byte),
      plaintexts.length < datagramRekeyHighWater ∧
      (plaintexts.map List.length).sum < maxBytesBeforeRekey ∧
      (int64 (base.bytesSent + (plaintexts.map List.length).sum) ≥ maxBytesBeforeRekey ∨
        int64 (base.packetsSent + plaintexts.length) ≥ maxPacketsBeforeRekey) := by
    by_cases bytes : base.bytesSent ≤ 0
    · have packets : ¬base.packetsSent + datagramRekeyHighWater ≤ maxPacketsBeforeRekey :=
        fun few => total ⟨bytes, few⟩
      refine ⟨List.replicate (maxPacketsBeforeRekey - base.packetsSent).toNat [], ?_, ?_, .inr ?_⟩
      · rw [List.length_replicate]
        omega
      · simp [maxBytesBeforeRekey]
      · have bounds := ranged.packets
        rw [List.length_replicate, int64_of_bounded (by omega) (by omega)]
        omega
    · refine ⟨[List.replicate ((maxBytesBeforeRekey - base.bytesSent).toNat / 2) (lit 0),
        List.replicate (((maxBytesBeforeRekey - base.bytesSent).toNat + 1) / 2) (lit 0)],
        (show 2 < datagramRekeyHighWater by decide), ?_, .inl ?_⟩
      · simp only [List.map_cons, List.map_nil, List.sum_cons, List.sum_nil, List.length_replicate]
        omega
      · have bounds := ranged.bytes
        simp only [List.map_cons, List.map_nil, List.sum_cons, List.sum_nil, List.length_replicate]
        rw [int64_of_bounded (by omega) (by omega)]
        omega
  obtain ⟨leaves, texts⟩ : Along (perform crypto) (Leaves crypto) (plaintexts.map .encrypt)
      base.session ∧ _ :=
    ranged.since.encrypts fresh plaintexts (by simp only [List.length_nil]; omega)
  have since := ranged.since.run fresh _ leaves
  rw [texts, List.nil_append] at since
  refine ⟨_, leaves, (since.needsRekeyAt_iff fresh keyed (by omega)).mpr ?_, ?_⟩
  · rw [since.bytes, since.packets]
    exact .inr (reached.imp_right .inl)
  · rw [texts, Due]
    omega

end Histories

/-- A completed rekey resets the triggers, so that none fires before the new key itself is
due, exactly if the session's own totals leave it its whole budget: no byte has been sent, and
at most the packets between the two packet limits. -/
theorem rekey_resets_triggers_iff {crypto : Crypto Byte} {s₀ : Session Byte}
    (counted : s₀.sendSeq < seqLimit) (history : List (Op Byte)) {m : Metered Byte}
    (reached : m = after crypto history ⟨s₀, 0, 0⟩) {now : Int} {ciphertext : List Byte}
    (completed : (processRekeyResponse crypto now ciphertext m.session).1 = .ok ()) :
    (∀ later clock,
      Along (perform crypto) (Leaves crypto) later
        (perform crypto m.session (.processRekeyResponse now ciphertext)) →
      needsRekeyAt clock
        (after crypto later (step crypto m (.processRekeyResponse now ciphertext))) = true →
      Due (sealedTexts crypto later (perform crypto m.session
        (.processRekeyResponse now ciphertext))) (clock - now)) ↔
    m.bytesSent ≤ 0 ∧ m.packetsSent + datagramRekeyHighWater ≤ maxPacketsBeforeRekey := by
  have ranged : Ranged m := reached ▸ (ranged_new counted).after history
  have ranged' : Ranged (step crypto m (.processRekeyResponse now ciphertext)) := ranged.step _
  obtain ⟨cipher, held, number⟩ := processRekeyResponse_renews completed
  obtain ⟨send, epoch, keyed⟩ := by simpa only [tenure, Prod.mk.injEq] using held
  have fresh : Fresh (step crypto m (.processRekeyResponse now ciphertext)) :=
    ⟨by rw [step_session]; simp [perform, send],
      by rw [step_session]; exact epoch.trans number.symm, ranged'.number⟩
  constructor
  · intro resets
    by_contra total
    obtain ⟨later, leaves, asks, early⟩ := early_request crypto fresh ranged' keyed total
    exact early (resets later now leaves asks)
  · rintro ⟨bytes, packets⟩ later clock leaves asks
    exact (ranged'.since.run fresh later leaves).due fresh ranged' keyed bytes packets asks

/-- A session that rekeys when all it has sent is an empty record. -/
theorem rekey_resets_triggers_at_once : ∃ s₀, IsStream .initiator s₀ ∧
    let m := after env.toCrypto [.encrypt [], .initiateRekey []] ⟨s₀, 0, 0⟩
    let rekeyed := step env.toCrypto m (.processRekeyResponse 5 (List.replicate 1600 (lit 0)))
    m.packetsSent = 1 ∧ ∀ later clock,
      Along (perform env.toCrypto) (Leaves env.toCrypto) later rekeyed.session →
      needsRekeyAt clock (after env.toCrypto later rekeyed) = true →
      Due (sealedTexts env.toCrypto later rekeyed.session) (clock - 5) := by
  refine ⟨_, ⟨_, rfl, rfl⟩, by decide +kernel, ?_⟩
  dsimp only
  rw [step_session]
  refine (rekey_resets_triggers_iff (by decide +kernel) [.encrypt [], .initiateRekey []] rfl
    ?_).mpr ?_
  · decide +kernel
  · decide +kernel

theorem encrypts_session (plaintexts : List (List Byte)) (bounded : m.session.sendSeq < seqLimit) :
    (after crypto (plaintexts.map .encrypt) m).session =
      { m.session with sendSeq := (m.session.sendSeq + plaintexts.length) % seqLimit } := by
  induction plaintexts generalizing m with
  | nil => simp [after, run, Nat.mod_eq_of_lt bounded]
  | cons plaintext rest ih =>
    have next : (step crypto m (.encrypt plaintext)).session = numbered m.session := by
      rw [step_session, perform_encrypt]
    refine (ih (next ▸ Nat.mod_lt _ (by decide))).trans ?_
    rw [next, numbered, List.length_cons]
    dsimp only
    rw [Nat.mod_add_mod, Nat.add_assoc, Nat.add_comm 1]

/-- A session that has sent its bytes once, in records of 16 KiB: right behind the rekey it
asks for the next one. -/
theorem rekey_asks_again : ∃ s₀ m, IsStream .initiator s₀ ∧
    m = after env.toCrypto ((List.replicate (2 ^ 22) (List.replicate (2 ^ 14) (lit 0))).map
      .encrypt ++ [.initiateRekey []]) ⟨s₀, 0, 0⟩ ∧
    (processRekeyResponse env.toCrypto 5 (List.replicate 1600 (lit 0)) m.session).1 = .ok () ∧
    needsRekeyAt 5 (step env.toCrypto m
      (.processRekeyResponse 5 (List.replicate 1600 (lit 0)))) = true := by
  obtain ⟨s₀, new, made, keyed⟩ : ∃ s₀, IsStream .initiator s₀ := ⟨_, _, rfl, rfl⟩
  have fresh : Fresh (⟨s₀, 0, 0⟩ : Metered Letter) := by
    obtain rfl := Except.ok.inj made
    obtain rfl := (Prod.mk.inj keyed).2
    exact ⟨rfl, rfl, by decide +kernel⟩
  have ranged := ranged_new fresh.2.2
  generalize records : List.replicate (2 ^ 22) (List.replicate (2 ^ 14) (lit 0 : Letter)) =
    plaintexts
  have count : plaintexts.length = 2 ^ 22 := by rw [← records, List.length_replicate]
  have total : (plaintexts.map List.length).sum = 2 ^ 36 := by
    rw [← records, List.map_replicate, List.sum_replicate_nat, List.length_replicate]
    rfl
  obtain ⟨leaves, texts⟩ : Along (perform env.toCrypto) (Leaves env.toCrypto) _ s₀ ∧ _ :=
    ranged.since.encrypts fresh plaintexts (by rw [count]; decide)
  have since := ranged.since.run fresh _ leaves
  have session : (after env.toCrypto (plaintexts.map .encrypt) ⟨s₀, 0, 0⟩).session = _ :=
    encrypts_session plaintexts fresh.2.2
  have bytes := since.bytes
  have packets := since.packets
  rw [texts, List.nil_append] at bytes packets
  rw [total] at bytes
  rw [count] at session packets
  refine ⟨s₀, _, ⟨new, made, keyed⟩, rfl, ?_⟩
  rw [show after env.toCrypto (plaintexts.map .encrypt ++ [.initiateRekey []]) ⟨s₀, 0, 0⟩ =
    step env.toCrypto (after env.toCrypto (plaintexts.map .encrypt) ⟨s₀, 0, 0⟩) (.initiateRekey [])
    from run_append _ _ _ _]
  generalize after env.toCrypto (plaintexts.map .encrypt) ⟨s₀, 0, 0⟩ = m at session bytes packets
  obtain ⟨session, bytesSent, packetsSent⟩ := m
  dsimp only at session bytes packets
  subst session bytes packets
  obtain rfl := Except.ok.inj made
  obtain rfl := (Prod.mk.inj keyed).2
  exact ⟨by decide +kernel, by decide +kernel⟩

end QuantumGo.RekeyTriggers
