import QuantumGo.DatagramSpecs
import QuantumGo.Interleaving
import QuantumGo.ReplayFilter

/-!
Whether Session.Decrypt opens a record twice. The replay window, the receive cipher and the
pending one are separate fields. What links them: every record opened under a cipher that is
still held has its number in the window, and the pending cipher has opened nothing. Only
ActivatePendingKeys can break the link, when it clears the window and has no new cipher to
put in place of the old one.
-/

namespace QuantumGo.SessionReplay

open Octets Effect Symbolic Interleaving Wire Aead KeySchedule Kem Tunnel Records RecordTypes
  SymbolicKem
open ReplayWindow ReplayFilter
open DatagramSpecs (trafficKey trafficKey_injective deriveDatagramCiphers_ok_iff)
open FlightSpecs (liftErr_bind_ok_iff newSession_ok initializeKeys_ok_iff)

/-- The calls on the receiving session, with the draws and clock readings made in each. -/
inductive Op (Byte : Type) where
  | encrypt (plaintext : List Byte)
  | decrypt (ciphertext : List Byte) (seq : UInt64)
  | rekey (now : Int) (newMasterSecret : List Byte)
  | initiateRekey (coins : List Byte)
  | prepareRekeyResponse (coins newPublicKey : List Byte) (activationSeq : UInt64)
  | processRekeyResponse (now : Int) (ciphertext : List Byte)
  | activateRekeySend (now : Int)
  | activatePendingKeys (now : Int)

variable {Byte : Type} [Octet Byte]

def perform (crypto : Crypto Byte) (s : Session Byte) : Op Byte → Session Byte
  | .encrypt plaintext => (encrypt crypto plaintext s).2
  | .decrypt ciphertext seq => (decrypt crypto ciphertext seq.toNat s).2
  | .rekey now newMasterSecret => (rekey crypto now newMasterSecret s).2
  | .initiateRekey coins => (initiateRekey coins s).2
  | .prepareRekeyResponse coins newPublicKey activationSeq =>
    (prepareRekeyResponse crypto coins newPublicKey activationSeq.toNat s).2
  | .processRekeyResponse now ciphertext => (processRekeyResponse crypto now ciphertext s).2
  | .activateRekeySend now => (activateRekeySend now s).2
  | .activatePendingKeys now => (activatePendingKeys now s).2

def opens (crypto : Crypto Byte) : Op Byte → Session Byte → Option (List Byte)
  | .decrypt ciphertext seq, s =>
    (decrypt crypto ciphertext seq.toNat s).1.toOption.map fun _ => ciphertext
  | _, _ => none

def opened (crypto : Crypto Byte) : List (Op Byte) → Session Byte → List (List Byte)
  | [], _ => []
  | op :: rest, s => (opens crypto op s).toList ++ opened crypto rest (perform crypto s op)

def draws (crypto : Crypto Byte) : Op Byte → Session Byte → Option (List Byte)
  | .rekey _ newMasterSecret, _ => some newMasterSecret
  | .prepareRekeyResponse coins newPublicKey activationSeq, s =>
    match prepareRekeyResponse crypto coins newPublicKey activationSeq.toNat s with
    | (.ok _, s') => s'.pendingRekeySecret
    | _ => none
  | .processRekeyResponse now ciphertext, s =>
    match processRekeyResponse crypto now ciphertext s with
    | (.ok _, s') => s'.masterSecret
    | _ => none
  | _, _ => none

def FreshSecrets (crypto : Crypto Byte) : List (List Byte) → List (Op Byte) → Session Byte → Prop
  | _, [], _ => True
  | used, op :: rest, s => (∀ secret ∈ draws crypto op s, secret ∉ used) ∧
      FreshSecrets crypto ((draws crypto op s).toList ++ used) rest (perform crypto s op)

/-- ActivatePendingKeys finds a receive cipher to activate, if it does anything at all. -/
def Replaces (s : Session Byte) : Op Byte → Prop
  | .activatePendingKeys _ => s.rekeyInProgress = true → s.pendingRecvCipher.isSome = true
  | _ => True

instance (s : Session Byte) (op : Op Byte) : Decidable (Replaces s op) := by
  cases op with
  | activatePendingKeys now => exact inferInstanceAs (Decidable (_ → _))
  | _ => exact .isTrue trivial

/-! What a call other than Decrypt does to the window and the receive ciphers. -/

def MadeOf (crypto : Crypto Byte) (secret : List Byte) (cipher : Cipher Byte) : Prop :=
  secret.length = sharedSecretSize ∧ ∃ role, cipher.key = trafficKey crypto role secret

/-- The receiving half of the session: the same, with a new pending cipher, with a new
cipher and an empty window, or with the pending cipher in place and an empty window. -/
inductive Turns (crypto : Crypto Byte) (drawn : Option (List Byte)) (s s' : Session Byte) : Prop
  | still (recv : s'.recvCipher = s.recvCipher)
      (pending : s'.pendingRecvCipher = s.pendingRecvCipher)
      (window : s'.replayWindow = s.replayWindow)
  | prepares (secret : List Byte) (cipher : Cipher Byte) (new : drawn = some secret)
      (made : MadeOf crypto secret cipher) (recv : s'.recvCipher = s.recvCipher)
      (pending : s'.pendingRecvCipher = some cipher) (window : s'.replayWindow = s.replayWindow)
  | renews (secret : List Byte) (cipher : Cipher Byte) (new : drawn = some secret)
      (made : MadeOf crypto secret cipher) (recv : s'.recvCipher = some cipher)
      (pending : s'.pendingRecvCipher = s.pendingRecvCipher) (window : s'.replayWindow = newWindow)
  | activates (cipher : Cipher Byte) (ready : s.pendingRecvCipher = some cipher)
      (recv : s'.recvCipher = some cipher) (pending : s'.pendingRecvCipher = none)
      (window : s'.replayWindow = newWindow)

variable {drawn : Option (List Byte)} {secret : List Byte} {cipher : Cipher Byte}

section Calls
variable {crypto : Crypto Byte} {s s' : Session Byte}

theorem Turns.unmoved (same : s' = s) : Turns crypto drawn s s' := by
  subst same
  exact .still rfl rfl rfl

/-- The receive cipher of `role` under a secret. -/
theorem madeOf {keys : List Byte × List Byte} {suite : UInt16}
    (derived : deriveTrafficKeys crypto secret = .ok keys)
    (made : newAEAD crypto suite keys.1 = .ok cipher ∨ newAEAD crypto suite keys.2 = .ok cipher) :
    MadeOf crypto secret cipher := by
  obtain ⟨size, -, rfl⟩ := deriveTrafficKeys_ok_iff.mp derived
  refine ⟨size, ?_⟩
  rcases made with made | made
  · exact ⟨.initiator, newAEAD_key made⟩
  · exact ⟨.responder, newAEAD_key made⟩

theorem encrypt_turns (plaintext : List Byte) :
    Turns crypto none s (encrypt crypto plaintext s).2 := by
  rw [encrypt_state]
  exact .still rfl rfl rfl

theorem initiateRekey_turns (coins : List Byte) :
    Turns crypto none s (initiateRekey coins s).2 := by
  obtain ⟨stop, run⟩ | ⟨keyPair, -, -, -, run⟩ := initiateRekey_cases s coins <;> rw [run] <;>
    exact .still rfl rfl rfl

theorem activateRekeySend_turns (now : Int) : Turns crypto none s (activateRekeySend now s).2 := by
  rw [activateRekeySend, read_bind]
  cases s.pendingSendCipher with
  | none | some pending => exact .still rfl rfl rfl

theorem prepareRekeyResponse_turns (coins publicKey : List Byte) (activationSeq : UInt64) :
    Turns crypto (draws crypto (.prepareRekeyResponse coins publicKey activationSeq) s) s
      (perform crypto s (.prepareRekeyResponse coins publicKey activationSeq)) := by
  have outcome := prepareRekeyResponse_prepares crypto s coins publicKey activationSeq.toNat
  simp only [draws, perform]
  generalize prepareRekeyResponse crypto coins publicKey activationSeq.toNat s = run at outcome ⊢
  cases outcome with
  | refused => exact .still rfl rfl rfl
  | prepared _ _ _ secret _ recv _ _ _ _ derived made =>
    exact .prepares secret recv rfl (madeOf derived (.inl made)) rfl rfl rfl

theorem processRekeyResponse_turns (now : Int) (ciphertext : List Byte) :
    Turns crypto (draws crypto (.processRekeyResponse now ciphertext) s) s
      (perform crypto s (.processRekeyResponse now ciphertext)) := by
  have outcome := processRekeyResponse_completes crypto s ciphertext now
  simp only [draws, perform]
  generalize processRekeyResponse crypto now ciphertext s = run at outcome ⊢
  cases outcome with
  | refused => exact .still rfl rfl rfl
  | completed _ _ _ secret _ _ recv _ _ _ _ derived _ made =>
    exact .prepares secret recv rfl (madeOf derived (.inr made)) rfl rfl rfl

theorem rekey_restores (now : Int) (secret : List Byte) : Restores id (rekey crypto now secret) :=
  .bind .read fun _ => .bind (.reject _ _) fun _ =>
    .bind (.lift _) fun _ => .bind (.lift _) fun _ =>
    .bind (.lift _) fun _ => restores_of_unstopped (.write _)

theorem rekey_turns (now : Int) (secret : List Byte) :
    Turns crypto (some secret) s (rekey crypto now secret s).2 := by
  rcases run : rekey crypto now secret s with ⟨stop | done, s'⟩
  · exact .unmoved (rekey_restores now secret s stop s' run)
  · simp only [rekey, read_bind, reject_bind_ok_iff, lift_bind_ok_iff, write_ok_iff] at run
    obtain ⟨-, keys, derived, send, -, recv, made, rfl⟩ := run
    have either : newAEAD crypto s.cipherSuite keys.1 = .ok recv ∨
        newAEAD crypto s.cipherSuite keys.2 = .ok recv := by
      cases role : s.role with
      | initiator => exact .inr (by simpa [role, byRole] using made)
      | responder => exact .inl (by simpa [role, byRole] using made)
    exact .renews secret recv rfl (madeOf derived either) rfl rfl rfl

theorem activatePendingKeys_turns {now : Int} (replaces : Replaces s (.activatePendingKeys now)) :
    Turns crypto none s (activatePendingKeys now s).2 := by
  rw [activatePendingKeys, read_bind]
  split
  · rename_i busy
    obtain ⟨cipher, ready⟩ := Option.isSome_iff_exists.mp (replaces busy)
    exact .activates cipher ready (by simp [finalizeRekeyState, ready]) rfl rfl
  · exact .still rfl rfl rfl

theorem perform_turns (op : Op Byte) (replaces : Replaces s op)
    (other : ∀ ciphertext seq, op ≠ .decrypt ciphertext seq) :
    Turns crypto (draws crypto op s) s (perform crypto s op) := by
  cases op with
  | encrypt plaintext => exact encrypt_turns plaintext
  | decrypt ciphertext seq => exact absurd rfl (other ciphertext seq)
  | rekey now secret => exact rekey_turns now secret
  | initiateRekey coins => exact initiateRekey_turns coins
  | prepareRekeyResponse coins publicKey seq => exact prepareRekeyResponse_turns coins publicKey seq
  | processRekeyResponse now ciphertext => exact processRekeyResponse_turns now ciphertext
  | activateRekeySend now => exact activateRekeySend_turns now
  | activatePendingKeys now => exact activatePendingKeys_turns replaces

end Calls

/-! Runs. -/

def Known (crypto : Crypto Byte) (used : List (List Byte)) (key : List Byte) : Prop :=
  ∃ secret ∈ used, secret.length = sharedSecretSize ∧ ∃ role, key = trafficKey crypto role secret

structure Spent (crypto : Crypto Byte) (used : List (List Byte)) (accepted : Finset Nat)
    (s : Session Byte) (record : List Byte) : Prop where
  sealedAs : ∃ suite key nonce text seq, record =
      crypto.sealText suite key nonce text (toBE 8 seq) ∧ seq < seqLimit ∧ Known crypto used key ∧
    (∀ cipher, s.recvCipher = some cipher → cipher.key = key → seq ∈ accepted) ∧
    ∀ cipher, s.pendingRecvCipher = some cipher → cipher.key ≠ key

structure Recorded (crypto : Crypto Byte) (used : List (List Byte)) (log : List (List Byte))
    (accepted : Finset Nat) (s : Session Byte) : Prop where
  window : Represents s.replayWindow accepted
  recv : ∀ cipher, s.recvCipher = some cipher → Known crypto used cipher.key
  pending : ∀ cipher, s.pendingRecvCipher = some cipher → Known crypto used cipher.key
  apart : ∀ cipher other, s.recvCipher = some cipher → s.pendingRecvCipher = some other →
    cipher.key ≠ other.key
  spent : ∀ record ∈ log, Spent crypto used accepted s record
  once : log.Nodup

variable {ciphertext : List Byte}

section Runs
variable {crypto : Crypto Byte} {used : List (List Byte)} {log : List (List Byte)}
  {accepted : Finset Nat} {s s' : Session Byte}

theorem Known.mono {more : List (List Byte)} {key : List Byte} (known : Known crypto used key) :
    Known crypto (more ++ used) key := by
  obtain ⟨secret, member, rest⟩ := known
  exact ⟨secret, List.mem_append_right _ member, rest⟩

theorem MadeOf.unknown (ideal : XofIdeal 32 crypto.xof) (made : MadeOf crypto secret cipher)
    (fresh : secret ∉ used) : ¬Known crypto used cipher.key := by
  rintro ⟨other, member, size, role, same⟩
  obtain ⟨size', role', key⟩ := made
  obtain ⟨-, rfl⟩ := trafficKey_injective ideal size' size (key.symm.trans same)
  exact fresh member

theorem MadeOf.known (made : MadeOf crypto secret cipher) :
    Known crypto ((some secret).toList ++ used) cipher.key := by
  obtain ⟨size, role, key⟩ := made
  exact ⟨secret, List.mem_append_left _ (List.mem_singleton.mpr rfl), size, role, key⟩

theorem newWindow_represents : Represents newWindow ∅ := ofWords_represents (by decide)

/-- Every call but Decrypt keeps the link, if the secret it brings is new. -/
theorem Recorded.turns (ideal : XofIdeal 32 crypto.xof)
    (recorded : Recorded crypto used log accepted s) (turns : Turns crypto drawn s s')
    (fresh : ∀ secret ∈ drawn, secret ∉ used) :
    ∃ accepted', Recorded crypto (drawn.toList ++ used) log accepted' s' := by
  cases turns with
  | still recv pending window =>
    refine ⟨accepted, window ▸ recorded.window, ?_, ?_, ?_, ?_, recorded.once⟩
    · exact fun cipher held => (recorded.recv cipher (recv ▸ held)).mono
    · exact fun cipher held => (recorded.pending cipher (pending ▸ held)).mono
    · exact fun cipher other held waits =>
        recorded.apart cipher other (recv ▸ held) (pending ▸ waits)
    · intro record member
      obtain ⟨suite, key, nonce, text, seq, same, bounded, known, live, waiting⟩ :=
        (recorded.spent record member).sealedAs
      exact ⟨suite, key, nonce, text, seq, same, bounded, known.mono, recv ▸ live,
        pending ▸ waiting⟩
  | prepares secret cipher new made recv pending window =>
    subst new
    have unknown := made.unknown ideal (fresh secret rfl)
    refine ⟨accepted, window ▸ recorded.window, ?_, ?_, ?_, ?_, recorded.once⟩
    · exact fun cipher held => (recorded.recv cipher (recv ▸ held)).mono
    · intro other held
      cases pending.symm.trans held
      exact made.known
    · intro first other held waits same
      cases pending.symm.trans waits
      exact unknown (same ▸ recorded.recv first (recv ▸ held))
    · intro record member
      obtain ⟨suite, key, nonce, text, seq, same, bounded, known, live, -⟩ :=
        (recorded.spent record member).sealedAs
      refine ⟨suite, key, nonce, text, seq, same, bounded, known.mono, recv ▸ live, ?_⟩
      intro other waits equal
      cases pending.symm.trans waits
      exact unknown (equal ▸ known)
  | renews secret cipher new made recv pending window =>
    subst new
    have unknown := made.unknown ideal (fresh secret rfl)
    refine ⟨∅, window ▸ newWindow_represents, ?_, ?_, ?_, ?_, recorded.once⟩
    · intro other held
      cases recv.symm.trans held
      exact made.known
    · exact fun cipher held => (recorded.pending cipher (pending ▸ held)).mono
    · intro first other held waits same
      cases recv.symm.trans held
      exact unknown (same ▸ recorded.pending other (pending ▸ waits))
    · intro record member
      obtain ⟨suite, key, nonce, text, seq, same, bounded, known, -, waiting⟩ :=
        (recorded.spent record member).sealedAs
      refine ⟨suite, key, nonce, text, seq, same, bounded, known.mono, ?_, pending ▸ waiting⟩
      intro other held equal
      cases recv.symm.trans held
      exact absurd (equal ▸ known) unknown
  | activates cipher ready recv pending window =>
    refine ⟨∅, window ▸ newWindow_represents, ?_, ?_, ?_, ?_, recorded.once⟩
    · intro other held
      cases recv.symm.trans held
      exact (recorded.pending cipher ready).mono
    · exact fun other held => absurd (pending.symm.trans held) (by simp)
    · exact fun _ other _ waits => absurd (pending.symm.trans waits) (by simp)
    · intro record member
      obtain ⟨suite, key, nonce, text, seq, same, bounded, known, -, waiting⟩ :=
        (recorded.spent record member).sealedAs
      refine ⟨suite, key, nonce, text, seq, same, bounded, known.mono, ?_, ?_⟩
      · -- The cipher put in place has opened nothing yet.
        intro other held equal
        cases recv.symm.trans held
        exact absurd equal (waiting cipher ready)
      · exact fun other waits => absurd (pending.symm.trans waits) (by simp)

theorem check_accepts {w : Window} (represents : Represents w accepted) (seq : Nat) :
    (check w seq).1 = true ∧ seq ∉ accepted ∧ Represents (check w seq).2 (insert seq accepted) ∨
      (check w seq).1 = false ∧ Represents (check w seq).2 accepted := by
  obtain ⟨answered, kept⟩ : (check w seq).1 = (answer w.size accepted (.check seq)).1 ∧ _ :=
    check_refines represents
  by_cases admits : Admits w.size accepted seq
  · rw [answer, if_pos admits] at answered kept
    exact .inl ⟨answered, admits.1, kept⟩
  · rw [answer, if_neg admits] at answered kept
    exact .inr ⟨answered, kept⟩

section Record
variable (recorded : Recorded crypto used log accepted s)
include recorded

theorem Recorded.refuses {seq : Nat} {stop : Fault}
    (failed : decrypt crypto ciphertext seq s = (.error stop, s')) :
    ∃ accepted', Recorded crypto used log accepted' s' := by
  have outcome := decrypt_decrypts crypto s ciphertext seq
  rw [failed] at outcome
  cases outcome with
  | keyless => exact ⟨accepted, recorded⟩
  | refused =>
    obtain ⟨accepted', more, represents⟩ : ∃ accepted', accepted ⊆ accepted' ∧
        Represents (check s.replayWindow seq).2 accepted' := by
      rcases check_accepts recorded.window seq with ⟨-, -, kept⟩ | ⟨-, kept⟩
      · exact ⟨_, Finset.subset_insert _ _, kept⟩
      · exact ⟨_, subset_rfl, kept⟩
    refine ⟨accepted', { recorded with window := represents, spent := fun record member => ?_ }⟩
    obtain ⟨suite, key, nonce, text, seq, same, bounded, known, live, waiting⟩ :=
      (recorded.spent record member).sealedAs
    exact ⟨suite, key, nonce, text, seq, same, bounded, known,
      fun cipher held equal => more (live cipher held equal), waiting⟩

/-- A Decrypt that returns a plaintext opened a record it had not opened before. -/
theorem Recorded.returns {plaintext : List Byte} {seq : Nat} (ideal : AeadIdeal crypto)
    (bounded : seq < seqLimit) (finished : decrypt crypto ciphertext seq s = (.ok plaintext, s')) :
    ∃ accepted', Recorded crypto used (log ++ [ciphertext]) accepted' s' := by
  have outcome := decrypt_decrypts crypto s ciphertext seq
  rw [finished] at outcome
  obtain ⟨⟩ | ⟨⟩ | ⟨cipher, pending, _, admitted, openedText, which⟩ := outcome
  obtain ⟨fresh, represents⟩ : seq ∉ accepted ∧
      Represents (check s.replayWindow seq).2 (insert seq accepted) := by
    rcases check_accepts recorded.window seq with ⟨-, fresh, kept⟩ | ⟨refused, -⟩
    · exact ⟨fresh, kept⟩
    · exact absurd (refused.symm.trans admitted) (by simp)
  have sealedText := ideal.sound _ _ _ _ _ _ openedText
  -- Had the record been opened before, it would have been under this key and number.
  have new : ciphertext ∉ log := by
    intro member
    obtain ⟨suite, key, nonce', text, seq', same, bounded', -, live, waiting⟩ :=
      (recorded.spent ciphertext member).sealedAs
    obtain ⟨-, keys, -, -, numbers⟩ :=
      ideal.injective _ _ _ _ _ _ _ _ _ _ (sealedText.symm.trans same)
    have equal : seq = seq' := toBE_injective bounded bounded' numbers
    rcases which with ⟨held, -⟩ | ⟨waits, -⟩
    · exact fresh (equal ▸ live cipher held keys)
    · exact waiting cipher waits keys
  have known : Known crypto used cipher.key := by
    rcases which with ⟨held, -⟩ | ⟨waits, -⟩
    · exact recorded.recv cipher held
    · exact recorded.pending cipher waits
  have waiting (other : Cipher Byte) (waits : pending = some other) :
      s.pendingRecvCipher = some other ∧ s.recvCipher = some cipher := by
    rcases which with ⟨held, same⟩ | ⟨-, gone⟩
    · exact ⟨same ▸ waits, held⟩
    · exact absurd (gone.symm.trans waits) (by simp)
  refine ⟨insert seq accepted, represents, ?_, ?_, ?_, ?_, ?_⟩
  · rintro other ⟨⟩
    exact known
  · exact fun other waits => recorded.pending other (waiting other waits).1
  · rintro first other ⟨⟩ waits
    exact recorded.apart cipher other (waiting other waits).2 (waiting other waits).1
  · intro record member
    rcases List.mem_append.mp member with before | last
    · obtain ⟨suite, key, nonce', text, seq', same, bounded', known', lives, waits⟩ :=
        (recorded.spent record before).sealedAs
      refine ⟨suite, key, nonce', text, seq', same, bounded', known', ?_,
        fun other held => waits other (waiting other held).1⟩
      rintro other ⟨⟩ equal
      rcases which with ⟨held, -⟩ | ⟨pending, -⟩
      · exact Finset.mem_insert_of_mem (lives cipher held equal)
      · exact absurd equal (waits cipher pending)
    · cases List.mem_singleton.mp last
      exact ⟨cipher.suite, cipher.key, _, plaintext, seq, sealedText, bounded, known,
        fun _ _ _ => Finset.mem_insert_self _ _,
        fun other held => (recorded.apart cipher other (waiting other held).2
          (waiting other held).1).symm⟩
  · refine List.nodup_append.mpr ⟨recorded.once, List.nodup_singleton _, ?_⟩
    intro record before other last same
    cases List.mem_singleton.mp last
    exact new (same ▸ before)

theorem Recorded.perform (xof : XofIdeal 32 crypto.xof) (aead : AeadIdeal crypto) (op : Op Byte)
    (replaces : Replaces s op) (fresh : ∀ secret ∈ draws crypto op s, secret ∉ used) :
    ∃ accepted', Recorded crypto ((draws crypto op s).toList ++ used)
      (log ++ (opens crypto op s).toList) accepted' (perform crypto s op) := by
  by_cases decrypts : ∃ ciphertext seq, op = .decrypt ciphertext seq
  · obtain ⟨ciphertext, seq, rfl⟩ := decrypts
    simp only [draws, opens, SessionReplay.perform, Option.toList_none, List.nil_append]
    rcases run : decrypt crypto ciphertext seq.toNat s with ⟨stop | plaintext, s'⟩
    · simpa [Except.toOption] using recorded.refuses run
    · simpa [Except.toOption] using recorded.returns aead seq.toNat_lt run
  · have other : ∀ ciphertext seq, op ≠ .decrypt ciphertext seq :=
      fun ciphertext seq same => decrypts ⟨ciphertext, seq, same⟩
    have silent : opens crypto op s = none := by
      cases op with
      | decrypt ciphertext seq => exact absurd rfl (other ciphertext seq)
      | _ => rfl
    rw [silent, Option.toList_none, List.append_nil]
    exact recorded.turns xof (perform_turns op replaces other) fresh

theorem Recorded.run (xof : XofIdeal 32 crypto.xof) (aead : AeadIdeal crypto) (ops : List (Op Byte))
    (replaces : Along (SessionReplay.perform crypto) Replaces ops s)
    (fresh : FreshSecrets crypto used ops s) :
    (log ++ opened crypto ops s).Nodup := by
  induction ops generalizing used log accepted s with
  | nil => simpa [opened] using recorded.once
  | cons op rest ih =>
    obtain ⟨accepted', next⟩ := recorded.perform xof aead op replaces.1 fresh.1
    rw [opened, ← List.append_assoc]
    exact ih next replaces.2 fresh.2

end Record

theorem recorded_new {env : Env Byte} {kem : Suite Byte} {role : Role} {now : Int}
    {id coins : List Byte} {suite : UInt16} (sized : XofSized env.xof)
    (made : newSession kem role id coins = .ok s)
    (keyed : initializeKeys env.toCrypto now secret suite s = (.ok (), s')) :
    Recorded env.toCrypto [secret] [] ∅ s' := by
  obtain ⟨-, -, -, window, -, pending⟩ := newSession_ok made
  obtain ⟨-, size, _, prefixes, ciphers, -, rfl⟩ := initializeKeys_ok_iff.mp keyed
  obtain ⟨-, -, rfl⟩ := (deriveDatagramCiphers_ok_iff sized).mp ciphers
  refine ⟨window ▸ newWindow_represents, ?_, ?_, ?_, by simp, List.nodup_nil⟩
  · rintro cipher held
    cases held
    exact ⟨secret, List.mem_singleton.mpr rfl, size, s.role.peer, rfl⟩
  · exact fun cipher waits => absurd (pending.symm.trans waits) (by simp)
  · exact fun _ other _ waits => absurd (pending.symm.trans waits) (by simp)

end Runs

/-- No record is opened twice in a session whose secrets are all different, whoever sealed
it and whatever number comes with it, as long as ActivatePendingKeys puts a new cipher in
place whenever it clears the window. -/
theorem opened_once {env : Env Byte} (ideal : XofIdeal 32 env.xof) (aead : AeadIdeal env.toCrypto)
    {kem : Suite Byte} {role : Role} {now : Int} {id coins secret : List Byte} {suite : UInt16}
    {s s' : Session Byte} (made : newSession kem role id coins = .ok s)
    (keyed : initializeKeys env.toCrypto now secret suite s = (.ok (), s')) (ops : List (Op Byte))
    (fresh : FreshSecrets env.toCrypto [secret] ops s')
    (replaces : Along (perform env.toCrypto) Replaces ops s') :
    (opened env.toCrypto ops s').Nodup :=
  (recorded_new ideal.length made keyed).run ideal aead ops replaces fresh

/-! The symbolic build. -/

/-- A record of the peer comes before and after the switch to a prepared key. -/
theorem opened_once_responder : ∃ s s' record, IsStream .initiator s ∧ IsStream .responder s' ∧
    (encrypt env.toCrypto [lit 7] s).1 = .ok (record, 0) ∧
    (opened env.toCrypto [.decrypt record 0,
      .prepareRekeyResponse [] (List.replicate 1600 (lit 0)) 16, .activatePendingKeys 1,
      .decrypt record 0] s').Nodup := by
  refine ⟨_, _, _, ⟨_, rfl, rfl⟩, ⟨_, rfl, rfl⟩, rfl, opened_once env_ideal.xof env_ideal.aead
    (show newSession registry.chkemV1 .responder [] [] = _ from rfl)
    (show initializeKeys env.toCrypto 0 (secretOf 0) cipherSuiteAES256GCM _ = _ from rfl)
    _ ?_ ?_⟩
  · refine ⟨by decide +kernel, by decide +kernel, by decide +kernel, by decide +kernel, trivial⟩
  · refine ⟨trivial, trivial, by decide +kernel, trivial, trivial⟩

/-- A session that has asked for a rekey and activates it before the answer is there
clears its window and keeps its cipher: the peer's record opens again. -/
theorem cleared_window_replays : ∃ s s' record, IsStream .initiator s ∧ IsStream .responder s' ∧
    (encrypt env.toCrypto [lit 7] s).1 = .ok (record, 0) ∧
    opened env.toCrypto [.decrypt record 0, .initiateRekey [], .activatePendingKeys 1,
      .decrypt record 0] s' = [record, record] := by
  refine ⟨_, _, _, ⟨_, rfl, rfl⟩, ⟨_, rfl, rfl⟩, rfl, ?_⟩
  decide +kernel

end QuantumGo.SessionReplay
