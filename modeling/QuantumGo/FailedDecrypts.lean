import QuantumGo.SessionReplay

/-!
What a failed Decrypt leaves behind (pkg/tunnel/session.go). The window records a number
before the record that carries it is opened. A record that does not open is recorded all the
same, and from then on the window is that of a session which has accepted the number: it
refuses the number itself, and it refuses whatever lies a whole width below it.
-/

namespace QuantumGo.FailedDecrypts

open Octets Effect Symbolic Wire Aead Tunnel Records SymbolicKem
open ReplayWindow ReplayFilter SessionReplay
open RecordTypes (trialOpen_cipher decrypt_decrypts)

variable {Byte : Type} [Octet Byte]

def outcomes (crypto : Crypto Byte) :
    List (List Byte × UInt64) → Session Byte → List (Except Fault (List Byte))
  | [], _ => []
  | (ciphertext, seq) :: rest, s => (decrypt crypto ciphertext seq.toNat s).1 ::
      outcomes crypto rest (decrypt crypto ciphertext seq.toNat s).2

def performs (crypto : Crypto Byte) (history : List (Op Byte)) (s : Session Byte) : Session Byte :=
  Interleaving.run (perform crypto) history s

/-- The number is not one that a window accepts, but not once it has recorded the failed
one: it is neither that number nor a whole width below it. -/
def Unaffected (failed : Nat) (w : Window) (seq : Nat) : Prop :=
  admissible w seq = true → seq ≠ failed ∧ failed < seq + w.size

def Passes (failed : Nat) : Window → List Nat → Prop
  | _, [] => True
  | w, seq :: rest => Unaffected failed w seq ∧ Passes failed (check w seq).2 rest

instance (failed : Nat) (w : Window) (seq : Nat) : Decidable (Unaffected failed w seq) :=
  inferInstanceAs (Decidable (_ → _))

variable {accepted : Finset Nat} {seq : Nat}

/-! The filter that has accepted one number more. -/

theorem admits_iff {width : Nat} :
    Admits width accepted seq ↔ seq ∉ accepted ∧ ∀ other ∈ accepted, other < seq + width := by
  apply and_congr_right
  intro _
  constructor
  · rintro (rfl | ⟨high, -, above, near⟩) other held
    · simp at held
    · exact (above other held).trans_lt near
  · intro near
    rcases accepted.eq_empty_or_nonempty with empty | some
    · exact .inl empty
    · exact .inr ⟨accepted.max' some, accepted.max'_mem some, accepted.le_max',
        near _ (accepted.max'_mem some)⟩

variable {failed : Nat}

theorem admits_insert {width : Nat} : Admits width (insert failed accepted) seq ↔
      Admits width accepted seq ∧ seq ≠ failed ∧ failed < seq + width := by
  simp only [admits_iff, Finset.mem_insert, not_or, forall_eq_or_imp]
  tauto

def Ahead (failed : Nat) (w w' : Window) : Prop :=
  w'.size = w.size ∧ ∃ accepted, Represents w accepted ∧ Represents w' (insert failed accepted)

section Windows
variable {w w' : Window}

theorem check_iff (represents : Represents w accepted) :
    (check w seq).1 = true ↔ Admits w.size accepted seq := by
  rw [(check_refines represents).1, answer]
  split <;> simp [*]

/-- What the window ahead accepts, the other one accepts too. -/
theorem Ahead.check_iff (ahead : Ahead failed w w') : (check w' seq).1 = true ↔
    (check w seq).1 = true ∧ seq ≠ failed ∧ failed < seq + w.size := by
  obtain ⟨size, accepted, represents, represents'⟩ := ahead
  rw [FailedDecrypts.check_iff represents', size, admits_insert,
    FailedDecrypts.check_iff represents]

/-- A number that both windows treat alike leaves them as far apart. -/
theorem Ahead.step (ahead : Ahead failed w w') (alike : (check w' seq).1 = (check w seq).1) :
    Ahead failed (check w seq).2 (check w' seq).2 := by
  obtain ⟨size, accepted, represents, represents'⟩ := ahead
  refine ⟨by rw [check_size, check_size, size], ?_⟩
  rcases check_accepts represents seq with ⟨fresh, -, kept⟩ | ⟨stale, kept⟩ <;>
    rcases check_accepts represents' seq with ⟨fresh', -, kept'⟩ | ⟨stale', kept'⟩
  · exact ⟨_, kept, Finset.insert_comm seq failed accepted ▸ kept'⟩
  · simp [fresh, stale'] at alike
  · simp [stale, fresh'] at alike
  · exact ⟨_, kept, kept'⟩

end Windows

variable {crypto : Crypto Byte} {s s' : Session Byte} {ciphertext : List Byte}

/-! Decrypt, as a function of the window. -/

section Calls
variable {cipher : Cipher Byte}

theorem decrypt_stale (held : s.recvCipher = some cipher)
    (stale : (check s.replayWindow seq).1 = false) :
    decrypt crypto ciphertext seq s =
      (.error (.err .replayDetected), { s with replayWindow := (check s.replayWindow seq).2 }) := by
  simp [decrypt, held, run_bind, run_reject, stale]

omit [Octet Byte] in
theorem trialOpen_error {pending : Option (Cipher Byte)} {nonce aad : List Byte} {stop : Fault}
    (failed : trialOpen crypto cipher pending nonce ciphertext aad = .error stop) :
    stop ≠ .err .replayDetected := by
  have refused : openWithNonce crypto cipher nonce ciphertext aad = .error stop := by
    unfold trialOpen at failed
    split at failed
    · cases failed
    · rename_i refused first
      split at failed
      · cases failed
      · exact first.trans (congrArg _ (Except.error.inj failed))
  rintro rfl
  unfold openWithNonce at refused
  split at refused
  · cases refused
  split at refused
  · cases refused
  split at refused <;> cases refused

/-- A fresh number: what comes back, and all of the session but the window, do not depend on
the window. -/
theorem decrypt_fresh (crypto : Crypto Byte) (ciphertext : List Byte) (seq : Nat)
    (held : s.recvCipher = some cipher) :
    ∃ (outcome : Except Fault (List Byte)) (next : Session Byte),
    outcome ≠ .error (.err .replayDetected) ∧ next.recvCipher.isSome = true ∧
    ∀ w, (check w seq).1 = true → decrypt crypto ciphertext seq { s with replayWindow := w } =
      (outcome, { next with replayWindow := (check w seq).2 }) := by
  cases tried : trialOpen crypto cipher s.pendingRecvCipher (buildAEADNonce s.recvNoncePrefix seq)
      ciphertext (toBE 8 seq) with
  | error stop =>
    refine ⟨.error stop, s, fun same => trialOpen_error tried (by cases same; rfl), by simp [held],
      ?_⟩
    intro w fresh
    simp [decrypt, held, run_bind, run_reject, fresh, tried]
  | ok result =>
    obtain ⟨plaintext, promoted⟩ := result
    obtain ⟨used, which, -⟩ := trialOpen_cipher tried
    rcases which with ⟨rfl, rfl⟩ | ⟨rfl, waiting⟩
    · refine ⟨.ok plaintext, s, by rintro ⟨⟩, by simp [held], ?_⟩
      intro w fresh
      simp [decrypt, held, run_bind, run_reject, fresh, tried, promoteIf]
    · refine ⟨.ok plaintext, { s with recvCipher := some used, pendingRecvCipher := none },
        by rintro ⟨⟩, rfl, ?_⟩
      intro w fresh
      rw [waiting] at tried
      simp [decrypt, held, run_bind, run_reject, fresh, tried, promoteIf,
        promotePendingRecvCipher, waiting]

/-- A call that fails on a keyed session changes the window alone. -/
theorem decrypt_error {stop : Fault} (held : s.recvCipher = some cipher)
    (failed : decrypt crypto ciphertext seq s = (.error stop, s')) :
    s' = { s with replayWindow := (check s.replayWindow seq).2 } := by
  have outcome := decrypt_decrypts crypto s ciphertext seq
  rw [failed] at outcome
  cases outcome with
  | keyless _ none => cases none.symm.trans held
  | refused => rfl

/-- Whatever comes back, the window has seen the number. -/
theorem decrypt_window (crypto : Crypto Byte) (ciphertext : List Byte) (seq : Nat)
    (keyed : s.recvCipher.isSome = true) :
    (decrypt crypto ciphertext seq s).2.replayWindow = (check s.replayWindow seq).2 := by
  have outcome := decrypt_decrypts crypto s ciphertext seq
  generalize decrypt crypto ciphertext seq s = run at outcome ⊢
  cases outcome with
  | keyless _ none => simp [none] at keyed
  | refused | opened => rfl

end Calls

/-! Two sessions side by side. -/

structure Behind (failed : Nat) (s s' : Session Byte) : Prop where
  keyed : s.recvCipher.isSome = true
  windows : ∃ w, s' = { s with replayWindow := w } ∧ Ahead failed s.replayWindow w

section Runs

theorem Behind.alike (behind : Behind failed s s') (ciphertext : List Byte)
    (unaffected : Unaffected failed s.replayWindow seq) :
    (decrypt crypto ciphertext seq s').1 = (decrypt crypto ciphertext seq s).1 ∧
      Behind failed (decrypt crypto ciphertext seq s).2 (decrypt crypto ciphertext seq s').2 := by
  obtain ⟨keyed, w, rfl, ahead⟩ := behind
  obtain ⟨cipher, held⟩ := Option.isSome_iff_exists.mp keyed
  rw [Unaffected, admissible_eq_check] at unaffected
  have answered : (check w seq).1 = (check s.replayWindow seq).1 := by
    rw [Bool.eq_iff_iff, ahead.check_iff]
    exact ⟨And.left, fun fresh => ⟨fresh, unaffected fresh⟩⟩
  have stepped := ahead.step answered
  cases fresh : (check s.replayWindow seq).1 with
  | false =>
    have second : decrypt crypto ciphertext seq { s with replayWindow := w } = _ :=
      decrypt_stale held (answered.trans fresh)
    rw [decrypt_stale held fresh, second]
    exact ⟨rfl, keyed, _, rfl, stepped⟩
  | true =>
    obtain ⟨outcome, next, -, still, runs⟩ := decrypt_fresh crypto ciphertext seq held
    have first : decrypt crypto ciphertext seq s = _ := runs s.replayWindow fresh
    rw [first, runs w (answered.trans fresh)]
    exact ⟨rfl, still, _, rfl, stepped⟩

/-- The one session answers that the number was there before, the other does not. -/
theorem Behind.apart (behind : Behind failed s s') (ciphertext : List Byte)
    (affected : ¬Unaffected failed s.replayWindow seq) :
    (decrypt crypto ciphertext seq s').1 ≠ (decrypt crypto ciphertext seq s).1 := by
  obtain ⟨keyed, w, rfl, ahead⟩ := behind
  obtain ⟨cipher, held⟩ := Option.isSome_iff_exists.mp keyed
  rw [Unaffected, admissible_eq_check, Classical.not_imp] at affected
  have stale : (check w seq).1 = false := by
    rw [Bool.eq_false_iff, Ne, ahead.check_iff]
    exact fun both => affected.2 both.2
  obtain ⟨outcome, next, answered, -, runs⟩ := decrypt_fresh crypto ciphertext seq held
  have first : decrypt crypto ciphertext seq s = _ := runs s.replayWindow affected.1
  have second : decrypt crypto ciphertext seq { s with replayWindow := w } = _ :=
    decrypt_stale held stale
  rw [first, second]
  exact answered.symm

/-- A sequence of calls. -/
theorem Behind.outcomes_eq_iff (behind : Behind failed s s') (later : List (List Byte × UInt64)) :
    outcomes crypto later s' = outcomes crypto later s ↔
      Passes failed s.replayWindow (later.map fun call => call.2.toNat) := by
  induction later generalizing s s' with
  | nil => simp [outcomes, Passes]
  | cons call rest ih =>
    obtain ⟨ciphertext, seq⟩ := call
    simp only [outcomes, List.cons.injEq, List.map_cons, Passes]
    by_cases unaffected : Unaffected failed s.replayWindow seq.toNat
    · obtain ⟨same, next⟩ : (decrypt crypto ciphertext seq.toNat s').1 = _ ∧ _ :=
        behind.alike ciphertext unaffected
      rw [ih next, decrypt_window crypto ciphertext seq.toNat behind.keyed]
      exact ⟨fun both => ⟨unaffected, both.2⟩, fun both => ⟨same, both.2⟩⟩
    · exact ⟨fun both => absurd both.1 (behind.apart ciphertext unaffected),
        fun both => absurd both.1 unaffected⟩

end Runs

/-! The windows of a session. -/

section Histories

theorem turns_represent {drawn : Option (List Byte)} (turns : Turns crypto drawn s s')
    (represents : Represents s.replayWindow accepted) :
    ∃ accepted', Represents s'.replayWindow accepted' := by
  cases turns with
  | still _ _ window | prepares _ _ _ _ _ _ window => exact ⟨_, window ▸ represents⟩
  | renews _ _ _ _ _ _ window | activates _ _ _ _ window => exact ⟨_, window ▸ newWindow_represents⟩

/-- Every call leaves a window that stands for a set of numbers. -/
theorem perform_represents (op : Op Byte) (represents : Represents s.replayWindow accepted) :
    ∃ accepted', Represents (perform crypto s op).replayWindow accepted' := by
  cases op with
  | decrypt ciphertext seq =>
    have checked : ∃ accepted', Represents (check s.replayWindow seq.toNat).2 accepted' :=
      ⟨_, (check_refines represents).2⟩
    rw [perform]
    have outcome := decrypt_decrypts crypto s ciphertext seq.toNat
    generalize decrypt crypto ciphertext seq.toNat s = run at outcome ⊢
    cases outcome with
    | keyless => exact ⟨_, represents⟩
    | refused | opened => exact checked
  | activatePendingKeys now =>
    rw [perform, activatePendingKeys, read_bind]
    split
    · exact ⟨∅, newWindow_represents⟩
    · exact ⟨_, represents⟩
  | _ =>
    refine turns_represent (perform_turns _ ?_ ?_) represents
    · trivial
    · rintro _ _ ⟨⟩

theorem performs_represent (history : List (Op Byte))
    (represents : Represents s.replayWindow accepted) :
    ∃ accepted', Represents (performs crypto history s).replayWindow accepted' := by
  have keeps (s : Session Byte) (op : Op Byte) : (∃ accepted, Represents s.replayWindow accepted) →
        ∃ accepted', Represents (perform crypto s op).replayWindow accepted' := by
    rintro ⟨_, represents⟩
    exact perform_represents op represents
  exact Interleaving.kept_run keeps history ⟨_, represents⟩

/-- A Decrypt that does not authenticate its record leaves the session ahead by its number. -/
theorem behind_of_failed (represents : Represents s.replayWindow accepted)
    (failed : decrypt crypto ciphertext seq s = (.error (.err .authenticationFailed), s')) :
    Behind seq s s' := by
  cases present : s.recvCipher with
  | none => simp [decrypt, run_bind, present] at failed
  | some cipher =>
    have recorded := decrypt_error present failed
    rcases check_accepts represents seq with ⟨-, -, kept⟩ | ⟨stale, -⟩
    · exact ⟨by simp [present], _, recorded, check_size, accepted, represents, kept⟩
    · -- A number that the window refuses is reported as a replay.
      rw [decrypt_stale present stale] at failed
      cases failed

end Histories

/-- A Decrypt that fails to authenticate goes unnoticed by the Decrypt calls that follow
exactly if none of them brings a number that the window would have accepted and that is the
failed one or a whole width below it. -/
theorem failed_decrypt_unnoticed_iff {crypto : Crypto Byte} {s₀ s s' : Session Byte}
    (new : s₀.replayWindow = newWindow) (history : List (Op Byte))
    (reached : s = performs crypto history s₀) (ciphertext : List Byte) (seq : UInt64)
    (failed : decrypt crypto ciphertext seq.toNat s = (.error (.err .authenticationFailed), s'))
    (later : List (List Byte × UInt64)) :
    outcomes crypto later s' = outcomes crypto later s ↔
      Passes seq.toNat s.replayWindow (later.map fun call => call.2.toNat) := by
  obtain ⟨accepted, represents⟩ : ∃ accepted, Represents s.replayWindow accepted :=
    reached ▸ performs_represent history (new ▸ newWindow_represents)
  exact (behind_of_failed represents failed).outcomes_eq_iff later

/-! The symbolic build. -/

def forgery : List Letter := List.replicate 16 (lit 0)

/-- A forged record whose number is neither the peer's next one nor far above it. -/
theorem failed_decrypt_unnoticed_near : ∃ s s₀ record,
    IsStream .initiator s ∧ IsStream .responder s₀ ∧
    (encrypt env.toCrypto [lit 7] s).1 = .ok (record, 0) ∧
    (decrypt env.toCrypto forgery 900 s₀).1 = .error (.err .authenticationFailed) ∧
    outcomes env.toCrypto [(record, 0)] (decrypt env.toCrypto forgery 900 s₀).2 =
      outcomes env.toCrypto [(record, 0)] s₀ := by
  refine ⟨_, _, _, ⟨_, rfl, rfl⟩, ⟨_, rfl, rfl⟩, rfl, by decide +kernel, ?_⟩
  refine (failed_decrypt_unnoticed_iff rfl [] rfl forgery 900
    (Prod.ext (by decide +kernel) rfl) _).mpr ?_
  exact ⟨by decide +kernel, trivial⟩

/-- A forged record makes the peer's record with its number be refused, and one with a far
higher number makes every record below be refused. -/
theorem forged_number_shuts_out : ∃ s s₀ record, IsStream .initiator s ∧ IsStream .responder s₀ ∧
    (encrypt env.toCrypto [lit 7] s).1 = .ok (record, 0) ∧
    outcomes env.toCrypto [(record, 0)] s₀ = [.ok [lit 7]] ∧
    outcomes env.toCrypto [(forgery, 0), (record, 0)] s₀ =
      [.error (.err .authenticationFailed), .error (.err .replayDetected)] ∧
    outcomes env.toCrypto [(forgery, 5000), (record, 0)] s₀ =
      [.error (.err .authenticationFailed), .error (.err .replayDetected)] := by
  refine ⟨_, _, _, ⟨_, rfl, rfl⟩, ⟨_, rfl, rfl⟩, rfl, ?_, ?_, ?_⟩ <;> decide +kernel

end QuantumGo.FailedDecrypts
