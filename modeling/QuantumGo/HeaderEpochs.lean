import QuantumGo.SealingRuns

/-!
The epoch in the header of a DATA or CLOSE frame. It is read in one lock section and the
cipher in a later one, and an advance may come between. The number of the frame was drawn
before both. An advance starts the new epoch at the counter, so that number lies before the
start; the age of the frame then wraps to nearly 2^64 and the seal is refused. Only a counter
that has nearly come round in the meantime gets past this.
-/

namespace QuantumGo.HeaderEpochs

open Octets Effect Wire Aead KeySchedule Tunnel Records DatagramSession SealingRuns
open Interleaving SymbolicKem
open RecordTypes (buildAEADNonce_length)

variable {Byte : Type} [Octet Byte]

/-- More numbers than this can be drawn only if a counter passes the starts it once had. -/
def drawLimit : Nat := seqLimit - maxPacketsBeforeRekey

def Task.Headed (base draws : Nat) (s : Session Byte) : Task Byte .datagram → Prop
  | .frameHeaded _ _ _ seq epoch => ∀ epochs, s.dgramEpochs = some epochs →
      epochs.cur.epoch = epoch ∨ ∃ i d, i < d ∧ d ≤ draws ∧ seq = (base + i) % seqLimit ∧
        epochs.cur.startSeq = (base + d) % seqLimit
  | _ => True

def Named (index : UInt32) (e : Sealing Byte) : Prop :=
  ∀ kind, e.kind = .frame kind → e.headerEpoch = e.epoch ∧
    e.aad = encodeDatagramHeader ⟨kind.frameType, e.headerEpoch, index, e.seq⟩

structure Headed (base : Nat) (w : World Byte .datagram) : Prop where
  tasks : ∀ task ∈ w.tasks, Task.Headed base w.draws w.session task
  log : ∀ e ∈ w.log, Named w.index e

variable {crypto : Crypto Byte} {task : Task Byte .datagram} {epochs : DatagramEpochState Byte}

section Steps
variable {base : Nat} {w : World Byte .datagram} {draws : Nat} {s : Session Byte}

omit [Octet Byte] in
/-- A number drawn before an epoch began is too old for it. -/
theorem stale_refused {seq i d : Nat} (earlier : i < d) (few : d ≤ drawLimit)
    (number : seq = (base + i) % seqLimit) (begins : epochs.cur.startSeq = (base + d) % seqLimit) :
    maxPacketsBeforeRekey ≤ epochAge epochs seq := by
  have size : maxPacketsBeforeRekey < seqLimit := by decide +kernel
  have inside : (base + d) % seqLimit < seqLimit := Nat.mod_lt _ (by omega)
  unfold drawLimit at few
  -- in 64 bits the age is what the draws in between lack to a full round
  have wrapped : epochAge epochs seq = seqLimit - (d - i) := by
    rw [epochAge, number, begins]
    have same : ((base + i) % seqLimit + seqLimit - (base + d) % seqLimit) ≡ seqLimit - (d - i)
        [MOD seqLimit] := by
      apply Nat.ModEq.add_right_cancel' ((base + d) % seqLimit)
      rw [Nat.sub_add_cancel (by omega)]
      have left : (base + i) % seqLimit + seqLimit ≡ base + i [MOD seqLimit] := by
        simp [Nat.ModEq]
      have right : seqLimit - (d - i) + (base + d) % seqLimit ≡ seqLimit - (d - i) + (base + d)
          [MOD seqLimit] := Nat.ModEq.add_left _ (Nat.mod_modEq _ _)
      have whole : seqLimit - (d - i) + (base + d) = base + i + seqLimit := by omega
      refine left.trans (Nat.ModEq.trans ?_ right.symm)
      rw [whole]
      simp [Nat.ModEq]
    exact Nat.mod_eq_of_modEq same (by omega)
  omega

omit [Octet Byte] in
theorem headed_request (request : Request Byte .datagram) :
    Task.Headed base draws s request.task := by
  cases request with
  | send payload | sendBatch payloads => simp only [Request.task, batch]; split <;> trivial
  | close => trivial
  | control kind payload => trivial

omit [Octet Byte] in
/-- Draws and other steps leave the epochs, and with them every header. -/
theorem Task.Headed.mono {draws' : Nat} {s' : Session Byte} (headed : Task.Headed base draws s task)
    (more : draws ≤ draws')
    (same : s'.dgramEpochs = s.dgramEpochs) : Task.Headed base draws' s' task := by
  cases task with
  | frameHeaded kind payload rest seq epoch =>
    intro epochs present
    rcases headed epochs (same ▸ present) with current | ⟨i, d, earlier, few, number, begins⟩
    · exact .inl current
    · exact .inr ⟨i, d, earlier, few.trans more, number, begins⟩
  | _ => trivial

/-- An advance begins an epoch behind every number that is drawn. -/
theorem Headed.keys (headed : Headed base w) (numbered : Numbered base w)
    (op : KeyOp Byte .datagram) : Headed base (perform crypto w (.keys op)) := by
  refine ⟨fun task inside => ?_, headed.log⟩
  have before := headed.tasks task inside
  have switches : Switches w.session (changeKeys crypto op w.session) .datagram :=
    changeKeys_switches op w.session
  simp only [perform]
  cases switches with
  | still same => exact before.mono le_rfl (congrArg (·.2.2.2.2) same)
  | closed now => exact before.mono le_rfl (congrArg (·.2.2.2.2) now)
  | advanced cipher old later present next begins now =>
    cases task with
    | frameHeaded kind payload rest seq epoch =>
      intro epochs present'
      obtain rfl : later = epochs :=
        Option.some.inj ((congrArg (·.2.2.2.2) now).symm.trans present')
      have held : seq ∈ w.numbers := List.mem_append_right _
        (List.mem_filterMap.mpr ⟨_, inside, rfl⟩)
      obtain ⟨i, earlier, number⟩ := numbered.drawn seq held
      exact .inr ⟨i, w.draws, earlier, le_rfl, number, begins.trans numbered.counter⟩
    | _ => trivial

theorem Task.step_epochs (task : Task Byte .datagram) (index : UInt32) (s : Session Byte) :
    (task.step index s).2.1.dgramEpochs = s.dgramEpochs := by
  obtain ⟨-, -, -, -, drew⟩ | ⟨-, same, -⟩ := task.step_cases index s
  · rw [drew]
  · rw [same]

/-- A header gets the current epoch. -/
theorem Task.Headed.step {index : UInt32} (draws : Nat) :
    Task.Headed base draws (task.step index s).2.1 (task.step index s).1 := by
  cases task with
  | frames kind payloads => cases payloads <;> exact trivial
  | frameNumbered kind payload rest seq =>
    simp only [Task.step]
    rcases read : datagramSendEpoch s with ⟨stop | epoch, s'⟩
    · exact trivial
    · obtain ⟨-, epochs, present, rfl⟩ := datagramSendEpoch_ok_iff.mp read
      refine fun epochs' present' => .inl ?_
      rw [Option.some.inj (present.symm.trans present')]
  | frameHeaded kind payload rest seq epoch =>
    simp only [Task.step]
    cases frameSealing kind index payload seq epoch s <;> exact trivial
  | control kind payload | controlNumbered kind payload seq | done => exact trivial

/-- A frame that is sealed is sealed in the epoch of its header. -/
theorem Task.Headed.named {index : UInt32} {e : Sealing Byte}
    (headed : Task.Headed base draws s task) (few : draws ≤ drawLimit)
    (made : (task.step index s).2.2 = some e) : Named index e := by
  cases step_seals made with
  | frame kind payload rest seq epoch made =>
    obtain ⟨epochs, present, young, rfl⟩ := frameSealing_some_iff.mp made
    rintro kind' ⟨⟩
    rcases headed epochs present with current | ⟨i, d, earlier, within, number, begins⟩
    · exact ⟨current.symm, rfl⟩
    · exact absurd young (not_lt.mpr (stale_refused earlier (within.trans few) number begins))
  | control kind payload seq made =>
    obtain ⟨epochs, present, rfl⟩ := controlSealing_some_iff.mp made
    rintro _ ⟨⟩

theorem Headed.step (headed : Headed base w) (numbered : Numbered base w) (e : Event Byte .datagram)
    (few : (perform crypto w e).draws ≤ drawLimit) : Headed base (perform crypto w e) := by
  cases e with
  | call request =>
    refine ⟨fun task inside => ?_, headed.log⟩
    rcases List.mem_append.mp inside with old | new
    · exact headed.tasks task old
    · exact List.mem_singleton.mp new ▸ headed_request request
  | keys op => exact headed.keys numbered op
  | step i =>
    cases present : w.tasks[i]? with
    | none => simpa only [perform, present] using headed
    | some task =>
      have known := headed.tasks task (List.mem_of_getElem? present)
      have few' : w.draws ≤ drawLimit := (draws_le_perform w (.step i)).trans few
      simp only [perform, present]
      constructor
      · intro task' inside
        rcases List.mem_or_eq_of_mem_set inside with old | rfl
        · exact (headed.tasks task' old).mono (Nat.le_add_right _ _)
            (Task.step_epochs task w.index w.session)
        · exact Task.Headed.step _
      · intro e logged
        rcases List.mem_append.mp logged with old | new
        · exact headed.log e old
        · exact known.named few' (Option.mem_toList.mp new)

theorem Headed.run (events : List (Event Byte .datagram)) (headed : Headed base w)
    (numbered : Numbered base w) (few : (after crypto events w).draws ≤ drawLimit) :
    Headed base (after crypto events w) := by
  induction events generalizing w with
  | nil => exact headed
  | cons e rest ih =>
    have within := (draws_le_after rest _).trans few
    have narrow : drawLimit ≤ seqLimit := Nat.sub_le _ _
    exact ih (headed.step numbered e within) (numbered.step e (within.trans narrow)) few

end Steps

theorem openUnder_ciphertext (ideal : AeadIdeal crypto) (e : Sealing Byte) :
    openUnder crypto (some e.cipher) e.noncePrefix e.seq (e.ciphertext crypto) e.aad =
      .ok e.text := by
  have long : ¬ (e.ciphertext crypto).length < aesTagSize := by
    rw [Sealing.ciphertext, ideal.length]
    omega
  simp only [openUnder, openWithNonce, buildAEADNonce_length, ne_eq, not_true_eq_false, if_false,
    if_neg long]
  rw [Sealing.ciphertext, Sealing.nonce, ideal.opens]

/-- The peer has the key and the nonce prefix of a sealed frame for the epoch of that number. -/
structure Holds (now : Int) (peer : Session Byte) (epoch : UInt8) (e : Sealing Byte) : Prop where
  cipher : datagramRecvCipher now epoch peer = some e.cipher
  noncePrefix : peer.recvNoncePrefix = e.noncePrefix

/-- Every DATA or CLOSE frame is sealed with the key of the epoch in its header and opens at a
peer that holds that epoch, as long as at most 2^64 - 2^28 numbers are drawn. -/
theorem header_names_key {crypto : Crypto Byte} (ideal : AeadIdeal crypto) (s : Session Byte)
    (index : UInt32) (fits : s.sendSeq < seqLimit) (events : List (Event Byte .datagram))
    (few : (after crypto events (start .datagram s index)).draws ≤ drawLimit) :
    ∀ e ∈ (after crypto events (start .datagram s index)).log, ∀ kind, e.kind = .frame kind →
      e.headerEpoch = e.epoch ∧
      ∃ header, parseDatagramHeader (e.frame crypto) = .ok (header, e.ciphertext crypto) ∧
        header.frameType = kind.frameType ∧ header.epoch = e.headerEpoch ∧
        ∀ now peer, Holds now peer e.epoch e →
          datagramOpen crypto now header.epoch header.seq (e.ciphertext crypto)
            (datagramAAD (e.frame crypto)) peer = .ok e.text := by
  intro e logged kind isFrame
  have numbered : Numbered s.sendSeq (start .datagram s index) := numbered_start fits index
  have headed : Headed s.sendSeq (start .datagram s index) := ⟨nofun, nofun⟩
  obtain ⟨same, aad⟩ := (headed.run events numbered few).log e logged kind isFrame
  have seqFits : e.seq < seqLimit := (numbered.run events (few.trans (Nat.sub_le _ _))).fits logged
  refine ⟨same, ⟨kind.frameType, e.headerEpoch,
    (after crypto events (start .datagram s index)).index, e.seq⟩, ?_, rfl, rfl,
    fun now peer holds => ?_⟩
  · rw [Sealing.frame, aad]
    exact parse_encode seqFits _
  · rw [Sealing.frame, aad, datagramAAD_append, ← aad, datagramOpen, same, holds.cipher,
      holds.noncePrefix]
    exact openUnder_ciphertext ideal e

/-- A Send and a Close around an advance. The Send has read the old epoch and is refused, the
Close goes out in the new one. -/
theorem header_names_key_advance : ∃ s, IsDatagram .initiator s ∧
    ∀ e ∈ (after env.toCrypto [.call (.send [lit 1]), .step 0, .step 0,
      .keys (.advance 1 (secretOf 1)), .step 0, .call .close, .step 1, .step 1,
      .step 1] (start .datagram s 7)).log, ∀ kind, e.kind = .frame kind →
        e.headerEpoch = e.epoch := by
  refine ⟨_, ⟨_, rfl, rfl⟩, fun e logged kind isFrame => (header_names_key
    env_ideal.aead _ 7 ?_ _ ?_ e logged kind isFrame).1⟩
  · decide +kernel
  · decide +kernel

/-! The counter comes round. -/

section Wrap

def controls : Nat → Nat → List (Event Byte .datagram)
  | _, 0 => []
  | k, n + 1 => .call (.control .init []) :: .step k :: .step k :: controls (k + 1) n

/-- One of them moves the counter and leaves the calls before it. -/
theorem control_round (crypto : Crypto Byte) (w : World Byte .datagram) :
    ∃ w', after crypto [.call (.control .init []), .step w.tasks.length, .step w.tasks.length] w =
        w' ∧ w'.session = (nextDatagramSeq w.session).2 ∧ w'.index = w.index ∧
      w'.tasks = w.tasks ++ [.done] := by
  obtain ⟨session, index, tasks, log, draws⟩ := w
  refine ⟨_, rfl, ?_⟩
  simp [after, Interleaving.run, perform, Request.task, Task.step]

theorem controls_run (crypto : Crypto Byte) (n : Nat) (w : World Byte .datagram)
    (fits : w.session.sendSeq < seqLimit) (first : w.tasks[0]? = some task) :
    ∃ w', after crypto (controls w.tasks.length n) w = w' ∧
      w'.session = { w.session with sendSeq := (w.session.sendSeq + n) % seqLimit } ∧
      w'.index = w.index ∧ w'.tasks[0]? = some task := by
  induction n generalizing w with
  | zero =>
    refine ⟨w, rfl, ?_, rfl, first⟩
    rw [Nat.add_zero, Nat.mod_eq_of_lt fits]
  | succ n ih =>
    obtain ⟨next, round, session, index, tasks⟩ := control_round crypto w
    have inside : 0 < w.tasks.length := (List.getElem?_eq_some_iff.mp first).1
    obtain ⟨w', run, session', index', first'⟩ := ih next
      (by rw [session]; exact Nat.mod_lt _ (by simp [seqLimit]))
      (by rw [tasks, List.getElem?_append_left inside, first])
    refine ⟨w', ?_, ?_, index'.trans index, first'⟩
    · have length : next.tasks.length = w.tasks.length + 1 := by simp [tasks]
      rw [← run, length, ← round]
      rfl
    · rw [session', session]
      simp only [nextDatagramSeq_run, Nat.mod_add_mod, Nat.add_assoc, Nat.add_comm 1 n]

def wrap (secret : List Byte) : List (Event Byte .datagram) :=
  [.call .close, .step 0, .step 0] ++ (controls 1 drawLimit ++ [.keys (.advance 1 secret), .step 0])

theorem wrap_mislabels {s : Session Byte} {secret : List Byte} {send recv : Cipher Byte}
    (present : s.dgramEpochs = some epochs) (new : s.sendSeq = 0)
    (size : secret.length = sharedSecretSize)
    (derived : deriveDatagramCiphers crypto s.role secret s.cipherSuite = .ok (send, recv))
    (index : UInt32) :
    ∃ e ∈ (after crypto (wrap secret) (start .datagram s index)).log,
      e.kind = .frame .close ∧ e.headerEpoch ≠ e.epoch := by
  have headed : datagramSendEpoch (nextDatagramSeq s).2 = (.ok epochs.cur.epoch, _) :=
    datagramSendEpoch_ok_iff.mpr ⟨rfl, epochs, present, rfl⟩
  have opening : after crypto [.call .close, .step 0, .step 0] (start .datagram s index) =
      ⟨(nextDatagramSeq s).2, index, [.frameHeaded .close [] [] 0 epochs.cur.epoch], [], 1⟩ := by
    simp [after, Interleaving.run, perform, start, Request.task, Task.step, Task.draws, headed, new]
  obtain ⟨w, run, session, index', first⟩ := controls_run crypto drawLimit
    ⟨(nextDatagramSeq s).2, index, [.frameHeaded .close [] [] 0 epochs.cur.epoch], [], 1⟩
    (Nat.mod_lt _ (by simp [seqLimit])) rfl
  rw [wrap, after_append, opening, after_append]
  obtain ⟨session', index'', tasks, log, draws⟩ := w
  dsimp only at session first
  subst session
  have moved := advanceDatagramEpoch_advances 1 size
    (show ({ (nextDatagramSeq s).2 with sendSeq := ((nextDatagramSeq s).2.sendSeq + drawLimit) %
      seqLimit } : Session Byte).dgramEpochs = some epochs from present) derived
  have age : ((0 + seqLimit - ((nextDatagramSeq s).2.sendSeq + drawLimit) % seqLimit) % seqLimit) <
      maxPacketsBeforeRekey := by
    have counter : (nextDatagramSeq s).2.sendSeq = 1 := by simp [nextDatagramSeq_run, new, seqLimit]
    rw [counter]
    decide +kernel
  have made : ∃ e, frameSealing .close index'' [] 0 epochs.cur.epoch (advanceDatagramEpoch crypto 1
      secret { (nextDatagramSeq s).2 with sendSeq := ((nextDatagramSeq s).2.sendSeq + drawLimit) %
        seqLimit }).2 = some e ∧ e.kind = .frame .close ∧ e.headerEpoch ≠ e.epoch := by
    rw [moved]
    have next : epochs.cur.epoch ≠ epochs.cur.epoch + 1 := by simp
    exact ⟨_, frameSealing_some_iff.mpr ⟨_, rfl, age, rfl⟩, rfl, next⟩
  obtain ⟨e, made, facts⟩ := made
  refine ⟨e, ?_, facts⟩
  rw [show ([.frameHeaded .close [] [] 0 epochs.cur.epoch] : List (Task Byte .datagram)).length = 1
    from rfl] at run
  rw [run]
  simp [after, Interleaving.run, perform, changeKeys, first, Task.step, made]

end Wrap

/-- A frame whose header names one epoch and whose key is of the next. -/
theorem wrapped_header : ∃ s, IsDatagram .initiator s ∧
    ∃ e ∈ (after env.toCrypto (wrap (secretOf 1))
      (start .datagram s 7)).log, e.kind = .frame .close ∧ e.headerEpoch ≠ e.epoch := by
  refine ⟨_, ⟨_, rfl, rfl⟩, ?_⟩
  exact wrap_mislabels rfl rfl rfl rfl 7

end QuantumGo.HeaderEpochs
