import QuantumGo.SealingRuns

/-!
How many records a traffic key seals. The limit is checked by comparing the number of a
record with the number at which its key took over. Encrypt passes a number that was drawn
before that, and sealRekeyControl compares nothing; apart from these every key stays within
the limit.
-/

namespace QuantumGo.KeyWear

open Octets Wire Aead Tunnel Records DatagramSession SealingRuns
open Interleaving SymbolicKem

variable {Byte : Type} [Octet Byte] {mode : Mode}

def wear (key : List Byte) (log : List (Sealing Byte)) : Nat :=
  (log.filter fun e => e.cipher.key = key).length

def slot : Mode → Session Byte → Option (Cipher Byte × Nat)
  | .stream, s => s.sendCipher.map fun cipher => (cipher, s.sendEpochStartSeq)
  | .datagram, s => s.dgramEpochs.map fun epochs => (epochs.cur.sendCipher, epochs.cur.startSeq)

def slotKeys (mode : Mode) (s : Session Byte) : List (List Byte) :=
  ((slot mode s).map fun taken => taken.1.key).toList

def Fresh (crypto : Crypto Byte) (held : List (List Byte)) (w : World Byte mode) :
    Event Byte mode → Prop
  | .keys op => slot mode (changeKeys crypto op w.session) = slot mode w.session ∨
      ∀ key ∈ slotKeys mode (changeKeys crypto op w.session), key ∉ held
  | _ => True

def FreshKeys (crypto : Crypto Byte) :
    List (List Byte) → List (Event Byte mode) → World Byte mode → Prop
  | _, [], _ => True
  | held, e :: rest, w => Fresh crypto held w e ∧
      FreshKeys crypto (slotKeys mode (perform crypto w e).session ++ held) rest
        (perform crypto w e)

/-- The number of an Encrypt was drawn behind the start of the key that seals it, and that of a
rekey message is within the limit for frames. -/
def Task.Counted (s : Session Byte) : Task Byte mode → Prop
  | .encryptNumbered _ seq => s.sendEpochStartSeq ≤ seq
  | .controlNumbered _ _ seq =>
    ∀ epochs ∈ s.dgramEpochs, epochAge epochs seq < maxPacketsBeforeRekey
  | _ => True

def Counted (w : World Byte mode) : Event Byte mode → Prop
  | .step i => ∀ task ∈ w.tasks[i]?, Task.Counted w.session task
  | _ => True

instance decideTaskCounted (s : Session Byte) :
    (task : Task Byte mode) → Decidable (Task.Counted s task)
  | .encryptNumbered _ seq => inferInstanceAs (Decidable (s.sendEpochStartSeq ≤ seq))
  | .controlNumbered _ _ seq => inferInstanceAs
      (Decidable (∀ epochs ∈ s.dgramEpochs, epochAge epochs seq < maxPacketsBeforeRekey))
  | .encrypt _ => .isTrue trivial
  | .frames _ _ => .isTrue trivial
  | .frameNumbered .. => .isTrue trivial
  | .frameHeaded .. => .isTrue trivial
  | .control .. => .isTrue trivial
  | .done => .isTrue trivial

instance decideCounted (w : World Byte mode) : (e : Event Byte mode) → Decidable (Counted w e)
  | .step i => inferInstanceAs (Decidable (∀ task ∈ w.tasks[i]?, Task.Counted w.session task))
  | .call _ => .isTrue trivial
  | .keys _ => .isTrue trivial

instance decideFresh (crypto : Crypto Byte) (held : List (List Byte))
    (w : World Byte mode) : (e : Event Byte mode) → Decidable (Fresh crypto held w e)
  | .keys _ => inferInstanceAs (Decidable (_ ∨ _))
  | .call _ => .isTrue trivial
  | .step _ => .isTrue trivial

instance decideFreshKeys (crypto : Crypto Byte) : (held : List (List Byte)) →
    (events : List (Event Byte mode)) → (w : World Byte mode) →
    Decidable (FreshKeys crypto held events w)
  | _, [], _ => .isTrue trivial
  | held, e :: rest, w =>
    have := decideFreshKeys crypto (slotKeys mode (perform crypto w e).session ++ held) rest
        (perform crypto w e)
    inferInstanceAs (Decidable (_ ∧ _))

variable {seq base : Nat} {s : Session Byte}

/-! A key and the number at which it took over. -/

section Invariant
variable {crypto : Crypto Byte} {w : World Byte mode} {held : List (List Byte)}

def age (seq start : Nat) : Nat := (seq + seqLimit - start) % seqLimit

theorem age_injective {seq' start : Nat} (fits : seq < seqLimit) (fits' : seq' < seqLimit)
    (inside : start < seqLimit) (same : age seq start = age seq' start) : seq = seq' := by
  have rest : seqLimit - start + seq ≡ seqLimit - start + seq' [MOD seqLimit] := by
    have left : seq + seqLimit - start = seqLimit - start + seq := by omega
    have right : seq' + seqLimit - start = seqLimit - start + seq' := by omega
    rw [age, age, left, right] at same
    exact same
  exact (Nat.ModEq.add_left_cancel' _ rest).eq_of_lt_of_lt fits fits'

theorem age_of_le {start : Nat} (fits : seq < seqLimit) (behind : start ≤ seq) :
    age seq start = seq - start := by
  unfold age
  rw [show seq + seqLimit - start = seq - start + seqLimit by omega, Nat.add_mod_right]
  exact Nat.mod_eq_of_lt (by omega)

structure Started (started : List (List Byte × Nat)) (held : List (List Byte))
    (w : World Byte mode) : Prop where
  known : ∀ taken ∈ started, taken.1 ∈ held
  fits : ∀ taken ∈ started, taken.2 < seqLimit
  once : ∀ taken ∈ started, ∀ taken' ∈ started, taken.1 = taken'.1 → taken.2 = taken'.2
  current : ∀ cipher seq, slot mode w.session = some (cipher, seq) → (cipher.key, seq) ∈ started
  counted : ∀ e ∈ w.log, ∃ seq, (e.cipher.key, seq) ∈ started ∧
    age e.seq seq < maxPacketsBeforeRekey

omit [Octet Byte] in
theorem slot_sending {s' : Session Byte} (same : sending s' = sending s) :
    slot mode s' = slot mode s := by
  simp only [sending, Prod.mk.injEq] at same
  obtain ⟨-, cipher, begins, -, epochs⟩ := same
  cases mode with
  | stream => simp only [slot, cipher, begins]
  | datagram => simp only [slot, epochs]

omit [Octet Byte] in
theorem slot_starts {s' : Session Byte} (change : Switches s s' mode) {cipher : Cipher Byte}
    (taken : slot mode s' = some (cipher, seq)) : slot mode s' = slot mode s ∨ seq = s.sendSeq := by
  cases change with
  | still same => exact .inl (slot_sending same)
  | switched cipher' now =>
    simp only [sending, Prod.mk.injEq] at now
    obtain ⟨-, held, begins, -, -⟩ := now
    simp only [slot, held, begins, Option.map_some, Option.some.injEq, Prod.mk.injEq] at taken
    exact .inr taken.2.symm
  | advanced cipher' before later present next begins now =>
    simp only [sending, Prod.mk.injEq] at now
    obtain ⟨-, -, -, -, epochs⟩ := now
    simp only [slot, epochs, begins, Option.map_some, Option.some.injEq, Prod.mk.injEq] at taken
    exact .inr taken.2.symm
  | closed now =>
    simp only [sending, Prod.mk.injEq] at now
    obtain ⟨-, held, -, -, epochs⟩ := now
    cases mode with
    | stream => simp [slot, held] at taken
    | datagram => exact .inl (by simp only [slot, epochs])

theorem sealed_within {task : Task Byte mode} {index : UInt32} {e : Sealing Byte}
    (counted : Task.Counted s task) (made : (task.step index s).2.2 = some e)
    (fits : e.seq < seqLimit) :
    ∃ start, slot mode s = some (e.cipher, start) ∧ age e.seq start < maxPacketsBeforeRekey := by
  cases step_seals made with
  | record text seq made =>
    obtain ⟨cipher, present, young, rfl⟩ := recordSealing_some_iff.mp made
    refine ⟨s.sendEpochStartSeq, by simp only [slot, present, Option.map_some], ?_⟩
    rw [age_of_le fits counted]
    exact not_le.mp fun old => young ⟨counted, old⟩
  | frame kind payload rest seq epoch made =>
    obtain ⟨epochs, present, young, rfl⟩ := frameSealing_some_iff.mp made
    exact ⟨epochs.cur.startSeq, by simp only [slot, present, Option.map_some], young⟩
  | control kind payload seq made =>
    obtain ⟨epochs, present, rfl⟩ := controlSealing_some_iff.mp made
    exact ⟨epochs.cur.startSeq, by simp only [slot, present, Option.map_some],
      counted epochs present⟩

variable {started : List (List Byte × Nat)}

section Begun
variable (begun : Started started held w)
include begun

omit [Octet Byte] in
theorem Started.mono (more : List (List Byte)) : Started started (more ++ held) w :=
  { begun with known := fun taken inside => List.mem_append_right _ (begun.known taken inside) }

omit [Octet Byte] in
/-- Records sealed with keys that were held, the sending key being one of them. -/
theorem Started.next {w' : World Byte mode}
    (slots : ∀ taken, slot mode w'.session = some taken → slot mode w.session = some taken)
    (logs : ∀ e ∈ w'.log, e ∈ w.log ∨ ∃ seq, slot mode w.session = some (e.cipher, seq) ∧
      age e.seq seq < maxPacketsBeforeRekey) : Started started held w' := by
  refine ⟨begun.known, begun.fits, begun.once, ?_, ?_⟩
  · intro cipher seq taken
    exact begun.current cipher seq (slots _ taken)
  · intro e logged
    rcases logs e logged with earlier | ⟨seq, taken, young⟩
    · exact begun.counted e earlier
    · exact ⟨seq, begun.current _ _ taken, young⟩

omit [Octet Byte] in
theorem Started.install {w' : World Byte mode} {cipher : Cipher Byte} (logs : w'.log = w.log)
    (taken : slot mode w'.session = some (cipher, seq)) (fits : seq < seqLimit)
    (fresh : cipher.key ∉ held) :
    Started ((cipher.key, seq) :: started) (slotKeys mode w'.session ++ held) w' := by
  have keys : slotKeys mode w'.session = [cipher.key] := by simp [slotKeys, taken]
  rw [keys]
  refine ⟨?_, ?_, ?_, ?_, ?_⟩
  · intro taken' inside
    rcases List.mem_cons.mp inside with rfl | older
    · exact List.mem_cons_self
    · exact List.mem_cons_of_mem _ (begun.known taken' older)
  · intro taken' inside
    rcases List.mem_cons.mp inside with rfl | older
    · exact fits
    · exact begun.fits taken' older
  · -- two of one key are both old, as the new key is none of the old ones
    intro left inLeft right inRight same
    rcases List.mem_cons.mp inLeft with rfl | oldLeft <;>
      rcases List.mem_cons.mp inRight with rfl | oldRight
    · rfl
    · exact absurd (Eq.mpr (congrArg (· ∈ held) same) (begun.known right oldRight)) fresh
    · exact absurd (Eq.mp (congrArg (· ∈ held) same) (begun.known left oldLeft)) fresh
    · exact begun.once left oldLeft right oldRight same
  · intro cipher' seq' present
    obtain ⟨rfl, rfl⟩ := Prod.mk.inj (Option.some.inj (taken.symm.trans present))
    exact List.mem_cons_self
  · intro e logged
    obtain ⟨start, inside, young⟩ := begun.counted e (logs ▸ logged)
    exact ⟨start, List.mem_cons_of_mem _ inside, young⟩

/-- The sending key stays, or one that was not held takes over at the counter. -/
theorem Started.keys {op : KeyOp Byte mode} (fits : w.session.sendSeq < seqLimit)
    (fresh : Fresh crypto held w (.keys op)) :
    ∃ started', Started started' (slotKeys mode (perform crypto w (.keys op)).session ++ held)
      (perform crypto w (.keys op)) := by
  have change : Switches w.session (perform crypto w (.keys op)).session mode :=
    changeKeys_switches op w.session
  have stays (slots : ∀ taken, slot mode (perform crypto w (.keys op)).session = some taken →
      slot mode w.session = some taken) :
      Started started held (perform crypto w (.keys op)) :=
    begun.next slots fun e logged => .inl logged
  rcases fresh with same | fresh
  · exact ⟨started, (stays fun taken present => same ▸ present).mono _⟩
  · cases taken : slot mode (perform crypto w (.keys op)).session with
    | none => exact ⟨started, (stays fun taken' present => by simp [taken] at present).mono _⟩
    | some taken' =>
      obtain ⟨cipher, seq⟩ := taken'
      rcases slot_starts change taken with same | rfl
      · exact ⟨started, (stays fun taken' present => same ▸ present).mono _⟩
      · refine ⟨_, begun.install rfl taken fits (fresh cipher.key ?_)⟩
        have keys : slotKeys mode (perform crypto w (.keys op)).session = [cipher.key] := by
          simp [slotKeys, taken]
        exact keys ▸ List.mem_cons_self

theorem Started.step {e : Event Byte mode} (fits : w.session.sendSeq < seqLimit)
    (numbered : Numbered base (perform crypto w e)) (fresh : Fresh crypto held w e)
    (counted : Counted w e) :
    ∃ started', Started started' (slotKeys mode (perform crypto w e).session ++ held)
      (perform crypto w e) := by
  cases e with
  | keys op => exact begun.keys fits fresh
  | call request =>
    have same : Started started held (perform crypto w (.call request)) :=
      begun.next (fun _ => id) fun e logged => .inl logged
    exact ⟨started, same.mono _⟩
  | step i =>
    cases present : w.tasks[i]? with
    | none =>
      have same : perform crypto w (.step i) = w := by simp only [perform, present]
      rw [same]
      exact ⟨started, begun.mono _⟩
    | some task =>
      refine ⟨started, (begun.next ?_ ?_).mono _⟩
      · intro taken held
        simp only [perform, present] at held
        obtain ⟨-, -, -, -, drew⟩ | ⟨-, same, -⟩ := task.step_cases w.index w.session
        · rw [drew] at held
          cases mode with
          | stream | datagram => exact held
        · exact same ▸ held
      · intro e logged
        have fits := numbered.fits logged
        simp only [perform, present, List.mem_append, Option.mem_toList] at logged
        exact logged.imp id fun made => sealed_within (counted task present) made fits

theorem Started.run (events : List (Event Byte mode)) (numbered : Numbered base w)
    (below : (after crypto events w).draws ≤ seqLimit) (fresh : FreshKeys crypto held events w)
    (counted : Along (perform crypto) Counted events w) :
    ∃ started' held', Started started' held' (after crypto events w) := by
  induction events generalizing w held started with
  | nil => exact ⟨started, held, begun⟩
  | cons e rest ih =>
    have numbered' := numbered.step e ((draws_le_after rest _).trans below)
    have fits : w.session.sendSeq < seqLimit := by
      rw [numbered.counter]
      exact Nat.mod_lt _ (by simp [seqLimit])
    obtain ⟨started', begun'⟩ := begun.step fits numbered' fresh.1 counted.1
    exact ih begun' numbered' below fresh.2 counted.2

/-- The numbers that a key sealed with are different and within the limit of one start. -/
theorem Started.wear_le (numbered : Numbered base w) (key : List Byte) :
    wear key w.log ≤ maxPacketsBeforeRekey := by
  unfold wear
  cases records : w.log.filter fun e => e.cipher.key = key with
  | nil => exact Nat.zero_le _
  | cons first others =>
    rw [← records]
    have member {e : Sealing Byte} (inside : e ∈ w.log.filter fun e => e.cipher.key = key) :
        e ∈ w.log ∧ e.cipher.key = key := by simpa using inside
    obtain ⟨firstLogged, rfl⟩ := member (records ▸ List.mem_cons_self)
    obtain ⟨start, inside, -⟩ := begun.counted first firstLogged
    have young {e : Sealing Byte} (inside' : e ∈ w.log ∧ e.cipher.key = first.cipher.key) :
        age e.seq start < maxPacketsBeforeRekey := by
      obtain ⟨start', known, young⟩ := begun.counted e inside'.1
      have same : start' = start := begun.once _ known _ inside inside'.2
      exact same ▸ young
    have numbers : (w.log.map Sealing.seq).Nodup := (List.nodup_append.mp numbered.distinct).1
    have ages : ((w.log.filter fun e => e.cipher.key = first.cipher.key).map
        fun e => age e.seq start).Nodup := by
      refine List.Nodup.map_on (fun e held e' held' same => ?_)
        ((List.Nodup.of_map _ numbers).filter _)
      have seqs := age_injective (numbered.fits (member held).1) (numbered.fits (member held').1)
        (begun.fits _ inside) same
      exact List.inj_on_of_nodup_map numbers (member held).1 (member held').1 seqs
    have bounded : ((w.log.filter fun e => e.cipher.key = first.cipher.key).map
        fun e => age e.seq start).toFinset ⊆ Finset.range maxPacketsBeforeRekey := by
      intro n present
      obtain ⟨e, held, rfl⟩ := List.mem_map.mp (List.mem_toFinset.mp present)
      exact Finset.mem_range.mpr (young (member held))
    have := Finset.card_le_card bounded
    rwa [List.toFinset_card_of_nodup ages, List.length_map, Finset.card_range] at this

end Begun

omit [Octet Byte] in
theorem started_start (index : UInt32)
    (fits : ∀ taken, slot mode s = some taken → taken.2 < seqLimit) :
    Started ((slot mode s).map fun taken => (taken.1.key, taken.2)).toList (slotKeys mode s)
      (start mode s index) := by
  cases taken : slot mode s with
  | none => exact ⟨nofun, nofun, nofun, by simp [start, taken], nofun⟩
  | some taken' =>
    refine ⟨?_, ?_, ?_, ?_, nofun⟩
    · simp [slotKeys, taken]
    · simpa using fits taken' taken
    · simp
    · intro cipher seq present
      obtain rfl : taken' = (cipher, seq) := Option.some.inj (taken.symm.trans present)
      simp

end Invariant

structure Wide (mode : Mode) (s : Session Byte) : Prop where
  counter : s.sendSeq < seqLimit
  begins : ∀ taken, slot mode s = some taken → taken.2 < seqLimit

/-- While fewer than 2^64 numbers are drawn and no key is installed twice, a key seals within
the limit if the numbers of the Encrypts are not older than their key and those of the rekey
messages are within it. -/
theorem wear_capped (crypto : Crypto Byte) {s : Session Byte} (index : UInt32) (wide : Wide mode s)
    (events : List (Event Byte mode))
    (below : (after crypto events (start mode s index)).draws < seqLimit)
    (fresh : FreshKeys crypto (slotKeys mode s) events (start mode s index))
    (counted : Along (perform crypto) Counted events (start mode s index)) (key : List Byte) :
    wear key (after crypto events (start mode s index)).log ≤ maxPacketsBeforeRekey := by
  have numbered : Numbered s.sendSeq (start mode s index) := numbered_start wide.counter index
  obtain ⟨_, _, begun⟩ :=
    (started_start index wide.begins).run events numbered below.le fresh counted
  exact begun.wear_le (numbered.run events below.le) key

/-- A datagram session sends, seals a rekey message, advances and sends again. -/
theorem wear_capped_rekey : ∃ s, IsDatagram .initiator s ∧
    ∀ key, wear key (after env.toCrypto [.call (.send [lit 1]), .step 0, .step 0,
      .step 0, .call (.control .init [lit 2]), .step 1, .step 1,
      .keys (.advance 1 (secretOf 1)), .call (.send [lit 3]), .step 2, .step 2,
      .step 2] (start .datagram s 7)).log ≤ maxPacketsBeforeRekey := by
  refine ⟨_, ⟨_, rfl, rfl⟩, wear_capped env.toCrypto 7 ⟨?_, ?_⟩ _ ?_ ?_ ?_⟩
  · decide +kernel
  · rintro _ ⟨⟩
    decide +kernel
  · decide +kernel
  · decide +kernel
  · decide +kernel

/-! Rekey messages have no limit. -/

section Overrun
variable {crypto : Crypto Byte} {epochs : DatagramEpochState Byte}

theorem batch_round (crypto : Crypto Byte) {w : World Byte .datagram} {payload : List Byte}
    {rest : List (List Byte)} (waiting : w.tasks = [.frames .data (payload :: rest)])
    (present : w.session.dgramEpochs = some epochs)
    (young : epochAge epochs w.session.sendSeq < maxPacketsBeforeRekey) :
    ∃ e : Sealing Byte, e.cipher = epochs.cur.sendCipher ∧
      after crypto [.step 0, .step 0, .step 0] w = { w with
        session := (nextDatagramSeq w.session).2
        tasks := [.frames .data rest], log := w.log ++ [e], draws := w.draws + 1 } := by
  obtain ⟨session, index, tasks, log, draws⟩ := w
  dsimp only at waiting present young
  subst waiting
  have headed : datagramSendEpoch (nextDatagramSeq session).2 = (.ok epochs.cur.epoch, _) :=
    datagramSendEpoch_ok_iff.mpr ⟨rfl, epochs, present, rfl⟩
  have made : ∃ e, frameSealing .data index payload session.sendSeq epochs.cur.epoch
      (nextDatagramSeq session).2 = some e ∧ e.cipher = epochs.cur.sendCipher :=
    ⟨_, frameSealing_some_iff.mpr ⟨epochs, present, young, rfl⟩, rfl⟩
  obtain ⟨e, made, cipher⟩ := made
  refine ⟨e, cipher, ?_⟩
  simp [after, run, perform, Task.step, Task.draws, headed, made]

theorem batch_run (crypto : Crypto Byte) (begins : epochs.cur.startSeq = 0) (n : Nat)
    (w : World Byte .datagram) (payload : List Byte)
    (waiting : w.tasks = [.frames .data (List.replicate n payload)])
    (present : w.session.dgramEpochs = some epochs)
    (room : w.session.sendSeq + n ≤ maxPacketsBeforeRekey) :
    ∃ w', after crypto (List.replicate (3 * n) (.step 0)) w = w' ∧
      w'.session.dgramEpochs = some epochs ∧ w'.tasks = [.frames .data []] ∧
      wear epochs.cur.sendCipher.key w'.log = wear epochs.cur.sendCipher.key w.log + n := by
  induction n generalizing w with
  | zero => exact ⟨w, rfl, present, waiting, rfl⟩
  | succ n ih =>
    have size : maxPacketsBeforeRekey < seqLimit := by decide +kernel
    have young : epochAge epochs w.session.sendSeq < maxPacketsBeforeRekey := by
      rw [epochAge, begins, Nat.sub_zero, Nat.add_mod_right, Nat.mod_eq_of_lt (by omega)]
      omega
    obtain ⟨e, cipher, round⟩ := batch_round crypto waiting present young
    have next : (w.session.sendSeq + 1) % seqLimit = w.session.sendSeq + 1 :=
      Nat.mod_eq_of_lt (by omega)
    obtain ⟨w', run, present', tasks', worn⟩ := ih { w with
        session := (nextDatagramSeq w.session).2
        tasks := [.frames .data (List.replicate n payload)], log := w.log ++ [e]
        draws := w.draws + 1 } rfl present
      (show (w.session.sendSeq + 1) % seqLimit + n ≤ maxPacketsBeforeRekey by omega)
    refine ⟨w', ?_, present', tasks', ?_⟩
    · rw [show 3 * (n + 1) = 3 + 3 * n by omega, List.replicate_add, after_append,
        show List.replicate 3 (Event.step 0) = [.step 0, .step 0, .step 0] from rfl, round]
      exact run
    · rw [worn]
      simp [wear, cipher]
      omega

def overrun : List (Event Byte .datagram) :=
  .call (.sendBatch (List.replicate maxPacketsBeforeRekey [])) ::
    (List.replicate (3 * maxPacketsBeforeRekey) (.step 0) ++
      [.call (.control .init []), .step 1, .step 1])

theorem overrun_wear (present : s.dgramEpochs = some epochs) (begins : epochs.cur.startSeq = 0)
    (new : s.sendSeq = 0) (index : UInt32) :
    wear epochs.cur.sendCipher.key (after crypto overrun (start .datagram s index)).log =
      maxPacketsBeforeRekey + 1 := by
  have small : batch (List.replicate maxPacketsBeforeRekey ([] : List Byte)) =
      .frames .data (List.replicate maxPacketsBeforeRekey []) :=
    if_neg fun ⟨p, inside, large⟩ => by simp [(List.mem_replicate.mp inside).2] at large
  obtain ⟨w, run, present', tasks, worn⟩ := batch_run crypto begins
    maxPacketsBeforeRekey ⟨s, index, [batch (List.replicate maxPacketsBeforeRekey [])], [], 0⟩ []
    (congrArg (· :: []) small) present (by simp [new])
  have started : after crypto overrun (start .datagram s index) =
      after crypto [.call (.control .init []), .step 1, .step 1] w := by
    rw [overrun, after, Interleaving.run, run_append]
    exact congrArg (after crypto _) run
  obtain ⟨session, index', tasks', log, draws⟩ := w
  dsimp only at present' tasks worn
  subst tasks
  have made : ∃ e, controlSealing .init [] session.sendSeq (nextDatagramSeq session).2 = some e ∧
      e.cipher = epochs.cur.sendCipher :=
    ⟨_, controlSealing_some_iff.mpr ⟨epochs, present', rfl⟩, rfl⟩
  obtain ⟨e, made, cipher⟩ := made
  rw [started]
  simp [after, Interleaving.run, perform, Request.task, Task.step, Task.draws, made, wear,
    cipher] at worn ⊢
  exact worn

end Overrun

/-- A session sends up to the limit of its first key and then begins a rekey: the key has
sealed one record too many. -/
theorem control_overruns : ∃ s epochs, IsDatagram .initiator s ∧ s.dgramEpochs = some epochs ∧
    ¬ wear epochs.cur.sendCipher.key (after env.toCrypto overrun
      (start .datagram s 7)).log ≤ maxPacketsBeforeRekey := by
  refine ⟨_, _, ⟨_, rfl, rfl⟩, rfl, ?_⟩
  rw [overrun_wear rfl rfl rfl]
  exact not_le.mpr (Nat.lt_succ_self _)

end QuantumGo.KeyWear
