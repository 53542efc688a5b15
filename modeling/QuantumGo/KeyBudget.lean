import QuantumGo.RekeyTriggers
import QuantumGo.Interleaving

/-!
How the datagram path reads the wear of its key (pkg/tunnel/dgram_session.go, dgram_rekey.go).
A number is drawn, and later compared with the number at which the epoch starts: DatagramSeal
and DatagramSealTo refuse it at the hard cap, datagramRekeyDue asks for a rekey below it.
Between the two the epoch may advance. The difference of a number drawn before that is taken
modulo 2^64, and comes out as nearly all of it.
-/

namespace QuantumGo.KeyBudget

open Octets Effect Wire Aead Kem Tunnel Records DatagramSession SymbolicKem
open RekeyTriggers (maxSessionDuration)
open Interleaving
open DatagramSpecs (datagramSeal_ok_iff advanceDatagramEpoch_stopped)

variable {Byte : Type} [Octet Byte]

def packetBound (epochs : DatagramEpochState Byte) (seq : Nat) : Bool :=
  decide (epochAge epochs seq ≥ datagramRekeyHighWater)

def timeBound (clock : Int) (epochs : DatagramEpochState Byte) : Bool :=
  decide (clock - epochs.cur.startedAt ≥ maxSessionDuration)

def datagramRekeyDue (clock : Int) (seq : Nat) : SessionProg Byte Bool := do
  let s ← read
  let epochs ← lift (epochsOf s)
  return packetBound epochs seq || timeBound clock epochs

inductive Use (Byte : Type) where
  | datagramSeal (aad plaintext : List Byte)
  | datagramSealTo (dst aad plaintext : List Byte)
  | datagramRekeyDue (clock : Int)

inductive Event (Byte : Type) where
  | draw
  | advance (now : Int) (newSecret : List Byte)
  | use (i : Nat) (what : Use Byte)

/-- The numbers drawn so far, in order, and how many of them were drawn before the current
epoch began. -/
structure World (Byte : Type) where
  session : Session Byte
  numbers : List Nat
  begun : Nat

def World.drawn (w : World Byte) : Nat := w.numbers.length - w.begun

def perform (crypto : Crypto Byte) (w : World Byte) : Event Byte → World Byte
  | .draw =>
    match nextDatagramSeq w.session with
    | (.ok seq, session) => { w with session, numbers := w.numbers ++ [seq] }
    | (.error _, session) => { w with session }
  | .advance now newSecret =>
    match advanceDatagramEpoch crypto now newSecret w.session with
    | (.ok _, session) => { w with session, begun := w.numbers.length }
    | (.error _, session) => { w with session }
  -- Sealing and asking change nothing that is modelled.
  | .use _ _ => w

/-- The key is reported as worn: the seal is refused for that reason, or the packet bound is
what makes a rekey due. -/
def Worn (crypto : Crypto Byte) (seq : Nat) (s : Session Byte) : Use Byte → Prop
  | .datagramSeal aad plaintext =>
    (datagramSeal crypto aad seq plaintext s).1 = .error (.err .nonceExhausted)
  | .datagramSealTo dst aad plaintext =>
    (datagramSealTo crypto dst aad seq plaintext s).1 = .error (.err .nonceExhausted)
  | .datagramRekeyDue clock => (datagramRekeyDue clock seq s).1 = .ok true ∧
      ∀ epochs, s.dgramEpochs = some epochs → timeBound clock epochs = false

def Use.limit : Use Byte → Nat
  | .datagramRekeyDue _ => datagramRekeyHighWater
  | _ => maxPacketsBeforeRekey

def Honest (crypto : Crypto Byte) (w : World Byte) : Event Byte → Prop
  | .use i what => ∀ seq, w.numbers[i]? = some seq → Worn crypto seq w.session what →
      what.limit ≤ w.drawn
  | _ => True

def Timely (w : World Byte) : Event Byte → Prop
  | .use i _ => w.begun ≤ i
  | _ => True

instance (w : World Byte) : (e : Event Byte) → Decidable (Timely w e)
  | .use i _ => inferInstanceAs (Decidable (w.begun ≤ i))
  | .draw => .isTrue trivial
  | .advance _ _ => .isTrue trivial

def start (session : Session Byte) : World Byte := ⟨session, [], 0⟩

/-! What wear comes down to. -/

section Wear
variable {crypto : Crypto Byte} {s : Session Byte} {epochs : DatagramEpochState Byte} {seq : Nat}

theorem worn_limit (present : s.dgramEpochs = some epochs) (what : Use Byte)
    (worn : Worn crypto seq s what) : what.limit ≤ epochAge epochs seq := by
  cases what with
  | datagramSeal aad plaintext =>
    refine not_lt.mp fun young => ?_
    rw [Worn, datagramSeal_ok_iff.mpr ⟨rfl, epochs, present, young, rfl⟩] at worn
    cases worn
  | datagramSealTo dst aad plaintext =>
    refine not_lt.mp fun young => ?_
    rw [Worn, datagramSealTo,
      run_bind_ok (datagramSeal_ok_iff.mpr ⟨rfl, epochs, present, young, rfl⟩)] at worn
    cases worn
  | datagramRekeyDue clock =>
    obtain ⟨due, early⟩ := worn
    have found : epochsOf s = .ok epochs := by simp only [epochsOf, present]
    rw [datagramRekeyDue, read_bind, found, run_bind_ok (run_lift _ _), early epochs present,
      Bool.or_false] at due
    exact of_decide_eq_true (Except.ok.inj due)

end Wear

/-! Numbers and epochs. -/

structure Counting (epochs : DatagramEpochState Byte) (w : World Byte) : Prop where
  present : w.session.dgramEpochs = some epochs
  fits : epochs.cur.startSeq < seqLimit
  within : w.begun ≤ w.numbers.length
  next : w.session.sendSeq = (epochs.cur.startSeq + w.drawn) % seqLimit
  counted : ∀ i seq, w.begun ≤ i → w.numbers[i]? = some seq →
    seq = (epochs.cur.startSeq + (i - w.begun)) % seqLimit

section Runs
variable {crypto : Crypto Byte} {w : World Byte} {epochs : DatagramEpochState Byte}

theorem Counting.draw (counting : Counting epochs w) :
    Counting epochs (perform crypto w .draw) := by
  have ran : perform crypto w .draw =
      { w with session := { w.session with sendSeq := (w.session.sendSeq + 1) % seqLimit }
               numbers := w.numbers ++ [w.session.sendSeq] } := rfl
  have within := counting.within
  rw [ran]
  refine ⟨counting.present, counting.fits, ?_, ?_, ?_⟩
  · simp only [List.length_append, List.length_singleton]
    omega
  · have more : (w.numbers ++ [w.session.sendSeq]).length - w.begun = w.drawn + 1 := by
      simp only [World.drawn, List.length_append, List.length_singleton]
      omega
    simp only [World.drawn] at more ⊢
    rw [more, counting.next, Nat.mod_add_mod, World.drawn, Nat.add_assoc]
  · intro i seq behind held
    rcases (getElem?_added i seq).mp held with before | ⟨rfl, rfl⟩
    · exact counting.counted i seq behind before
    · exact counting.next

theorem Counting.step (counting : Counting epochs w) (e : Event Byte) :
    ∃ epochs', Counting epochs' (perform crypto w e) := by
  cases e with
  | draw => exact ⟨epochs, counting.draw⟩
  | use i what => exact ⟨epochs, counting⟩
  | advance now newSecret =>
    have fits : w.session.sendSeq < seqLimit := counting.next ▸ Nat.mod_lt _ (by decide)
    rw [perform]
    rcases ran : advanceDatagramEpoch crypto now newSecret w.session with ⟨stop | epoch, session⟩
    · have same := advanceDatagramEpoch_stopped ran
      exact ⟨epochs, same ▸ counting.present, counting.fits, counting.within, same ▸ counting.next,
        counting.counted⟩
    · rw [advanceDatagramEpoch, reject_bind_ok_iff, read_bind] at ran
      simp only [counting.present, lift_bind_ok_iff, write_bind, pure_ok_iff] at ran
      obtain ⟨-, ciphers, -, -, rfl⟩ := ran
      refine ⟨_, rfl, fits, le_rfl, ?_, fun i seq behind held => ?_⟩
      · simpa [World.drawn] using (Nat.mod_eq_of_lt fits).symm
      · -- Nothing is drawn in the new epoch yet.
        have inside := (List.getElem?_eq_some_iff.mp held).1
        exact absurd inside (not_lt.mpr behind)

omit [Octet Byte] in
/-- The age of a number drawn in the epoch is its place there. -/
theorem Counting.age_le (counting : Counting epochs w) {i seq : Nat} (behind : w.begun ≤ i)
    (held : w.numbers[i]? = some seq) : epochAge epochs seq ≤ i - w.begun := by
  have fits := counting.fits
  have same : (epochs.cur.startSeq + (i - w.begun)) % seqLimit + seqLimit - epochs.cur.startSeq =
      (epochs.cur.startSeq + (i - w.begun)) % seqLimit +
      (seqLimit - epochs.cur.startSeq) := by omega
  rw [epochAge, counting.counted i seq behind held, same, Nat.mod_add_mod]
  have whole : epochs.cur.startSeq + (i - w.begun) + (seqLimit - epochs.cur.startSeq) =
      i - w.begun + seqLimit := by omega
  rw [whole, Nat.add_mod_right]
  exact Nat.mod_le _ _

theorem Counting.honest (counting : Counting epochs w) (e : Event Byte) (timely : Timely w e) :
    Honest crypto w e := by
  cases e with
  | draw => trivial
  | advance now newSecret => trivial
  | use i what =>
    intro seq held worn
    have inside := (List.getElem?_eq_some_iff.mp held).1
    have reached := (worn_limit counting.present what worn).trans (counting.age_le timely held)
    have within : i - w.begun ≤ w.numbers.length - w.begun := by omega
    exact reached.trans within

theorem Counting.run (counting : Counting epochs w) (events : List (Event Byte))
    (timely : Along (perform crypto) Timely events w) :
    Along (perform crypto) (Honest crypto) events w := by
  induction events generalizing w epochs with
  | nil => trivial
  | cons e rest ih =>
    obtain ⟨epochs', next⟩ : ∃ epochs', Counting epochs' (perform crypto w e) := counting.step e
    exact ⟨counting.honest e timely.1, ih next timely.2⟩

end Runs

/-- A new session starts its first epoch at the first number. -/
theorem counting_start {env : Env Byte} {kem : Suite Byte} {role : Role} {now : Int}
    {id coins secret : List Byte} {suite : UInt16} {s s' : Session Byte}
    (made : newSession kem role id coins = .ok s)
    (keyed : initializeDatagramKeys env.toCrypto now secret suite s = (.ok (), s')) :
    ∃ epochs, Counting epochs (start s') := by
  obtain ⟨-, -, new, -⟩ := FlightSpecs.newSession_ok made
  obtain ⟨-, -, ciphers, prefixes, -, -, rfl⟩ := FlightSpecs.initializeDatagramKeys_ok_iff.mp keyed
  refine ⟨_, rfl, show 0 < seqLimit by decide, le_rfl, new, fun i seq _ held => ?_⟩
  simp [start] at held

/-- Wear is never reported too early, whatever the order of draws, advances and uses, as long
as every number is used in the epoch in which it was drawn. -/
theorem wear_read_right {env : Env Byte} {kem : Suite Byte} {role : Role} {now : Int}
    {id coins secret : List Byte} {suite : UInt16} {s s' : Session Byte}
    (made : newSession kem role id coins = .ok s)
    (keyed : initializeDatagramKeys env.toCrypto now secret suite s = (.ok (), s'))
    (events : List (Event Byte)) (timely : Along (perform env.toCrypto) Timely events (start s')) :
    Along (perform env.toCrypto) (Honest env.toCrypto) events (start s') := by
  obtain ⟨epochs, counting⟩ := counting_start made keyed
  exact counting.run events timely

/-- A number drawn before an advance is left unused. -/
theorem wear_read_right_unused : ∃ s, IsDatagram .initiator s ∧
    Along (perform env.toCrypto) (Honest env.toCrypto) [.draw, .draw, .use 0 (.datagramSeal [] []),
      .advance 1 (secretOf 1), .draw, .use 2 (.datagramSealTo [] [] []),
      .use 2 (.datagramRekeyDue 2)] (start s) := by
  refine ⟨_, ⟨_, rfl, rfl⟩, wear_read_right (show IsNew .initiator _ from rfl)
    (show initializeDatagramKeys env.toCrypto 0 (secretOf 0) cipherSuiteAES256GCM _ = _ from rfl)
    _ ?_⟩
  refine ⟨trivial, trivial, ?_, trivial, trivial, ?_, ?_, trivial⟩ <;> decide +kernel

/-- A number drawn just before the epoch advances: the key of the new epoch has sealed nothing,
and yet it is reported as worn out. -/
theorem late_number_misread : ∃ s w, IsDatagram .initiator s ∧
    w = run (perform env.toCrypto) [.draw, .advance 1 (secretOf 1)] (start s) ∧
    w.numbers = [0] ∧ w.drawn = 0 ∧
    (datagramSeal env.toCrypto [] 0 [] w.session).1 = .error (.err .nonceExhausted) ∧
    (datagramSealTo env.toCrypto [] [] 0 [] w.session).1 = .error (.err .nonceExhausted) ∧
    (datagramRekeyDue 1 0 w.session).1 = .ok true ∧
    (datagramRekeyDue 1 1 w.session).1 = .ok false := by
  refine ⟨_, _, ⟨_, rfl, rfl⟩, rfl, ?_, ?_, ?_, ?_, ?_, ?_⟩ <;> decide +kernel

end QuantumGo.KeyBudget
