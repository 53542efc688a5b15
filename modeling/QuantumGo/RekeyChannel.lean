import QuantumGo.StreamRekey
import QuantumGo.Interleaving

/-!
One direction of a stream under rekeys: what its sender has sealed, what its receiver can
open, and the rekey payloads between the two. Every record is sealed under a key of one
chain of master secrets.
-/

namespace QuantumGo.RekeyChannel

open Octets Effect Symbolic Wire HelloCodec Aead KeySchedule Kem Tunnel Records RecordTypes
open FlightSpecs DatagramSpecs ReplayFilter StreamRekey
open StreamTransport (Kind)
open Interleaving (getElem?_added forall_added)


variable {Byte : Type} [Octet Byte]

/-! What a side has sent. -/

def drawn : Stage Byte → Option Nat
  | .numbered _ seq => some seq
  | .ready e => some e.seq
  | _ => none

def cipherAt (crypto : Crypto Byte) (suite : UInt16) (secrets : Nat → List Byte) (role : Role)
    (generation : Nat) : Cipher Byte :=
  cipherOf suite (trafficKey crypto role (secrets generation))

structure Sealed (crypto : Crypto Byte) (suite : UInt16) (secrets : Nat → List Byte) (role : Role)
    (noncePrefix : List Byte) (e : Entry Byte) : Prop where
  small : e.seq < seqLimit
  ciphertext : e.ciphertext = crypto.sealText suite (trafficKey crypto role (secrets e.generation))
    (buildAEADNonce noncePrefix e.seq) e.text (toBE 8 e.seq)
  msg : encode e.kind e.seq e.ciphertext = .ok e.msg

structure Precedes (e e' : Entry Byte) : Prop where
  generation : e.generation ≤ e'.generation
  number : e.seq ≠ e'.seq
  near : e.seq < e'.seq + 1024

structure Sending (crypto : Crypto Byte) (suite : UInt16) (secrets : Nat → List Byte)
    (side : Side Byte) : Prop where
  cipher : side.session.sendCipher =
    some (cipherAt crypto suite secrets side.session.role side.generation)
  logged : ∀ e ∈ side.log,
    Sealed crypto suite secrets side.session.role side.session.sendNoncePrefix e ∧
    e.generation ≤ side.generation ∧ e.seq < side.session.sendSeq
  precedes : side.log.Pairwise Precedes
  sender : ∀ n ∈ drawn side.sender, n < side.session.sendSeq ∧ ∀ e ∈ side.log, e.seq < n
  rekeyer : ∀ n ∈ drawn side.rekeyer, n < side.session.sendSeq ∧ (∀ e ∈ side.log, e.seq ≠ n) ∧
    n ∉ drawn side.sender
  senderReady : ∀ e, side.sender = .ready e → e.kind = .data ∧
    Sealed crypto suite secrets side.session.role side.session.sendNoncePrefix e ∧
    e.generation ≤ side.generation ∧ ∀ e' ∈ side.log, e'.generation ≤ e.generation
  rekeyerReady : ∀ e, side.rekeyer = .ready e → e.kind = .rekey ∧
    Sealed crypto suite secrets side.session.role side.session.sendNoncePrefix e ∧
    e.generation = side.generation
  room : side.session.sendSeq < seqLimit

variable {crypto : Crypto Byte} {suite : UInt16} {secrets : Nat → List Byte}
  {side side' : Side Byte} {text ciphertext : List Byte} {seq : Nat} {s : Session Byte}
  {cipher : Cipher Byte} {e : Entry Byte} {kind : Kind}

section Senders

theorem sealNumbered_ok (present : s.sendCipher = some cipher)
    (sealed : sealNumbered crypto text seq s = .ok ciphertext) :
    ciphertext = crypto.sealText cipher.suite cipher.key (buildAEADNonce s.sendNoncePrefix seq) text
      (toBE 8 seq) := by
  simp only [sealNumbered, present, guard_ok_iff, sealWithNonce, buildAEADNonce_length, ne_eq,
    not_true_eq_false, if_false, Except.ok.injEq] at sealed
  exact sealed.2.symm

omit [Octet Byte] in
theorem abandon_data (side : Side Byte) : abandon .data side = { side with sender := .free } := by
  cases doing : side.handling <;> simp only [abandon, doing, Side.withStage]

omit [Octet Byte] in
/-- A reply that is given up ends the handling of its request. -/
theorem abandon_rekey (side : Side Byte) : ∃ handling,
    abandon .rekey side = { side with rekeyer := .free, handling } ∧
      (side.handling = .replying ∧ handling = .idle ∨
        side.handling ≠ .replying ∧ handling = side.handling) := by
  cases doing : side.handling with
  | replying => exact ⟨.idle, by simp only [abandon, doing], .inl ⟨rfl, rfl⟩⟩
  | idle => exact ⟨.idle, by simp only [abandon, doing, Side.withStage], .inr ⟨nofun, rfl⟩⟩
  | payload key activationSeq =>
    exact ⟨_, by simp only [abandon, doing, Side.withStage], .inr ⟨nofun, rfl⟩⟩

inductive Written (kind : Kind) (side : Side Byte) : Side Byte → Prop
  | waits : Written kind side side
  | data (e : Entry Byte) (which : kind = .data) (ready : side.sender = .ready e) :
      Written kind side { side with log := side.log ++ [e], sender := .free }
  | rekey (e : Entry Byte) (which : kind = .rekey) (ready : side.rekeyer = .ready e)
      (free : side.sender = .free) :
      Written kind side { side with log := side.log ++ [e], rekeyer := .free }

omit [Octet Byte] in
theorem writeStage_written (kind : Kind) (side : Side Byte) :
    Written kind side (writeStage kind side) := by
  cases kind with
  | data =>
    cases ready : side.sender with
    | ready e =>
      have moved : writeStage .data side =
          { side with log := side.log ++ [e], sender := .free } := by
        simp only [writeStage, Side.stage, ready]
      exact moved ▸ .data e rfl ready
    | _ =>
      have waits : writeStage .data side = side := by simp only [writeStage, Side.stage, ready]
      exact waits.symm ▸ .waits
  | rekey =>
    cases ready : side.rekeyer with
    | ready e =>
      cases held : side.sender with
      | free =>
        have moved : writeStage .rekey side =
            { side with log := side.log ++ [e], rekeyer := .free } := by
          simp only [writeStage, Side.stage, ready, held]
        exact moved ▸ .rekey e rfl ready held
      | _ =>
        have waits : writeStage .rekey side = side := by
          simp only [writeStage, Side.stage, ready, held]
        exact waits.symm ▸ .waits
    | _ =>
      have waits : writeStage .rekey side = side := by simp only [writeStage, Side.stage, ready]
      exact waits.symm ▸ .waits

variable (sending : Sending crypto suite secrets side)
include sending

theorem lock_sending (data : List Byte) : Sending crypto suite secrets (lock data side) := by
  unfold lock
  split
  · exact { sending with
      sender := nofun, senderReady := nofun
      rekeyer := fun n has => ⟨(sending.rekeyer n has).1, (sending.rekeyer n has).2.1, nofun⟩ }
  · exact sending

theorem number_sending (kind : Kind) (room : side.session.sendSeq + 1 < seqLimit) :
    Sending crypto suite secrets (number kind side) := by
  unfold number
  split
  · rename_i text begun
    have next : (side.session.sendSeq + 1) % seqLimit = side.session.sendSeq + 1 :=
      Nat.mod_eq_of_lt room
    have logged : ∀ e ∈ side.log,
        Sealed crypto suite secrets side.session.role side.session.sendNoncePrefix e ∧
        e.generation ≤ side.generation ∧ e.seq < (side.session.sendSeq + 1) % seqLimit := by
      intro e written
      obtain ⟨sealed, older, below⟩ := sending.logged e written
      exact ⟨sealed, older, by omega⟩
    have newest : side.session.sendSeq < (side.session.sendSeq + 1) % seqLimit ∧
        ∀ e ∈ side.log, e.seq < side.session.sendSeq :=
      ⟨by omega, fun e written => (sending.logged e written).2.2⟩
    cases kind with
    | data =>
      refine { sending with
        logged, senderReady := nofun, room := Nat.mod_lt _ (by decide)
        sender := ?_, rekeyer := ?_ }
      · rintro n ⟨⟩
        exact newest
      · intro n has
        obtain ⟨below, apart, -⟩ := sending.rekeyer n has
        refine ⟨show n < (side.session.sendSeq + 1) % seqLimit by omega, apart, ?_⟩
        rintro ⟨⟩
        exact lt_irrefl _ below
    | rekey =>
      refine { sending with
        logged, rekeyerReady := nofun, room := Nat.mod_lt _ (by decide)
        sender := ?_, rekeyer := ?_ }
      · intro n has
        obtain ⟨below, above⟩ := sending.sender n has
        exact ⟨show n < (side.session.sendSeq + 1) % seqLimit by omega, above⟩
      · rintro n ⟨⟩
        refine ⟨newest.1, fun e written => (newest.2 e written).ne, ?_⟩
        intro has
        exact lt_irrefl _ (sending.sender _ has).1
  · exact sending

theorem abandon_sending (kind : Kind) : Sending crypto suite secrets (abandon kind side) := by
  cases kind with
  | data =>
    rw [abandon_data]
    exact { sending with
      sender := nofun, senderReady := nofun
      rekeyer := fun n has => ⟨(sending.rekeyer n has).1, (sending.rekeyer n has).2.1, nofun⟩ }
  | rekey =>
    obtain ⟨handling, given, -⟩ := abandon_rekey side
    rw [given]
    exact { sending with rekeyer := nofun, rekeyerReady := nofun }

theorem sealStage_sending (kind : Kind) :
    Sending crypto suite secrets (sealStage crypto kind side) := by
  unfold sealStage
  split
  · rename_i text seq numbered
    split
    · exact abandon_sending sending kind
    · rename_i ciphertext sealedText
      split
      · exact abandon_sending sending kind
      · rename_i msg encoded
        have content := sealNumbered_ok sending.cipher sealedText
        have sealed (small : seq < seqLimit) : Sealed crypto suite secrets side.session.role
            side.session.sendNoncePrefix ⟨kind, side.generation, seq, text, ciphertext, msg⟩ :=
          ⟨small, content, encoded⟩
        cases kind with
        | data =>
          have has : seq ∈ drawn side.sender := by rw [show side.sender = _ from numbered]; rfl
          refine { sending with sender := ?_, rekeyer := ?_, senderReady := ?_ }
          · rintro n ⟨⟩
            exact sending.sender seq has
          · intro n drawn
            obtain ⟨below, apart, fresh⟩ := sending.rekeyer n drawn
            refine ⟨below, apart, ?_⟩
            rintro ⟨⟩
            exact fresh has
          · rintro e ⟨⟩
            exact ⟨rfl, sealed ((sending.sender seq has).1.trans sending.room), le_rfl,
              fun e' written => (sending.logged e' written).2.1⟩
        | rekey =>
          have has : seq ∈ drawn side.rekeyer := by rw [show side.rekeyer = _ from numbered]; rfl
          refine { sending with rekeyer := ?_, rekeyerReady := ?_ }
          · rintro n ⟨⟩
            exact sending.rekeyer seq has
          · rintro e ⟨⟩
            exact ⟨rfl, sealed ((sending.rekeyer seq has).1.trans sending.room), rfl⟩
  · exact sending

theorem append_sending {sender rekeyer : Stage Byte}
    (sealed : Sealed crypto suite secrets side.session.role side.session.sendNoncePrefix e)
    (older : e.generation ≤ side.generation) (below : e.seq < side.session.sendSeq)
    (last : ∀ e' ∈ side.log, Precedes e' e)
    (senders : ∀ n ∈ drawn sender, n ∈ drawn side.sender ∧ e.seq < n)
    (rekeyers : ∀ n ∈ drawn rekeyer, n ∈ drawn side.rekeyer ∧ e.seq ≠ n ∧ n ∉ drawn sender)
    (senderReady : ∀ e', sender ≠ .ready e')
    (rekeyerReady : ∀ e', rekeyer = .ready e' → side.rekeyer = .ready e') :
    Sending crypto suite secrets { side with log := side.log ++ [e], sender, rekeyer } := by
  refine { sending with
    logged := ?_, precedes := ?_, sender := ?_, rekeyer := ?_
    senderReady := fun e' ready => absurd ready (senderReady e')
    rekeyerReady := fun e' ready => sending.rekeyerReady e' (rekeyerReady e' ready) }
  · exact forall_added sending.logged ⟨sealed, older, below⟩
  · refine List.pairwise_append.mpr ⟨sending.precedes, List.pairwise_singleton _ _, ?_⟩
    intro e' before _ new
    obtain rfl := List.mem_singleton.mp new
    exact last e' before
  · intro n has
    obtain ⟨had, above⟩ := senders n has
    obtain ⟨small, high⟩ := sending.sender n had
    exact ⟨small, forall_added high above⟩
  · intro n has
    obtain ⟨had, other, free⟩ := rekeyers n has
    obtain ⟨small, apart, -⟩ := sending.rekeyer n had
    exact ⟨small, forall_added apart other, free⟩

theorem written_sending (written : Written kind side side')
    (prompt : kind = .rekey → side.rekeyer.Prompt side.log) :
    Sending crypto suite secrets side' := by
  cases written with
  | waits => exact sending
  | data e which ready =>
    obtain ⟨-, sealed, older, newest⟩ := sending.senderReady e ready
    have has : e.seq ∈ drawn side.sender := by rw [ready]; rfl
    obtain ⟨below, highest⟩ := sending.sender e.seq has
    refine append_sending sending sealed older below (fun e' before => ?_) nofun ?_ nofun
      fun _ ready => ready
    · have lower := highest e' before
      exact ⟨newest e' before, lower.ne, by omega⟩
    · intro n had
      refine ⟨had, ?_, nofun⟩
      rintro rfl
      exact (sending.rekeyer _ had).2.2 has
  | rekey e which ready free =>
    obtain ⟨-, sealed, current⟩ := sending.rekeyerReady e ready
    have has : e.seq ∈ drawn side.rekeyer := by rw [ready]; rfl
    obtain ⟨below, apart, -⟩ := sending.rekeyer e.seq has
    have near : ∀ e' ∈ side.log, e'.seq < e.seq + 1024 := by
      have ahead := prompt which
      rwa [ready] at ahead
    refine append_sending sending sealed current.le below (fun e' before => ?_) ?_ nofun ?_ nofun
    · exact ⟨current ▸ (sending.logged e' before).2.1, apart e' before, near e' before⟩
    · rw [free]
      nofun
    · rw [free]
      nofun

end Senders

/-! What a side has received. -/

def Busy (side : Side Byte) : Prop :=
  ∃ key activationSeq, side.handling = .payload key activationSeq

def Unread (source side : Side Byte) (i : Nat) : Prop :=
  side.taken ≤ i ∧ ∃ e, source.log[i]? = some e ∧ e.kind = .rekey

structure Holds (crypto : Crypto Byte) (suite : UInt16) (secrets : Nat → List Byte)
    (source side : Side Byte) (top base : Nat) : Prop where
  cipher : side.session.recvCipher = some (cipherAt crypto suite secrets source.session.role base)
  level : base = top ∨ base + 1 = top ∧
    side.session.pendingRecvCipher = some (cipherAt crypto suite secrets source.session.role top)
  reached : base = 0 ∨ ∃ e ∈ source.log.take side.taken, base ≤ e.generation
  busy : Busy side → base = top

/-- The direction from `source` to `side`, which knows the keys up to `top`. What is sealed
under a later one stands behind the rekey record that brings it. -/
structure Channel (crypto : Crypto Byte) (suite : UInt16) (secrets : Nat → List Byte)
    (source side : Side Byte) (top : Nat) : Prop where
  reach : side.taken ≤ source.log.length
  width : side.session.replayWindow.size = 1024
  window : Represents side.session.replayWindow ((source.log.take side.taken).map (·.seq)).toFinset
  nonce : source.session.sendNoncePrefix = side.session.recvNoncePrefix
  holds : ∃ base, Holds crypto suite secrets source side top base
  aligned : source.rekeyer ≠ .free → source.generation = top
  current : ∀ i e, side.taken ≤ i → source.log[i]? = some e → e.kind = .rekey → e.generation = top
  covered : ∀ i e, side.taken ≤ i → source.log[i]? = some e → top < e.generation →
    Busy side ∨ ∃ j < i, Unread source side j
  ahead : top < source.generation → Busy side ∨ ∃ j, Unread source side j

section Opening
variable {key : List Byte}

omit [Octet Byte] in
theorem openWithNonce_sealed (aead : AeadIdeal crypto) {nonce aad : List Byte}
    (size : nonce.length = aesNonceSize) :
    openWithNonce crypto (cipherOf suite key) nonce (crypto.sealText suite key nonce text aad) aad =
      .ok text := by
  simp [openWithNonce, size, aead.length, aead.opens, cipherOf]

omit [Octet Byte] in
/-- Another key does not open what was sealed. -/
theorem openWithNonce_foreign (aead : AeadIdeal crypto) {other nonce aad : List Byte}
    (differ : other ≠ key) :
    ∃ stop, openWithNonce crypto (cipherOf suite other) nonce
      (crypto.sealText suite key nonce text aad) aad = .error stop := by
  cases opened : openWithNonce crypto (cipherOf suite other) nonce
      (crypto.sealText suite key nonce text aad) aad with
  | error stop => exact ⟨stop, rfl⟩
  | ok plaintext =>
    exact absurd (aead.unseal_sealed (openWithNonce_ok opened)).2.1 differ

theorem decrypt_eq {promoted : Bool} (present : s.recvCipher = some cipher)
    (fresh : (ReplayWindow.check s.replayWindow seq).1 = true)
    (opened : trialOpen crypto cipher s.pendingRecvCipher (buildAEADNonce s.recvNoncePrefix seq)
      ciphertext (toBE 8 seq) = .ok (text, promoted)) :
    decrypt crypto ciphertext seq s = (.ok text, (promoteIf promoted
        { s with replayWindow := (ReplayWindow.check s.replayWindow seq).2 }).2) := by
  have kept : ¬ (ReplayWindow.check s.replayWindow seq).1 = false := by simp [fresh]
  rw [decrypt, read_bind]
  simp only [present, write_bind]
  rw [run_bind_ok (run_reject_neg _ kept), opened]
  cases promoted with
  | false => rfl
  | true => cases s.pendingRecvCipher <;> simp [promoteIf, promotePendingRecvCipher, run_bind]

/-- A record under the current key or under the pending one. The session goes on with the
key that opened it. -/
theorem decrypt_level (aead : AeadIdeal crypto) {live : List Byte}
    (fresh : (ReplayWindow.check s.replayWindow seq).1 = true)
    (present : s.recvCipher = some (cipherOf suite live))
    (known : live = key ∨ s.pendingRecvCipher = some (cipherOf suite key)) :
    ∃ pending, decrypt crypto (crypto.sealText suite key (buildAEADNonce s.recvNoncePrefix seq) text
        (toBE 8 seq)) seq s =
      (.ok text, { s with
        replayWindow := (ReplayWindow.check s.replayWindow seq).2
        recvCipher := some (cipherOf suite key), pendingRecvCipher := pending }) ∧
      (live = key → pending = s.pendingRecvCipher) := by
  have sealed : openWithNonce crypto (cipherOf suite key) (buildAEADNonce s.recvNoncePrefix seq)
      (crypto.sealText suite key (buildAEADNonce s.recvNoncePrefix seq) text (toBE 8 seq))
      (toBE 8 seq) = .ok text :=
    openWithNonce_sealed aead (buildAEADNonce_length _ _)
  by_cases same : live = key
  · subst same
    have tried : trialOpen crypto (cipherOf suite live) s.pendingRecvCipher
        (buildAEADNonce s.recvNoncePrefix seq) (crypto.sealText suite live
          (buildAEADNonce s.recvNoncePrefix seq) text (toBE 8 seq)) (toBE 8 seq) =
        .ok (text, false) := by
      simp only [trialOpen, sealed]
    refine ⟨s.pendingRecvCipher, ?_, fun _ => rfl⟩
    rw [decrypt_eq present fresh tried, ← present]
    rfl
  · have pending := known.resolve_left same
    obtain ⟨stop, refused⟩ : ∃ stop, openWithNonce crypto (cipherOf suite live)
        (buildAEADNonce s.recvNoncePrefix seq) (crypto.sealText suite key
          (buildAEADNonce s.recvNoncePrefix seq) text (toBE 8 seq)) (toBE 8 seq) = .error stop :=
      openWithNonce_foreign aead same
    have tried : trialOpen crypto (cipherOf suite live) s.pendingRecvCipher
        (buildAEADNonce s.recvNoncePrefix seq) (crypto.sealText suite key
          (buildAEADNonce s.recvNoncePrefix seq) text (toBE 8 seq)) (toBE 8 seq) =
        .ok (text, true) := by
      simp only [trialOpen, refused, pending, Option.map_some, sealed]
    refine ⟨none, ?_, fun impossible => absurd impossible same⟩
    rw [decrypt_eq present fresh tried]
    simp only [promoteIf, promotePendingRecvCipher, if_true, read_bind, pending, run_write]

end Opening

variable {source : Side Byte} {noncePrefix : List Byte}

section Receivers
variable {top : Nat}

theorem encode_ok {msg : List Byte} (encoded : encode kind seq ciphertext = .ok msg) :
    msg = frame kind.messageType (toBE 8 seq ++ ciphertext) := by
  cases kind with
  | data =>
    simp only [encode, encodeData, guard_ok_iff] at encoded
    exact (Except.ok.inj encoded.2).symm
  | rekey => exact (Except.ok.inj encoded).symm

theorem Sealed.decodes {role : Role} (sealed : Sealed crypto suite secrets role noncePrefix e) :
    decodeRecord e.kind.messageType e.msg = .ok (e.seq, e.ciphertext) := by
  rw [encode_ok sealed.msg]
  exact decodeRecord_frame sealed.small

variable (sending : Sending crypto suite secrets source)
  (next : source.log[side.taken]? = some e)
include sending next

theorem Sending.precedes_next {e' : Entry Byte} (before : e' ∈ source.log.take side.taken) :
    Precedes e' e := by
  obtain ⟨inside, rfl⟩ := List.getElem?_eq_some_iff.mp next
  obtain ⟨i, lower, rfl⟩ := List.mem_take_iff_getElem.mp before
  exact List.pairwise_iff_getElem.mp sending.precedes i side.taken (by omega) inside (by omega)

/-- The window has room for the next record. -/
theorem Sending.admits_next :
    Admits 1024 ((source.log.take side.taken).map (·.seq)).toFinset e.seq := by
  have earlier (seq : Nat) (has : seq ∈ ((source.log.take side.taken).map (·.seq)).toFinset) :
      seq ≠ e.seq ∧ seq < e.seq + 1024 := by
    obtain ⟨e', before, rfl⟩ := List.mem_map.mp (List.mem_toFinset.mp has)
    have precedes := sending.precedes_next next before
    exact ⟨precedes.number, precedes.near⟩
  refine ⟨fun has => (earlier _ has).1 rfl, ?_⟩
  rcases Finset.eq_empty_or_nonempty ((source.log.take side.taken).map (·.seq)).toFinset with
    empty | nonempty
  · exact .inl empty
  · exact .inr ⟨_, Finset.max'_mem _ nonempty, fun other has => Finset.le_max' _ other has,
      (earlier _ (Finset.max'_mem _ nonempty)).2⟩

variable (channel : Channel crypto suite secrets source side top)
include channel

theorem Channel.checks : (ReplayWindow.check side.session.replayWindow e.seq).1 = true ∧
      Represents (ReplayWindow.check side.session.replayWindow e.seq).2
        ((source.log.take (side.taken + 1)).map (·.seq)).toFinset := by
  have refined : (ReplayWindow.check side.session.replayWindow e.seq).1 = _ ∧
      Represents (ReplayWindow.check side.session.replayWindow e.seq).2 _ :=
    check_refines channel.window
  rw [answer, channel.width, if_pos (sending.admits_next next)] at refined
  refine ⟨refined.1, ?_⟩
  have grown : ((source.log.take (side.taken + 1)).map (·.seq)).toFinset =
      insert e.seq ((source.log.take side.taken).map (·.seq)).toFinset := by
    rw [List.take_add_one, next]
    ext seq
    simp
  rw [grown]
  exact refined.2

/-- The generation of the next record is one that the side holds a key of. -/
theorem Channel.generation (idle : side.handling = .idle) {base : Nat}
    (holds : Holds crypto suite secrets source side top base) :
    base ≤ e.generation ∧ e.generation ≤ top := by
  constructor
  · rcases holds.reached with rfl | ⟨e', before, reached⟩
    · exact Nat.zero_le _
    · exact reached.trans (sending.precedes_next next before).generation
  · by_contra later
    rcases channel.covered _ e le_rfl next (by omega) with
      ⟨key, activationSeq, busy⟩ | ⟨j, lower, unread⟩
    · rw [idle] at busy
      cases busy
    · exact absurd unread.1 (by omega)

theorem Channel.opens (aead : AeadIdeal crypto) (idle : side.handling = .idle) :
    ∃ pending, openRecord crypto e.kind e.msg side.session = (.ok e.text, { side.session with
        replayWindow := (ReplayWindow.check side.session.replayWindow e.seq).2
        recvCipher := some (cipherAt crypto suite secrets source.session.role e.generation)
        pendingRecvCipher := pending }) ∧
      (e.generation = top ∨ e.generation + 1 = top ∧
        pending = some (cipherAt crypto suite secrets source.session.role top)) := by
  obtain ⟨base, holds⟩ := channel.holds
  obtain ⟨lower, upper⟩ := channel.generation sending next idle holds
  have sealed := (sending.logged e (List.mem_of_getElem? next)).1
  have known : trafficKey crypto source.session.role (secrets base) =
        trafficKey crypto source.session.role (secrets e.generation) ∨
      side.session.pendingRecvCipher =
        some (cipherAt crypto suite secrets source.session.role e.generation) := by
    rcases holds.level with level | ⟨level, pending⟩
    · exact .inl (by rw [show base = e.generation by omega])
    · by_cases old : e.generation = base
      · exact .inl (by rw [old])
      · exact .inr (by rw [pending, show e.generation = top by omega])
  have fresh := (channel.checks sending next).1
  obtain ⟨pending, opened, kept⟩ := decrypt_level aead fresh holds.cipher known
  refine ⟨pending, ?_, ?_⟩
  · rw [openRecord, sealed.decodes, sealed.ciphertext, channel.nonce]
    exact opened
  · rcases holds.level with level | ⟨level, present⟩
    · exact .inl (by omega)
    · by_cases old : e.generation = base
      · exact .inr ⟨by omega, (kept (by rw [old])).trans present⟩
      · exact .inl (by omega)

end Receivers

/-! The rekey payloads on their way. -/

def decoded (text : List Byte) : Option (List Byte) :=
  (decodeRekeyPayload text).toOption.map Prod.fst

def carried : Stage Byte → List (Option (List Byte))
  | .free => []
  | .begun text => [decoded text]
  | .numbered text _ => [decoded text]
  | .ready e => [decoded e.text]

def written (log : List (Entry Byte)) (taken : Nat) : List (Option (List Byte)) :=
  ((log.drop taken).filter (·.kind = .rekey)).map (decoded ·.text)

def held : Handling Byte → List (Option (List Byte))
  | .payload key _ => [some key]
  | _ => []

def parcels (source side : Side Byte) : List (Option (List Byte)) :=
  held side.handling ++ written source.log side.taken ++ carried source.rekeyer

theorem carried_nonempty {stage : Stage Byte} (busy : stage ≠ .free) : carried stage ≠ [] := by
  cases stage <;> simp_all [carried]

theorem free_of_carried {stage : Stage Byte} (nothing : carried stage = []) : stage = .free := by
  by_contra busy
  exact carried_nonempty busy nothing

variable {log : List (Entry Byte)}

theorem written_append {taken : Nat} (reach : taken ≤ log.length) (e : Entry Byte) :
    written (log ++ [e]) taken =
      written log taken ++ if e.kind = .rekey then [decoded e.text] else [] := by
  unfold written
  rw [List.drop_append_of_le_length reach]
  by_cases rekey : e.kind = .rekey <;> simp [rekey]

theorem written_next {taken : Nat} (next : log[taken]? = some e) : written log taken =
      (if e.kind = .rekey then [decoded e.text] else []) ++ written log (taken + 1) := by
  obtain ⟨inside, rfl⟩ := List.getElem?_eq_some_iff.mp next
  unfold written
  rw [List.drop_eq_getElem_cons inside]
  generalize log.drop (taken + 1) = rest
  by_cases rekey : log[taken].kind = .rekey <;> simp [rekey]

theorem unread_of_written (some_ : written source.log side.taken ≠ []) :
    ∃ j, Unread source side j := by
  obtain ⟨_, parcel⟩ := List.exists_mem_of_ne_nil _ some_
  obtain ⟨e, member, -⟩ := List.mem_map.mp parcel
  obtain ⟨dropped, rekey⟩ := List.mem_filter.mp member
  obtain ⟨i, found⟩ := List.getElem?_of_mem dropped
  rw [List.getElem?_drop] at found
  exact ⟨side.taken + i, by omega, e, found, by simpa using rekey⟩

def Moves (side side' : Side Byte) : Prop :=
  ∃ n sender rekeyer log, side' =
      { side with session := { side.session with sendSeq := n }, sender, rekeyer, log } ∧
    (rekeyer ≠ .free → side.rekeyer ≠ .free) ∧
    (log = side.log ∨ ∃ e, log = side.log ++ [e] ∧ e.generation ≤ side.generation ∧
      (e.kind = .rekey → side.rekeyer ≠ .free ∧ e.generation = side.generation)) ∧
    ∀ taken ≤ side.log.length,
      written log taken ++ carried rekeyer = written side.log taken ++ carried side.rekeyer

section Movement

theorem lock_moves (data : List Byte) (side : Side Byte) : Moves side (lock data side) := by
  unfold lock
  split <;> exact ⟨_, _, _, _, rfl, id, .inl rfl, fun _ _ => rfl⟩

theorem number_moves (kind : Kind) (side : Side Byte) : Moves side (number kind side) := by
  unfold number
  split
  · rename_i text begun
    cases kind with
    | data => exact ⟨_, _, _, _, rfl, id, .inl rfl, fun _ _ => rfl⟩
    | rekey =>
      have begun : side.rekeyer = .begun text := begun
      exact ⟨_, _, _, _, rfl, by simp [begun], .inl rfl, by simp [begun, carried]⟩
  · exact ⟨_, _, _, _, rfl, id, .inl rfl, fun _ _ => rfl⟩

theorem sealStage_moves (kind : Kind) (side : Side Byte) : Moves side (sealStage crypto kind side) ∨
      kind = .rekey ∧ side.rekeyer ≠ .free ∧ sealStage crypto kind side = abandon .rekey side := by
  have given (text : List Byte) (seq : Nat) (numbered : side.stage kind = .numbered text seq) :
      Moves side (abandon kind side) ∨
        kind = .rekey ∧ side.rekeyer ≠ .free ∧ abandon kind side = abandon .rekey side := by
    cases kind with
    | data =>
      rw [abandon_data]
      exact .inl ⟨_, _, _, _, rfl, id, .inl rfl, fun _ _ => rfl⟩
    | rekey =>
      have numbered : side.rekeyer = .numbered text seq := numbered
      exact .inr ⟨rfl, by simp [numbered], rfl⟩
  unfold sealStage
  split
  · rename_i text seq numbered
    split
    · exact given text seq numbered
    · split
      · exact given text seq numbered
      · cases kind with
        | data => exact .inl ⟨_, _, _, _, rfl, id, .inl rfl, fun _ _ => rfl⟩
        | rekey =>
          have numbered : side.rekeyer = .numbered text seq := numbered
          exact .inl ⟨_, _, _, _, rfl, by simp [numbered], .inl rfl,
            by simp [numbered, carried]⟩
  · exact .inl ⟨_, _, _, _, rfl, id, .inl rfl, fun _ _ => rfl⟩

theorem written_moves (sending : Sending crypto suite secrets side)
    (writing : Written kind side side') : Moves side side' := by
  cases writing with
  | waits => exact ⟨_, _, _, _, rfl, id, .inl rfl, fun _ _ => rfl⟩
  | data e which ready =>
    obtain ⟨data, -, older, -⟩ := sending.senderReady e ready
    refine ⟨_, _, _, _, rfl, id, .inr ⟨e, rfl, older, by simp [data]⟩, fun taken reach => ?_⟩
    rw [written_append reach]
    simp [data]
  | rekey e which ready free =>
    obtain ⟨rekey, -, current⟩ := sending.rekeyerReady e ready
    refine ⟨_, _, _, _, rfl, by simp,
      .inr ⟨e, rfl, current.le, fun _ => ⟨by simp [ready], current⟩⟩, fun taken reach => ?_⟩
    rw [written_append reach, ready]
    simp [rekey, carried]

end Movement

variable {handling : Handling Byte}

/-! The two directions under the steps of one side. -/

section Directions
variable {top : Nat}

omit [Octet Byte] in
theorem Unread.append {i : Nat} (unread : Unread source side i) (n : Nat)
    (sender rekeyer : Stage Byte) (more : List (Entry Byte)) :
    Unread { source with
      session := { source.session with sendSeq := n }, sender, rekeyer, log := source.log ++ more }
          side i := by
  obtain ⟨reach, e, found, rekey⟩ := unread
  obtain ⟨inside, -⟩ := List.getElem?_eq_some_iff.mp found
  exact ⟨reach, e, by rw [List.getElem?_append_left inside]; exact found, rekey⟩

theorem Moves.parcels_out (moves : Moves side side') (reach : source.taken ≤ side.log.length) :
    parcels side' source = parcels side source := by
  obtain ⟨n, sender, rekeyer, log, rfl, -, -, kept⟩ := moves
  simp only [parcels, List.append_assoc, kept source.taken reach]

theorem Moves.parcels_in (moves : Moves side side') :
    parcels source side' = parcels source side := by
  obtain ⟨n, sender, rekeyer, log, rfl, -, -, -⟩ := moves
  rfl

section Read
variable (channel : Channel crypto suite secrets source side top)
include channel

theorem Channel.moves_in (moves : Moves side side') :
    Channel crypto suite secrets source side' top := by
  obtain ⟨n, sender, rekeyer, log, rfl, -⟩ := moves
  exact { channel with holds := channel.holds.imp fun _ holds => { holds with } }

/-- A rekey record is written under the newest key that its receiver has; a later key waits
behind it. -/
theorem Channel.append (n : Nat) (sender rekeyer : Stage Byte)
    (busy : rekeyer ≠ .free → source.rekeyer ≠ .free) (older : e.generation ≤ source.generation)
    (current : e.kind = .rekey → e.generation = top) :
    Channel crypto suite secrets { source with
      session := { source.session with sendSeq := n }, sender, rekeyer, log := source.log ++ [e] }
      side top := by
  have kept : (source.log ++ [e]).take side.taken = source.log.take side.taken :=
    List.take_append_of_le_length channel.reach
  obtain ⟨base, holds⟩ := channel.holds
  have ahead : top < source.generation → Busy side ∨ ∃ j < source.log.length,
      Unread source side j := by
    intro later
    refine (channel.ahead later).imp_right ?_
    rintro ⟨j, unread⟩
    obtain ⟨-, _, found, -⟩ := id unread
    exact ⟨j, (List.getElem?_eq_some_iff.mp found).1, unread⟩
  refine { channel with
    reach := ?_, window := ?_, holds := ⟨base, holds.cipher, holds.level, ?_, holds.busy⟩
    aligned := fun late => channel.aligned (busy late), current := ?_, covered := ?_, ahead := ?_ }
  · simpa using channel.reach.trans (Nat.le_succ _)
  · show Represents _ (((source.log ++ [e]).take side.taken).map (·.seq)).toFinset
    rw [kept]
    exact channel.window
  · show base = 0 ∨ ∃ e' ∈ (source.log ++ [e]).take side.taken, base ≤ e'.generation
    rw [kept]
    exact holds.reached
  · intro i e' reach found rekey
    rcases (getElem?_added i e').mp found with old | ⟨-, rfl⟩
    · exact channel.current i e' reach old rekey
    · exact current rekey
  · intro i e' reach found later
    rcases (getElem?_added i e').mp found with old | ⟨rfl, rfl⟩
    · refine (channel.covered i e' reach old later).imp_right ?_
      rintro ⟨j, lower, unread⟩
      exact ⟨j, lower, unread.append n sender rekeyer [e]⟩
    · refine (ahead (later.trans_le older)).imp_right ?_
      rintro ⟨j, lower, unread⟩
      exact ⟨j, lower, unread.append n sender rekeyer [e']⟩
  · intro later
    refine (channel.ahead later).imp_right ?_
    rintro ⟨j, unread⟩
    exact ⟨j, unread.append n sender rekeyer [e]⟩

/-- What a side works on counts only as far as it holds a payload. -/
theorem Channel.rehandle (rekeyer : Stage Byte)
    (busy : Busy { side with rekeyer, handling } ↔ Busy side) :
    Channel crypto suite secrets source { side with rekeyer, handling } top := by
  exact { channel with
    holds := channel.holds.imp fun _ holds =>
      { holds with busy := fun late => holds.busy (busy.mp late) }
    covered := fun i e reach found later =>
      (channel.covered i e reach found later).imp_left busy.mpr
    ahead := fun later => (channel.ahead later).imp_left busy.mpr }

theorem Channel.abandon_in : Channel crypto suite secrets source (abandon .rekey side) top := by
  obtain ⟨handling, given, doing⟩ := abandon_rekey side
  rw [given]
  refine channel.rehandle .free ?_
  rcases doing with ⟨was, rfl⟩ | ⟨-, rfl⟩
  · simp [Busy, was]
  · rfl

/-- Reading the next record. The key of a rekey record is the newest. -/
theorem Channel.read (sending : Sending crypto suite secrets source) (idle : side.handling = .idle)
    (next : source.log[side.taken]? = some e) {pending : Option (Cipher Byte)}
    (level : e.generation = top ∨ e.generation + 1 = top ∧
      pending = some (cipherAt crypto suite secrets source.session.role top))
    (busy : Busy { side with handling } ↔ e.kind = .rekey) :
    Channel crypto suite secrets source { side with
      session := { side.session with
        replayWindow := (ReplayWindow.check side.session.replayWindow e.seq).2
        recvCipher := some (cipherAt crypto suite secrets source.session.role e.generation)
        pendingRecvCipher := pending }
      taken := side.taken + 1, handling } top := by
  have last : e ∈ source.log.take (side.taken + 1) := by
    rw [List.take_add_one, next]
    simp
  have beyond (j : Nat) (unread : Unread source side j) : e.kind = .rekey ∨
      side.taken + 1 ≤ j ∧ ∃ e, source.log[j]? = some e ∧ e.kind = .rekey := by
    obtain ⟨reach, e', found, rekey⟩ := unread
    rcases reach.eq_or_lt with rfl | later
    · exact .inl (Option.some.inj (next.symm.trans found) ▸ rekey)
    · exact .inr ⟨later, e', found, rekey⟩
  have waiting : ¬ Busy side := by
    rintro ⟨key, activationSeq, busy⟩
    rw [idle] at busy
    cases busy
  obtain ⟨inside, -⟩ := List.getElem?_eq_some_iff.mp next
  refine { channel with
    reach := inside, width := check_size.trans channel.width,
    window := (channel.checks sending next).2
    holds := ⟨e.generation, rfl, level, .inr ⟨e, last, le_rfl⟩, fun doing => ?_⟩
    current := fun i e' reach => channel.current i e' (Nat.le_of_succ_le reach)
    covered := ?_, ahead := ?_ }
  · exact channel.current _ e le_rfl next (busy.mp doing)
  · intro i e' reach found later
    obtain ⟨j, lower, unread⟩ :=
      (channel.covered i e' (Nat.le_of_succ_le reach) found later).resolve_left waiting
    exact (beyond j unread).imp busy.mpr fun further => ⟨j, lower, further⟩
  · intro later
    obtain ⟨j, unread⟩ := (channel.ahead later).resolve_left waiting
    exact (beyond j unread).imp busy.mpr fun further => ⟨j, further⟩

end Read

theorem Channel.moves_out (channel : Channel crypto suite secrets side source top)
    (moves : Moves side side') : Channel crypto suite secrets side' source top := by
  obtain ⟨n, sender, rekeyer, log, rfl, busy, rfl | ⟨e, rfl, older, current⟩, -⟩ := moves
  · exact { channel with
      holds := channel.holds.imp fun _ holds => { holds with }
      aligned := fun late => channel.aligned (busy late) }
  · refine channel.append n sender rekeyer busy older fun rekey => ?_
    obtain ⟨late, same⟩ := current rekey
    exact same.trans (channel.aligned late)

theorem Channel.abandon_out (channel : Channel crypto suite secrets side source top) :
    Channel crypto suite secrets (abandon .rekey side) source top := by
  obtain ⟨handling, given, -⟩ := abandon_rekey side
  rw [given]
  exact { channel with
    holds := channel.holds.imp fun _ holds => { holds with }
    aligned := fun late => absurd rfl late }

end Directions

variable {s' : Session Byte}

/-! A newer key. -/

section Chain

variable {secrets' : Nat → List Byte}

theorem Sealed.extend {role : Role} (sealed : Sealed crypto suite secrets role noncePrefix e)
    (agree : secrets' e.generation = secrets e.generation) :
    Sealed crypto suite secrets' role noncePrefix e :=
  ⟨sealed.small, by rw [agree]; exact sealed.ciphertext, sealed.msg⟩

theorem Sending.extend (sending : Sending crypto suite secrets side)
    (agree : ∀ g ≤ side.generation, secrets' g = secrets g) :
    Sending crypto suite secrets' side := by
  refine { sending with cipher := ?_, logged := ?_, senderReady := ?_, rekeyerReady := ?_ }
  · rw [sending.cipher, cipherAt, cipherAt, agree _ le_rfl]
  · intro e logged
    obtain ⟨sealed, older, below⟩ := sending.logged e logged
    exact ⟨sealed.extend (agree _ older), older, below⟩
  · intro e ready
    obtain ⟨data, sealed, older, newest⟩ := sending.senderReady e ready
    exact ⟨data, sealed.extend (agree _ older), older, newest⟩
  · intro e ready
    obtain ⟨rekey, sealed, current⟩ := sending.rekeyerReady e ready
    exact ⟨rekey, sealed.extend (agree _ current.le), current⟩

variable {top : Nat}

theorem Holds.base_le {base : Nat} (holds : Holds crypto suite secrets source side top base) :
    base ≤ top := by
  rcases holds.level with same | ⟨next, -⟩ <;> omega

theorem Channel.extend (channel : Channel crypto suite secrets source side top)
    (agree : ∀ g ≤ top, secrets' g = secrets g) :
    Channel crypto suite secrets' source side top := by
  obtain ⟨base, holds⟩ := channel.holds
  refine { channel with holds := ⟨base, ?_, ?_, holds.reached, holds.busy⟩ }
  · rw [holds.cipher, cipherAt, cipherAt, agree _ holds.base_le]
  · rw [cipherAt, agree _ le_rfl]
    exact holds.level

/-- The side that applies the one payload on its way has the next key at hand. -/
theorem Channel.raise {generation : Nat} {rekeyer : Stage Byte}
    (channel : Channel crypto suite secrets source side top)
    (sending : Sending crypto suite secrets source) (busy : Busy side)
    (free : source.rekeyer = .free) (unwritten : written source.log side.taken = [])
    (bound : source.generation ≤ top + 1) (window : s'.replayWindow = side.session.replayWindow)
    (nonce : s'.recvNoncePrefix = side.session.recvNoncePrefix)
    (recv : s'.recvCipher = side.session.recvCipher) (pending : s'.pendingRecvCipher =
      some (cipherAt crypto suite secrets source.session.role (top + 1)))
    (done : ∀ key activationSeq, handling ≠ .payload key activationSeq) :
    Channel crypto suite secrets source
      { side with session := s', generation, rekeyer, handling } (top + 1) := by
  obtain ⟨base, holds⟩ := channel.holds
  obtain rfl : base = top := holds.busy busy
  have none : ∀ i e, side.taken ≤ i → source.log[i]? = some e → e.kind ≠ .rekey := by
    intro i e reach found rekey
    have member : e ∈ (source.log.drop side.taken).filter (·.kind = .rekey) := by
      refine List.mem_filter.mpr ⟨List.mem_of_getElem? (i := i - side.taken) ?_, by simp [rekey]⟩
      rw [List.getElem?_drop, Nat.add_sub_cancel' reach]
      exact found
    have nothing : decoded e.text ∈ written source.log side.taken := List.mem_map_of_mem member
    rw [unwritten] at nothing
    cases nothing
  refine ⟨channel.reach, ?_, ?_, channel.nonce.trans nonce.symm,
    ⟨base, recv.trans holds.cipher, .inr ⟨rfl, pending⟩, holds.reached, ?_⟩,
    fun late => absurd free late, fun i e reach found rekey => absurd rekey (none i e reach found),
    ?_, fun later => absurd bound (by omega)⟩
  · show s'.replayWindow.size = 1024
    rw [window]
    exact channel.width
  · show Represents s'.replayWindow _
    rw [window]
    exact channel.window
  · rintro ⟨key, activationSeq, impossible⟩
    exact absurd impossible (done key activationSeq)
  · intro i e reach found later
    have older := (sending.logged e (List.mem_of_getElem? found)).2.1
    exact absurd later (by omega)

/-- A sender that switches its key while no rekey record is its own. -/
theorem Sending.switch {generation : Nat} (sending : Sending crypto suite secrets side)
    (free : side.rekeyer = .free) (newer : side.generation ≤ generation)
    (cipher : s'.sendCipher = some (cipherAt crypto suite secrets side.session.role generation))
    (role : s'.role = side.session.role) (nonce : s'.sendNoncePrefix = side.session.sendNoncePrefix)
    (number : s'.sendSeq = side.session.sendSeq) :
    Sending crypto suite secrets { side with session := s', generation, handling } := by
  refine ⟨?_, ?_, sending.precedes, ?_, ?_, ?_, ?_, ?_⟩
  · rw [role]
    exact cipher
  · intro e logged
    obtain ⟨sealed, older, below⟩ := sending.logged e logged
    rw [role, nonce, number]
    exact ⟨sealed, older.trans newer, below⟩
  · rw [number]
    exact sending.sender
  · rw [number]
    exact sending.rekeyer
  · intro e ready
    obtain ⟨data, sealed, older, newest⟩ := sending.senderReady e ready
    rw [role, nonce]
    exact ⟨data, sealed, older.trans newer, newest⟩
  · intro e ready
    cases free.symm.trans ready
  · rw [number]
    exact sending.room

/-- Nothing waits behind a payload when the side has every key of its peer. -/
theorem Channel.release (channel : Channel crypto suite secrets source side top)
    (sending : Sending crypto suite secrets source) (bound : source.generation ≤ top) :
    Channel crypto suite secrets source { side with handling := .idle } top := by
  refine { channel with
    holds := channel.holds.imp fun _ holds => { holds with busy := nofun }
    covered := fun i e _ found later => ?_, ahead := fun later => absurd later (by omega) }
  have older := (sending.logged e (List.mem_of_getElem? found)).2.1
  exact absurd later (by omega)

end Chain

/-! The session's part in a rekey. -/

section Sessions
variable {key : List Byte} {activationSeq : Nat}

theorem encodeRekeyPayload_decoded (small : key.length < 2 ^ 16)
    (encoded : encodeRekeyPayload key activationSeq = .ok text) : decoded text = some key := by
  rw [decoded, decodeRekeyPayload_encoded small encoded]
  rfl

theorem prepareRekeyResponse_ok {coins raw : List Byte}
    (prepared : prepareRekeyResponse crypto coins key activationSeq s = (.ok raw, s')) :
    ∃ pub ct fresh secret, s.kemSuite.parsePublicKey key = .ok pub ∧
      s.kemSuite.encapsulate pub .responder coins = .ok (ct, fresh) ∧ raw = ct.raw ∧
      deriveRekeySecret crypto (s.masterSecret.getD []) fresh = .ok secret ∧
      secret.length = sharedSecretSize ∧
      s' = { s with
        rekeyInProgress := true, rekeyActivationSeq := activationSeq
        pendingRecvCipher := some (cipherOf s.cipherSuite (trafficKey crypto .initiator secret))
        pendingSendCipher := some (cipherOf s.cipherSuite (trafficKey crypto .responder secret))
        pendingRekeySecret := some secret, state := .rekeying } := by
  have outcome := prepareRekeyResponse_prepares crypto s coins key activationSeq
  rw [prepared] at outcome
  obtain ⟨⟩ | ⟨pub, ct, fresh, secret, _, _, _, parsed, encapsulated, mixed, derived, receives,
      sends⟩ :=
    outcome
  obtain ⟨size, -, rfl⟩ := deriveTrafficKeys_ok_iff.mp derived
  obtain ⟨-, -, -, rfl⟩ := newAEAD_ok_iff.mp receives
  obtain ⟨-, -, -, rfl⟩ := newAEAD_ok_iff.mp sends
  exact ⟨pub, ct, fresh, secret, parsed, encapsulated, rfl, mixed, size, rfl⟩

theorem processRekeyResponse_run (sized : XofSized crypto.xof)
    (usable : Usable crypto s.cipherSuite) {keyPair : KeyPair Byte} {raw fresh secret : List Byte}
    {ct : Ciphertext Byte} (now : Int) (waiting : s.pendingRekeyKeyPair = some keyPair)
    (started : s.rekeyInProgress = true) (parsed : s.kemSuite.parseCiphertext raw = .ok ct)
    (decapsulated : s.kemSuite.decapsulate ct keyPair .initiator = .ok fresh)
    (derived : deriveRekeySecret crypto (s.masterSecret.getD []) fresh = .ok secret)
    (size : secret.length = sharedSecretSize) :
    processRekeyResponse crypto now raw s = (.ok (), { s with
      sendCipher := some (cipherOf s.cipherSuite (trafficKey crypto .initiator secret))
      sendEpochStartSeq := s.sendSeq
      pendingRecvCipher := some (cipherOf s.cipherSuite (trafficKey crypto .responder secret))
      pendingRekeyKeyPair := none, masterSecret := some secret, pendingRekeySecret := none
      rekeyInProgress := false, rekeyActivationSeq := 0
      establishedAt := some now, state := .established }) := by
  have keys : deriveTrafficKeys crypto secret =
      .ok (trafficKey crypto .initiator secret, trafficKey crypto .responder secret) :=
    deriveTrafficKeys_ok_iff.mpr ⟨size, by rw [size]; decide, rfl⟩
  have makes (role : Role) : newAEAD crypto s.cipherSuite (trafficKey crypto role secret) =
      .ok (cipherOf s.cipherSuite (trafficKey crypto role secret)) :=
    newAEAD_ok_iff.mpr ⟨usable.2, trafficKey_length sized role secret, usable.1, rfl⟩
  rw [processRekeyResponse, read_bind, waiting]
  dsimp only
  rw [run_bind_ok (run_reject_neg _ (by simp [started])), run_liftErr_bind, parsed]
  dsimp only
  rw [run_liftErr_bind, decapsulated]
  dsimp only
  rw [derived, run_bind_ok (run_lift _ _), keys, run_bind_ok (run_lift _ _)]
  dsimp only
  rw [makes, run_bind_ok (run_lift _ _), makes]
  rfl

omit [Octet Byte] in
theorem activateRekeySend_run {secret : List Byte} (now : Int)
    (pending : s.pendingSendCipher = some cipher) (known : s.pendingRekeySecret = some secret) :
    activateRekeySend now s = (.ok (), { s with
      sendCipher := some cipher, pendingSendCipher := none, sendEpochStartSeq := s.sendSeq
      masterSecret := some secret, pendingRekeySecret := none, rekeyInProgress := false
      rekeyActivationSeq := 0, establishedAt := some now, state := .established }) := by
  simp [activateRekeySend, finalizeRekeyState, run_bind, pending, known]

end Sessions

end QuantumGo.RekeyChannel
