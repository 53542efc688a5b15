import QuantumGo.Interleaving
import QuantumGo.ReassemblyMixing

/-!
The round trip of one handshake message through the splitter, the parser and the Reassembler.
Its frames come in any order and any number of times, between frames of other sources. Until
every frame has been seen its buffer covers exactly the bytes of the frames seen; the frame that
was missing last completes it.
-/

namespace QuantumGo.ReassemblyRoundTrip

open Octets Interleaving HandshakeFrames Tables Reassembly
open ReassemblyMixing
open DatagramConn (datagramMTU)

variable {Byte Source : Type} [Octet Byte] [DecidableEq Source]

def step (r : Reassembler Byte Source) (e : Event Byte Source) : Reassembler Byte Source :=
  (perform r e).2

def after (events : List (Event Byte Source)) (r : Reassembler Byte Source) :
    Reassembler Byte Source :=
  run step events r

def delivered (source : Source) : List (Event Byte Source) → List (List Byte)
  | [] => []
  | .deliver s data _ :: rest => if s = source then data :: delivered source rest
      else delivered source rest
  | .drop _ :: rest => delivered source rest

/-- What may arrive: from the source frames of its message, with a place in the source table;
from others anything. The clock stays within the timeout. -/
def Allowed (m : Sent Byte Source) (frames : List (List Byte)) (start : Int)
    (r : Reassembler Byte Source) : Event Byte Source → Prop
  | .deliver s data meeting => start ≤ meeting.creation ∧ meeting.expiry ≤ start + r.timeout ∧
    (s = m.source → data ∈ frames ∧
      (r.bySource.lookup m.source = none → size r.bySource < r.maxSources))
  | .drop s => s ≠ m.source

section Invariant
variable {m : Sent Byte Source} {seen : List (List Byte)} {r : Reassembler Byte Source}
  {fb : FragmentBuffer Byte}

def Seen (m : Sent Byte Source) (seen : List (List Byte)) (j : Nat) : Prop :=
  ∃ data ∈ seen, ∃ off, IsFragment m.base m.msg m.pad off data ∧ off ≤ j ∧
    j < off + maxHandshakeFragmentPayload m.base.cookie.length

structure Gathers (m : Sent Byte Source) (seen : List (List Byte)) (fb : FragmentBuffer Byte) :
    Prop where
  counted : fb.Counted
  total : fb.total = m.msg.length
  covered : ∀ j < m.msg.length, fb.covered[j]? = some true ↔ Seen m seen j
  bytes : ∀ j < m.msg.length, Seen m seen j → fb.buf[j]? = m.msg[j]?

omit [DecidableEq Source] in
theorem gathers_nothing (now : Int) : Gathers m [] (newBuffer m.msg.length now) := by
  refine ⟨newBuffer_counted _ _, rfl, fun j inside => ?_, ?_⟩
  · constructor
    · intro flag
      simp [newBuffer, inside] at flag
    · rintro ⟨_, ⟨⟩, _⟩
  · rintro j inside ⟨_, ⟨⟩, _⟩

omit [DecidableEq Source] in
theorem Gathers.fill (gathers : Gathers m seen fb) {off : Nat} {data : List Byte}
    {h : DatagramHandshakeHeader Byte} {fragment : List Byte}
    (size : m.msg.length ≤ datagramMaxHandshakeMessageSize)
    (made : IsFragment m.base m.msg m.pad off data) (fits : Fits m off h fragment fb) :
    Gathers m (seen ++ [data]) (fb.fill off fragment) := by
  have length := fits.length
  have begins := fits.start
  -- the new frame covers what its fragment covers
  have adds : ∀ j < m.msg.length, Seen m (seen ++ [data]) j ↔
      Seen m seen j ∨ off ≤ j ∧ j < off + fragment.length := by
    intro j inside
    constructor
    · rintro ⟨data', old, off', made', from', upto⟩
      rcases List.mem_append.mp old with old | new
      · exact .inl ⟨data', old, off', made', from', upto⟩
      · obtain rfl := List.mem_singleton.mp new
        cases made.offset_unique made' size
        exact .inr (by omega)
    · rintro (⟨data', old, rest⟩ | ⟨from', upto⟩)
      · exact ⟨data', List.mem_append_left _ old, rest⟩
      · exact ⟨data, List.mem_append_right _ (List.mem_singleton_self _), off, made,
          from', by omega⟩
  refine ⟨gathers.counted.fill fits.inside, gathers.total, fun j inside => ?_,
    fun j inside now => ?_⟩
  · rw [fill_covered gathers.counted (gathers.total ▸ inside), gathers.covered j inside,
      adds j inside]
  · by_cases mine : off ≤ j ∧ j < off + fragment.length
    · exact fits.byte gathers.counted mine.1 mine.2
    · rw [fill_buf gathers.counted fits.inside, if_neg mine]
      exact gathers.bytes j inside (((adds j inside).mp now).resolve_right mine)

structure Frames (m : Sent Byte Source) (frames : List (List Byte)) : Prop where
  short : m.base.cookie.length ≤ 255
  size : m.msg.length ≤ datagramMaxHandshakeMessageSize
  some : 1 ≤ m.msg.length
  sound : ∀ frame ∈ frames, ∃ off, IsFragment m.base m.msg m.pad off frame
  complete : ∀ off, off < m.msg.length → maxHandshakeFragmentPayload m.base.cookie.length ∣ off →
    ∃ frame ∈ frames, IsFragment m.base m.msg m.pad off frame

omit [DecidableEq Source] in
theorem Frames.all_seen {frames : List (List Byte)} (made : Frames m frames) :
    (∀ j < m.msg.length, Seen m seen j) ↔ ∀ frame ∈ frames, frame ∈ seen := by
  have positive := maxHandshakeFragmentPayload_pos made.short
  constructor
  · intro all frame inside
    obtain ⟨off, fragment⟩ := made.sound frame inside
    obtain ⟨data, present, off', fragment', from', upto⟩ := all off fragment.start
    -- two multiples of the slice size less than a slice apart
    have same : off - off' = 0 :=
      Nat.eq_zero_of_dvd_of_lt (Nat.dvd_sub fragment.aligned fragment'.aligned) (by omega)
    obtain rfl : off' = off := by omega
    rwa [fragment.unique fragment']
  · intro all j inside
    let slice := maxHandshakeFragmentPayload m.base.cookie.length
    have below : slice * (j / slice) ≤ j := Nat.mul_div_le j slice
    have above : j < slice * (j / slice) + slice := Nat.lt_mul_div_succ j positive
    obtain ⟨frame, present, fragment⟩ := made.complete (slice * (j / slice)) (by omega)
      (Nat.dvd_mul_right _ _)
    exact ⟨frame, all frame present, _, fragment, below, above⟩

def Progress (m : Sent Byte Source) (start : Int) (seen : List (List Byte))
    (r : Reassembler Byte Source) : Prop :=
  seen = [] ∧ r.bySource.lookup m.source = none ∨
  ∃ fb, r.Holds m.source m.key fb ∧ start ≤ fb.createdAt ∧ Gathers m seen fb

theorem perform_bounds (r : Reassembler Byte Source) (e : Event Byte Source) :
    (perform r e).2.maxSources = r.maxSources ∧ (perform r e).2.maxMessageSize = r.maxMessageSize ∧
      (perform r e).2.timeout = r.timeout := by
  cases e with
  | drop s => exact ⟨rfl, rfl, rfl⟩
  | deliver s data meeting =>
    rcases perform_state r s data meeting with same | ⟨h, fragment, added⟩
    · rw [same]
      exact ⟨rfl, rfl, rfl⟩
    · rw [added]
      exact (add_bounds meeting s h fragment r).2

variable {frames : List (List Byte)} {start : Int} {data : List Byte} {meeting : Meeting}

/-- A frame of the message goes into the buffer of the frames seen. -/
theorem Progress.puts (progress : Progress m start seen r) (made : Frames m frames)
    (room : m.msg.length ≤ r.maxMessageSize)
    (allowed : Allowed m frames start r (.deliver m.source data meeting)) :
    ∃ off h fragment fb, IsFragment m.base m.msg m.pad off data ∧
      parseDatagramHandshake data = .ok (h, fragment) ∧
      (⟨h.senderIndex, h.msgType⟩ : ReasmKey) = m.key ∧ Fits m off h fragment fb ∧
      Gathers m seen fb ∧ start ≤ fb.createdAt ∧ Puts meeting m.source h fragment r fb := by
  obtain ⟨early, late, own⟩ := allowed
  obtain ⟨inside, place⟩ := own rfl
  obtain ⟨off, piece⟩ := made.sound data inside
  obtain ⟨h, fragment, parsed, key, total, fits⟩ := fragment_parsed made.short made.size piece
  have admissible : Admissible r h fragment :=
    (fits (newBuffer h.totalLength.toNat 0) rfl).admissible room
  rcases progress with ⟨rfl, absent⟩ | ⟨fb, held, young, gathers⟩
  · refine ⟨off, h, fragment, _, piece, parsed, key, fits _ rfl, ?_, early,
      add_new meeting admissible absent (place absent)⟩
    rw [total]
    exact gathers_nothing _
  · have sized := gathers.total.trans total.symm
    exact ⟨off, h, fragment, fb, piece, parsed, key, fits fb sized, gathers, young,
      add_held meeting admissible (key ▸ held) (by omega) sized⟩

/-- The step lemma for a frame of the message: the last that was missing brings the message, and
before that nothing is returned. -/
theorem Progress.own (progress : Progress m start seen r) (made : Frames m frames)
    (room : m.msg.length ≤ r.maxMessageSize)
    (allowed : Allowed m frames start r (.deliver m.source data meeting)) :
    ((∀ frame ∈ frames, frame ∈ seen ++ [data]) →
      (perform r (.deliver m.source data meeting)).1 = some ⟨m.source, m.key, m.msg⟩) ∧
    ((∃ frame ∈ frames, frame ∉ seen ++ [data]) →
      (perform r (.deliver m.source data meeting)).1 = none ∧
      Progress m start (seen ++ [data]) (perform r (.deliver m.source data meeting)).2) := by
  obtain ⟨off, h, fragment, fb, piece, parsed, key, fits, gathers, young, outcome, held⟩ :=
    progress.puts made room allowed
  rw [fits.describes.offset] at outcome held
  have filled := gathers.fill made.size piece fits
  have sized : (fb.fill off fragment).total = h.totalLength.toNat :=
    filled.total.trans fits.describes.total.symm
  have full : ¬ (fb.fill off fragment).coveredN < h.totalLength.toNat ↔
      ∀ frame ∈ frames, frame ∈ seen ++ [data] := by
    rw [← made.all_seen, ← sized, filled.counted.complete_iff, filled.total]
    exact forall₂_congr fun j inside => filled.covered j inside
  constructor
  · intro all
    rw [if_neg (full.mpr all)] at outcome
    -- every byte is one of the message
    have whole : (fb.fill off fragment).buf = m.msg := by
      refine List.ext_getElem? fun j => ?_
      by_cases inside : j < m.msg.length
      · exact filled.bytes j inside (made.all_seen.mpr all j inside)
      · have size := filled.counted.bytes.trans filled.total
        rw [List.getElem?_eq_none (by omega), List.getElem?_eq_none (by omega)]
    rw [perform_completes parsed outcome, key, whole]
  · rintro ⟨frame, inside, missing⟩
    have lacking : (fb.fill off fragment).coveredN < h.totalLength.toNat := by
      by_contra all
      exact missing (full.mp all frame inside)
    rw [if_pos lacking] at outcome
    rw [perform_waits parsed outcome]
    exact ⟨rfl, .inr ⟨fb.fill off fragment, key ▸ held lacking, young, filled⟩⟩

theorem Progress.other (progress : Progress m start seen r) {e : Event Byte Source}
    (allowed : Allowed m frames start r e)
    (others : ∀ data meeting, e ≠ .deliver m.source data meeting) :
    Progress m start seen (perform r e).2 := by
  cases e with
  | drop s =>
    have same : (drop s r).bySource.lookup m.source = r.bySource.lookup m.source :=
      AList.lookup_erase_ne allowed.symm
    unfold Progress Reassembler.Holds at progress ⊢
    rwa [perform, same]
  | deliver s data meeting =>
    have different : m.source ≠ s := fun same => others data meeting (same ▸ rfl)
    obtain ⟨-, late, -⟩ := allowed
    rcases perform_state r s data meeting with same | ⟨h, fragment, added⟩
    · rwa [same]
    · rw [added]
      rcases progress with ⟨none, absent⟩ | ⟨fb, held, young, gathers⟩
      · refine .inl ⟨none, ?_⟩
        rcases add_elsewhere meeting different h fragment r with same | swept
        · rw [same, absent]
        · rw [swept]
          simp [evictExpired, absent]
      · refine .inr ⟨fb, ?_, young, gathers⟩
        unfold Reassembler.Holds
        rcases add_elsewhere meeting different h fragment r with same | swept
        · rwa [same]
        · rw [swept]
          exact (evictExpired_holds _).mpr ⟨held, by omega⟩

/-- The run lemma: as long as a frame is missing, the buffer is what the frames seen make. -/
theorem Progress.run (made : Frames m frames) (events : List (Event Byte Source))
    (progress : Progress m start seen r) (room : m.msg.length ≤ r.maxMessageSize)
    (undisturbed : Along step (Allowed m frames start) events r)
    (missing : ∃ frame ∈ frames, frame ∉ seen ++ delivered m.source events) :
    Progress m start (seen ++ delivered m.source events) (after events r) ∧
      m.msg.length ≤ (after events r).maxMessageSize := by
  induction events generalizing r seen with
  | nil => exact ⟨by rwa [delivered, List.append_nil], room⟩
  | cons e rest ih =>
    obtain ⟨allowed, undisturbed⟩ := undisturbed
    have room' : m.msg.length ≤ (perform r e).2.maxMessageSize := (perform_bounds r e).2.1 ▸ room
    by_cases mine : ∃ data meeting, e = .deliver m.source data meeting
    · obtain ⟨data, meeting, rfl⟩ := mine
      rw [delivered, if_pos rfl, List.append_cons] at missing ⊢
      obtain ⟨frame, inside, absent⟩ := missing
      have now : frame ∉ seen ++ [data] := fun old => absent (List.mem_append_left _ old)
      obtain ⟨-, progress⟩ := (progress.own made room allowed).2 ⟨frame, inside, now⟩
      exact ih progress room' undisturbed ⟨frame, inside, absent⟩
    · have others : ∀ data meeting, e ≠ .deliver m.source data meeting :=
        fun data meeting same => mine ⟨data, meeting, same⟩
      have none : delivered m.source (e :: rest) = delivered m.source rest := by
        cases e with
        | drop s => rfl
        | deliver s data meeting =>
          have different : s ≠ m.source := fun same => others data meeting (by rw [same])
          rw [delivered, if_neg different]
      rw [none] at missing ⊢
      exact ih (progress.other allowed others) room' undisturbed missing

omit [Octet Byte] in
theorem delivered_append (source : Source) (before : List (Event Byte Source)) (data : List Byte)
    (meeting : Meeting) : delivered source (before ++ [.deliver source data meeting]) =
      delivered source before ++ [data] := by
  induction before with
  | nil => simp [delivered]
  | cons e rest ih =>
    cases e with
    | drop s => exact ih
    | deliver s data' meeting' =>
      simp only [List.cons_append, delivered, ih]
      split <;> rfl

/-- A Reassembler that holds nothing of the source returns the message at the frame with which all
of them have been seen for the first time, and nothing at the frames before. -/
def Reassembles (m : Sent Byte Source) (frames : List (List Byte)) : Prop :=
  ∀ (r : Reassembler Byte Source) (start : Int) (before : List (Event Byte Source))
    (data : List Byte) (meeting : Meeting),
    m.msg.length ≤ r.maxMessageSize → r.bySource.lookup m.source = none →
    Along step (Allowed m frames start) (before ++ [.deliver m.source data meeting]) r →
    (∃ frame ∈ frames, frame ∉ delivered m.source before) →
    ((∀ frame ∈ frames, frame ∈ delivered m.source (before ++ [.deliver m.source data meeting])) →
      (perform (after before r) (.deliver m.source data meeting)).1 =
        .some ⟨m.source, m.key, m.msg⟩) ∧
    ((∃ frame ∈ frames, frame ∉ delivered m.source (before ++ [.deliver m.source data meeting])) →
      (perform (after before r) (.deliver m.source data meeting)).1 = none)

theorem Frames.reassembles (made : Frames m frames) : Reassembles m frames := by
  intro r start before data meeting room absent undisturbed missing
  have fresh : Progress m start [] r := .inl ⟨rfl, absent⟩
  obtain ⟨progress, room⟩ := fresh.run made before room undisturbed.initial missing
  rw [List.nil_append] at progress
  obtain ⟨last, early⟩ := progress.own made room undisturbed.final.1
  rw [delivered_append]
  exact ⟨last, fun lacking => (early lacking).1⟩

end Invariant

/-- Every byte of the message is in one of the frames, at its place. -/
def Covers (m : Sent Byte Source) (frames : List (List Byte)) : Prop :=
  ∀ j < m.msg.length, ∃ frame ∈ frames, ∃ h fragment,
    parseDatagramHandshake frame = .ok (h, fragment) ∧ h.fragOffset.toNat ≤ j ∧
      fragment[j - h.fragOffset.toNat]? = m.msg[j]?

omit [DecidableEq Source] in
theorem Frames.covers {m : Sent Byte Source} {frames : List (List Byte)} (made : Frames m frames) :
    Covers m frames := by
  intro j inside
  obtain ⟨frame, present, off, piece, from', upto⟩ := made.all_seen.mpr (fun _ => id) j inside
  obtain ⟨h, fragment, parsed, -, -, fits⟩ := fragment_parsed made.short made.size piece
  have fit := fits (newBuffer h.totalLength.toNat 0) rfl
  have length := fit.length
  refine ⟨frame, present, h, fragment, parsed, ?_⟩
  rw [fit.describes.offset, fit.describes.bytes, slice, List.getElem?_take_of_lt (by omega),
    List.getElem?_drop]
  exact ⟨from', by rw [Nat.add_sub_cancel' from']⟩

/-- A message of 1 to 4096 bytes with a cookie of at most 255 comes through. It has frames, they
fit the datagram and hold all its bytes, and a Reassembler puts it together again from them. -/
theorem message_reassembles (m : Sent Byte Source) (short : m.base.cookie.length ≤ 255)
    (some : 1 ≤ m.msg.length) (size : m.msg.length ≤ datagramMaxHandshakeMessageSize) :
    ∃ frames, fragmentHandshake m.base m.msg m.pad = .ok frames ∧ frames ≠ [] ∧
      (∀ frame ∈ frames, frame.length ≤ datagramMTU) ∧ Covers m frames ∧ Reassembles m frames := by
  obtain ⟨frames, run, sound, complete⟩ := fragmentHandshake_frames short m.fits some size
  have made : Frames m frames := ⟨short, size, some, sound, complete⟩
  refine ⟨frames, run, ?_, fun frame inside => ?_, made.covers, made.reassembles⟩
  · obtain ⟨frame, present, -⟩ := complete 0 some (dvd_zero _)
    exact List.ne_nil_of_mem present
  · obtain ⟨off, fragment⟩ := sound frame inside
    exact fragment.fits short

/-- The two datagrams of a RekeyInit, the second one first. -/
theorem message_reassembles_attempt : ∃ first second : List UInt8,
    (perform (newReassembler 0 0 0) (.deliver () second ⟨0, 0, ⟨0, 0⟩⟩)).1 = none ∧
    (perform (after [.deliver () second ⟨0, 0, ⟨0, 0⟩⟩] (newReassembler 0 0 0))
      (.deliver () first ⟨0, 0, ⟨0, 0⟩⟩)).1 = some ⟨(), (attempt 1).key, (attempt 1).msg⟩ := by
  obtain ⟨frames, run, -, -, -, reassembles⟩ := message_reassembles (attempt 1) (Nat.zero_le 255)
    (by rw [attempt_length]; decide) (attempt_size 1)
  obtain ⟨frames', first, second, run', inside, inside', begins, ends, only⟩ := attempt_frames 1
  obtain rfl : frames = frames' := Except.ok.inj (run.symm.trans run')
  have different : first ≠ second := by
    rintro rfl
    exact absurd (begins.offset_unique ends (attempt_size 1)) (by decide)
  -- one source never fills the table
  have few (r : Reassembler UInt8 Unit) : size r.bySource < 1024 := by
    have := r.bySource.keys_nodup.length_le_card
    rw [AList.keys, List.keys, List.length_map, Fintype.card_unit] at this
    exact this.trans_lt (by decide)
  have late : (0 : Int) ≤ 0 + (newReassembler 0 0 0 : Reassembler UInt8 Unit).timeout := by decide
  have allowed : Along step (Allowed (attempt 1) frames 0)
      [.deliver () second ⟨0, 0, ⟨0, 0⟩⟩, .deliver () first ⟨0, 0, ⟨0, 0⟩⟩]
      (newReassembler 0 0 0) := by
    obtain ⟨sources, -, timeout⟩ := perform_bounds (newReassembler 0 0 0)
      (.deliver () second ⟨0, 0, ⟨0, 0⟩⟩ : Event UInt8 Unit)
    refine ⟨⟨le_rfl, late, fun _ => ⟨inside', fun _ => few _⟩⟩, ⟨le_rfl, timeout ▸ late, fun _ =>
      ⟨inside, fun _ => ?_⟩⟩, trivial⟩
    rw [step, sources]
    exact few _
  refine ⟨first, second, ?_, ?_⟩
  · refine (reassembles _ 0 [] second ⟨0, 0, ⟨0, 0⟩⟩ (attempt_size 1) rfl ⟨allowed.1, trivial⟩
      ⟨first, inside, List.not_mem_nil⟩).2 ⟨first, inside, ?_⟩
    simpa [delivered] using different
  · refine (reassembles _ 0 [_] first ⟨0, 0, ⟨0, 0⟩⟩ (attempt_size 1) rfl allowed
      ⟨first, inside, ?_⟩).1 fun frame member => ?_
    · simpa [delivered] using different
    · simpa [delivered, or_comm] using only frame member

end QuantumGo.ReassemblyRoundTrip
