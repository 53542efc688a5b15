import QuantumGo.Reassembly

/-!
Whether the Reassembler mixes messages of honest senders. Its buffers are told apart by
source, sender index, type and total length. Two messages that agree in these share a buffer;
fragments of both then make up what Add returns, unless one of the messages is a single
fragment, which fills the buffer by itself.
-/

namespace QuantumGo.ReassemblyMixing

open Octets Wire Records DatagramSession HandshakeFrames Tables Reassembly

structure Sent (Byte Source : Type) where
  source : Source
  base : DatagramHandshakeHeader Byte
  msg : List Byte
  pad : Bool
  fits : base.seq < seqLimit

variable {Byte Source : Type} [Octet Byte] [DecidableEq Source]

def Sent.key (m : Sent Byte Source) : ReasmKey := ⟨m.base.senderIndex, m.base.msgType⟩

inductive Event (Byte Source : Type) where
  | deliver (source : Source) (data : List Byte) (meeting : Meeting)
  | drop (source : Source)

def Honest (sent : List (Sent Byte Source)) : Event Byte Source → Prop
  | .deliver source data _ => ∃ m ∈ sent, m.source = source ∧
      ∃ frames, fragmentHandshake m.base m.msg m.pad = .ok frames ∧ data ∈ frames
  | .drop _ => True

structure Returned (Byte Source : Type) where
  source : Source
  key : ReasmKey
  msg : List Byte

def perform (r : Reassembler Byte Source) :
    Event Byte Source → Option (Returned Byte Source) × Reassembler Byte Source
  | .deliver source data meeting =>
    match parseDatagramHandshake data with
    | .error _ => (none, r)
    | .ok (h, fragment) =>
      match add meeting source h fragment r with
      | (.ok (some msg), r') => (some ⟨source, ⟨h.senderIndex, h.msgType⟩, msg⟩, r')
      | (_, r') => (none, r')
  | .drop source => (none, drop source r)

def returned : List (Event Byte Source) → Reassembler Byte Source → List (Returned Byte Source)
  | [], _ => []
  | e :: rest, r => (perform r e).1.toList ++ returned rest (perform r e).2

theorem perform_state (r : Reassembler Byte Source) (source : Source) (data : List Byte)
    (meeting : Meeting) : (perform r (.deliver source data meeting)).2 = r ∨
      ∃ h fragment, (perform r (.deliver source data meeting)).2 =
        (add meeting source h fragment r).2 := by
  simp only [perform]
  split
  · exact .inl rfl
  · rename_i h fragment parsed
    refine .inr ⟨h, fragment, ?_⟩
    split <;> rename_i run <;> rw [run]

variable {r : Reassembler Byte Source} {source : Source} {data fragment : List Byte}
  {meeting : Meeting} {h : DatagramHandshakeHeader Byte}

theorem perform_waits (parsed : parseDatagramHandshake data = .ok (h, fragment))
    (outcome : (add meeting source h fragment r).1 = .ok none) :
    perform r (.deliver source data meeting) = (none, (add meeting source h fragment r).2) := by
  rcases run : add meeting source h fragment r with ⟨result, r'⟩
  obtain rfl : result = .ok none := by rw [← outcome, run]
  simp [perform, parsed, run]

theorem perform_completes {msg : List Byte}
    (parsed : parseDatagramHandshake data = .ok (h, fragment))
    (outcome : (add meeting source h fragment r).1 = .ok (some msg)) :
    perform r (.deliver source data meeting) =
      (some ⟨source, ⟨h.senderIndex, h.msgType⟩, msg⟩, (add meeting source h fragment r).2) := by
  rcases run : add meeting source h fragment r with ⟨result, r'⟩
  obtain rfl : result = .ok (some msg) := by rw [← outcome, run]
  simp [perform, parsed, run]

def Sent.Split (m : Sent Byte Source) : Prop :=
  maxHandshakeFragmentPayload m.base.cookie.length < m.msg.length

/-- Messages of a source with one key and one length are the same, if they are split at all. -/
def Unmixed (sent : List (Sent Byte Source)) : Prop :=
  ∀ m ∈ sent, ∀ m' ∈ sent, m.source = m'.source → m.key = m'.key →
    m.msg.length = m'.msg.length → m.Split → m'.Split → m.msg = m'.msg

variable {m : Sent Byte Source} {fb : FragmentBuffer Byte}

section Invariant
variable {sent : List (Sent Byte Source)}

structure Sourced (sent : List (Sent Byte Source)) (source : Source) (key : ReasmKey)
    (fb : FragmentBuffer Byte) : Prop where
  counted : fb.Counted
  bytes : ∀ j : Nat, fb.covered[j]? = some true → ∃ m ∈ sent, m.source = source ∧ m.key = key ∧
    m.msg.length = fb.total ∧ m.Split ∧ fb.buf[j]? = m.msg[j]?

def AllSourced (sent : List (Sent Byte Source)) (r : Reassembler Byte Source) : Prop :=
  ∀ source key fb, r.Holds source key fb → Sourced sent source key fb

omit [DecidableEq Source] in
theorem newBuffer_sourced (source : Source) (key : ReasmKey) (total : Nat) (now : Int) :
    Sourced sent source key (newBuffer total now) := by
  refine ⟨newBuffer_counted total now, fun j flag => ?_⟩
  simp [newBuffer, List.getElem?_replicate] at flag

structure Fits (m : Sent Byte Source) (off : Nat) (h : DatagramHandshakeHeader Byte)
    (fragment : List Byte) (fb : FragmentBuffer Byte) : Prop where
  describes : Describes m.base m.msg off h fragment
  short : m.base.cookie.length ≤ 255
  aligned : maxHandshakeFragmentPayload m.base.cookie.length ∣ off
  start : off < m.msg.length
  total : fb.total = m.msg.length

section Fill
variable {off : Nat}
omit [Octet Byte] [DecidableEq Source]

theorem Fits.length (fits : Fits m off h fragment fb) : fragment.length =
    min (off + maxHandshakeFragmentPayload m.base.cookie.length) m.msg.length - off := by
  rw [fits.describes.bytes, slice_length (Nat.min_le_right _ _)]

theorem Fits.inside (fits : Fits m off h fragment fb) : off + fragment.length ≤ fb.total := by
  have := fits.start
  rw [fits.length, fits.total]
  omega

theorem Fits.admissible {r : Reassembler Byte Source} (fits : Fits m off h fragment fb)
    (room : m.msg.length ≤ r.maxMessageSize) : Admissible r h fragment := by
  have some := Nat.zero_lt_of_lt fits.start
  refine ⟨fits.describes.total ▸ some.ne', fits.describes.total ▸ room, ?_, fits.describes.length⟩
  rw [fits.describes.length, fits.describes.offset, fits.describes.total, ← fits.total]
  exact fits.inside

theorem Fits.byte (fits : Fits m off h fragment fb) (counted : fb.Counted) {j : Nat}
    (after : off ≤ j) (before : j < off + fragment.length) :
    (fb.fill off fragment).buf[j]? = m.msg[j]? := by
  have length := fits.length
  rw [fill_buf counted fits.inside, if_pos ⟨after, before⟩, fits.describes.bytes, slice,
    List.getElem?_take_of_lt (by omega), List.getElem?_drop]
  congr 1
  omega

/-- A message that is not split fills its buffer at once. -/
theorem Fits.whole (fits : Fits m off h fragment fb) (counted : fb.Counted) (single : ¬ m.Split) :
    ¬ (fb.fill off fragment).coveredN < fb.total ∧ (fb.fill off fragment).buf = m.msg := by
  have positive := maxHandshakeFragmentPayload_pos fits.short
  have small : m.msg.length ≤ maxHandshakeFragmentPayload m.base.cookie.length := not_lt.mp single
  have zero : off = 0 := Nat.eq_zero_of_dvd_of_lt fits.aligned (by have := fits.start; omega)
  have length := fits.length
  have total := fits.total
  have counted' := counted.fill fits.inside
  constructor
  · refine counted'.complete_iff.mpr fun j inside => ?_
    have inside : j < fb.total := inside
    exact (fill_covered counted inside).mpr (.inr (by omega))
  · refine List.ext_getElem? fun j => ?_
    by_cases inside : j < m.msg.length
    · exact fits.byte counted (by omega) (by omega)
    · have size : (fb.fill off fragment).buf.length = fb.total := counted'.bytes
      rw [List.getElem?_eq_none (by omega), List.getElem?_eq_none (by omega)]

theorem Sourced.fill (sourced : Sourced sent m.source m.key fb) (known : m ∈ sent)
    (fits : Fits m off h fragment fb) (split : m.Split) :
    Sourced sent m.source m.key (fb.fill off fragment) := by
  refine ⟨sourced.counted.fill fits.inside, fun j flag => ?_⟩
  have total : (fb.fill off fragment).total = m.msg.length := fits.total
  have inside : j < fb.total := by
    have := (List.getElem?_eq_some_iff.mp flag).1
    rwa [(sourced.counted.fill fits.inside).flags] at this
  by_cases mine : off ≤ j ∧ j < off + fragment.length
  · exact ⟨m, known, rfl, rfl, total.symm, split, fits.byte sourced.counted mine.1 mine.2⟩
  · obtain earlier | now := (fill_covered sourced.counted inside).mp flag
    · obtain ⟨m', known', source, key, length, split', byte⟩ := sourced.bytes j earlier
      refine ⟨m', known', source, key, length, split', ?_⟩
      rw [fill_buf sourced.counted fits.inside, if_neg mine, byte]
    · exact absurd now mine

/-- A buffer that such a fragment completes is its message. -/
theorem Sourced.complete (unmixed : Unmixed sent) (sourced : Sourced sent m.source m.key fb)
    (known : m ∈ sent) (fits : Fits m off h fragment fb) (split : m.Split)
    (full : ¬ (fb.fill off fragment).coveredN < fb.total) : (fb.fill off fragment).buf = m.msg := by
  have filled := sourced.fill known fits split
  have total : (fb.fill off fragment).total = m.msg.length := fits.total
  refine List.ext_getElem? fun j => ?_
  by_cases inside : j < m.msg.length
  · obtain ⟨m', known', source, key, length, split', byte⟩ :=
      filled.bytes j (filled.counted.complete_iff.mp full j (total ▸ inside))
    rw [byte, unmixed m' known' m known source key (length.trans total) split' split]
  · have size := filled.counted.bytes
    rw [List.getElem?_eq_none (by omega), List.getElem?_eq_none (by omega)]

end Fill

omit [DecidableEq Source] in
/-- A fragment of a message parses into a piece of it under its key. -/
theorem fragment_parsed {off : Nat} (short : m.base.cookie.length ≤ 255)
    (size : m.msg.length ≤ datagramMaxHandshakeMessageSize)
    (made : IsFragment m.base m.msg m.pad off data) :
    ∃ h fragment, parseDatagramHandshake data = .ok (h, fragment) ∧
      (⟨h.senderIndex, h.msgType⟩ : ReasmKey) = m.key ∧ h.totalLength.toNat = m.msg.length ∧
      ∀ fb : FragmentBuffer Byte, fb.total = h.totalLength.toNat → Fits m off h fragment fb := by
  obtain ⟨h, fragment, parsed, describes⟩ := made.parsed size
  refine ⟨h, fragment, parsed, ?_, describes.total, fun fb total =>
    ⟨describes, short, made.aligned, made.start, total.trans describes.total⟩⟩
  rw [describes.sender, describes.msgType]
  rfl

omit [DecidableEq Source] in
/-- An honest frame parses into a fragment of its message. -/
theorem honest_parsed (honest : Honest sent (.deliver source data meeting)) :
    ∃ m ∈ sent, m.source = source ∧ ∃ off h fragment,
      parseDatagramHandshake data = .ok (h, fragment) ∧
      (⟨h.senderIndex, h.msgType⟩ : ReasmKey) = m.key ∧
      ∀ fb : FragmentBuffer Byte, fb.total = h.totalLength.toNat → Fits m off h fragment fb := by
  obtain ⟨m, known, source, frames, made, inside⟩ := honest
  obtain ⟨short, some, size⟩ := fragmentHandshake_accepts made
  obtain ⟨frames', made', sound, -⟩ := fragmentHandshake_frames short m.fits some size
  obtain rfl : frames' = frames := Except.ok.inj (made'.symm.trans made)
  obtain ⟨off, fragment⟩ := sound data inside
  obtain ⟨h, bytes, parsed, key, -, fits⟩ := fragment_parsed short size fragment
  exact ⟨m, known, source, off, h, bytes, parsed, key, fits⟩

omit [Octet Byte] in
theorem drop_holds {s : Source} {key : ReasmKey} (held : (drop source r).Holds s key fb) :
    r.Holds s key fb := by
  obtain ⟨bufs, here, held⟩ := held
  refine ⟨bufs, ?_, held⟩
  by_cases same : s = source
  · subst same
    simp [drop, AList.lookup_erase] at here
  · rwa [drop, AList.lookup_erase_ne same] at here

/-- The step lemma: a frame keeps every buffer sourced, and a message it completes was sent. -/
theorem step_unmixed (unmixed : Unmixed sent) (sourced : AllSourced sent r) {e : Event Byte Source}
    (honest : Honest sent e) :
    AllSourced sent (perform r e).2 ∧ ∀ out ∈ (perform r e).1,
      ∃ m ∈ sent, m.source = out.source ∧ m.key = out.key ∧ m.msg = out.msg := by
  cases e with
  | drop source => exact ⟨fun s key fb held => sourced s key fb (drop_holds held), nofun⟩
  | deliver source data meeting =>
    obtain ⟨m, known, rfl, off, h, fragment, parsed, key, fits⟩ := honest_parsed honest
    simp only [perform, parsed]
    have adds := add_adds meeting m.source h fragment r
    rcases run : add meeting m.source h fragment r with ⟨outcome, next⟩
    rw [run] at adds
    dsimp only at adds
    -- the buffer the fragment goes into
    have before {fb : FragmentBuffer Byte} (origin : r.Holds m.source
        ⟨h.senderIndex, h.msgType⟩ fb ∧ fb.total = h.totalLength.toNat ∨
        fb = newBuffer h.totalLength.toNat meeting.creation) :
        Sourced sent m.source m.key fb ∧ Fits m h.fragOffset.toNat h fragment fb := by
      rcases origin with ⟨held, total⟩ | rfl
      · have fit := fits fb total
        exact ⟨key ▸ sourced _ _ _ held, fit.describes.offset.symm ▸ fit⟩
      · have fit := fits (newBuffer h.totalLength.toNat meeting.creation) rfl
        exact ⟨newBuffer_sourced _ _ _ _, fit.describes.offset.symm ▸ fit⟩
    cases adds with
    | refused refusal r' kept => exact ⟨fun s k fb held => sourced s k fb (kept s k fb held), nofun⟩
    | waits fb r' origin inside lacking kept =>
      obtain ⟨good, fit⟩ := before origin
      have total : fb.total = h.totalLength.toNat := fit.total.trans fit.describes.total.symm
      have split : m.Split := by
        by_contra single
        exact (fit.whole good.counted single).1 (total ▸ lacking)
      refine ⟨fun s k fb' held => ?_, nofun⟩
      rcases kept s k fb' held with old | ⟨rfl, rfl, rfl⟩
      · exact sourced s k fb' old
      · exact key ▸ good.fill known fit split
    | completes fb r' origin inside full kept =>
      obtain ⟨good, fit⟩ := before origin
      have total : fb.total = h.totalLength.toNat := fit.total.trans fit.describes.total.symm
      refine ⟨fun s k fb' held => sourced s k fb' (kept s k fb' held), ?_⟩
      rintro _ ⟨⟩
      refine ⟨m, known, rfl, key.symm, ?_⟩
      by_cases split : m.Split
      · exact (good.complete unmixed known fit split (total ▸ full)).symm
      · exact (fit.whole good.counted split).2.symm

theorem run_unmixed (unmixed : Unmixed sent) (events : List (Event Byte Source))
    (honest : ∀ e ∈ events, Honest sent e) (sourced : AllSourced sent r) :
    ∀ out ∈ returned events r,
      ∃ m ∈ sent, m.source = out.source ∧ m.key = out.key ∧ m.msg = out.msg := by
  induction events generalizing r with
  | nil => exact nofun
  | cons e rest ih =>
    obtain ⟨sourced', now⟩ := step_unmixed unmixed sourced (honest e List.mem_cons_self)
    intro out inside
    rcases List.mem_append.mp inside with first | later
    · exact now out (Option.mem_toList.mp first)
    · exact ih (fun e inside => honest e (List.mem_cons_of_mem _ inside)) sourced' out later

end Invariant

/-- Whatever is lost, repeated or reordered, a message that the Reassembler returns is one that
its source sent under that sender index and type, if no two different split messages of a source
agree in sender index, type and length. -/
theorem messages_unmixed {sent : List (Sent Byte Source)} (unmixed : Unmixed sent)
    {r : Reassembler Byte Source} (new : r.bySource = ∅) (events : List (Event Byte Source))
    (honest : ∀ e ∈ events, Honest sent e) :
    ∀ out ∈ returned events r,
      ∃ m ∈ sent, m.source = out.source ∧ m.key = out.key ∧ m.msg = out.msg := by
  refine run_unmixed unmixed events honest fun source key fb held => ?_
  obtain ⟨bufs, here, -⟩ := held
  rw [new] at here
  cases here

/-! Two messages in one buffer. -/

section Mixing
variable {m' : Sent Byte Source}

/-- The first of two fragments of one message and the second of another, under one key and of one
length: what comes back is a part of each. -/
theorem fragments_mix (absent : r.bySource.lookup m.source = none)
    (room : Tables.size r.bySource < r.maxSources) (bound : m.msg.length ≤ r.maxMessageSize)
    (timeout : 0 ≤ r.timeout) (key : m.key = m'.key)
    (length : m.msg.length = m'.msg.length) (cookie : m.base.cookie.length = m'.base.cookie.length)
    (short : m.base.cookie.length ≤ 255) (size : m.msg.length ≤ datagramMaxHandshakeMessageSize)
    (two : m.msg.length ≤ 2 * maxHandshakeFragmentPayload m.base.cookie.length)
    {first second : List Byte} (made : IsFragment m.base m.msg m.pad 0 first)
    (made' : IsFragment m'.base m'.msg m'.pad
      (maxHandshakeFragmentPayload m.base.cookie.length) second) (meeting : Meeting)
    (recent : meeting.expiry ≤ meeting.creation) :
    ∃ out, returned [.deliver m.source first meeting, .deliver m.source second meeting] r = [out] ∧
      ∀ j : Nat, out.msg[j]? =
        if j < maxHandshakeFragmentPayload m.base.cookie.length then m.msg[j]?
        else m'.msg[j]? := by
  have positive := maxHandshakeFragmentPayload_pos short
  have begins := made'.start
  obtain ⟨h, fragment, parsed, named, total, fits⟩ := fragment_parsed short size made
  obtain ⟨h', fragment', parsed', named', total', fits'⟩ :=
    fragment_parsed (cookie ▸ short) (length ▸ size) made'
  -- the first fragment leaves the second half of its buffer open
  let new : FragmentBuffer Byte := newBuffer h.totalLength.toNat meeting.creation
  have newCounted : new.Counted := newBuffer_counted _ _
  have fit : Fits m 0 h fragment new := fits new rfl
  have covers := fit.length
  have counted : (new.fill 0 fragment).Counted := newCounted.fill fit.inside
  have halfTotal : (new.fill 0 fragment).total = m.msg.length := total
  have fills : ∀ j : Nat, j < m.msg.length → ((new.fill 0 fragment).covered[j]? = some true ↔
      j < maxHandshakeFragmentPayload m.base.cookie.length) := by
    intro j inside
    have before : new.covered[j]? = some false := by simp [new, newBuffer, total, inside]
    rw [fill_covered newCounted (show j < h.totalLength.toNat by omega), before]
    simp only [Option.some.injEq, Bool.false_eq_true, false_or]
    omega
  have lacking : (new.fill 0 fragment).coveredN < h.totalLength.toNat := by
    by_contra full
    have flag := counted.complete_iff.mp full
      (maxHandshakeFragmentPayload m.base.cookie.length) (by omega)
    exact absurd ((fills _ (by omega)).mp flag) (lt_irrefl _)
  have puts : Puts meeting m.source h fragment r new :=
    add_new meeting (fit.admissible bound) absent room
  obtain ⟨outcome, held⟩ := puts
  rw [fit.describes.offset] at outcome held
  replace held := held lacking
  rw [if_pos lacking] at outcome
  obtain ⟨-, -, bound', timeout'⟩ := add_bounds meeting m.source h fragment r
  -- the second fragment of the other message closes it
  have sized : (new.fill 0 fragment).total = h'.totalLength.toNat := by omega
  have fit' : Fits m' _ h' fragment' (new.fill 0 fragment) := fits' _ sized
  have covers' := fit'.length
  rw [← cookie, ← length] at covers'
  have full : ¬ ((new.fill 0 fragment).fill (maxHandshakeFragmentPayload m.base.cookie.length)
      fragment').coveredN < h'.totalLength.toNat := by
    rw [← sized]
    refine (counted.fill fit'.inside).complete_iff.mpr fun j inside => ?_
    have inside : j < m.msg.length := halfTotal ▸ inside
    rw [fill_covered counted (halfTotal.symm ▸ inside), fills j inside]
    omega
  have admissible' : Admissible (add meeting m.source h fragment r).2 h' fragment' :=
    fit'.admissible (by rw [bound', ← length]; exact bound)
  have puts' := add_held meeting admissible' (named'.trans (key.symm.trans named.symm) ▸ held) (by
    rw [timeout']
    show ¬ meeting.creation < meeting.expiry - r.timeout
    omega) sized
  have outcome' := puts'.outcome
  rw [fit'.describes.offset, if_neg full] at outcome'
  refine ⟨⟨m.source, ⟨h'.senderIndex, h'.msgType⟩, ((new.fill 0 fragment).fill
    (maxHandshakeFragmentPayload m.base.cookie.length) fragment').buf⟩, ?_, fun j => ?_⟩
  · rw [returned, perform_waits parsed outcome, returned, perform_completes parsed' outcome']
    rfl
  · -- below the fragment boundary the first message, above it the second
    dsimp only
    by_cases after : maxHandshakeFragmentPayload m.base.cookie.length ≤ j
    · rw [if_neg (by omega)]
      by_cases inside : j < m'.msg.length
      · exact fit'.byte counted after (by omega)
      · have bytes : ((new.fill 0 fragment).fill _ fragment').buf.length =
            (new.fill 0 fragment).total := (counted.fill fit'.inside).bytes
        rw [List.getElem?_eq_none (by omega), List.getElem?_eq_none (by omega)]
    · rw [if_pos (by omega), fill_buf counted fit'.inside, if_neg (by omega)]
      exact fit.byte newCounted (Nat.zero_le j) (by omega)

end Mixing

/-! Two attempts of a rekey. -/

/-- A RekeyInit of 1200 bytes without a cookie, which takes two datagrams. -/
def attempt (value : UInt8) : Sent UInt8 Unit where
  source := ()
  base := ⟨⟨datagramFrameHandshake, 0, 7, 0⟩, 9, messageTypeDatagramRekeyInit, 0, 0, 0, []⟩
  msg := List.replicate 1200 value
  pad := false
  fits := by decide +kernel

section Attempts
variable (value : UInt8)

@[simp] theorem attempt_length : (attempt value).msg.length = 1200 := List.length_replicate

theorem attempt_size : (attempt value).msg.length ≤ datagramMaxHandshakeMessageSize := by
  rw [attempt_length]
  decide

theorem attempt_byte {j : Nat} (inside : j < 1200) : (attempt value).msg[j]? = some value :=
  List.getElem?_replicate_of_lt inside

structure Pair (frames : List (List UInt8)) (first second : List UInt8) : Prop where
  made : fragmentHandshake (attempt value).base (attempt value).msg false = .ok frames
  first_mem : first ∈ frames
  second_mem : second ∈ frames
  begins : IsFragment (attempt value).base (attempt value).msg false 0 first
  ends : IsFragment (attempt value).base (attempt value).msg false
    (maxHandshakeFragmentPayload 0) second
  only : ∀ frame ∈ frames, frame = first ∨ frame = second

theorem attempt_frames : ∃ frames first second, Pair value frames first second := by
  have length := attempt_length value
  have short : (attempt value).base.cookie.length = 0 := rfl
  have split : maxHandshakeFragmentPayload 0 < 1200 := by decide
  have two : 1200 ≤ maxHandshakeFragmentPayload 0 * 2 := by decide
  obtain ⟨frames, made, sound, complete⟩ := fragmentHandshake_frames (short ▸ Nat.zero_le 255)
    (attempt value).fits (by omega) (attempt_size value)
  obtain ⟨first, inside, begins⟩ := complete 0 (by omega) (dvd_zero _)
  obtain ⟨second, inside', ends⟩ := complete (maxHandshakeFragmentPayload 0) (by omega)
    (by rw [short])
  refine ⟨frames, first, second, made, inside, inside', begins, ends, fun frame member => ?_⟩
  obtain ⟨off, fragment⟩ := sound frame member
  obtain ⟨k, place⟩ := fragment.aligned
  have start := fragment.start
  rw [short] at place
  have few : k < 2 := by
    by_contra many
    have := Nat.mul_le_mul_left (maxHandshakeFragmentPayload 0) (not_lt.mp many)
    omega
  obtain rfl | rfl : k = 0 ∨ k = 1 := by omega
  · obtain rfl : off = 0 := place.trans (Nat.mul_zero _)
    exact .inl (fragment.unique begins)
  · obtain rfl : off = maxHandshakeFragmentPayload 0 := place.trans (Nat.mul_one _)
    exact .inr (fragment.unique ends)

end Attempts

/-- A message of the same sender index and type that takes one datagram. -/
def brief : Sent UInt8 Unit := { attempt 1 with msg := [3, 4, 5] }

/-- Two messages of one source under one key, of different lengths, come back as they were sent. -/
theorem messages_unmixed_attempt : ∃ events : List (Event UInt8 Unit),
    Unmixed [attempt 1, brief] ∧ (∀ e ∈ events, Honest [attempt 1, brief] e) ∧
    (returned events (newReassembler 0 0 0)).length = 2 ∧
    ∀ out ∈ returned events (newReassembler 0 0 0), ∃ m ∈ [attempt 1, brief], m.msg = out.msg := by
  obtain ⟨frames, first, second, made, inside, inside', begins, ends, -⟩ := attempt_frames 1
  obtain ⟨whole, back, r, made', completes, absent, room, bound, timeout⟩ : ∃ whole back r,
      fragmentHandshake brief.base brief.msg brief.pad = .ok [whole] ∧
      perform (newReassembler 0 0 0) (.deliver () whole ⟨0, 0, ⟨0, 0⟩⟩) = (some back, r) ∧
      r.bySource.lookup () = none ∧ Tables.size r.bySource < r.maxSources ∧
      r.maxMessageSize = 4096 ∧ 0 ≤ r.timeout :=
    ⟨_, _, _, rfl, rfl, rfl, by decide +kernel, rfl, by decide +kernel⟩
  obtain ⟨out, returns, -⟩ := fragments_mix absent room
    (bound ▸ attempt_size 1) timeout (rfl : (attempt 1).key = _) rfl rfl (Nat.zero_le 255)
    (attempt_size 1) (by rw [attempt_length]; decide) begins ends ⟨0, 0, ⟨0, 0⟩⟩ le_rfl
  have unmixed : Unmixed [attempt 1, brief] := by
    rintro m (_ | ⟨_, _ | ⟨_, ⟨⟩⟩⟩) m' (_ | ⟨_, _ | ⟨_, ⟨⟩⟩⟩) _ _ length _ _
    · rfl
    · rw [attempt_length] at length
      cases length
    · rw [attempt_length] at length
      cases length
    · rfl
  have honest : ∀ e ∈ [.deliver () whole ⟨0, 0, ⟨0, 0⟩⟩, .deliver () first ⟨0, 0, ⟨0, 0⟩⟩,
      .deliver () second ⟨0, 0, ⟨0, 0⟩⟩], Honest [attempt 1, brief] e := by
    rintro e (_ | ⟨_, _ | ⟨_, _ | ⟨_, ⟨⟩⟩⟩⟩)
    · exact ⟨brief, by simp, rfl, _, made', List.mem_singleton_self whole⟩
    · exact ⟨attempt 1, by simp, rfl, frames, made, inside⟩
    · exact ⟨attempt 1, by simp, rfl, frames, made, inside'⟩
  refine ⟨_, unmixed, honest, ?_, fun out back => ?_⟩
  · rw [returned, completes, returns]
    rfl
  · obtain ⟨m, known, -, -, same⟩ := messages_unmixed unmixed rfl _ honest out back
    exact ⟨m, known, same⟩

/-- The first datagram of one attempt and the second of the next: what comes back is neither. -/
theorem attempts_mix : ∃ events : List (Event UInt8 Unit),
    (∀ e ∈ events, Honest [attempt 1, attempt 2] e) ∧
    ∃ out ∈ returned events (newReassembler 0 0 0),
      ∀ m ∈ [attempt 1, attempt 2], m.msg ≠ out.msg := by
  obtain ⟨frames, first, -, made, inside, -, begins, -⟩ := attempt_frames 1
  obtain ⟨frames', -, second, made', -, inside', -, ends, -⟩ := attempt_frames 2
  obtain ⟨out, returns, bytes⟩ := fragments_mix (r := newReassembler 0 0 0) rfl (by decide)
    (attempt_size 1) (by decide) (show (attempt 1).key = (attempt 2).key from rfl) (by simp) rfl
    (Nat.zero_le 255) (attempt_size 1) (by rw [attempt_length]; decide) begins ends
    ⟨0, 0, ⟨0, 0⟩⟩ le_rfl
  refine ⟨_, ?_, out, returns ▸ List.mem_singleton_self out, ?_⟩
  · rintro e (_ | ⟨_, _ | ⟨_, ⟨⟩⟩⟩)
    · exact ⟨attempt 1, by simp, rfl, frames, made, inside⟩
    · exact ⟨attempt 2, by simp, rfl, frames', made', inside'⟩
  · -- its first byte is the first attempt's, its last the second's
    have head : out.msg[0]? = some 1 := by
      rw [bytes, if_pos (by decide), attempt_byte 1 (by decide)]
    have last : out.msg[1199]? = some 2 := by
      rw [bytes, if_neg (by decide), attempt_byte 2 (by decide)]
    rintro m (_ | ⟨_, _ | ⟨_, ⟨⟩⟩⟩) same
    · rw [← same, attempt_byte 1 (by decide)] at last
      cases last
    · rw [← same, attempt_byte 2 (by decide)] at head
      cases head

end QuantumGo.ReassemblyMixing
