import QuantumGo.HelloCodec

/-!
Which inputs the hello decoders read safely. A reader is within a limit when it
does not panic and logs only spans of the header or of the payload up to the
limit. Every field but the session id is checked against `payloadEnd` before it
is sliced, so the session id's length byte decides.
-/

namespace QuantumGo.HelloSafety

open Octets Effect Wire HelloCodec

variable {Byte : Type} [Octet Byte] {α γ : Type}

def Confined (limit : Nat) (log : List Span) : Prop :=
  ∀ span ∈ log, span.hi ≤ headerSize ∨ (headerSize ≤ span.lo ∧ span.hi ≤ limit)

/-- No panic, and every byte read lies in the header or in the payload whose
length the header declares. -/
def SafeOn (reader : List Byte → Reader α) (data : List Byte) : Prop :=
  (reader data []).1 ≠ .error .panic ∧ Confined (headerSize + payloadLen data) (reader data []).2

def sessionIDLen (data : List Byte) : Nat := (UInt8.ofNat (ofBE (slice data 39 40))).toNat

def SessionIDFits (messageType : UInt8) (minPayloadLen : Nat) (data : List Byte) : Prop :=
  WellFramed messageType minPayloadLen data → 2 + 32 + 1 + sessionIDLen data ≤ payloadLen data

/-! Readers within a limit. -/

def ReadsWithin (limit : Nat) (reader : Reader α) (post : α → Prop) : Prop :=
  Ensures (Confined limit) reader (fun value log => post value ∧ Confined limit log)
    (fun stop log => stop ≠ .panic ∧ Confined limit log)

variable {post : α → Prop} {next : α → Reader γ} {data : List Byte}

section Rules
variable {limit : Nat}

protected theorem ReadsWithin.pure {value : α} (holds : post value) :
    ReadsWithin limit (pure value) post :=
  Ensures.pure fun _ confined => ⟨holds, confined⟩

protected theorem ReadsWithin.bind {first : Reader α} {mid : α → Prop} {post : γ → Prop}
    (head : ReadsWithin limit first mid)
    (tail : ∀ value, mid value → ReadsWithin limit (next value) post) :
    ReadsWithin limit (first >>= next) post :=
  Ensures.bind head fun value log reached => tail value reached.1 log reached.2

protected theorem ReadsWithin.reject {bad : Prop} [Decidable bad] {error : QError} :
    ReadsWithin limit (reject bad (.err error)) (fun _ => ¬ bad) :=
  Ensures.reject (fun _ passed confined => ⟨passed, confined⟩)
    (fun _ _ confined => ⟨by simp, confined⟩)

protected theorem ReadsWithin.lift {outcome : Except Fault α} (calm : outcome ≠ .error .panic) :
    ReadsWithin limit (lift outcome) (fun value => outcome = .ok value) :=
  Ensures.lift (fun _ _ finished confined => ⟨finished, confined⟩) (fun _ _ stopped confined =>
      ⟨fun panicked => calm (by rw [stopped, panicked]), confined⟩)

protected theorem ReadsWithin.ite {cond : Prop} [Decidable cond] {yes no : Reader α}
    (left : cond → ReadsWithin limit yes post) (right : ¬ cond → ReadsWithin limit no post) :
    ReadsWithin limit (if cond then yes else no) post :=
  Ensures.ite left right

omit [Octet Byte] in
/-- The one place where the log grows and a panic can arise. -/
theorem bytesAt_within {lo hi : Nat} (order : lo ≤ hi) (inside : hi ≤ data.length)
    (place : hi ≤ headerSize ∨ (headerSize ≤ lo ∧ hi ≤ limit)) :
    ReadsWithin limit (bytesAt data lo hi) (fun field => field = slice data lo hi) := by
  unfold bytesAt
  rw [if_pos ⟨order, inside⟩]
  intro log confined
  refine ⟨rfl, ?_⟩
  intro span member
  rcases List.mem_cons.mp member with here | before
  · subst here
    exact place
  · exact confined span before

variable {offset : Nat}

theorem byteAt_within (inside : offset + 1 ≤ data.length)
    (place : offset + 1 ≤ headerSize ∨ (headerSize ≤ offset ∧ offset + 1 ≤ limit)) :
    ReadsWithin limit (byteAt data offset)
      (fun b => b = UInt8.ofNat (ofBE (slice data offset (offset + 1)))) := by
  refine .bind (bytesAt_within (Nat.le_succ _) inside place) fun field read => ?_
  exact .pure (by rw [read])

/-! From here on the readers stand behind the header: `payloadEnd` is the limit. -/
variable (whole : limit ≤ data.length)
include whole

theorem uint16At_within (behind : headerSize ≤ offset) (inside : offset + 2 ≤ limit) :
    ReadsWithin limit (uint16At data offset) (fun _ => True) := by
  refine .bind (bytesAt_within (by omega) (by omega) (.inr ⟨behind, inside⟩)) fun field _ => ?_
  exact .pure trivial

theorem uint16sAt_within {count : Nat} (behind : headerSize ≤ offset)
    (inside : offset + 2 * count ≤ limit) :
    ReadsWithin limit (uint16sAt data offset count) (fun _ => True) := by
  induction count generalizing offset with
  | zero => exact .pure trivial
  | succ count ih =>
    refine .bind (uint16At_within whole behind (by omega)) fun first _ => ?_
    refine .bind (ih (by omega) (by omega)) fun rest _ => ?_
    exact .pure trivial

theorem payloadByteAt_within (behind : headerSize ≤ offset) (inside : offset < limit) :
    ReadsWithin limit (byteAt data offset) (fun _ => True) := by
  refine .weaken (byteAt_within (by omega) (.inr ⟨behind, inside⟩)) ?_
  intro _ _ reached
  exact ⟨trivial, reached.2⟩

omit [Octet Byte] in
theorem payloadBytesAt_within {lo hi : Nat} (behind : headerSize ≤ lo) (order : lo ≤ hi)
    (inside : hi ≤ limit) : ReadsWithin limit (bytesAt data lo hi) (fun _ => True) := by
  refine .weaken (bytesAt_within order (by omega) (.inr ⟨behind, inside⟩)) ?_
  intro _ _ reached
  exact ⟨trivial, reached.2⟩

theorem readLenPrefixed_within (behind : headerSize ≤ offset) :
    ReadsWithin limit (readLenPrefixed data offset limit)
      (fun result => headerSize ≤ result.2) := by
  refine .bind .reject fun _ room => ?_
  refine .bind (uint16At_within whole behind (by omega)) fun n _ => ?_
  refine .bind .reject fun _ fits => ?_
  refine .bind (payloadBytesAt_within whole (by omega) (by omega) (by omega)) fun out _ => ?_
  exact .pure (by omega)

theorem readStaticCiphertext_within (behind : headerSize ≤ offset) :
    ReadsWithin limit (readStaticCiphertext data offset limit)
      (fun result => headerSize ≤ result.2) := by
  refine .ite ?_ ?_
  · intro left
    refine .bind (payloadByteAt_within whole behind left) fun present _ => ?_
    refine .ite ?_ ?_
    · intro _
      exact readLenPrefixed_within whole (by omega)
    · intro _
      exact .pure (by omega)
  · intro _
    exact .pure behind

theorem readPSKIdentity_within (behind : headerSize ≤ offset) :
    ReadsWithin limit (readPSKIdentity data offset limit) (fun _ => True) := by
  refine .ite ?_ ?_
  · intro left
    refine .bind (payloadByteAt_within whole behind left) fun present _ => ?_
    refine .ite ?_ ?_
    · intro _
      refine .bind .reject fun _ room => ?_
      refine .bind (payloadByteAt_within whole (by omega) (by omega)) fun idLen _ => ?_
      refine .bind .reject fun _ fits => ?_
      exact payloadBytesAt_within whole (by omega) (by omega) (by omega)
    · intro _
      exact .pure trivial
  · intro _
    exact .pure trivial

end Rules

/-- The header reads stay in the header; what they establish is `WellFramed`. -/
theorem openFrame_within (messageType : UInt8) (minPayloadLen : Nat) (data : List Byte) :
    ReadsWithin (headerSize + payloadLen data) (openFrame messageType minPayloadLen data)
      (fun payloadEnd => payloadEnd = headerSize + payloadLen data ∧
        WellFramed messageType minPayloadLen data) := by
  refine .bind .reject fun _ long => ?_
  have header : headerSize ≤ data.length := by omega
  unfold headerSize at header
  refine .bind (byteAt_within (by omega) (.inl (by decide))) fun kind read => ?_
  refine .bind .reject fun _ kinds => ?_
  refine .bind (bytesAt_within (by omega) header (.inl (by decide))) fun length declared => ?_
  subst declared
  refine .bind .reject fun _ whole => ?_
  refine .bind .reject fun _ enough => ?_
  refine .pure ?_
  exact ⟨rfl, header, by simpa [← read] using kinds, Nat.not_lt.mp whole, Nat.not_lt.mp enough⟩

theorem readHelloFields_within {limit : Nat} (whole : limit ≤ data.length)
    (fits : headerSize + (2 + 32 + 1 + sessionIDLen data) ≤ limit) :
    ReadsWithin limit (readHelloFields data) (fun fields => headerSize ≤ fields.2.2.2) := by
  unfold headerSize at fits
  refine .bind (payloadByteAt_within whole (by simp) (by simp [headerSize]; omega))
    fun major _ => ?_
  refine .bind (payloadByteAt_within whole (by simp) (by simp [headerSize]; omega))
    fun minor _ => ?_
  refine .bind (payloadBytesAt_within whole (by omega) (by omega)
    (by simp [headerSize]; omega)) fun random _ => ?_
  refine .bind (byteAt_within (by simp [headerSize]; omega)
    (.inr ⟨by omega, by simp [headerSize]; omega⟩)) fun length read => ?_
  have same : length.toNat = sessionIDLen data := by rw [read]; rfl
  refine .ite ?_ ?_
  · intro _
    refine .bind (payloadBytesAt_within whole (by omega) (by omega)
      (by simp [headerSize, same]; omega)) fun sessionID _ => ?_
    exact .pure (by dsimp only; omega)
  · intro _
    exact .pure (by dsimp only; omega)

theorem readClientHello_within
    (fits : SessionIDFits messageTypeClientHello clientHelloMinPayload data) :
    ReadsWithin (headerSize + payloadLen data) (readClientHello data) (fun _ => True) := by
  refine .bind (openFrame_within _ _ data) ?_
  rintro _ ⟨rfl, framed⟩
  have whole := framed.2.2.1
  have room := fits framed
  refine .bind (readHelloFields_within whole (by omega)) ?_
  rintro ⟨version, random, sessionID, offset⟩ (behind : headerSize ≤ offset)
  refine .bind .reject fun _ next => ?_
  refine .bind (uint16At_within whole behind (by omega)) fun kemSuite _ => ?_
  refine .bind (payloadByteAt_within whole (by omega) (by omega)) fun kemSuiteCount _ => ?_
  refine .bind .reject fun _ suites => ?_
  refine .bind (uint16sAt_within whole (by omega) (by omega)) fun kemSuites _ => ?_
  refine .bind (readLenPrefixed_within whole (by omega)) ?_
  rintro ⟨pk, offset⟩ (behind : headerSize ≤ offset)
  refine .bind .reject fun _ next => ?_
  refine .bind (uint16At_within whole behind (by omega)) fun cipherSuiteCount _ => ?_
  refine .bind .reject fun _ ciphers => ?_
  refine .bind (uint16sAt_within whole (by omega) (by omega)) fun cipherSuites _ => ?_
  refine .bind (readStaticCiphertext_within whole (by omega)) ?_
  rintro ⟨ct, offset⟩ behind
  refine .bind (readPSKIdentity_within whole behind) fun identity _ => ?_
  refine .bind (.lift (firstFailure_no_panic _)) fun _ _ => ?_
  exact .pure trivial

theorem readServerHello_within
    (fits : SessionIDFits messageTypeServerHello serverHelloMinPayload data) :
    ReadsWithin (headerSize + payloadLen data) (readServerHello data) (fun _ => True) := by
  refine .bind (openFrame_within _ _ data) ?_
  rintro _ ⟨rfl, framed⟩
  have whole := framed.2.2.1
  have room := fits framed
  refine .bind (readHelloFields_within whole (by omega)) ?_
  rintro ⟨version, random, sessionID, offset⟩ (behind : headerSize ≤ offset)
  refine .bind .reject fun _ next => ?_
  refine .bind (uint16At_within whole behind (by omega)) fun kemSuite _ => ?_
  refine .bind (readLenPrefixed_within whole (by omega)) ?_
  rintro ⟨ct, offset⟩ (behind : headerSize ≤ offset)
  refine .bind .reject fun _ next => ?_
  refine .bind (uint16At_within whole behind (by omega)) fun cipherSuite _ => ?_
  refine .bind (.lift (firstFailure_no_panic _)) fun _ _ => ?_
  exact .pure trivial

variable {reader : List Byte → Reader α}

theorem safeOn_of_within (within : ReadsWithin (headerSize + payloadLen data) (reader data) post) :
    SafeOn reader data := by
  have reached := within [] (by intro span member; cases member)
  rcases outcome : reader data [] with ⟨stop | value, log⟩
  · rw [outcome] at reached
    simpa [SafeOn, outcome] using reached
  · rw [outcome] at reached
    simpa [SafeOn, outcome] using reached.2

/-! The converse: a span once logged stays logged, so an overrun of the session
id is still visible at the end, unless the overrun itself panicked. -/

abbrev Remembers (span : Span) (reader : Reader α) : Prop := Maintains (span ∈ ·) reader

section Remembering
variable {span : Span}

omit [Octet Byte] in
theorem bytesAt_remembers (data : List Byte) (lo hi : Nat) : Remembers span (bytesAt data lo hi) :=
  .ite (fun _ _ kept => List.mem_cons_of_mem _ kept) fun _ => .fail _

theorem byteAt_remembers (data : List Byte) (offset : Nat) : Remembers span (byteAt data offset) :=
  .bind (bytesAt_remembers _ _ _) fun _ => .pure _

theorem uint16At_remembers (data : List Byte) (offset : Nat) :
    Remembers span (uint16At data offset) :=
  .bind (bytesAt_remembers _ _ _) fun _ => .pure _

theorem uint16sAt_remembers (data : List Byte) (offset count : Nat) :
    Remembers span (uint16sAt data offset count) := by
  induction count generalizing offset with
  | zero => exact .pure _
  | succ count ih =>
    refine .bind (uint16At_remembers _ _) fun first => ?_
    exact .bind (ih _) fun _ => .pure _

theorem readLenPrefixed_remembers (data : List Byte) (offset payloadEnd : Nat) :
    Remembers span (readLenPrefixed data offset payloadEnd) := by
  refine .reject_bind fun _ => ?_
  refine .bind (uint16At_remembers _ _) fun n => ?_
  refine .reject_bind fun _ => ?_
  exact .bind (bytesAt_remembers _ _ _) fun _ => .pure _

theorem readStaticCiphertext_remembers (data : List Byte) (offset payloadEnd : Nat) :
    Remembers span (readStaticCiphertext data offset payloadEnd) := by
  refine .ite (fun _ => ?_) fun _ => .pure _
  refine .bind (byteAt_remembers _ _) fun present => ?_
  exact .ite (fun _ => readLenPrefixed_remembers _ _ _) fun _ => .pure _

theorem readPSKIdentity_remembers (data : List Byte) (offset payloadEnd : Nat) :
    Remembers span (readPSKIdentity data offset payloadEnd) := by
  refine .ite (fun _ => ?_) fun _ => .pure _
  refine .bind (byteAt_remembers _ _) fun present => ?_
  refine .ite (fun _ => ?_) fun _ => .pure _
  refine .reject_bind fun _ => ?_
  refine .bind (byteAt_remembers _ _) fun idLen => ?_
  exact .reject_bind fun _ => bytesAt_remembers _ _ _

end Remembering

def Exposes (span : Span) (reader : Reader α) : Prop :=
  Ensures (fun _ => True) reader (fun _ log => span ∈ log)
    (fun stop log => stop = .panic ∨ span ∈ log)

theorem exposes_bind {span : Span} {first : Reader α} (head : Exposes span first)
    (tail : ∀ value, Remembers span (next value)) : Exposes span (first >>= next) := by
  refine .bind head fun value log kept => ?_
  have still := tail value log kept
  rcases outcome : next value log with ⟨stop | result, log'⟩
  · exact .inr (by rwa [outcome] at still)
  · rwa [outcome] at still

def sessionIDSpan (data : List Byte) : Span := ⟨40, 40 + sessionIDLen data⟩

omit [Octet Byte] in
theorem bytesAt_exposes (data : List Byte) (lo hi : Nat) :
    Exposes ⟨lo, hi⟩ (bytesAt data lo hi) := by
  apply Ensures.ite
  · intro _ log _
    exact List.mem_cons_self
  · intro _
    exact .fail fun _ _ => .inl rfl

/-- Whatever was logged before, a non-empty session id is sliced or panics. -/
theorem readHelloFields_exposes (long : 40 ≤ data.length) (nonempty : 0 < sessionIDLen data) :
    Exposes (sessionIDSpan data) (readHelloFields data) := by
  apply Ensures.after (byteAt_yields (by simp [headerSize]; omega))
  apply Ensures.after (byteAt_yields (by simp [headerSize]; omega))
  apply Ensures.after (bytesAt_yields (by omega) (by simp [headerSize]; omega))
  apply Ensures.after (byteAt_yields (by simp [headerSize]; omega))
  apply Ensures.ite
  · intro _
    exact exposes_bind (bytesAt_exposes _ _ _) fun _ => .pure _
  · intro empty
    exact absurd nonempty empty

theorem framed_long {messageType : UInt8} {minPayload : Nat}
    (framed : WellFramed messageType minPayload data) (least : 35 ≤ minPayload) :
    40 ≤ data.length := by
  have enough := framed.2.2
  simp only [headerSize] at enough
  omega

theorem readClientHello_exposes
    (framed : WellFramed messageTypeClientHello clientHelloMinPayload data)
    (nonempty : 0 < sessionIDLen data) :
    Exposes (sessionIDSpan data) (readClientHello data) := by
  refine .after (openFrame_yields framed) (exposes_bind
    (readHelloFields_exposes (framed_long framed (by decide)) nonempty) fun fields => ?_)
  refine .reject_bind fun _ => ?_
  refine .bind (uint16At_remembers _ _) fun kemSuite => ?_
  refine .bind (byteAt_remembers _ _) fun kemSuiteCount => ?_
  refine .reject_bind fun _ => ?_
  refine .bind (uint16sAt_remembers _ _ _) fun kemSuites => ?_
  refine .bind (readLenPrefixed_remembers _ _ _) fun pk => ?_
  refine .reject_bind fun _ => ?_
  refine .bind (uint16At_remembers _ _) fun cipherSuiteCount => ?_
  refine .reject_bind fun _ => ?_
  refine .bind (uint16sAt_remembers _ _ _) fun cipherSuites => ?_
  refine .bind (readStaticCiphertext_remembers _ _ _) fun ct => ?_
  refine .bind (readPSKIdentity_remembers _ _ _) fun identity => ?_
  exact .lift_bind fun _ _ => .pure _

theorem readServerHello_exposes
    (framed : WellFramed messageTypeServerHello serverHelloMinPayload data)
    (nonempty : 0 < sessionIDLen data) :
    Exposes (sessionIDSpan data) (readServerHello data) := by
  refine .after (openFrame_yields framed) (exposes_bind
    (readHelloFields_exposes (framed_long framed (by decide)) nonempty) fun fields => ?_)
  refine .reject_bind fun _ => ?_
  refine .bind (uint16At_remembers _ _) fun kemSuite => ?_
  refine .bind (readLenPrefixed_remembers _ _ _) fun ct => ?_
  refine .reject_bind fun _ => ?_
  refine .bind (uint16At_remembers _ _) fun cipherSuite => ?_
  exact .lift_bind fun _ _ => .pure _

theorem fits_of_exposes {messageType : UInt8} {minPayload : Nat} (least : 35 ≤ minPayload)
    (exposes : WellFramed messageType minPayload data → 0 < sessionIDLen data →
      Exposes (sessionIDSpan data) (reader data)) (safe : SafeOn reader data) :
    SessionIDFits messageType minPayload data := by
  intro framed
  by_contra overrun
  have enough := framed.2.2.2
  obtain ⟨calm, confined⟩ := safe
  have logged : sessionIDSpan data ∈ (reader data []).2 := by
    have reached := exposes framed (by omega) [] trivial
    rcases outcome : reader data [] with ⟨stop | value, log⟩
    · rw [outcome] at reached
      rcases reached with panicked | kept
      · exact absurd (by rw [outcome, panicked]) calm
      · exact kept
    · rw [outcome] at reached
      exact reached
  have placed := confined _ logged
  simp only [sessionIDSpan, headerSize] at placed
  omega

/-- A hello decoder is safe on an input exactly when the header is refused or
the session id's length byte stays within the declared payload. -/
theorem safeOn_iff_sessionIDFits (data : List Byte) : (SafeOn readClientHello data ↔
      SessionIDFits messageTypeClientHello clientHelloMinPayload data) ∧
    (SafeOn readServerHello data ↔
      SessionIDFits messageTypeServerHello serverHelloMinPayload data) := by
  exact ⟨⟨fits_of_exposes (by decide) readClientHello_exposes,
      fun fits => safeOn_of_within (readClientHello_within fits)⟩,
    ⟨fits_of_exposes (by decide) readServerHello_exposes,
      fun fits => safeOn_of_within (readServerHello_within fits)⟩⟩

/-- A ClientHello of the least length whose session id claims 255 bytes. -/
theorem sessionID_overrun :
    ¬ ∀ data : List UInt8, SafeOn readClientHello data ∧ SafeOn readServerHello data := by
  intro safe
  refine (safe ([1, 0, 0, 0, 44] ++ List.replicate 34 6 ++ [255] ++ List.replicate 9 0)).1.1 ?_
  decide

end QuantumGo.HelloSafety
