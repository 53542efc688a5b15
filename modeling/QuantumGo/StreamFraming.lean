import QuantumGo.HelloRoundTrip

/-!
Reading whole messages from a byte stream: ReadMessage and ReadMessageInto
(pkg/protocol/codec.go) over io.ReadFull, and the loop of a transport that keeps the buffer it
was given back. A reader is the list of what its Read calls have still to give, and the end of
the stream follows.
-/

namespace QuantumGo.StreamFraming

open Octets Effect Wire HelloCodec HelloRoundTrip


variable {Byte : Type}

inductive ReadError where
  | eof
  | unexpectedEOF
  | messageTooLarge
  deriving DecidableEq, Repr

abbrev Reader (Byte : Type) := List (List Byte)

/-- What the Read calls of ReadFull put into a slice of `size` bytes. -/
def fill : Nat → Reader Byte → List Byte × Reader Byte
  | _, [] => ([], [])
  | size, chunk :: rest =>
    if size = 0 then ([], chunk :: rest)
    else if size < chunk.length then (chunk.take size, chunk.drop size :: rest)
    else
      let (more, rest) := fill (size - chunk.length) rest
      (chunk ++ more, rest)

def shortfall (size : Nat) (got : List Byte) : Option ReadError :=
  if got.length ≥ size then none
  else if got.isEmpty then some .eof
  else some .unexpectedEOF

variable [Octet Byte]

def readMessage (r : Reader Byte) : Except ReadError (List Byte) × Reader Byte :=
  let (header, r) := fill headerSize r
  match shortfall headerSize header with
  | some error => (.error error, r)
  | none =>
    if payloadLen header > maxMessageSize then (.error .messageTooLarge, r)
    else
      let (payload, r) := fill (payloadLen header) r
      match shortfall (payloadLen header) payload with
      | some error => (.error error, r)
      | none => (.ok (header ++ payload), r)

def copyAt (offset : Nat) (bytes buf : List Byte) : List Byte :=
  buf.take offset ++ bytes ++ buf.drop (offset + bytes.length)

/-- `buf` is the backing array of the slice, which is as long as its capacity. A failed call
leaves the caller with the array it gave. -/
def readMessageInto (state : Reader Byte × List Byte) :
    Except ReadError (List Byte) × Reader Byte × List Byte :=
  let (r, buf) := state
  let (header, r) := fill headerSize r
  match shortfall headerSize header with
  | some error => (.error error, r, buf)
  | none =>
    if payloadLen header > maxMessageSize then (.error .messageTooLarge, r, buf)
    else
      let total := headerSize + payloadLen header
      let store := copyAt 0 header
        (if buf.length < total then List.replicate total (lit 0) else buf)
      let (payload, r) := fill (payloadLen header) r
      let filled := copyAt headerSize payload store
      match shortfall (payloadLen header) payload with
      | some error => (.error error, r, if buf.length < total then buf else filled)
      | none => (.ok (filled.take total), r, filled)

/-- The loop: the messages that are read, the error it stops with, and what it leaves. -/
def messages {σ : Type} (read : σ → Except ReadError (List Byte) × σ) :
    Nat → σ → Option (List (List Byte) × ReadError × σ)
  | 0, _ => none
  | fuel + 1, s =>
    match read s with
    | (.error error, s) => some ([], error, s)
    | (.ok msg, s) => (messages read fuel s).map fun rest => (msg :: rest.1, rest.2)

section Reads
variable {r r' : Reader Byte} {buf msg : List Byte} {size : Nat}

omit [Octet Byte] in
/-- How the stream is cut does not matter. -/
theorem fill_flatten (size : Nat) (r : Reader Byte) :
    (fill size r).1 = r.flatten.take size ∧ (fill size r).2.flatten = r.flatten.drop size := by
  induction r generalizing size with
  | nil => simp [fill]
  | cons chunk rest ih =>
    rw [fill]
    split
    · rename_i none
      simp [none]
    split
    · rename_i inside
      simp [List.take_append_of_le_length inside.le, List.drop_append_of_le_length inside.le]
    · rename_i whole
      have upTo : chunk.length ≤ size := not_lt.mp whole
      obtain ⟨more, left⟩ := ih (size - chunk.length)
      simp [more, left, List.take_append, List.drop_append, List.take_of_length_le upTo,
        List.drop_of_length_le upTo]

omit [Octet Byte] in
theorem shortfall_fill (full : shortfall size (fill size r).1 = none) :
    (fill size r).1.length = size ∧ size ≤ r.flatten.length := by
  have length : (fill size r).1.length = min size r.flatten.length := by
    rw [(fill_flatten size r).1, List.length_take]
  unfold shortfall at full
  split at full
  · omega
  · split at full <;> cases full

theorem readMessage_cut (same : r.flatten = r'.flatten) : (readMessage r).1 = (readMessage r').1 ∧
      (readMessage r).2.flatten = (readMessage r').2.flatten := by
  have filled {r r' : Reader Byte} (size : Nat) (same : r.flatten = r'.flatten) :
      (fill size r).1 = (fill size r').1 ∧ (fill size r).2.flatten = (fill size r').2.flatten := by
    rw [(fill_flatten size r).1, (fill_flatten size r).2, same]
    exact ⟨(fill_flatten size r').1.symm, (fill_flatten size r').2.symm⟩
  obtain ⟨header, behind⟩ := filled headerSize same
  obtain ⟨payload, left⟩ := filled (payloadLen (fill headerSize r').1) behind
  unfold readMessage
  dsimp only
  rw [header]
  split
  · exact ⟨rfl, behind⟩
  split
  · exact ⟨rfl, behind⟩
  rw [payload]
  split <;> exact ⟨rfl, left⟩

theorem readMessage_consumes (read : (readMessage r).1 = .ok msg) :
    (readMessage r).2.flatten.length < r.flatten.length := by
  unfold readMessage at read ⊢
  dsimp only at read ⊢
  split at read
  · cases read
  rename_i enough
  have header : headerSize ≤ r.flatten.length := (shortfall_fill enough).2
  have behind := congrArg List.length (fill_flatten headerSize r).2
  rw [List.length_drop] at behind
  have positive : 0 < headerSize := by decide
  split at read
  · cases read
  rename_i small
  have left := congrArg List.length
    (fill_flatten (payloadLen (fill headerSize r).1) (fill headerSize r).2).2
  rw [List.length_drop] at left
  rw [if_neg small]
  split <;> dsimp only <;> omega

/-- One call with a buffer is one call without. -/
theorem readMessageInto_eq (r : Reader Byte) (buf : List Byte) :
    ∃ buf', readMessageInto (r, buf) = ((readMessage r).1, (readMessage r).2, buf') := by
  unfold readMessageInto readMessage
  dsimp only
  split
  · exact ⟨_, rfl⟩
  rename_i enough
  split
  · exact ⟨_, rfl⟩
  split
  · exact ⟨_, rfl⟩
  rename_i full
  refine ⟨_, Prod.ext (congrArg Except.ok ?_) rfl⟩
  -- the header and the payload cover the slice, whatever the array held
  have width := (shortfall_fill enough).1
  have whole := (shortfall_fill full).1
  simp only [copyAt, List.take_zero, List.nil_append, Nat.zero_add]
  rw [List.take_left' width, List.take_left' (by rw [List.length_append, width, whole])]

theorem messages_alike (fuel : Nat) (buf : List Byte) (same : r.flatten = r'.flatten) :
    (messages readMessageInto fuel (r, buf)).map (fun o => (o.1, o.2.1, o.2.2.1.flatten)) =
      (messages readMessage fuel r').map fun o => (o.1, o.2.1, o.2.2.flatten) := by
  induction fuel generalizing r r' buf with
  | zero => rfl
  | succ fuel ih =>
    obtain ⟨buf', into⟩ := readMessageInto_eq r buf
    obtain ⟨outcome, left⟩ := readMessage_cut same
    rcases read : readMessage r' with ⟨error | msg, after⟩ <;> rw [read] at outcome left <;>
      rw [messages, messages, into, outcome, read]
    · exact congrArg (fun rest => some ([], error, rest)) left
    · have rest := congrArg (Option.map fun o => (msg :: o.1, o.2)) (ih buf' left)
      simpa only [Option.map_map, Function.comp_def] using rest

theorem messages_stop {fuel : Nat} (enough : r.flatten.length < fuel) :
    ∃ msgs error left, messages readMessage fuel r = some (msgs, error, left) := by
  induction fuel generalizing r with
  | zero => cases enough
  | succ fuel ih =>
    rw [messages]
    rcases read : readMessage r with ⟨error | msg, after⟩
    · exact ⟨[], error, after, rfl⟩
    · have shorter := readMessage_consumes (congrArg Prod.fst read)
      rw [read] at shorter
      have fewer : after.flatten.length < fuel := shorter.trans_le (Nat.le_of_lt_succ enough)
      obtain ⟨msgs, error, left, rest⟩ := ih fewer
      exact ⟨msg :: msgs, error, left, congrArg (Option.map _) rest⟩

theorem readMessage_frame {rest : List Byte} (exact : Exact msg)
    (small : payloadLen msg ≤ maxMessageSize) (whole : r.flatten = msg ++ rest) :
    (readMessage r).1 = .ok msg ∧ (readMessage r).2.flatten = rest := by
  obtain ⟨enough, size⟩ := exact
  obtain ⟨header, behind⟩ := fill_flatten headerSize r
  rw [whole, List.take_append_of_le_length enough] at header
  rw [whole, List.drop_append_of_le_length enough] at behind
  have body : (msg.drop headerSize).length = payloadLen msg := by
    rw [List.length_drop]
    omega
  obtain ⟨payload, left⟩ := fill_flatten (payloadLen msg) (fill headerSize r).2
  rw [behind, List.take_left' body] at payload
  rw [behind, List.drop_left' body] at left
  have width : headerSize ≤ (msg.take headerSize).length := by
    rw [List.length_take]
    omega
  unfold readMessage
  dsimp only
  rw [header, payloadLen_take, payload, shortfall, if_pos width]
  dsimp only
  rw [if_neg (not_lt.mpr small), shortfall, if_pos body.ge]
  exact ⟨congrArg Except.ok (List.take_append_drop _ _), left⟩

/-- The encoded messages of a stream are read one by one, and then the stream ends. -/
theorem messages_frames {fuel : Nat} {sent : List (UInt8 × List Byte)}
    (small : ∀ m ∈ sent, m.2.length ≤ maxMessageSize)
    (whole : r.flatten = (sent.map fun m => frame m.1 m.2).flatten)
    (enough : r.flatten.length < fuel) : ∃ left, left.flatten = [] ∧
      messages readMessage fuel r = some (sent.map fun m => frame m.1 m.2, .eof, left) := by
  obtain ⟨fuel, rfl⟩ := Nat.exists_eq_succ_of_ne_zero (Nat.ne_zero_of_lt enough)
  induction sent generalizing r fuel with
  | nil =>
    obtain ⟨header, behind⟩ := fill_flatten headerSize r
    rw [whole] at header behind
    have ended : readMessage r = (.error .eof, (fill headerSize r).2) := by
      unfold readMessage
      dsimp only
      rw [header]
      rfl
    exact ⟨_, behind, by rw [messages, ended]; rfl⟩
  | cons m rest ih =>
    obtain ⟨here, later⟩ := List.forall_mem_cons.mp small
    have fits : m.2.length < 256 ^ 4 := here.trans_lt (by decide)
    obtain ⟨read, left⟩ := readMessage_frame (frame_exact fits)
      ((frame_payloadLen fits).trans_le here) whole
    have shorter := readMessage_consumes read
    obtain ⟨fuel, rfl⟩ : ∃ k, fuel = k + 1 := Nat.exists_eq_succ_of_ne_zero (by omega)
    obtain ⟨done, empty, stopped⟩ := ih later left fuel (by omega)
    refine ⟨done, empty, ?_⟩
    rw [messages, ← Prod.eta (readMessage r), read]
    exact congrArg (Option.map _) stopped

end Reads

/-- A loop that reuses its buffer and a loop with fresh ones, each over its own cut of one
stream: both read the same messages, stop with the same error and leave the same bytes, and a
stream of encoded messages is read as those. What the buffer held does not matter. -/
theorem reused_buffer_reads_alike (r r' : Reader Byte) (buf : List Byte)
    (same : r.flatten = r'.flatten) :
    ∃ msgs error left left' buf',
      messages readMessageInto (r.flatten.length + 1) (r, buf) = some (msgs, error, left, buf') ∧
      messages readMessage (r.flatten.length + 1) r' = some (msgs, error, left') ∧
      left.flatten = left'.flatten ∧
      ∀ sent : List (UInt8 × List Byte), (∀ m ∈ sent, m.2.length ≤ maxMessageSize) →
        r.flatten = (sent.map fun m => frame m.1 m.2).flatten →
        msgs = sent.map (fun m => frame m.1 m.2) ∧ error = .eof ∧ left.flatten = [] := by
  have enough : r'.flatten.length < r.flatten.length + 1 := by
    rw [same]
    omega
  obtain ⟨msgs, error, left', fresh⟩ := messages_stop enough
  have alike := messages_alike (r.flatten.length + 1) buf same
  rw [fresh] at alike
  obtain ⟨⟨_, _, left, buf'⟩, into, read⟩ := Option.map_eq_some_iff.mp alike
  obtain ⟨rfl, rfl, remains⟩ : _ = msgs ∧ _ = error ∧ left.flatten = left'.flatten := by
    simpa using read
  refine ⟨_, _, left, left', buf', into, fresh, remains, fun sent small whole => ?_⟩
  obtain ⟨done, empty, stopped⟩ := messages_frames small (same.symm.trans whole) enough
  obtain ⟨rfl, rfl, rfl⟩ : _ = _ ∧ _ = _ ∧ _ = _ := by simpa using fresh.symm.trans stopped
  exact ⟨rfl, rfl, remains.trans empty⟩

theorem reused_buffer_reads_short : ∃ msgs error left left' buf',
      messages readMessageInto 13 ([[1, 0], [0, 0, 1, 7, 2, 0, 0, 0], [1, 8]], [(9 : UInt8)]) =
        some (msgs, error, left, buf') ∧
      messages readMessage 13 [[1, 0, 0, 0, 1, 7], [2, 0, 0, 0, 1, (8 : UInt8)]] =
        some (msgs, error, left') := by
  obtain ⟨msgs, error, left, left', buf', into, fresh, -⟩ := reused_buffer_reads_alike
    [[1, 0], [0, 0, 1, 7, 2, 0, 0, 0], [1, 8]] [[1, 0, 0, 0, 1, 7], [2, 0, 0, 0, 1, (8 : UInt8)]]
    [9]
    rfl
  exact ⟨msgs, error, left, left', buf', into, fresh⟩

end QuantumGo.StreamFraming
