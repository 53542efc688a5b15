import QuantumGo.ClosedDatagram

/-!
How SendBatch (pkg/tunnel/dgram_conn.go) puts a batch on the wire, with what it counts.
Every payload is sealed into one buffer; a walk over the ends of the frames offers each run
of equal frames to writeGSO, and writes the first frame of a refused run on its own. The
socket answers by the frame it is asked at, since no frame is offered or written twice. The
rekey that a send may start runs beside it and is left out.
-/

namespace QuantumGo.SendBatch

open Octets Effect Symbolic Wire Aead Tunnel DatagramSession
open SymbolicKem (env)
open DatagramConn (Conn ConnProg sealFrame sealFrames datagramMaxDataPayload)
open ClosedDatagram (Spent drawn sealFrame_ready sealFrame_spent)

def maxGSOSegments : Nat := 64
def maxGSOBytes : Nat := 65507

/-! Cutting a segmented send: splitSegments of dgram_batch_linux.go. -/
section Splitting
variable {Byte : Type}

def splitLoop (data : List Byte) (segSize : Nat) : Nat → Nat → List (List Byte)
  | 0, _ => []
  | fuel + 1, off =>
    if off < data.length then
      slice data off (min (off + segSize) data.length) ::
        splitLoop data segSize fuel (off + segSize)
    else []

def splitSegments (data : List Byte) (segSize : Nat) : List (List Byte) :=
  if segSize = 0 ∨ data.length ≤ segSize then [data] else splitLoop data segSize data.length 0

variable {data : List Byte} {segSize : Nat} {run : List (List Byte)}

/-- Frames of one size, the last of which may be shorter, are cut where they were joined. -/
theorem splitLoop_run (whole : ∀ frame ∈ run.dropLast, frame.length = segSize)
    (short : ∀ frame ∈ run, frame.length ≤ segSize) (filled : ∀ frame ∈ run, frame ≠ [])
    {fuel off : Nat} (here : data.drop off = run.flatten) (enough : data.length - off ≤ fuel) :
    splitLoop data segSize fuel off = run := by
  induction run generalizing fuel off with
  | nil =>
    have past : data.length ≤ off := List.drop_eq_nil_iff.mp here
    cases fuel with
    | zero => rfl
    | succ fuel => rw [splitLoop, if_neg (by omega)]
  | cons frame rest ih =>
    obtain ⟨fits, short⟩ := List.forall_mem_cons.mp short
    obtain ⟨some, filled⟩ := List.forall_mem_cons.mp filled
    rw [List.flatten_cons] at here
    have size := length_at some here
    have positive : 0 < frame.length := List.length_pos_iff.mpr some
    -- only a frame with others behind it is known to be whole
    obtain ⟨stop, next, whole⟩ : min (off + segSize) data.length = off + frame.length ∧
        data.drop (off + segSize) = rest.flatten ∧
        ∀ frame ∈ rest.dropLast, frame.length = segSize := by
      cases rest with
      | nil =>
        rw [List.flatten_nil, List.length_nil] at size
        exact ⟨by omega, List.drop_eq_nil_of_le (by omega), by simp⟩
      | cons other rest =>
        obtain ⟨full, whole⟩ := List.forall_mem_cons.mp whole
        exact ⟨by omega, drop_at here full, whole⟩
    obtain ⟨fuel, rfl⟩ := Nat.exists_eq_succ_of_ne_zero (show fuel ≠ 0 by omega)
    rw [splitLoop, if_pos (by omega), stop, slice_at here rfl,
      ih whole short filled next (by omega)]

theorem splitSegments_run (some : run ≠ []) (whole : ∀ frame ∈ run.dropLast, frame.length = segSize)
    (short : ∀ frame ∈ run, frame.length ≤ segSize) (filled : ∀ frame ∈ run, frame ≠ []) :
    splitSegments run.flatten segSize = run := by
  rw [splitSegments]
  split
  case isFalse => exact splitLoop_run whole short filled rfl (Nat.sub_le ..)
  case isTrue single =>
    obtain ⟨frame, rest, rfl⟩ := List.exists_cons_of_ne_nil some
    cases rest with
    | nil => simp
    | cons other rest =>
      have full := whole frame (by simp)
      have first := List.length_pos_iff.mpr (filled frame (by simp))
      have second := List.length_pos_iff.mpr (filled other (by simp))
      simp at single
      omega

end Splitting

/-! The sending end of a connection and its socket. -/

inductive Call (Byte : Type) where
  | segmented (run : List Byte) (segSize : Nat) (taken : Bool)
  | plain (frame : List Byte) (answer : Except QError Unit)

def Call.datagrams {Byte : Type} : Call Byte → List (List Byte)
  | .segmented run segSize taken => if taken then splitSegments run segSize else []
  | .plain frame answer => if answer.isOk then [frame] else []

def Call.Bounded {Byte : Type} : Call Byte → Prop
  | .segmented run segSize _ =>
      (splitSegments run segSize).length ≤ maxGSOSegments ∧ run.length ≤ maxGSOBytes
  | .plain _ _ => True

/-- `calls` logs what the socket was asked, which `conn.written` follows. -/
structure Sender (Byte Addr : Type) where
  conn : Conn Byte Addr
  bytesSent : Nat
  packetsSent : Nat
  calls : List (Call Byte)

structure Socket where
  gso : Nat → Bool
  answer : Nat → Except QError Unit

abbrev SenderProg (Byte Addr α : Type) := Prog (Sender Byte Addr) Fault α

variable {Byte Addr : Type}

def Sender.put (c : Sender Byte Addr) (calls : List (Call Byte)) : Sender Byte Addr :=
  { c with
    calls := c.calls ++ calls
    conn := { c.conn with
      written := c.conn.written ++ (calls.flatMap Call.datagrams).map (c.conn.peerAddr, ·) } }

def onConn {α : Type} (method : ConnProg Byte Addr α) : SenderProg Byte Addr α := fun c =>
  match method c.conn with
  | (outcome, conn) => (outcome, { c with conn })

def count (bytes packets : Nat) : SenderProg Byte Addr Unit :=
  write fun c => { c with bytesSent := c.bytesSent + bytes, packetsSent := c.packetsSent + packets }

def writeGSO (taken : Bool) (run : List Byte) (segSize : Nat) : SenderProg Byte Addr Bool := do
  write (·.put [.segmented run segSize taken])
  return taken

def writeTo (answer : Except QError Unit) (frame : List Byte) : SenderProg Byte Addr Unit := do
  write (·.put [.plain frame answer])
  liftErr answer

variable (crypto : Crypto Byte) (socket : Socket)

def sealBatch [Octet Byte] (crypto : Crypto Byte) : List (List Byte) → List Byte → List Nat →
    ConnProg Byte Addr (List Byte × List Nat)
  | [], buf, ends => pure (buf, ends)
  | p :: rest, buf, ends => do
    let frame ← sealFrame crypto datagramFrameData p
    sealBatch crypto rest (buf ++ frame) (ends ++ [(buf ++ frame).length])

/-- The inner loop: how far the run goes and how many frames it has. -/
def scan (ends : List Nat) (start segSize : Nat) : Nat → Nat → Nat → Nat → Nat × Nat
  | 0, _, runEnd, n => (runEnd, n)
  | fuel + 1, j, runEnd, n =>
    if j < ends.length ∧ n < maxGSOSegments then
      let size := ends.getD j 0 - ends.getD (j - 1) 0
      if size > segSize ∨ runEnd + size - start > maxGSOBytes then (runEnd, n)
      else if size < segSize then (ends.getD j 0, n + 1)
      else scan ends start segSize fuel (j + 1) (ends.getD j 0) (n + 1)
    else (runEnd, n)

def runAt (ends : List Nat) (i start : Nat) : Nat × Nat :=
  scan ends start (ends.getD i 0 - start) ends.length (i + 1) (ends.getD i 0) 1

/-- The outer loop. Every turn takes at least one frame, so as many turns as there are
frames are enough. -/
def walk (socket : Socket) (buf : List Byte) (ends : List Nat) :
    Nat → Nat → Nat → SenderProg Byte Addr Unit
  | 0, _, _ => pure ()
  | fuel + 1, i, start =>
    if i < ends.length then do
      let (runEnd, n) := runAt ends i start
      let sent ← if n > 1 then
          writeGSO (socket.gso i) (slice buf start runEnd) (ends.getD i 0 - start)
        else pure false
      if sent then walk socket buf ends fuel (i + n) runEnd
      else do
        writeTo (socket.answer i) (slice buf start (ends.getD i 0))
        walk socket buf ends fuel (i + 1) (ends.getD i 0)
    else pure ()

def sendBatch [Octet Byte] (payloads : List (List Byte)) : SenderProg Byte Addr Unit :=
  if payloads.length = 0 then pure () else do
    reject (∃ p ∈ payloads, p.length > datagramMaxDataPayload) (.err .messageTooLarge)
    let (buf, ends) ← onConn (sealBatch crypto payloads [] [])
    walk socket buf ends ends.length 0 0
    count (payloads.map List.length).sum payloads.length

/-! What the buffer holds, and where its frames end. -/

def span (frames : List (List Byte)) : Nat := frames.flatten.length

@[simp] theorem span_append (first second : List (List Byte)) :
    span (first ++ second) = span first + span second := by
  simp [span]

@[simp] theorem span_singleton (frame : List Byte) : span [frame] = frame.length := by
  simp [span]

structure Marks (frames : List (List Byte)) (buf : List Byte) (ends : List Nat) : Prop where
  whole : buf = frames.flatten
  count : ends.length = frames.length
  place : ∀ k < frames.length, ends[k]? = some (span (frames.take (k + 1)))
  filled : ∀ frame ∈ frames, frame ≠ []

variable {crypto socket} {frames done run left : List (List Byte)} {frame : List Byte}
  {buf : List Byte} {ends : List Nat} {segSize : Nat}

theorem Marks.push (marks : Marks frames buf ends) (some : frame ≠ []) :
    Marks (frames ++ [frame]) (buf ++ frame) (ends ++ [(buf ++ frame).length]) := by
  constructor
  case whole => simp [marks.whole]
  case count => simp [marks.count]
  case filled =>
    exact List.forall_mem_append.mpr ⟨marks.filled, List.forall_mem_singleton.mpr some⟩
  case place =>
    intro k inside
    rcases Nat.lt_succ_iff_lt_or_eq.mp (by simpa using inside) with old | rfl
    · rw [List.getElem?_append_left (marks.count ▸ old), marks.place k old,
        List.take_append_of_le_length (by omega)]
    · rw [← marks.count, List.getElem?_concat_length,
        List.take_of_length_le (by simp [marks.count])]
      simp [marks.whole, span]

theorem Marks.end_at (marks : Marks frames buf ends) (run : List (List Byte))
    (here : frames = done ++ (run ++ left)) {k : Nat} (last : k + 1 = done.length + run.length) :
    ends.getD k 0 = span done + span run := by
  have taken : frames.take (k + 1) = done ++ run := by
    rw [here, ← List.append_assoc]
    exact List.take_left' (by simp [last])
  have inside : k < frames.length := by
    simp only [here, List.length_append]
    omega
  rw [List.getD_eq_getElem?_getD, marks.place k inside, taken, Option.getD_some, span_append]

theorem Marks.slice_at (marks : Marks frames buf ends) (run : List (List Byte))
    (here : frames = done ++ (run ++ left)) :
    slice buf (span done) (span done + span run) = run.flatten := by
  have rest : buf.drop (span done) = run.flatten ++ left.flatten := by
    rw [marks.whole, here, span, List.flatten_append, List.flatten_append, List.drop_left]
  exact Octets.slice_at rest rfl

theorem sealFrame_filled [Octet Byte] {frameType : UInt8} {p frame : List Byte}
    {c c' : Conn Byte Addr}
    (sealed : sealFrame crypto frameType p c = (.ok frame, c')) : frame ≠ [] := by
  intro none
  obtain ⟨seq, c₁, -, sealed⟩ := bind_ok_iff.mp sealed
  obtain ⟨epoch, c₂, -, sealed⟩ := bind_ok_iff.mp sealed
  rw [read_bind] at sealed
  obtain ⟨outcome, -⟩ := Prod.mk.inj sealed
  obtain ⟨ciphertext, s, -, last⟩ := bind_ok_iff.mp (Prod.ext outcome rfl)
  obtain ⟨⟨⟩, -⟩ := Prod.mk.inj last
  have size := congrArg List.length none
  simp [datagramHeaderSize] at size

/-- A batch is sealed as its payloads would be one by one, or fails at the first that finds
no number. -/
theorem sealBatch_cases [Octet Byte] (crypto : Crypto Byte) (payloads : List (List Byte))
    (c : Conn Byte Addr) (marks : Marks frames buf ends) :
    (∃ more buf' ends', (∀ j < payloads.length, ¬ Spent (drawn^[j] c)) ∧
      sealFrames crypto payloads c = (.ok more, drawn^[payloads.length] c) ∧
      sealBatch crypto payloads buf ends c = (.ok (buf', ends'), drawn^[payloads.length] c) ∧
      Marks (frames ++ more) buf' ends') ∨
    ∃ k stop, k < payloads.length ∧ Spent (drawn^[k] c) ∧ (∀ j < k, ¬ Spent (drawn^[j] c)) ∧
      sealBatch crypto payloads buf ends c = (.error stop, drawn^[k + 1] c) := by
  induction payloads generalizing frames buf ends c with
  | nil => exact .inl ⟨[], buf, ends, by simp, rfl, rfl, by rwa [List.append_nil]⟩
  | cons p rest ih =>
    by_cases spent : Spent c
    · obtain ⟨stop, first⟩ := sealFrame_spent crypto datagramFrameData p spent
      exact .inr ⟨0, stop, by simp, spent, by simp, run_bind_error first⟩
    obtain ⟨frame, first⟩ := sealFrame_ready crypto datagramFrameData p spent
    rcases ih (drawn c) (marks.push (sealFrame_filled first)) with
      ⟨more, buf', ends', before, one, batch, marks'⟩ | ⟨k, stop, inside, last, before, batch⟩
    · refine .inl ⟨frame :: more, buf', ends', Nat.forall_lt_succ_left.mpr ⟨spent, before⟩, ?_,
        (run_bind_ok first).trans batch, ?_⟩
      · rw [sealFrames, run_bind_ok first, run_bind_ok one]
        rfl
      · rwa [List.append_assoc] at marks'
    · exact .inr ⟨k + 1, stop, by simpa using inside, last,
        Nat.forall_lt_succ_left.mpr ⟨spent, before⟩, (run_bind_ok first).trans batch⟩

/-- Frames that can share a segmented send. -/
structure Group (segSize : Nat) (run : List (List Byte)) : Prop where
  some : run ≠ []
  whole : ∀ frame ∈ run.dropLast, frame.length = segSize
  short : ∀ frame ∈ run, frame.length ≤ segSize
  few : run.length ≤ maxGSOSegments
  small : run.length ≤ 1 ∨ span run ≤ maxGSOBytes

theorem scan_group (marks : Marks frames buf ends) (fuel : Nat)
    (here : frames = done ++ (run ++ left)) (group : Group segSize run)
    (whole : ∀ frame ∈ run, frame.length = segSize) :
    ∃ run' left', run ++ left = run' ++ left' ∧ Group segSize run' ∧
      scan ends (span done) segSize fuel (done.length + run.length) (span done + span run)
        run.length = (span done + span run', run'.length) := by
  induction fuel generalizing run left with
  | zero => exact ⟨run, left, rfl, group, rfl⟩
  | succ fuel ih =>
    by_cases going : done.length + run.length < ends.length ∧ run.length < maxGSOSegments
    case neg => exact ⟨run, left, rfl, group, by rw [scan, if_neg going]⟩
    have some : 0 < run.length := List.length_pos_iff.mpr group.some
    cases left with
    | nil => simp [marks.count, here] at going
    | cons next left =>
      have joins : run ++ next :: left = run ++ [next] ++ left := by simp
      have before := marks.end_at (k := done.length + run.length - 1) run here (by omega)
      have after := marks.end_at (k := done.length + run.length) (run ++ [next]) (joins ▸ here)
        (by simp; omega)
      rw [span_append, span_singleton] at after
      rw [scan, if_pos going]
      simp only [before, after, show span done + (span run + next.length) - (span done + span run) =
        next.length by omega]
      by_cases ends : next.length > segSize ∨
          span done + span run + next.length - span done > maxGSOBytes
      case pos => exact ⟨run, next :: left, rfl, group, if_pos ends⟩
      obtain ⟨fits, room⟩ := not_or.mp ends
      have joined : Group segSize (run ++ [next]) := by
        constructor
        case some => simp
        case whole => rwa [List.dropLast_concat]
        case short =>
          exact List.forall_mem_append.mpr
            ⟨group.short, List.forall_mem_singleton.mpr (Nat.le_of_not_lt fits)⟩
        case few => exact List.length_append ▸ going.2
        case small =>
          rw [span_append, span_singleton]
          omega
      rw [if_neg ends]
      by_cases short : next.length < segSize
      · exact ⟨run ++ [next], left, joins, joined, by rw [if_pos short]; simp⟩
      · obtain ⟨run', left', split, group', found⟩ := ih (joins ▸ here) joined
          (List.forall_mem_append.mpr ⟨whole, List.forall_mem_singleton.mpr (by omega)⟩)
        refine ⟨run', left', joins.trans split, group', ?_⟩
        rw [if_neg short, ← found]
        simp [Nat.add_assoc]

/-- The scan from the first frame of what is left. -/
theorem runAt_group (marks : Marks frames buf ends) (here : frames = done ++ frame :: left) :
    ∃ run left', frame :: left = run ++ left' ∧ Group frame.length run ∧
      runAt ends done.length (span done) = (span done + span run, run.length) := by
  have alone : Group frame.length [frame] :=
    ⟨by simp, by simp, by simp, by simp [maxGSOSegments], .inl le_rfl⟩
  have scanned := scan_group marks ends.length here alone (by simp)
  rwa [runAt, marks.end_at [frame] here rfl, Nat.add_sub_cancel_left, span_singleton] at *

/-! What the walk asks of the socket. -/

theorem Sender.put_put (c : Sender Byte Addr) (first second : List (Call Byte)) :
    (c.put first).put second = c.put (first ++ second) := by
  simp [Sender.put]

theorem Sender.put_nil (c : Sender Byte Addr) : c.put [] = c := by
  simp [Sender.put]

/-- The walk from frame `i`, at offset `start`, comes to frame `k` and its plain write fails. -/
inductive Stops (socket : Socket) (ends : List Nat) : Nat → Nat → Nat → Prop
  | refused {i start : Nat} {error : QError} (inside : i < ends.length)
      (alone : ¬ ((runAt ends i start).2 > 1 ∧ socket.gso i = true))
      (refused : socket.answer i = .error error) : Stops socket ends i start i
  | segmented {i start k : Nat} (inside : i < ends.length)
      (taken : (runAt ends i start).2 > 1 ∧ socket.gso i = true)
      (later : Stops socket ends (i + (runAt ends i start).2) (runAt ends i start).1 k) :
      Stops socket ends i start k
  | plain {i start k : Nat} (inside : i < ends.length)
      (alone : ¬ ((runAt ends i start).2 > 1 ∧ socket.gso i = true))
      (accepted : socket.answer i = .ok ()) (later : Stops socket ends (i + 1) (ends.getD i 0) k) :
      Stops socket ends i start k

theorem Stops.unique {i start k k' : Nat} (first : Stops socket ends i start k)
    (second : Stops socket ends i start k') : k = k' := by
  induction first with
  | refused _ alone refused =>
    cases second with
    | refused => rfl
    | segmented _ taken => exact absurd taken alone
    | plain _ _ accepted => cases refused.symm.trans accepted
  | segmented _ taken _ ih =>
    cases second with
    | segmented _ _ later => exact ih later
    | _ => contradiction
  | plain _ alone accepted _ ih =>
    cases second with
    | refused _ _ refused => cases refused.symm.trans accepted
    | segmented _ taken => exact absurd taken alone
    | plain _ _ _ later => exact ih later

/-- A walk over the frames of `left`, behind those of `done`, sends them all or stops at one. -/
def Walks (socket : Socket) (ends : List Nat) (done left : List (List Byte))
    (program : SenderProg Byte Addr Unit) : Prop :=
  ∀ c, ∃ calls, (∀ call ∈ calls, call.Bounded) ∧
    (program c = (.ok (), c.put calls) ∧ calls.flatMap Call.datagrams = left ∨
      ∃ stop k, program c = (.error stop, c.put calls) ∧
        Stops socket ends done.length (span done) (done.length + k) ∧
        calls.flatMap Call.datagrams = left.take k)

/-- One turn and the walk behind it. -/
theorem Walks.turn {call : Call Byte} {next : SenderProg Byte Addr Unit}
    {done' : List (List Byte)} (walks : Walks socket ends done' left next)
    (after : done' = done ++ run) (bounded : call.Bounded) (sent : call.datagrams = run)
    (goes : ∀ k, Stops socket ends (done.length + run.length) (span done + span run) k →
      Stops socket ends done.length (span done) k) :
    Walks socket ends done (run ++ left) fun c => next (c.put [call]) := by
  intro c
  subst after
  obtain ⟨calls, all, ⟨ran, whole⟩ | ⟨stop, k, ran, stops, part⟩⟩ := walks (c.put [call])
  all_goals
    refine ⟨call :: calls, List.forall_mem_cons.mpr ⟨bounded, all⟩, ?_⟩
    dsimp only
    rw [ran, c.put_put, List.flatMap_cons, sent]
  · exact .inl ⟨rfl, by rw [whole]⟩
  · refine .inr ⟨stop, run.length + k, rfl, goes _ ?_, by rw [part, List.take_length_add_append]⟩
    rwa [List.length_append, span_append, Nat.add_assoc] at stops

theorem plain_walks (marks : Marks frames buf ends) (here : frames = done ++ frame :: left)
    {next : SenderProg Byte Addr Unit}
    (alone : ¬ ((runAt ends done.length (span done)).2 > 1 ∧ socket.gso done.length = true))
    (later : Walks socket ends (done ++ [frame]) left next) :
    Walks socket ends done (frame :: left)
      (writeTo (socket.answer done.length) (slice buf (span done) (ends.getD done.length 0)) >>=
        fun _ => next) := by
  have inside : done.length < ends.length := by simp [marks.count, here]
  have stop := marks.end_at [frame] here rfl
  have cut := marks.slice_at [frame] here
  rw [List.flatten_singleton] at cut
  rw [stop, cut]
  cases answer : socket.answer done.length with
  | error error =>
    intro c
    refine ⟨[.plain frame (.error error)], List.forall_mem_singleton.mpr trivial, .inr ?_⟩
    exact ⟨.err error, 0, rfl, .refused inside alone answer, rfl⟩
  | ok =>
    have bounded : (Call.plain frame (.ok ())).Bounded := trivial
    refine later.turn rfl bounded rfl fun k stops => .plain inside alone answer ?_
    rwa [stop]

theorem walk_walks (marks : Marks frames buf ends) {fuel : Nat} (here : frames = done ++ left)
    (enough : left.length ≤ fuel) : Walks socket ends done left
      (walk socket buf ends fuel done.length (span done) : SenderProg Byte Addr Unit) := by
  induction fuel generalizing done left with
  | zero =>
    obtain rfl := List.length_eq_zero_iff.mp (Nat.le_zero.mp enough)
    exact fun c => ⟨[], by simp, .inl ⟨by rw [c.put_nil]; rfl, rfl⟩⟩
  | succ fuel ih =>
    cases left with
    | nil =>
      have past : ¬ done.length < ends.length := by simp [marks.count, here]
      exact fun c => ⟨[], by simp, .inl ⟨by rw [c.put_nil, walk, if_neg past]; rfl, rfl⟩⟩
    | cons frame left =>
      have inside : done.length < ends.length := by simp [marks.count, here]
      have stop := marks.end_at [frame] here rfl
      have later : Walks socket ends (done ++ [frame]) left
          (walk socket buf ends fuel (done.length + 1) (ends.getD done.length 0) :
            SenderProg Byte Addr Unit) := by
        rw [stop, ← span_append, ← List.length_singleton (a := frame), ← List.length_append]
        exact ih (by simp [here]) (by simpa using enough)
      obtain ⟨run, left', split, group, found⟩ := runAt_group marks here
      have ranks : frames = done ++ (run ++ left') := by rw [here, split]
      have filled : ∀ frame ∈ run, frame ≠ [] :=
        fun frame mem => marks.filled frame (by simp [ranks, mem])
      have pieces := splitSegments_run group.some group.whole group.short filled
      rw [walk, if_pos inside]
      simp only [found, marks.slice_at run ranks]
      by_cases more : run.length > 1
      case neg =>
        rw [if_neg more]
        exact plain_walks marks here (by rw [found]; exact fun both => more both.1) later
      have bounded (taken : Bool) : (Call.segmented run.flatten frame.length taken).Bounded :=
        ⟨by rw [pieces]; exact group.few, group.small.resolve_left (by omega)⟩
      have size : ends.getD done.length 0 - span done = frame.length := by
        rw [stop, Nat.add_sub_cancel_left, span_singleton]
      rw [if_pos more, size]
      cases taken : socket.gso done.length with
      | false =>
        have plain := plain_walks marks here (by simp [taken]) later
        exact plain.turn (List.append_nil done).symm (bounded false) rfl fun _ => id
      | true =>
        have fewer : left'.length ≤ fuel := by
          have := congrArg List.length split
          rw [List.length_append] at this
          omega
        have behind := ih (ranks.trans (List.append_assoc ..).symm) fewer
        rw [List.length_append, span_append] at behind
        rw [split]
        exact behind.turn rfl (bounded true) pieces fun k stops =>
          .segmented inside (by rw [found]; exact ⟨more, taken⟩) (by rwa [found])

/-! The whole call. -/

theorem empty_marks : Marks ([] : List (List Byte)) [] [] := ⟨rfl, rfl, by simp, by simp⟩

theorem drawn_keeps (used : Nat) (c : Conn Byte Addr) :
    (drawn^[used] c).peerAddr = c.peerAddr ∧ (drawn^[used] c).written = c.written := by
  induction used generalizing c with
  | zero => exact ⟨rfl, rfl⟩
  | succ used ih => exact ih (drawn c)

theorem put_written (used : Nat) (c : Sender Byte Addr) (calls : List (Call Byte)) :
    (Sender.put { c with conn := drawn^[used] c.conn } calls).conn.written =
      c.conn.written ++ (calls.flatMap Call.datagrams).map (c.conn.peerAddr, ·) := by
  simp [Sender.put, drawn_keeps]

variable [Octet Byte]

/-- Payload `k` is the one that fails: no number is left to seal it with, or the walk over the
sealed frames comes to a write that fails. -/
inductive FailsAt (crypto : Crypto Byte) (socket : Socket) (payloads : List (List Byte))
    (c : Conn Byte Addr) : Nat → Prop
  | sealing {k : Nat} (inside : k < payloads.length) (spent : Spent (drawn^[k] c))
      (ready : ∀ j < k, ¬ Spent (drawn^[j] c)) : FailsAt crypto socket payloads c k
  | writing {k : Nat} {buf : List Byte} {ends : List Nat} {c' : Conn Byte Addr}
      (sealed : sealBatch crypto payloads [] [] c = (.ok (buf, ends), c'))
      (stops : Stops socket ends 0 0 k) : FailsAt crypto socket payloads c k

theorem FailsAt.unique {payloads : List (List Byte)} {c : Conn Byte Addr} {k k' : Nat}
    (first : FailsAt crypto socket payloads c k) (second : FailsAt crypto socket payloads c k') :
    k = k' := by
  have sealable {buf ends c'} (sealed : sealBatch crypto payloads [] [] c = (.ok (buf, ends), c')) :
      ∀ j < payloads.length, ¬ Spent (drawn^[j] c) := by
    rcases sealBatch_cases crypto payloads c empty_marks with
      ⟨_, _, _, ready, -⟩ | ⟨_, _, -, -, -, stopped⟩
    · exact ready
    · cases (Prod.mk.inj (sealed.symm.trans stopped)).1
  cases first with
  | sealing inside spent ready =>
    cases second with
    | sealing _ spent' ready' =>
      exact le_antisymm (not_lt.mp fun later => ready _ later spent')
        (not_lt.mp fun later => ready' _ later spent)
    | writing sealed => exact absurd spent (sealable sealed _ inside)
  | writing sealed stops =>
    cases second with
    | sealing inside spent => exact absurd spent (sealable sealed _ inside)
    | writing sealed' stops' =>
      cases sealed.symm.trans sealed'
      exact stops.unique stops'

/-- Exactly `payloads` were sent and counted, in the frames that a Send of each would seal. -/
structure Sent (crypto : Crypto Byte) (payloads : List (List Byte)) (c c' : Sender Byte Addr) :
    Prop where
  wire : ∃ frames, (sealFrames crypto payloads c.conn).1 = .ok frames ∧
    c'.conn.written = c.conn.written ++ frames.map (c.conn.peerAddr, ·)
  bytes : c'.bytesSent = c.bytesSent + (payloads.map List.length).sum
  packets : c'.packetsSent = c.packetsSent + payloads.length

/-- How a call within the size limit ends. -/
theorem sendBatch_ends (crypto : Crypto Byte) (socket : Socket) {payloads : List (List Byte)}
    (c : Sender Byte Addr) (within : ∀ p ∈ payloads, p.length ≤ datagramMaxDataPayload) :
    ∃ used calls, (∀ call ∈ calls, call.Bounded) ∧
      let c' := Sender.put { c with conn := drawn^[used] c.conn } calls
      ((sealFrames crypto payloads c.conn).1 = .ok (calls.flatMap Call.datagrams) ∧
        sendBatch crypto socket payloads c =
          count (payloads.map List.length).sum payloads.length c' ∨
      ∃ stop k, ∃ frames : List (List Byte), FailsAt crypto socket payloads c.conn k ∧
        calls.flatMap Call.datagrams = frames.take k ∧
        sendBatch crypto socket payloads c = (.error stop, c')) := by
  by_cases none : payloads.length = 0
  · obtain rfl := List.length_eq_zero_iff.mp none
    exact ⟨0, [], by simp, .inl ⟨rfl, by simp [sendBatch, Sender.put, count]⟩⟩
  have fits : ¬ ∃ p ∈ payloads, p.length > datagramMaxDataPayload := by
    rintro ⟨p, mem, large⟩
    exact absurd (within p mem) (by omega)
  have sealed {outcome conn} (run : sealBatch crypto payloads [] [] c.conn = (outcome, conn)) :
      onConn (sealBatch crypto payloads [] []) c = (outcome, { c with conn }) := by
    rw [onConn, run]
  rw [sendBatch, if_neg none, run_bind_ok (run_reject_neg c fits)]
  rcases sealBatch_cases crypto payloads c.conn empty_marks with
    ⟨frames, buf, ends, -, one, batch, marks⟩ | ⟨k, stop, inside, spent, ready, batch⟩
  · obtain ⟨calls, bounded, ⟨ran, whole⟩ | ⟨stop, k, ran, stops, part⟩⟩ :=
      walk_walks marks rfl (le_of_eq marks.count.symm)
        { c with conn := drawn^[payloads.length] c.conn }
    all_goals
      refine ⟨payloads.length, calls, bounded, ?_⟩
      rw [run_bind_ok (sealed batch)]
    · exact .inl ⟨by rw [one, whole], run_bind_ok ran⟩
    · refine .inr ⟨stop, k, frames, .writing batch ?_, part, run_bind_error ran⟩
      rwa [List.length_nil, Nat.zero_add] at stops
  · refine ⟨k + 1, [], by simp, .inr ⟨stop, k, [], .sealing inside spent ready, by simp, ?_⟩⟩
    rw [run_bind_error (sealed batch), Sender.put_nil]

/-- Every frame goes out, once and in order, and no run is longer than the kernel takes. -/
theorem batch_sends_frames (crypto : Crypto Byte) (socket : Socket) (payloads : List (List Byte))
    (c : Sender Byte Addr) :
    (∃ calls, (sendBatch crypto socket payloads c).2.calls = c.calls ++ calls ∧
      ∀ call ∈ calls, call.Bounded) ∧
    ((sendBatch crypto socket payloads c).1 = .ok () → ∃ frames,
      (sealFrames crypto payloads c.conn).1 = .ok frames ∧
      (sendBatch crypto socket payloads c).2.conn.written =
        c.conn.written ++ frames.map (c.conn.peerAddr, ·)) := by
  by_cases within : ∀ p ∈ payloads, p.length ≤ datagramMaxDataPayload
  · obtain ⟨used, calls, bounded, ⟨frames, ran⟩ | ⟨stop, k, frames, -, -, ran⟩⟩ :=
      sendBatch_ends crypto socket c within
    · rw [ran]
      exact ⟨⟨calls, rfl, bounded⟩, fun _ => ⟨_, frames, put_written used c calls⟩⟩
    · rw [ran]
      exact ⟨⟨calls, rfl, bounded⟩, by rintro ⟨⟩⟩
  · simp only [not_forall, not_le] at within
    obtain ⟨p, mem, large⟩ := within
    have some : ¬ payloads.length = 0 := List.length_pos_of_mem mem |>.ne'
    rw [sendBatch, if_neg some, run_bind_error (run_reject_pos c ⟨p, mem, large⟩)]
    exact ⟨⟨[], by simp, by simp⟩, by rintro ⟨⟩⟩

/-- A batch that fails does so at one payload, and leaves those before it sent and counted only
where there are none. -/
theorem batch_error_prefix_iff (crypto : Crypto Byte) (socket : Socket)
    (payloads : List (List Byte)) (within : ∀ p ∈ payloads, p.length ≤ datagramMaxDataPayload)
    {c c' : Sender Byte Addr} {stop : Fault}
    (failed : sendBatch crypto socket payloads c = (.error stop, c')) :
    ∃ k, (∀ j, FailsAt crypto socket payloads c.conn j ↔ j = k) ∧
      (Sent crypto (payloads.take k) c c' ↔ k = 0) := by
  obtain ⟨used, calls, -, ⟨-, ran⟩ | ⟨stop', k, frames, fails, part, ran⟩⟩ :=
    sendBatch_ends crypto socket c within
  · rw [ran] at failed
    cases (Prod.mk.inj failed).1
  obtain ⟨-, rfl⟩ := Prod.mk.inj (ran.symm.trans failed)
  refine ⟨k, fun j => ⟨fun other => other.unique fails, by rintro rfl; exact fails⟩, ?_, ?_⟩
  · intro sent
    have packets : c.packetsSent = c.packetsSent + (payloads.take k).length := sent.packets
    rw [List.length_take] at packets
    have some : payloads.length ≠ 0 := by
      intro none
      rw [sendBatch, if_pos none] at ran
      cases (Prod.mk.inj ran).1
    omega
  · rintro rfl
    refine ⟨⟨[], rfl, ?_⟩, rfl, rfl⟩
    rw [put_written, part]
    rfl

def sender (session : Session Letter) : Sender Letter Unit where
  conn := ClosedDatagram.connected session
  bytesSent := 0
  packetsSent := 0
  calls := []

/-- The first write of three fails. -/
theorem batch_error_at_first : ∃ i s, newSession DatagramRekey.shortKem .initiator [] [] = .ok i ∧
      DatagramRekey.keyedWith i = (.ok (), s) ∧
      let refusing : Socket := ⟨fun _ => false, fun _ => .error .endOfStream⟩
      let payloads := [[lit 1], [lit 2, lit 3], []]
      let ran := sendBatch env.toCrypto refusing payloads (sender s)
      ran.1 = .error (.err .endOfStream) ∧
        ∃ k, (∀ j, FailsAt env.toCrypto refusing payloads (sender s).conn j ↔ j = k) ∧
          (Sent env.toCrypto (payloads.take k) (sender s) ran.2 ↔ k = 0) := by
  refine ⟨_, _, rfl, rfl, ?_⟩
  refine (and_iff_left_of_imp ?_).mpr ?_
  · -- The evaluated session is hidden, or unification would evaluate the batch once more.
    generalize sender _ = c
    intro failed
    exact batch_error_prefix_iff _ _ _ (by decide) (Prod.ext failed rfl)
  · decide +kernel

/-- The second write fails behind the first, which is not counted; and where the second
payload finds no number, the first is not sent, as a Send would have. -/
theorem batch_loses_prefix : ∃ i s, newSession DatagramRekey.shortKem .initiator [] [] = .ok i ∧
      DatagramRekey.keyedWith i = (.ok (), s) ∧
      let socket : Socket :=
        ⟨fun _ => false, fun k => if k = 0 then .ok () else .error .endOfStream⟩
      let batch := sendBatch env.toCrypto socket [[lit 1], [lit 2]]
      let spent : Session Letter := { s with sendSeq := maxPacketsBeforeRekey - 1 }
      let refused := batch (sender s)
      let unsealed := batch (sender spent)
      refused.1 = .error (.err .endOfStream) ∧ refused.2.conn.written.length = 1 ∧
        refused.2.packetsSent = 0 ∧ refused.2.bytesSent = 0 ∧
      unsealed.1 = .error (.err .nonceExhausted) ∧ unsealed.2.conn.written = [] ∧
        (DatagramConn.send env.toCrypto [lit 1]
          (ClosedDatagram.connected spent)).2.written.length = 1 := by
  refine ⟨_, _, rfl, rfl, ?_⟩
  decide +kernel

end QuantumGo.SendBatch
