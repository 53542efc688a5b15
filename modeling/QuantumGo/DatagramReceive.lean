import QuantumGo.Interleaving
import QuantumGo.ClosedDatagram
import QuantumGo.ReplayFilter

/-!
Any number of receive goroutines in routeDatagram at once, on one established session.
A run interleaves the steps of their calls with the calls of the application, the rekey
and the reaper. The window remembers exactly the numbers of the frames it accepted, and
a frame has an effect only once it was accepted.
-/

namespace QuantumGo.DatagramReceive

open Octets Symbolic Aead Tunnel Records DatagramSession DatagramSpecs
open DatagramConn SymbolicKem
open ClosedDatagram (Task stepTask stepTask_apart receiving)
open Interleaving (getElem?_added getElem?_replaced forall_added)
open ReplayFilter (Admits Represents)


variable {Byte Addr : Type} [Octet Byte] [DecidableEq Addr] (crypto : Crypto Byte)

structure Call (Byte Addr : Type) where
  src : Addr
  data : List Byte
  stage : Stage Byte

structure Frame (Byte Addr : Type) where
  call : Nat
  src : Addr
  data : List Byte
  plaintext : List Byte

def header (data : List Byte) : DatagramHeader :=
  match parseDatagramHeader data with
  | .ok (h, _) => h
  | .error _ => ⟨0, 0, 0, 0⟩

def Frame.seq (f : Frame Byte Addr) : Nat := (header f.data).seq

def Frame.sealed (f : Frame Byte Addr) : List Byte := f.data.drop datagramHeaderSize

/-- `accepted` are the frames that passed their Check, `delivered` those whose payload went
into the queue, `taken` is what Recv returned. -/
structure Receiver (Byte Addr : Type) where
  conn : Conn Byte Addr
  calls : List (Call Byte Addr)
  accepted : List (Frame Byte Addr)
  delivered : List (Frame Byte Addr)
  taken : List (List Byte)

inductive Event (Byte Addr : Type) where
  | arrive (src : Addr) (data : List Byte)
  | step (i : Nat) (now : Int)
  | recv
  | other (task : Task Byte Addr) (now : Int)
      (apart : ∀ src data stage, task ≠ .route src data stage)

def accepts (i : Nat) (call : Call Byte Addr) (next : Stage Byte) : List (Frame Byte Addr) :=
  match call.stage, next with
  | .opened _ plaintext, .accepted _ _ => [⟨i, call.src, call.data, plaintext⟩]
  | _, _ => []

def delivers (i : Nat) (call : Call Byte Addr) (c : Conn Byte Addr) : List (Frame Byte Addr) :=
  match call.stage with
  | .counted plaintext =>
    if c.recvCh.length < dataInboxCap then [⟨i, call.src, call.data, plaintext⟩] else []
  | _ => []

def perform (r : Receiver Byte Addr) :
    Event Byte Addr → Receiver Byte Addr
  | .arrive src data => { r with calls := r.calls ++ [⟨src, data, .arrived⟩] }
  | .step i now =>
    match r.calls[i]? with
    | none => r
    | some call =>
      let (stage, conn) := advance crypto now call.src call.data call.stage r.conn
      { r with
        conn, calls := r.calls.set i { call with stage }
        accepted := r.accepted ++ accepts i call stage
        delivered := r.delivered ++ delivers i call r.conn }
  | .recv =>
    match r.conn.recvCh with
    | [] => r
    | p :: rest => { r with conn := { r.conn with recvCh := rest }, taken := r.taken ++ [p] }
  | .other task now _ => { r with conn := (stepTask crypto now task r.conn).2 }

def after (events : List (Event Byte Addr)) (r : Receiver Byte Addr) :
    Receiver Byte Addr :=
  Interleaving.run (perform crypto) events r

def start (c : Conn Byte Addr) : Receiver Byte Addr := ⟨c, [], [], [], []⟩

/-! What the results say. -/

def watched (c : Conn Byte Addr) :
    Option ReplayWindow.Window × Addr × Nat × Nat × Bool × List (List Byte) :=
  (c.session.dgramReplay, c.peerAddr, c.bytesReceived, c.packetsRecv, c.registered, c.recvCh)

def Authentic (now : Int) (f : Frame Byte Addr) (s : Session Byte) : Prop :=
  ∃ h cipher, parseDatagramHeader f.data = .ok (h, f.sealed) ∧
    (h.frameType = datagramFrameData ∨ h.frameType = datagramFrameClose) ∧
    datagramRecvCipher now h.epoch s = some cipher ∧
    f.sealed = crypto.sealText cipher.suite cipher.key (buildAEADNonce s.recvNoncePrefix h.seq)
      f.plaintext (f.data.take datagramHeaderSize)

def numbers (accepted : List (Frame Byte Addr)) : Finset Nat := (accepted.map Frame.seq).toFinset

section Runs
variable (crypto : Crypto Byte) (c : Conn Byte Addr)

def Opened (events : List (Event Byte Addr)) (f : Frame Byte Addr) : Prop :=
  ∃ early now rest, events = early ++ .step f.call now :: rest ∧
    Authentic crypto now f (after crypto early (start c)).conn.session

def Genuine (events : List (Event Byte Addr)) (f : Frame Byte Addr) : Prop :=
  ∃ early now rest, events = early ++ .step f.call now :: rest ∧ Opened crypto c early f ∧
    Admits 1024 (numbers (after crypto early (start c)).accepted) f.seq

/-- Only fresh authentic frames have an effect, and each of them once. -/
structure FreshOnly (events : List (Event Byte Addr)) (r : Receiver Byte Addr) : Prop where
  changes : ∀ i now, watched (perform crypto r (.step i now)).conn ≠ watched r.conn →
    ∃ call plaintext, r.calls[i]? = some call ∧
      Genuine crypto c (events ++ [.step i now]) ⟨i, call.src, call.data, plaintext⟩
  accepted : ∀ f ∈ r.accepted, Genuine crypto c events f
  numbersOnce : (r.accepted.map Frame.seq).Nodup
  delivered : ∀ f ∈ r.delivered, f ∈ r.accepted
  deliveredOnce : (r.delivered.map Frame.sealed).Nodup
  queue : c.recvCh ++ r.delivered.map Frame.plaintext = r.taken ++ r.conn.recvCh
  path : r.conn.peerAddr = c.peerAddr ∨ ∃ f ∈ r.accepted,
    (header f.data).frameType = datagramFrameData ∧ r.conn.peerAddr = f.src

end Runs

variable {crypto : Crypto Byte} {c : Conn Byte Addr} {events : List (Event Byte Addr)}
  {f : Frame Byte Addr} {h : DatagramHeader} {data : List Byte} {now : Int}
  {window : ReplayWindow.Window}

/-! Moments of a run. -/
section Moments

theorem after_snoc (crypto : Crypto Byte) (events : List (Event Byte Addr)) (e : Event Byte Addr)
    (r : Receiver Byte Addr) :
    after crypto (events ++ [e]) r = perform crypto (after crypto events r) e :=
  Interleaving.run_append _ events [e] r

theorem Opened.later (opened : Opened crypto c events f) (more : List (Event Byte Addr)) :
    Opened crypto c (events ++ more) f := by
  obtain ⟨early, now, rest, rfl, authentic⟩ := opened
  exact ⟨early, now, rest ++ more, by simp, authentic⟩

theorem Genuine.later (genuine : Genuine crypto c events f) (more : List (Event Byte Addr)) :
    Genuine crypto c (events ++ more) f := by
  obtain ⟨early, now, rest, rfl, opened, admits⟩ := genuine
  exact ⟨early, now, rest ++ more, by simp, opened, admits⟩

theorem Genuine.opened (genuine : Genuine crypto c events f) : Opened crypto c events f := by
  obtain ⟨early, now, rest, rfl, opened, -⟩ := genuine
  exact opened.later _

theorem header_of_parse {body : List Byte} (parsed : parseDatagramHeader data = .ok (h, body)) :
    header data = h ∧ body = data.drop datagramHeaderSize := by
  refine ⟨by rw [header, parsed], ?_⟩
  unfold parseDatagramHeader at parsed
  split at parsed
  · split at parsed
    · cases parsed
    · cases parsed
      rfl
  · cases parsed

theorem peek_of_parse {body : List Byte} {frameType : UInt8}
    (peeked : peekDatagramType data = .ok frameType)
    (parsed : parseDatagramHeader data = .ok (h, body)) : h.frameType = frameType := by
  unfold parseDatagramHeader at parsed
  split at parsed
  · split at parsed
    · cases parsed
    · rename_i short
      cases parsed
      simp only [peekDatagramType, List.head?_cons, if_neg short, Except.ok.injEq] at peeked
      exact peeked
  · cases parsed

omit [DecidableEq Addr] in
/-- What DatagramOpen opens is the sealing of the payload under a live epoch. -/
theorem authentic_of_open (ideal : AeadIdeal crypto) {s : Session Byte}
    (parsed : parseDatagramHeader f.data = .ok (h, f.sealed))
    (kind : h.frameType = datagramFrameData ∨ h.frameType = datagramFrameClose)
    (opened : datagramOpen crypto now h.epoch h.seq f.sealed (datagramAAD f.data) s =
      .ok f.plaintext) : Authentic crypto now f s := by
  obtain ⟨cipher, live, sealed⟩ := openUnder_sealed ideal opened
  exact ⟨h, cipher, parsed, kind, live, sealed⟩

theorem check_refused {seq : Nat} (refused : (ReplayWindow.check window seq).1 = false) :
    (ReplayWindow.check window seq).2 = window := by
  unfold ReplayWindow.check at refused ⊢
  grind

end Moments

/-! The invariant of a run, in three parts: what the window and the calls stand for, what
was delivered, and where the peer is. -/
section Parts
variable (crypto : Crypto Byte) (c : Conn Byte Addr)

def Came (events : List (Event Byte Addr)) (accepted : List (Frame Byte Addr)) (i : Nat)
    (call : Call Byte Addr) : Prop :=
  match call.stage with
  | .arrived => True
  | .found h body | .admitted h body => parseDatagramHeader call.data = .ok (h, body) ∧
      (h.frameType = datagramFrameData ∨ h.frameType = datagramFrameClose)
  | .opened h plaintext => header call.data = h ∧
      Opened crypto c events ⟨i, call.src, call.data, plaintext⟩
  | .accepted h plaintext => header call.data = h ∧ ⟨i, call.src, call.data, plaintext⟩ ∈ accepted
  | .roamed plaintext | .counted plaintext => ⟨i, call.src, call.data, plaintext⟩ ∈ accepted
  | .leaving => ∃ plaintext, ⟨i, call.src, call.data, plaintext⟩ ∈ accepted
  | .done => True

structure Accepting (events : List (Event Byte Addr)) (replay : Option ReplayWindow.Window)
    (calls : List (Call Byte Addr)) (accepted : List (Frame Byte Addr)) : Prop where
  window : ∃ window, replay = some window ∧ window.size = 1024 ∧
    Represents window (numbers accepted)
  came : ∀ i call, calls[i]? = some call → Came crypto c events accepted i call
  genuine : ∀ f ∈ accepted, Genuine crypto c events f
  once : (accepted.map Frame.seq).Nodup

structure Delivering (calls : List (Call Byte Addr)) (accepted delivered : List (Frame Byte Addr))
    (taken recvCh : List (List Byte)) : Prop where
  received : ∀ f ∈ delivered, f ∈ accepted
  finished : ∀ f ∈ delivered, ∃ call, calls[f.call]? = some call ∧ call.stage = .done
  once : delivered.Nodup
  queue : c.recvCh ++ delivered.map Frame.plaintext = taken ++ recvCh

def Located (accepted : List (Frame Byte Addr)) (peerAddr : Addr) : Prop :=
  peerAddr = c.peerAddr ∨ ∃ f ∈ accepted,
    (header f.data).frameType = datagramFrameData ∧ peerAddr = f.src

structure Invariant (events : List (Event Byte Addr)) (r : Receiver Byte Addr) : Prop where
  accepting : Accepting crypto c events r.conn.session.dgramReplay r.calls r.accepted
  delivering : Delivering c r.calls r.accepted r.delivered r.taken r.conn.recvCh
  located : Located c r.accepted r.conn.peerAddr

end Parts

variable {next : Call Byte Addr}

section Steps
variable {replay : Option ReplayWindow.Window} {calls : List (Call Byte Addr)}
  {accepted delivered : List (Frame Byte Addr)} {taken recvCh : List (List Byte)}
  {call : Call Byte Addr} {i : Nat}

theorem Came.later (came : Came crypto c events accepted i call) (more : List (Event Byte Addr))
    (others : List (Frame Byte Addr)) :
    Came crypto c (events ++ more) (accepted ++ others) i call := by
  unfold Came at came ⊢
  split at came
  · trivial
  · exact came
  · exact came
  · exact ⟨came.1, came.2.later more⟩
  · exact ⟨came.1, List.mem_append_left _ came.2⟩
  · exact List.mem_append_left _ came
  · exact List.mem_append_left _ came
  · exact came.imp fun _ held => List.mem_append_left _ held
  · trivial

theorem Accepting.move (accepting : Accepting crypto c events replay calls accepted)
    {old : Call Byte Addr} (found : calls[i]? = some old) (more : List (Event Byte Addr))
    (came : Came crypto c (events ++ more) accepted i call) :
    Accepting crypto c (events ++ more) replay (calls.set i call) accepted where
  window := accepting.window
  came j other present := by
    rcases (getElem?_replaced found j other).mp present with ⟨rfl, rfl⟩ | ⟨-, present⟩
    · exact came
    · simpa using (accepting.came j other present).later more []
  genuine f held := (accepting.genuine f held).later more
  once := accepting.once

/-- A call passes its Check: the number was admissible, and the window has it now. -/
theorem Accepting.accept (accepting : Accepting crypto c events replay calls accepted)
    {old : Call Byte Addr} (found : calls[f.call]? = some old)
    (reached : (after crypto events (start c)).accepted = accepted) (present : replay = some window)
    (opened : Opened crypto c events f) (same : header f.data = h)
    (fresh : (ReplayWindow.check window h.seq).1 = true)
    (came : Came crypto c (events ++ [.step f.call now]) (accepted ++ [f]) f.call call) :
    Accepting crypto c (events ++ [.step f.call now]) (some (ReplayWindow.check window h.seq).2)
      (calls.set f.call call) (accepted ++ [f]) := by
  obtain ⟨window', present', size, represents⟩ := accepting.window
  obtain rfl : window = window' := Option.some.inj (present.symm.trans present')
  have number : f.seq = h.seq := congrArg DatagramHeader.seq same
  -- The filter over the accepted numbers answers as the window does.
  obtain ⟨answer, recorded⟩ := (ReplayFilter.check_refines represents :
    (ReplayWindow.check window h.seq).1 = _ ∧ _)
  have admits : Admits 1024 (numbers accepted) h.seq := by
    rw [fresh, size, ReplayFilter.answer] at answer
    by_contra refused
    rw [if_neg refused] at answer
    cases answer
  have grown : numbers (accepted ++ [f]) = insert h.seq (numbers accepted) := by
    ext seq
    simp [numbers, number]
  refine ⟨⟨_, rfl, ReplayFilter.check_size.trans size, ?_⟩, ?_, ?_, ?_⟩
  · rw [size, ReplayFilter.answer, if_pos admits] at recorded
    rw [grown]
    exact recorded
  · intro j other held
    rcases (getElem?_replaced found j other).mp held with ⟨rfl, rfl⟩ | ⟨-, held⟩
    · exact came
    · exact (accepting.came j other held).later _ _
  · refine forall_added (fun g old => (accepting.genuine g old).later _) ?_
    exact ⟨events, now, [], rfl, opened, by rw [reached, number]; exact admits⟩
  · rw [List.map_append, List.nodup_append']
    refine ⟨accepting.once, by simp, ?_⟩
    intro seq old new
    have new' : seq = f.seq := by simpa using new
    have old' : seq ∈ numbers accepted := List.mem_toFinset.mpr old
    rw [new', number] at old'
    exact admits.1 old'

omit [Octet Byte] [DecidableEq Addr] in
theorem Delivering.move (delivering : Delivering c calls accepted delivered taken recvCh)
    (others : List (Frame Byte Addr)) (present : calls[i]? = some call)
    (stays : call.stage = .done → next.stage = .done) :
    Delivering c (calls.set i next) (accepted ++ others) delivered taken recvCh where
  received f held := List.mem_append_left _ (delivering.received f held)
  finished f held := by
    obtain ⟨old, there, done⟩ := delivering.finished f held
    by_cases same : f.call = i
    · subst same
      obtain rfl : call = old := Option.some.inj (present.symm.trans there)
      have inside : f.call < calls.length := (List.getElem?_eq_some_iff.mp there).1
      exact ⟨next, by simp [inside], stays done⟩
    · exact ⟨old, by rw [List.getElem?_set_ne fun eq => same eq.symm]; exact there, done⟩
  once := delivering.once
  queue := delivering.queue

omit [Octet Byte] [DecidableEq Addr] in
theorem Delivering.deliver (delivering : Delivering c calls accepted delivered taken recvCh)
    (present : calls[f.call]? = some call) (waiting : call.stage ≠ .done)
    (done : next.stage = .done) (held : f ∈ accepted) :
    Delivering c (calls.set f.call next) accepted (delivered ++ [f]) taken
      (recvCh ++ [f.plaintext]) := by
  have inside : f.call < calls.length := (List.getElem?_eq_some_iff.mp present).1
  have moved : Delivering c (calls.set f.call next) (accepted ++ []) delivered taken recvCh :=
    delivering.move [] present fun done => absurd done waiting
  rw [List.append_nil] at moved
  refine ⟨?_, ?_, ?_, ?_⟩
  · exact forall_added moved.received held
  · exact forall_added moved.finished ⟨next, by simp [inside], done⟩
  · rw [List.nodup_append']
    refine ⟨delivering.once, by simp, ?_⟩
    intro g old new
    -- An earlier delivery of this frame would have ended the call.
    obtain rfl := List.mem_singleton.mp new
    obtain ⟨done, there, ended⟩ := delivering.finished _ old
    obtain rfl : call = done := Option.some.inj (present.symm.trans there)
    exact waiting ended
  · have queue := delivering.queue
    rw [List.map_append, ← List.append_assoc, queue]
    simp

omit [DecidableEq Addr] in
theorem Located.later {peerAddr : Addr} (located : Located c accepted peerAddr)
    (others : List (Frame Byte Addr)) : Located c (accepted ++ others) peerAddr :=
  located.imp_right fun ⟨f, held, source⟩ => ⟨f, List.mem_append_left _ held, source⟩

theorem Accepting.later (accepting : Accepting crypto c events replay calls accepted)
    (more : List (Event Byte Addr)) :
    Accepting crypto c (events ++ more) replay calls accepted where
  window := accepting.window
  came i call present := by simpa using (accepting.came i call present).later more []
  genuine f held := (accepting.genuine f held).later more
  once := accepting.once

end Steps

section Invariants
variable {r : Receiver Byte Addr} {i : Nat} {src : Addr}

theorem perform_step {stage next : Stage Byte} {conn : Conn Byte Addr}
    (present : r.calls[i]? = some ⟨src, data, stage⟩)
    (moved : advance crypto now src data stage r.conn = (next, conn)) :
    perform crypto r (.step i now) =
      ⟨conn, r.calls.set i ⟨src, data, next⟩, r.accepted ++ accepts i ⟨src, data, stage⟩ next,
        r.delivered ++ delivers i ⟨src, data, stage⟩ r.conn, r.taken⟩ := by
  simp only [perform, present, moved]

variable (inv : Invariant crypto c events r)
include inv

theorem Invariant.quiet (more : List (Event Byte Addr)) {call : Call Byte Addr}
    (present : r.calls[i]? = some call) {conn : Conn Byte Addr}
    (same : receiving conn = receiving r.conn)
    (came : Came crypto c (events ++ more) r.accepted i next)
    (stays : call.stage = .done → next.stage = .done) :
    Invariant crypto c (events ++ more)
      ⟨conn, r.calls.set i next, r.accepted ++ [], r.delivered ++ [], r.taken⟩ := by
  obtain ⟨replay, peer, queue⟩ : conn.session.dgramReplay = r.conn.session.dgramReplay ∧
      conn.peerAddr = r.conn.peerAddr ∧ conn.recvCh = r.conn.recvCh := by
    simpa [receiving] using same
  rw [List.append_nil, List.append_nil]
  have moved := inv.delivering.move [] present stays
  rw [List.append_nil] at moved
  refine ⟨?_, ?_, ?_⟩
  · rw [replay]
    exact inv.accepting.move present more came
  · rw [queue]
    exact moved
  · rw [peer]
    exact inv.located

/-- An accepted DATA frame from another address: the peer has moved there. -/
theorem roaming_invariant {plaintext : List Byte}
    (present : r.calls[i]? = some ⟨src, data, .accepted h plaintext⟩)
    (stays : h.frameType ≠ datagramFrameClose) (more : List (Event Byte Addr)) :
    Invariant crypto c (events ++ more) ⟨{ r.conn with peerAddr := src },
      r.calls.set i ⟨src, data, .roamed plaintext⟩, r.accepted ++ [],
      r.delivered ++ [], r.taken⟩ := by
  obtain ⟨same, held⟩ := inv.accepting.came i _ present
  have quiet : Invariant crypto c (events ++ more) ⟨r.conn,
      r.calls.set i ⟨src, data, .roamed plaintext⟩, r.accepted ++ [], r.delivered ++ [], r.taken⟩ :=
    inv.quiet more present rfl held nofun
  obtain ⟨early, moment, rest, -, h', cipher, parsed, kind, -⟩ :=
    (inv.accepting.genuine _ held).opened
  obtain rfl : h' = h := (header_of_parse parsed).1.symm.trans same
  refine ⟨quiet.accepting, quiet.delivering, .inr ⟨_, List.mem_append_left _ held, ?_, rfl⟩⟩
  rw [same]
  exact kind.resolve_right stays

theorem arrive_invariant (src : Addr) (data : List Byte) :
    Invariant crypto c (events ++ [.arrive src data]) (perform crypto r (.arrive src data)) := by
  have later := inv.accepting.later [.arrive src data]
  refine ⟨⟨later.window, ?_, later.genuine, later.once⟩, ⟨inv.delivering.received, ?_,
    inv.delivering.once, inv.delivering.queue⟩, inv.located⟩
  · intro i call present
    rcases (getElem?_added i call).mp present with before | ⟨-, rfl⟩
    · exact later.came i call before
    · trivial
  · intro f held
    obtain ⟨call, there, done⟩ := inv.delivering.finished f held
    have inside : f.call < r.calls.length := (List.getElem?_eq_some_iff.mp there).1
    exact ⟨call, by simpa [perform, List.getElem?_append_left inside] using there, done⟩

theorem recv_invariant : Invariant crypto c (events ++ [.recv]) (perform crypto r .recv) := by
  have later := inv.accepting.later [.recv]
  cases waiting : r.conn.recvCh with
  | nil =>
    have idle : perform crypto r .recv = r := by simp only [perform, waiting]
    rw [idle]
    exact ⟨later, inv.delivering, inv.located⟩
  | cons p rest =>
    have took : perform crypto r .recv =
        { r with conn := { r.conn with recvCh := rest }, taken := r.taken ++ [p] } := by
      simp only [perform, waiting]
    rw [took]
    refine ⟨later, ⟨inv.delivering.received, inv.delivering.finished, inv.delivering.once, ?_⟩,
      inv.located⟩
    rw [inv.delivering.queue, waiting]
    simp

/-- A sealed text was accepted once: the header it was sealed with has its number. -/
theorem sealed_once (ideal : AeadIdeal crypto) {g : Frame Byte Addr} (left : f ∈ r.accepted)
    (right : g ∈ r.accepted) (same : f.sealed = g.sealed) : f = g := by
  obtain ⟨early, moment, rest, -, h, cipher, parsed, -, -, sealed⟩ :=
    (inv.accepting.genuine f left).opened
  obtain ⟨early', moment', rest', -, h', cipher', parsed', -, -, sealed'⟩ :=
    (inv.accepting.genuine g right).opened
  obtain ⟨-, -, -, -, headers⟩ := ideal.injective _ _ _ _ _ _ _ _ _ _
    (sealed.symm.trans (same.trans sealed'))
  have data : f.data = g.data := by
    rw [← List.take_append_drop datagramHeaderSize f.data, headers,
      show f.data.drop datagramHeaderSize = g.data.drop datagramHeaderSize from same,
      List.take_append_drop]
  have number : f.seq = g.seq := by rw [Frame.seq, data]; rfl
  exact List.inj_on_of_nodup_map inv.accepting.once left right number

variable (reached : r = after crypto events (start c))
include reached

theorem opened_invariant {plaintext : List Byte}
    (present : r.calls[i]? = some ⟨src, data, .opened h plaintext⟩) (now : Int) :
    Invariant crypto c (events ++ [.step i now]) (perform crypto r (.step i now)) := by
  obtain ⟨same, opened⟩ := inv.accepting.came i _ present
  obtain ⟨window, replay, -, -⟩ := inv.accepting.window
  cases fresh : (ReplayWindow.check window h.seq).1 with
  | false =>
    rw [perform_step present (show _ = (.done, _) by simp [advance, replay, fresh]; rfl)]
    refine inv.quiet _ present ?_ trivial (by rintro ⟨⟩)
    rw [check_refused fresh, ← replay]
  | true =>
    rw [perform_step present (show _ = (.accepted h plaintext, _) by
      simp [advance, replay, fresh]; rfl)]
    have frame : (⟨i, src, data, plaintext⟩ : Frame Byte Addr) ∈
        r.accepted ++ [⟨i, src, data, plaintext⟩] := by simp
    have log : (after crypto events (start c)).accepted = r.accepted := by rw [← reached]
    have moved : Delivering c (r.calls.set i ⟨src, data, .accepted h plaintext⟩)
        (r.accepted ++ [⟨i, src, data, plaintext⟩]) r.delivered r.taken r.conn.recvCh :=
      inv.delivering.move _ present (by rintro ⟨⟩)
    refine ⟨?_, ?_, inv.located.later _⟩
    · exact inv.accepting.accept present log replay (f := ⟨i, src, data, plaintext⟩) opened
        same fresh ⟨same, frame⟩
    · simpa [accepts, delivers] using moved

variable (ideal : AeadIdeal crypto)
include ideal

theorem step_invariant (i : Nat) (now : Int) :
    Invariant crypto c (events ++ [.step i now]) (perform crypto r (.step i now)) := by
  cases present : r.calls[i]? with
  | none =>
    have idle : perform crypto r (.step i now) = r := by simp only [perform, present]
    rw [idle]
    exact ⟨inv.accepting.later _, inv.delivering, inv.located⟩
  | some call =>
    have came := inv.accepting.came i call present
    obtain ⟨src, data, stage⟩ := call
    cases stage with
    | arrived =>
      rw [perform_step present rfl]
      refine inv.quiet _ present rfl ?_ (by rintro ⟨⟩)
      unfold lookup
      split
      · rename_i frameType h body peeked parsed
        split
        · rename_i kind
          exact ⟨parsed, by rw [peek_of_parse peeked parsed]; exact kind.1⟩
        · trivial
      · trivial
    | found h body =>
      by_cases admissible : (r.conn.session.dgramReplay.map
          (ReplayWindow.admissible · h.seq)) = some true
      · rw [perform_step present (show _ = (.admitted h body, r.conn) from if_pos admissible)]
        exact inv.quiet _ present rfl came (by rintro ⟨⟩)
      · rw [perform_step present (show _ = (.done, r.conn) from if_neg admissible)]
        exact inv.quiet _ present rfl trivial (by rintro ⟨⟩)
    | admitted h body =>
      cases opened : datagramOpen crypto now h.epoch h.seq body (datagramAAD data)
          r.conn.session with
      | error stop =>
        rw [perform_step present (show _ = (.done, r.conn) by simp [advance, opened])]
        exact inv.quiet _ present rfl trivial (by rintro ⟨⟩)
      | ok plaintext =>
        rw [perform_step present (show _ = (.opened h plaintext, r.conn) by
          simp [advance, opened])]
        obtain ⟨parsed, kind⟩ := came
        obtain ⟨same, rest⟩ := header_of_parse parsed
        -- The session finds the frame authentic at this very moment.
        refine inv.quiet _ present rfl ⟨same, events, now, [], rfl, ?_⟩ (by rintro ⟨⟩)
        rw [← reached]
        have sealed : (⟨i, src, data, plaintext⟩ : Frame Byte Addr).sealed = body := rest.symm
        exact authentic_of_open (f := ⟨i, src, data, plaintext⟩) ideal
          (by rw [sealed]; exact parsed) kind (by rw [sealed]; exact opened)
    | opened h plaintext => exact opened_invariant inv reached present now
    | accepted h plaintext =>
      by_cases leaves : h.frameType = datagramFrameClose
      · rw [perform_step present (show _ = (.leaving, _) from if_pos leaves)]
        exact inv.quiet _ present rfl ⟨plaintext, came.2⟩ (by rintro ⟨⟩)
      by_cases home : r.conn.peerAddr = src
      · rw [perform_step present (show _ = (.roamed plaintext, r.conn) by
          simp [advance, leaves, home])]
        exact inv.quiet _ present rfl came.2 (by rintro ⟨⟩)
      · rw [perform_step present (show _ = (.roamed plaintext, _) by
          simp [advance, leaves, home]; rfl)]
        exact roaming_invariant inv present leaves _
    | roamed plaintext =>
      rw [perform_step present rfl]
      exact inv.quiet _ present rfl came (by rintro ⟨⟩)
    | counted plaintext =>
      by_cases room : r.conn.recvCh.length < dataInboxCap
      · rw [perform_step present (show _ = (.done, _) by simp [advance, room]; rfl)]
        have quiet : Invariant crypto c (events ++ [.step i now]) ⟨r.conn,
            r.calls.set i ⟨src, data, .done⟩, r.accepted ++ [], r.delivered ++ [], r.taken⟩ :=
          inv.quiet _ present rfl trivial (by rintro ⟨⟩)
        have delivering : Delivering c (r.calls.set i ⟨src, data, .done⟩) r.accepted
            (r.delivered ++ [⟨i, src, data, plaintext⟩]) r.taken
            (r.conn.recvCh ++ [plaintext]) :=
          inv.delivering.deliver (f := ⟨i, src, data, plaintext⟩) present (by rintro ⟨⟩) rfl came
        refine ⟨quiet.accepting, ?_, quiet.located⟩
        simpa [accepts, delivers, room] using delivering
      · rw [perform_step present (show _ = (.done, r.conn) by simp [advance, room])]
        simp only [delivers, if_neg room]
        exact inv.quiet _ present rfl trivial (by rintro ⟨⟩)
    | leaving =>
      rw [perform_step present rfl]
      exact inv.quiet _ present rfl trivial (by rintro ⟨⟩)
    | done =>
      rw [perform_step present rfl]
      exact inv.quiet _ present rfl trivial fun _ => rfl

theorem perform_invariant (e : Event Byte Addr) :
    Invariant crypto c (events ++ [e]) (perform crypto r e) := by
  cases e with
  | arrive src data => exact arrive_invariant inv src data
  | step i now => exact step_invariant inv reached ideal i now
  | recv => exact recv_invariant inv
  | other task now apart =>
    obtain ⟨turns, peer, queue⟩ := stepTask_apart crypto now apart r.conn
    have replay := turns.window apart
    refine ⟨?_, ?_, ?_⟩
    · rw [perform, replay]
      exact inv.accepting.later _
    · rw [perform, queue]
      exact inv.delivering
    · rw [perform, peer]
      exact inv.located

/-- A step changes something only for a frame that is genuine by then. -/
theorem changed_genuine (changed : watched (perform crypto r (.step i now)).conn ≠ watched r.conn) :
    ∃ call plaintext, r.calls[i]? = some call ∧
      Genuine crypto c (events ++ [.step i now]) ⟨i, call.src, call.data, plaintext⟩ := by
  have next := step_invariant inv reached ideal i now
  cases present : r.calls[i]? with
  | none =>
    have idle : perform crypto r (.step i now) = r := by simp only [perform, present]
    exact absurd (by rw [idle]) changed
  | some call =>
    have came := inv.accepting.came i call present
    obtain ⟨src, data, stage⟩ := call
    -- Before its Check a call leaves everything as it is.
    have unmoved (same : watched (advance crypto now src data stage r.conn).2 = watched r.conn) :
        False :=
      changed (by rw [perform_step present Prod.mk.eta.symm]; exact same)
    have genuine {plaintext : List Byte}
        (held : (⟨i, src, data, plaintext⟩ : Frame Byte Addr) ∈ r.accepted) :
        ∃ (call : Call Byte Addr) (plaintext : List Byte), some ⟨src, data, stage⟩ = some call ∧
          Genuine crypto c (events ++ [.step i now]) ⟨i, call.src, call.data, plaintext⟩ :=
      ⟨_, plaintext, rfl, (inv.accepting.genuine _ held).later _⟩
    cases stage with
    | arrived => exact absurd rfl unmoved
    | found h body | admitted h body => exact absurd (by rw [advance]; split <;> rfl) unmoved
    | opened h plaintext =>
      obtain ⟨window, replay, -, -⟩ := inv.accepting.window
      cases fresh : (ReplayWindow.check window h.seq).1 with
      | false =>
        refine absurd ?_ unmoved
        simp [advance, replay, fresh, watched, check_refused fresh]
      | true =>
        refine ⟨_, plaintext, rfl, next.accepting.genuine _ ?_⟩
        rw [perform_step present (show _ = (.accepted h plaintext, _) by
          simp [advance, replay, fresh]; rfl)]
        exact List.mem_append_right _ (List.mem_singleton_self _)
    | accepted h plaintext => exact genuine came.2
    | roamed plaintext | counted plaintext => exact genuine came
    | leaving =>
      obtain ⟨plaintext, held⟩ := came
      exact genuine held
    | done => exact absurd rfl unmoved

end Invariants

theorem after_invariant (ideal : AeadIdeal crypto)
    (fresh : c.session.dgramReplay = some ReplayWindow.newWindow)
    (events : List (Event Byte Addr)) :
    Invariant crypto c events (after crypto events (start c)) := by
  induction events using List.reverseRecOn with
  | nil =>
    have none_yet : after crypto [] (start c) = start c := rfl
    rw [none_yet]
    refine ⟨⟨⟨_, fresh, rfl, ?_⟩, by simp [start], by simp [start], by simp [start]⟩,
      ⟨by simp [start], by simp [start], by simp [start], by simp [start]⟩, .inl rfl⟩
    exact ReplayFilter.ofWords_represents (by decide)
  | append_singleton events e ih =>
    rw [after_snoc]
    exact perform_invariant ih rfl ideal e

/-- Whatever the interleaving and whatever arrives, only fresh authentic frames have an
effect, and each of them once. -/
theorem receives_fresh_only {crypto : Crypto Byte} (ideal : AeadIdeal crypto) {c : Conn Byte Addr}
    (fresh : c.session.dgramReplay = some ReplayWindow.newWindow)
    (events : List (Event Byte Addr)) :
    FreshOnly crypto c events (after crypto events (start c)) := by
  have inv := after_invariant ideal fresh events
  exact {
    changes := fun i now changed => changed_genuine inv rfl ideal changed
    accepted := inv.accepting.genuine
    numbersOnce := inv.accepting.once
    delivered := inv.delivering.received
    deliveredOnce := by
      refine (List.nodup_map_iff_inj_on inv.delivering.once).mpr fun f left g right same => ?_
      exact sealed_once inv ideal (inv.delivering.received f left)
        (inv.delivering.received g right) same
    queue := inv.delivering.queue
    path := inv.located }

def listening (session : Session Letter) : Conn Letter Bool where
  session := session
  index := 2
  peerIndex := 1
  peerAddr := false
  registered := true
  closed := false
  recvCh := []
  bytesReceived := 0
  packetsRecv := 0
  rekey := none
  answered := none
  written := []

def twice (frame : List Letter) : List (Event Letter Bool) :=
  [.arrive true frame, .step 0 1, .step 0 1, .arrive false frame] ++
    (List.replicate 7 [.step 1 1, .step 0 1]).flatten

/-- Both copies get past the peek and open. One is delivered, and the peer is where it
came from. -/
theorem receives_fresh_copy :
    ∃ initiator responder frame, DatagramRekey.IsPair initiator responder ∧
      (DatagramConn.send env.toCrypto [lit 7] (ClosedDatagram.connected initiator)).2.written =
        [((), frame)] ∧
      FreshOnly env.toCrypto (listening responder) (twice frame)
        (after env.toCrypto (twice frame) (start (listening responder))) ∧
      (after env.toCrypto (twice frame) (start (listening responder))).delivered.map
        Frame.plaintext = [[lit 7]] := by
  refine ⟨_, _, _, ⟨_, _, rfl, rfl, rfl, rfl⟩, rfl, ?_, ?_⟩
  · exact receives_fresh_only env_ideal.aead rfl _
  · decide +kernel

end QuantumGo.DatagramReceive
