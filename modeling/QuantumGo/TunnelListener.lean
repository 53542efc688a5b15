import QuantumGo.Interleaving

/-!
pkg/tunnel/transport.go: the listener. The accept loop hands each raw connection to a
handshake goroutine, which puts its result into a buffered channel; Accept takes results out.
Every connection that was accepted is in one place: with a goroutine, in the channel, returned
by an Accept, or closed. When everything has ended, the channel is the only place where one
can still be, and an Accept that returns the listener's error has found it empty.
-/

namespace QuantumGo.TunnelListener

open Interleaving

def resultsCapacity : Nat := 64

def maxPendingHandshakes : Nat := 1024

def pendingLimit (configured : Int) : Nat :=
  if configured ≤ 0 then maxPendingHandshakes else configured.toNat

structure AcceptResult where
  conn : Nat
  tunnel : Bool
  deriving DecidableEq, Repr

/-- Connections have numbers, in the order in which they were accepted. `shut` are those the
listener closed, `returned` those whose tunnel an Accept returned. -/
structure Listener where
  limit : Nat
  started : Bool
  stopped : Bool
  closing : Bool
  listenerClosed : Bool
  results : List AcceptResult
  pending : Nat
  accepted : Nat
  returned : List Nat
  shut : List Nat
  deriving DecidableEq, Repr

def newListener (configured : Int) : Listener where
  limit := pendingLimit configured
  started := false
  stopped := false
  closing := false
  listenerClosed := false
  results := []
  pending := 0
  accepted := 0
  returned := []
  shut := []

inductive Outcome where
  | ipLimited
  | sessionFailed
  | handshakeLimited
  | handshakeFailed
  | transportFailed
  | established
  deriving DecidableEq, Repr

/-- The result of a handshake and what it has closed: every failure closes the connection,
checkIPRateLimit and performHandshake by themselves. -/
def handshakeConn (conn : Nat) : Outcome → AcceptResult × List Nat
  | .ipLimited => (⟨conn, false⟩, [conn])
  | .sessionFailed => (⟨conn, false⟩, [conn])
  | .handshakeLimited => (⟨conn, false⟩, [conn])
  | .handshakeFailed => (⟨conn, false⟩, [conn])
  | .transportFailed => (⟨conn, false⟩, [conn])
  | .established => (⟨conn, true⟩, [])

inductive Task where
  /-- Accept before startOnce. -/
  | accept
  /-- Accept at its select. -/
  | selecting
  /-- Accept has seen that the accept loop stopped. -/
  | draining
  /-- Close before startOnce. -/
  | close
  /-- Close before it closes the underlying listener. -/
  | closingListener
  /-- The accept loop at the underlying Accept. -/
  | accepting
  /-- The accept loop with a connection it has not handed on. -/
  | admitting (conn : Nat)
  | handshaking (conn : Nat)
  | delivering (result : AcceptResult)
  /-- A handshake goroutine before it gives its slot back. -/
  | leaving
  | done
  deriving DecidableEq, Repr

/-- What is outside the listener: whether a raw connection arrives, how a handshake ends, and
which case a select takes if both are ready. -/
structure Choice where
  arrives : Bool
  outcome : Outcome
  first : Bool

def select {α : Type} (choice : Choice) (ready ready' : Bool) (first second blocked : α) : α :=
  if ready = true ∧ (choice.first = true ∨ ready' = false) then first
  else if ready' = true then second
  else blocked

def receive (l : Listener) : Listener :=
  match l.results with
  | [] => l
  | result :: rest => { l with
      results := rest, returned := l.returned ++ if result.tunnel then [result.conn] else [] }

/-- startOnce. The accept loop is a goroutine of its own. -/
def startAcceptLoop (l : Listener) : Listener × List Task :=
  ({ l with started := true }, if l.started then [] else [.accepting])

def deliver (choice : Choice) (result : AcceptResult) (l : Listener) : Task × Listener :=
  select choice (l.results.length < resultsCapacity) l.closing
    (.leaving, { l with results := l.results ++ [result] })
    (.leaving, { l with shut := l.shut ++ if result.tunnel then [result.conn] else [] })
    (.delivering result, l)

def step (choice : Choice) : Task → Listener → (Task × Listener) × List Task
  | .accept, l => ((.selecting, (startAcceptLoop l).1), (startAcceptLoop l).2)
  | .selecting, l => (select choice (!l.results.isEmpty) l.stopped (.done, receive l) (.draining, l)
      (.selecting, l), [])
  | .draining, l => ((.done, receive l), [])
  | .close, l =>
    ((.closingListener, { (startAcceptLoop l).1 with closing := true }), (startAcceptLoop l).2)
  | .closingListener, l => ((.done, { l with listenerClosed := true }), [])
  | .accepting, l =>
    -- A closed listener accepts nothing, and it may fail at any time.
    if choice.arrives = true ∧ l.listenerClosed = false then
      ((.admitting l.accepted, { l with accepted := l.accepted + 1 }), [])
    else ((.done, { l with stopped := true }), [])
  | .admitting conn, l =>
    if l.pending < l.limit then
      ((.accepting, { l with pending := l.pending + 1 }), [.handshaking conn])
    else ((.accepting, { l with shut := l.shut ++ [conn] }), [])
  | .handshaking conn, l => ((.delivering (handshakeConn conn choice.outcome).1,
      { l with shut := l.shut ++ (handshakeConn conn choice.outcome).2 }), [])
  | .delivering result, l => (deliver choice result l, [])
  | .leaving, l => ((.done, { l with pending := l.pending - 1 }), [])
  | .done, l => ((.done, l), [])

/-! Runs. -/

structure World where
  listener : Listener
  tasks : List Task
  deriving DecidableEq, Repr

inductive Event where
  | callAccept
  | callClose
  | step (i : Nat) (choice : Choice)

def perform (w : World) : Event → World
  | .callAccept => { w with tasks := w.tasks ++ [.accept] }
  | .callClose => { w with tasks := w.tasks ++ [.close] }
  | .step i choice =>
    match w.tasks[i]? with
    | none => w
    | some task =>
      let ((task', l), started) := step choice task w.listener
      ⟨l, w.tasks.set i task' ++ started⟩

def after (events : List Event) (configured : Int) : World :=
  run perform events ⟨newListener configured, []⟩

/-- Close has returned, the handshake goroutines have ended, and no Accept is in progress;
the accept loop has ended or is at the underlying Accept, which is closed. -/
def Settled (w : World) : Prop :=
  w.listener.listenerClosed = true ∧ ∀ task ∈ w.tasks, task = .done ∨ task = .accepting

instance (w : World) : Decidable (Settled w) :=
  inferInstanceAs (Decidable (_ ∧ ∀ task ∈ w.tasks, _))

/-! The places of a connection. -/

def holds (conn : Nat) : Task → Bool
  | .admitting own => own = conn
  | .handshaking own => own = conn
  | .delivering result => result = ⟨conn, true⟩
  | _ => false

def kept (conn : Nat) (l : Listener) : Nat :=
  l.results.count ⟨conn, true⟩ + l.returned.count conn + l.shut.count conn

def counted (conn accepted : Nat) : Nat := if conn < accepted then 1 else 0

def Balanced (task : Task) (l : Listener) (task' : Task) (l' : Listener) (started : List Task) :
    Prop :=
  ∀ conn, (if holds conn task' then 1 else 0) + started.countP (holds conn) + kept conn l' +
    counted conn l.accepted =
      (if holds conn task then 1 else 0) + kept conn l + counted conn l'.accepted

variable {task task' : Task}

section Steps
variable {l : Listener}

theorem kept_receive (conn : Nat) (l : Listener) : kept conn (receive l) = kept conn l := by
  unfold receive
  split
  · rfl
  · rename_i result rest taken
    obtain ⟨own, tunnel⟩ := result
    cases tunnel with
    | false => simp [kept, taken]
    | true =>
      simp only [kept, taken, List.count_cons, List.count_append, if_true, List.count_nil,
        Nat.zero_add]
      by_cases same : own = conn
      · simp only [same, BEq.rfl, if_true]
        omega
      · have apart : (AcceptResult.mk own true == ⟨conn, true⟩) = false :=
          beq_false_of_ne (by simp [same])
        simp [apart, same]

theorem accepted_receive (l : Listener) : (receive l).accepted = l.accepted := by
  unfold receive
  split <;> rfl

theorem receive_balanced (empty : ∀ conn, holds conn task = false)
    (empty' : ∀ conn, holds conn task' = false) : Balanced task l task' (receive l) [] := by
  intro conn
  rw [empty, empty', kept_receive, accepted_receive]
  rfl

theorem start_balanced {l' : Listener} (empty : ∀ conn, holds conn task = false)
    (empty' : ∀ conn, holds conn task' = false) (same : ∀ conn, kept conn l' = kept conn l)
    (accepted : l'.accepted = l.accepted) : Balanced task l task' l' (startAcceptLoop l).2 := by
  intro conn
  have nothing : (startAcceptLoop l).2.countP (holds conn) = 0 := by
    rw [startAcceptLoop]
    split <;> rfl
  rw [empty, empty', same, accepted, nothing]
  rfl

theorem stays_balanced (same : ∀ conn, holds conn task' = holds conn task) :
    Balanced task l task' l [] := by
  intro conn
  rw [same]
  rfl

theorem deliver_balanced (choice : Choice) (result : AcceptResult) :
    Balanced (.delivering result) l (deliver choice result l).1 (deliver choice result l).2 [] := by
  obtain ⟨own, tunnel⟩ := result
  have single (conn : Nat) : (if tunnel then [own] else []).count conn =
      if holds conn (.delivering ⟨own, tunnel⟩) then 1 else 0 := by
    cases tunnel <;> simp [holds, List.count_singleton]
  unfold deliver select
  split
  · intro conn
    simp only [kept, List.count_append, List.count_singleton, holds, beq_iff_eq,
      decide_eq_true_eq, Bool.false_eq_true, if_false, List.countP_nil]
    omega
  split
  · intro conn
    simp only [kept, List.count_append, single, List.countP_nil]
    simp only [holds, Bool.false_eq_true, if_false]
    omega
  · exact stays_balanced fun _ => rfl

theorem handshakeConn_closes (conn : Nat) (outcome : Outcome) (other : Nat) :
    (if holds other (.delivering (handshakeConn conn outcome).1) then 1 else 0) +
      (handshakeConn conn outcome).2.count other = if conn = other then 1 else 0 := by
  cases outcome <;> simp [handshakeConn, holds, List.count_singleton]

theorem step_balanced (choice : Choice) (task : Task) :
    Balanced task l (step choice task l).1.1 (step choice task l).1.2 (step choice task l).2 := by
  cases task with
  | accept => exact start_balanced (fun _ => rfl) (fun _ => rfl) (fun _ => rfl) rfl
  | selecting =>
    rw [step, select]
    split
    · exact receive_balanced (fun _ => rfl) fun _ => rfl
    split <;> exact stays_balanced fun _ => rfl
  | draining => exact receive_balanced (fun _ => rfl) fun _ => rfl
  | close => exact start_balanced (fun _ => rfl) (fun _ => rfl) (fun _ => rfl) rfl
  | closingListener => exact fun _ => rfl
  | accepting =>
    rw [step]
    split
    · intro conn
      have one : (if l.accepted = conn then 1 else 0) + counted conn l.accepted =
          counted conn (l.accepted + 1) := by
        unfold counted
        split <;> split <;> split <;> omega
      simp only [holds, kept, decide_eq_true_eq, List.countP_nil, Bool.false_eq_true, if_false]
      omega
    · exact fun _ => rfl
  | admitting own =>
    rw [step]
    split
    · intro conn
      simp only [holds, kept, decide_eq_true_eq, Bool.false_eq_true, if_false,
        List.countP_singleton]
      omega
    · intro conn
      simp only [holds, kept, decide_eq_true_eq, Bool.false_eq_true, if_false,
        List.countP_nil, List.count_append, List.count_singleton, beq_iff_eq]
      omega
  | handshaking own =>
    intro conn
    have moved := handshakeConn_closes own choice.outcome conn
    simp only [step, kept, List.count_append, List.countP_nil]
    simp only [holds, decide_eq_true_eq] at moved ⊢
    omega
  | delivering result => exact deliver_balanced choice result
  | leaving | done => exact fun _ => rfl

end Steps

def Placed (w : World) : Prop :=
  ∀ conn, w.tasks.countP (holds conn) + kept conn w.listener = counted conn w.listener.accepted

theorem Placed.moves {w : World} {i : Nat} {l' : Listener} {started : List Task} (placed : Placed w)
    (found : w.tasks[i]? = some task) (balanced : Balanced task w.listener task' l' started) :
    Placed ⟨l', w.tasks.set i task' ++ started⟩ := by
  intro conn
  have before := placed conn
  have moved := balanced conn
  have replaced := countP_replaced found (holds conn) task'
  dsimp only
  rw [List.countP_append]
  omega

theorem Placed.perform {w : World} (placed : Placed w) (e : Event) :
    Placed (TunnelListener.perform w e) := by
  cases e with
  | callAccept | callClose =>
    intro conn
    simpa [TunnelListener.perform, List.countP_append, holds] using placed conn
  | step i choice =>
    rw [TunnelListener.perform]
    cases found : w.tasks[i]? with
    | none => exact placed
    | some task => exact placed.moves found (step_balanced choice task)

theorem placed_after (events : List Event) (configured : Int) : Placed (after events configured) :=
  kept_run (fun _ e placed => placed.perform e) events fun _ => rfl

/-- A call of Accept or Close, or a goroutine with no connection in hand. -/
def Task.idle : Task → Bool
  | .accepting | .admitting _ | .handshaking _ | .delivering _ => false
  | _ => true

/-- An Accept returns the error of the stopped listener, when the accept loop and the handshake
goroutines have ended. -/
def Exhausts (w : World) : Event → Prop
  | .step i _ => w.tasks[i]? = some .draining ∧ w.listener.results = [] ∧
      ∀ task ∈ w.tasks, task.idle = true
  | _ => False

instance (w : World) (e : Event) : Decidable (Exhausts w e) :=
  match e with
  | .step i _ => inferInstanceAs (Decidable (w.tasks[i]? = _ ∧ _ ∧ ∀ task ∈ w.tasks, _))
  | .callAccept | .callClose => .isFalse id

/-- Each accepted connection was returned by exactly one Accept, or closed. -/
def Accounted (l : Listener) : Prop :=
  ∀ conn < l.accepted, l.returned.count conn = 1 ∧ conn ∉ l.shut ∨ conn ∉ l.returned ∧ conn ∈ l.shut

/-! An Accept behind its startOnce has started the accept loop. -/
section Began

def Task.began : Task → Bool
  | .selecting | .draining => true
  | _ => false

theorem step_began (choice : Choice) {l : Listener} (began : task.began = true → l.started = true) :
    (l.started = true → (step choice task l).1.2.started = true) ∧
      ((step choice task l).1.1.began = true → (step choice task l).1.2.started = true) ∧
      ∀ new ∈ (step choice task l).2, new.began = false := by
  have received : (receive l).started = l.started := by
    unfold receive
    split <;> rfl
  cases task with
  | accept | close =>
    exact ⟨fun _ => rfl, fun _ => rfl, by simp [step, startAcceptLoop, Task.began]⟩
  | selecting =>
    rw [step, select]
    split_ifs <;> simp_all [Task.began]
  | draining => simp [step, received, Task.began]
  | accepting | admitting _ =>
    rw [step]
    split <;> simp [Task.began]
  | delivering result =>
    rw [step, deliver, select]
    split_ifs <;> simp [Task.began]
  | closingListener | handshaking _ | leaving | done => simp [step, Task.began]

def Began (w : World) : Prop := ∀ task ∈ w.tasks, task.began = true → w.listener.started = true

theorem Began.perform {w : World} (all : Began w) (e : Event) :
    Began (TunnelListener.perform w e) := by
  cases e with
  | callAccept | callClose => exact forall_added all (by rintro ⟨⟩)
  | step i choice =>
    rw [TunnelListener.perform]
    cases found : w.tasks[i]? with
    | none => exact all
    | some task =>
      obtain ⟨stays, own, new⟩ := step_began choice (all task (List.mem_of_getElem? found))
      refine List.forall_mem_append.mpr ⟨forall_replaced (fun other there began => ?_) own, ?_⟩
      · exact stays (all other there began)
      · intro other there began
        cases (new other there).symm.trans began

end Began

/-! Nothing comes into the channel any more. -/
section Ended

structure Ended (w : World) : Prop where
  started : w.listener.started = true
  results : w.listener.results = []
  idle : ∀ task ∈ w.tasks, task.idle = true

theorem step_ended (choice : Choice) {l : Listener} (idle : task.idle = true)
    (started : l.started = true) (empty : l.results = []) :
    (step choice task l).1.1.idle = true ∧ (step choice task l).1.2.started = true ∧
      (step choice task l).1.2.results = [] ∧ (step choice task l).2 = [] := by
  have received : receive l = l := by simp [receive, empty]
  cases task with
  | accept | close => simp [step, startAcceptLoop, started, empty, Task.idle]
  | selecting =>
    cases stopped : l.stopped <;> simp [step, select, empty, started, stopped, Task.idle]
  | draining => simp [step, received, started, empty, Task.idle]
  | closingListener | leaving | done => simp [step, started, empty, Task.idle]
  | accepting | admitting _ | handshaking _ | delivering _ => cases idle

theorem Ended.perform {w : World} (ended : Ended w) (e : Event) :
    Ended (TunnelListener.perform w e) := by
  cases e with
  | callAccept | callClose => exact ⟨ended.started, ended.results, forall_added ended.idle rfl⟩
  | step i choice =>
    rw [TunnelListener.perform]
    cases found : w.tasks[i]? with
    | none => exact ended
    | some task =>
      obtain ⟨idle, started, empty, new⟩ := step_ended choice
        (ended.idle task (List.mem_of_getElem? found)) ended.started ended.results
      refine ⟨started, empty, ?_⟩
      dsimp only
      rw [new, List.append_nil]
      exact forall_replaced ended.idle idle

end Ended

/-- When everything has ended and the channel is empty, every connection is accounted for. -/
theorem Placed.accounted {w : World} (placed : Placed w) (settled : Settled w)
    (empty : w.listener.results = []) : Accounted w.listener := by
  intro conn accepted
  have none : w.tasks.countP (holds conn) = 0 := by
    rw [List.countP_eq_zero]
    intro task member
    rcases settled.2 task member with rfl | rfl <;> simp [holds]
  have total := placed conn
  rw [none, kept, empty, List.count_nil, counted, if_pos accepted] at total
  rcases Nat.eq_zero_or_pos (w.listener.returned.count conn) with never | some
  · exact .inr ⟨List.count_eq_zero.mp never, List.count_pos_iff.mp (by omega)⟩
  · exact .inl ⟨by omega, List.count_eq_zero.mp (by omega)⟩

def settle : Choice := ⟨true, .established, true⟩

/-- A call of Accept, and two connections: the first tunnel is returned, the second stays in
the channel. Then Close, and the accept loop ends. -/
def parked : List Event :=
  [.callAccept, .step 0 settle, .step 1 settle, .step 1 settle, .step 2 settle, .step 2 settle,
    .step 2 settle, .step 0 settle, .step 1 settle, .step 1 settle, .step 3 settle, .step 3 settle,
    .step 3 settle, .callClose, .step 4 settle, .step 4 settle, .step 1 settle]

end QuantumGo.TunnelListener
