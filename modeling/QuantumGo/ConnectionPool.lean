import QuantumGo.Interleaving
import QuantumGo.Tunnel

/-!
pkg/tunnel/pool.go, pool_config.go and pool_conn.go: the connection pool. A goroutine is
a task that stands between two lock sections; a run interleaves the lock sections, dials
and timers of any number of tasks. Connections and wait channels have numbers.
-/

namespace QuantumGo.ConnectionPool

open Interleaving
open Tunnel (SessionState)

/-! The configuration. Durations are nanoseconds. -/

structure PoolConfig where
  minConns : Int
  maxConns : Int
  idleTimeout : Int
  maxLifetime : Int
  healthCheckInterval : Int
  waitTimeout : Int
  dialTimeout : Int
  deriving DecidableEq, Repr

def seconds (count : Int) : Int := count * 10 ^ 9

def defaultPoolConfig : PoolConfig where
  minConns := 1
  maxConns := 10
  idleTimeout := seconds 300
  maxLifetime := seconds 1800
  healthCheckInterval := seconds 30
  waitTimeout := seconds 30
  dialTimeout := seconds 10

def orDefault (value default : Int) : Int := if value = 0 then default else value

def PoolConfig.applyDefaults (config : PoolConfig) : PoolConfig where
  minConns := orDefault config.minConns defaultPoolConfig.minConns
  maxConns := orDefault config.maxConns defaultPoolConfig.maxConns
  idleTimeout := orDefault config.idleTimeout defaultPoolConfig.idleTimeout
  maxLifetime := orDefault config.maxLifetime defaultPoolConfig.maxLifetime
  healthCheckInterval := orDefault config.healthCheckInterval defaultPoolConfig.healthCheckInterval
  waitTimeout := orDefault config.waitTimeout defaultPoolConfig.waitTimeout
  dialTimeout := orDefault config.dialTimeout defaultPoolConfig.dialTimeout

def nonNegative (value : Int) (name : String) : Except String Unit :=
  if value < 0 then .error ("pool: " ++ name ++ " cannot be negative") else .ok ()

def PoolConfig.validate (config : PoolConfig) : Except String Unit := do
  nonNegative config.minConns "MinConns"
  nonNegative config.maxConns "MaxConns"
  if config.maxConns > 0 ∧ config.minConns > config.maxConns then
    .error "pool: MinConns cannot exceed MaxConns"
  nonNegative config.idleTimeout "IdleTimeout"
  nonNegative config.maxLifetime "MaxLifetime"
  nonNegative config.healthCheckInterval "HealthCheckInterval"
  nonNegative config.waitTimeout "WaitTimeout"
  nonNegative config.dialTimeout "DialTimeout"

/-! The pool. -/

/-- `unhealthy` are the connections whose handle was closed. A wait channel holds at most
one message: a connection, or nothing, which means try again. -/
structure Pool where
  config : PoolConfig
  conns : List Nat
  idle : List Nat
  waiters : List Nat
  closed : Bool
  pending : Int
  unhealthy : List Nat
  sent : List (Nat × Option Nat)
  closedWaiters : List Nat
  next : Nat
  deriving DecidableEq, Repr

def newPool (config : PoolConfig) : Except String Pool := do
  let config := config.applyDefaults
  config.validate
  return ⟨config, [], [], [], false, 0, [], [], [], 0⟩

structure Look where
  age : Int
  idleTime : Int
  session : Option SessionState

def isHealthy (look : Nat → Look) (p : Pool) (pc : Nat) : Bool :=
  if pc ∈ p.unhealthy then false
  else if p.config.maxLifetime > 0 ∧ (look pc).age > p.config.maxLifetime then false
  else if p.config.idleTimeout > 0 ∧ (look pc).idleTime > p.config.idleTimeout then false
  else
    match (look pc).session with
    | none => false
    | some state => state = .established ∨ state = .rekeying

def total (p : Pool) : Int := p.conns.length + p.pending

def removeConnLocked (pc : Nat) (p : Pool) : Pool :=
  { p with conns := p.conns.erase pc, idle := p.idle.erase pc }

/-- The last of the idle connections that is healthy; `left` bounds the loop. -/
def tryGetIdleLocked (look : Nat → Look) : Nat → Pool → Option Nat × Pool
  | 0, p => (none, p)
  | left + 1, p =>
    match p.idle.getLast? with
    | none => (none, p)
    | some pc =>
      let p := { p with idle := p.idle.dropLast }
      if isHealthy look p pc then (some pc, p)
      else tryGetIdleLocked look left (removeConnLocked pc p)

def wakeWaiterLocked (p : Pool) : Pool :=
  match p.waiters with
  | [] => p
  | ch :: rest => { p with waiters := rest, sent := p.sent ++ [(ch, none)] }

def release (pc : Nat) (p : Pool) : Pool :=
  if p.closed then p
  else if pc ∈ p.unhealthy then wakeWaiterLocked (removeConnLocked pc p)
  else
    match p.waiters with
    | ch :: rest => { p with waiters := rest, sent := p.sent ++ [(ch, some pc)] }
    | [] => { p with idle := p.idle ++ [pc] }

def removeUnhealthy (look : Nat → Look) (p : Pool) : Pool :=
  let bad := p.idle.filter fun pc => !isHealthy look p pc
  bad.foldl (fun p pc => removeConnLocked pc p) { p with idle := p.idle.filter (isHealthy look p) }

def closePool (p : Pool) : Pool :=
  if p.closed then p
  else { p with
    closed := true, closedWaiters := p.closedWaiters ++ p.waiters, waiters := []
    conns := [], idle := [] }

/-! The tasks. -/

/-- Where a goroutine stands. An Acquire made by TryAcquire carries the WaitTimeout to
restore. Only the dials of Acquire hold a slot while they run. -/
inductive Task where
  | start
  | startLoop (left : Nat)
  | startAdd (left pc : Nat)
  | acquire (orig : Option Int)
  | reserved (orig : Option Int)
  | dialed (orig : Option Int) (outcome : Option Nat)
  | waiting (orig : Option Int) (ch : Nat)
  | timedOut (orig : Option Int) (ch : Nat)
  | discarding (orig : Option Int) (pc : Nat)
  | tryAcquire
  | restoring (orig : Int) (handle : Option Nat)
  | holding (pc : Nat)
  | releasing (pc : Nat)
  | checker
  | health
  | deficit
  | healthLoop (left : Nat)
  | healthAdd (left pc : Nat)
  | closing
  | done
  deriving DecidableEq, Repr

/-- How what is outside the pool behaves in a step: a dial succeeds, a timer or a context
ends the wait, the connections look like this. -/
structure Choice where
  dialed : Bool
  timer : Bool
  look : Nat → Look

def handed : Option Nat → Task
  | some pc => .holding pc
  | none => .done

def returned (orig : Option Int) (handle : Option Nat) : Task :=
  match orig with
  | none => handed handle
  | some timeout => .restoring timeout handle

def acquire (look : Nat → Look) (orig : Option Int) (p : Pool) : Task × Pool :=
  if p.closed then (returned orig none, p)
  else
    match tryGetIdleLocked look p.idle.length p with
    | (some pc, p) => (returned orig (some pc), p)
    | (none, p) =>
      if p.config.maxConns = 0 ∨ total p < p.config.maxConns then
        (.reserved orig, { p with pending := p.pending + 1 })
      else if p.config.waitTimeout = 0 then (returned orig none, p)
      else (.waiting orig p.next, { p with waiters := p.waiters ++ [p.next], next := p.next + 1 })

def finishDial (orig : Option Int) (outcome : Option Nat) (p : Pool) : Task × Pool :=
  let p := { p with pending := p.pending - 1 }
  match outcome with
  | none => (returned orig none, wakeWaiterLocked p)
  | some pc =>
    if p.closed then (returned orig none, p)
    else (returned orig (some pc), { p with conns := p.conns ++ [pc] })

def wait (choice : Choice) (orig : Option Int) (ch : Nat) (p : Pool) : Task :=
  if choice.timer then .timedOut orig ch
  else
    match p.sent.lookup ch with
    | some (some pc) => if isHealthy choice.look p pc then returned orig (some pc)
        else .discarding orig pc
    | some none => .acquire orig
    | none => if ch ∈ p.closedWaiters then returned orig none else .waiting orig ch

def addIdle (pc : Nat) (p : Pool) : Pool :=
  { p with conns := p.conns ++ [pc], idle := p.idle ++ [pc] }

def step (choice : Choice) : Task → Pool → Task × Pool
  | .start, p => if p.closed then (.done, p) else (.startLoop p.config.minConns.toNat, p)
  | .startLoop 0, p => (if p.config.healthCheckInterval > 0 then .checker else .done, p)
  | .startLoop (left + 1), p =>
    if choice.dialed then (.startAdd left p.next, { p with next := p.next + 1 })
    else (.startLoop left, p)
  | .startAdd left pc, p => (.startLoop left, addIdle pc p)
  | .acquire orig, p => acquire choice.look orig p
  | .reserved orig, p =>
    -- TryAcquire dials with a context that has expired.
    if choice.dialed = true ∧ orig = none then
      (.dialed orig (some p.next), { p with next := p.next + 1 })
    else (.dialed orig none, p)
  | .dialed orig outcome, p => finishDial orig outcome p
  | .waiting orig ch, p => (wait choice orig ch p, p)
  | .timedOut orig ch, p => (returned orig none, { p with waiters := p.waiters.erase ch })
  | .discarding orig pc, p => (.acquire orig, removeConnLocked pc p)
  | .tryAcquire, p =>
    (.acquire (some p.config.waitTimeout), { p with config := { p.config with waitTimeout := 0 } })
  | .restoring orig handle, p =>
    (handed handle, { p with config := { p.config with waitTimeout := orig } })
  | .holding pc, p => (.holding pc, p)
  | .releasing pc, p => (.done, release pc p)
  | .checker, p => (if p.closed = true ∧ choice.timer = true then .done else .health, p)
  | .health, p => if p.closed then (.checker, p) else (.deficit, removeUnhealthy choice.look p)
  | .deficit, p => (.healthLoop (p.config.minConns - p.conns.length).toNat, p)
  | .healthLoop 0, p => (.checker, p)
  | .healthLoop (left + 1), p =>
    if choice.dialed then (.healthAdd left p.next, { p with next := p.next + 1 })
    else (.checker, p)
  | .healthAdd left pc, p => if p.closed then (.checker, p) else (.healthLoop left, addIdle pc p)
  | .closing, p => (.done, closePool p)
  | .done, p => (.done, p)

/-! Runs. -/

structure World where
  pool : Pool
  tasks : List Task
  deriving DecidableEq, Repr

inductive Request where
  | start
  | acquire
  | tryAcquire
  | close
  deriving DecidableEq, Repr

def Request.task : Request → Task
  | .start => .start
  | .acquire => .acquire none
  | .tryAcquire => .tryAcquire
  | .close => .closing

inductive Event where
  | call (request : Request)
  | step (i : Nat) (choice : Choice)
  | giveBack (i : Nat) (close : Bool)

def perform (w : World) : Event → World
  | .call request => { w with tasks := w.tasks ++ [request.task] }
  | .step i choice =>
    match w.tasks[i]? with
    | none => w
    | some task =>
      let (task, pool) := step choice task w.pool
      ⟨pool, w.tasks.set i task⟩
  | .giveBack i close =>
    match w.tasks[i]? with
    | some (.holding pc) =>
      let unhealthy := if close then pc :: w.pool.unhealthy else w.pool.unhealthy
      ⟨{ w.pool with unhealthy }, w.tasks.set i (.releasing pc)⟩
    | _ => w

def after (events : List Event) (w : World) : World := run perform events w

/-- The event adds a connection that holds no slot: one of Start or of a health check. -/
def unreserved (w : World) : Event → Bool
  | .step i _ =>
    match w.tasks[i]? with
    | some (.startAdd _ _) => true
    | some (.healthAdd _ _) => !w.pool.closed
    | _ => false
  | _ => false

def Roomy (w : World) (e : Event) : Prop :=
  unreserved w e = true → total w.pool < w.pool.config.maxConns

instance (w : World) (e : Event) : Decidable (Roomy w e) := inferInstanceAs (Decidable (_ → _))

/-! What a lock section can do. -/

/-- The tasks of Start, Close and the health checker that have nothing in hand. -/
def quiet : Task → Bool
  | .start | .startLoop _ | .checker | .health | .deficit | .healthLoop _ | .closing | .done => true
  | _ => false

/-- What one step of a task makes of the task and of the pool, with what it saw. -/
inductive Acts (choice : Choice) (p : Pool) : Task → Task → Pool → Prop
  | goes (task task' : Task) (before : quiet task = true) (behind : quiet task' = true) :
      Acts choice p task task' p
  | startDials (left) :
      Acts choice p (.startLoop (left + 1)) (.startAdd left p.next) { p with next := p.next + 1 }
  | startAdds (left pc) : Acts choice p (.startAdd left pc) (.startLoop left) (addIdle pc p)
  | refused (orig) (closed : p.closed = true) : Acts choice p (.acquire orig) (returned orig none) p
  | takes (orig pc conns idle) (live : p.closed = false)
      (found : tryGetIdleLocked choice.look p.idle.length p = (some pc, { p with conns, idle })) :
      Acts choice p (.acquire orig) (returned orig (some pc)) { p with conns, idle }
  | reserves (orig conns idle) (live : p.closed = false)
      (missed : tryGetIdleLocked choice.look p.idle.length p = (none, { p with conns, idle }))
      (free : p.config.maxConns = 0 ∨ conns.length + p.pending < p.config.maxConns) :
      Acts choice p (.acquire orig) (.reserved orig)
        { p with conns, idle, pending := p.pending + 1 }
  | givesUp (orig conns idle) (live : p.closed = false)
      (missed : tryGetIdleLocked choice.look p.idle.length p = (none, { p with conns, idle }))
      (full : p.config.maxConns ≤ conns.length + p.pending) :
      Acts choice p (.acquire orig) (returned orig none) { p with conns, idle }
  | queues (orig conns idle) (live : p.closed = false)
      (missed : tryGetIdleLocked choice.look p.idle.length p = (none, { p with conns, idle }))
      (full : p.config.maxConns ≤ conns.length + p.pending) :
      Acts choice p (.acquire orig) (.waiting orig p.next)
        { p with conns, idle, waiters := p.waiters ++ [p.next], next := p.next + 1 }
  | dials (orig) :
      Acts choice p (.reserved orig) (.dialed orig (some p.next)) { p with next := p.next + 1 }
  | dialFails (orig) : Acts choice p (.reserved orig) (.dialed orig none) p
  | frees (orig) : Acts choice p (.dialed orig none) (returned orig none)
      (wakeWaiterLocked { p with pending := p.pending - 1 })
  | drops (orig pc) (closed : p.closed = true) :
      Acts choice p (.dialed orig (some pc)) (returned orig none)
        { p with pending := p.pending - 1 }
  | pools (orig pc) (live : p.closed = false) :
      Acts choice p (.dialed orig (some pc)) (returned orig (some pc))
        { p with pending := p.pending - 1, conns := p.conns ++ [pc] }
  | timesOut (orig ch) : Acts choice p (.waiting orig ch) (.timedOut orig ch) p
  | gets (orig ch pc) (put : p.sent.lookup ch = some (some pc)) (task' : Task)
      (either : task' = returned orig (some pc) ∨ task' = .discarding orig pc) :
      Acts choice p (.waiting orig ch) task' p
  | retries (orig ch) (told : p.sent.lookup ch = some none) :
      Acts choice p (.waiting orig ch) (.acquire orig) p
  | evicted (orig ch) (empty : p.sent.lookup ch = none)
      (shut : ch ∈ p.closedWaiters) : Acts choice p (.waiting orig ch) (returned orig none) p
  | waits (orig ch) (empty : p.sent.lookup ch = none) :
      Acts choice p (.waiting orig ch) (.waiting orig ch) p
  | leaves (orig ch) : Acts choice p (.timedOut orig ch) (returned orig none)
      { p with waiters := p.waiters.erase ch }
  | discards (orig pc) : Acts choice p (.discarding orig pc) (.acquire orig) (removeConnLocked pc p)
  | saves : Acts choice p .tryAcquire (.acquire (some p.config.waitTimeout))
      { p with config := { p.config with waitTimeout := 0 } }
  | restores (orig handle) : Acts choice p (.restoring orig handle)
      (handed handle) { p with config := { p.config with waitTimeout := orig } }
  | holds (pc) : Acts choice p (.holding pc) (.holding pc) p
  | abandons (pc) (closed : p.closed = true) : Acts choice p (.releasing pc) .done p
  | expels (pc) (live : p.closed = false) (ill : pc ∈ p.unhealthy) :
      Acts choice p (.releasing pc) .done (wakeWaiterLocked (removeConnLocked pc p))
  | hands (pc ch rest) (live : p.closed = false) (well : pc ∉ p.unhealthy)
      (listed : p.waiters = ch :: rest) : Acts choice p (.releasing pc) .done
        { p with waiters := rest, sent := p.sent ++ [(ch, some pc)] }
  | rests (pc) (live : p.closed = false) (well : pc ∉ p.unhealthy) (nobody : p.waiters = []) :
      Acts choice p (.releasing pc) .done { p with idle := p.idle ++ [pc] }
  | heals (live : p.closed = false) : Acts choice p .health .deficit (removeUnhealthy choice.look p)
  | healthDials (left) :
      Acts choice p (.healthLoop (left + 1)) (.healthAdd left p.next) { p with next := p.next + 1 }
  | healthDrops (left pc) (closed : p.closed = true) : Acts choice p (.healthAdd left pc) .checker p
  | healthAdds (left pc) (live : p.closed = false) :
      Acts choice p (.healthAdd left pc) (.healthLoop left) (addIdle pc p)
  | closes (live : p.closed = false) : Acts choice p .closing .done { p with
      closed := true, closedWaiters := p.closedWaiters ++ p.waiters, waiters := []
      conns := [], idle := [] }

section Sections
variable {choice : Choice} {p p' : Pool} {task task' : Task}

/-- The search for an idle connection changes the two lists and nothing else. -/
theorem tryGetIdleLocked_eq (look : Nat → Look) (left : Nat) (p : Pool) :
    ∃ conns idle, (tryGetIdleLocked look left p).2 = { p with conns, idle } ∧
      conns.Sublist p.conns ∧ idle.Sublist p.idle := by
  induction left generalizing p with
  | zero => exact ⟨p.conns, p.idle, rfl, .refl _, .refl _⟩
  | succ left ih =>
    rw [tryGetIdleLocked]
    split
    · exact ⟨p.conns, p.idle, rfl, .refl _, .refl _⟩
    · dsimp only
      split
      · exact ⟨p.conns, _, rfl, .refl _, List.dropLast_sublist _⟩
      · obtain ⟨conns, idle, same, conns_fewer, idle_fewer⟩ := ih (removeConnLocked _ _)
        exact ⟨conns, idle, same, conns_fewer.trans List.erase_sublist,
          idle_fewer.trans (List.erase_sublist.trans (List.dropLast_sublist _))⟩

theorem searched_conns {look : Nat → Look} {left : Nat} {taken : Option Nat} {conns idle : List Nat}
    (found : tryGetIdleLocked look left p = (taken, { p with conns, idle })) :
    conns.Sublist p.conns := by
  obtain ⟨_, _, same, fewer, -⟩ := tryGetIdleLocked_eq look left p
  rw [found] at same
  have kept : conns = _ := congrArg Pool.conns same
  rw [kept]
  exact fewer

theorem acquire_acts (choice : Choice) (orig : Option Int) (p : Pool) : Acts choice p
    (.acquire orig) (acquire choice.look orig p).1 (acquire choice.look orig p).2 := by
  unfold acquire
  split
  · rename_i closed
    exact .refused orig closed
  rename_i live
  rw [Bool.not_eq_true] at live
  obtain ⟨conns, idle, same, -⟩ := tryGetIdleLocked_eq choice.look p.idle.length p
  rcases search : tryGetIdleLocked choice.look p.idle.length p with ⟨_ | pc, q⟩ <;>
    rw [search] at same <;> subst same
  · dsimp only
    split
    · rename_i free
      exact .reserves orig conns idle live search free
    · rename_i used
      have full : p.config.maxConns ≤ conns.length + p.pending :=
        not_lt.mp fun less => used (.inr less)
      split
      · exact .givesUp orig conns idle live search full
      · exact .queues orig conns idle live search full
  · exact .takes orig pc conns idle live search

theorem finishDial_acts (choice : Choice) (orig : Option Int) (outcome : Option Nat) (p : Pool) :
    Acts choice p (.dialed orig outcome) (finishDial orig outcome p).1
      (finishDial orig outcome p).2 := by
  cases outcome with
  | none => exact .frees orig
  | some pc =>
    rw [finishDial]
    split
    · rename_i closed
      exact .drops orig pc closed
    · rename_i live
      exact .pools orig pc (Bool.not_eq_true _ ▸ live)

theorem wait_acts (choice : Choice) (orig : Option Int) (ch : Nat) (p : Pool) :
    Acts choice p (.waiting orig ch) (wait choice orig ch p) p := by
  unfold wait
  split
  · exact .timesOut orig ch
  split
  · rename_i pc put
    refine .gets orig ch pc put _ ?_
    split
    · exact .inl rfl
    · exact .inr rfl
  · rename_i told
    exact .retries orig ch told
  · rename_i empty
    split
    · rename_i shut
      exact .evicted orig ch empty shut
    · exact .waits orig ch empty

theorem release_acts (choice : Choice) (pc : Nat) (p : Pool) :
    Acts choice p (.releasing pc) .done (release pc p) := by
  unfold release
  split
  · rename_i closed
    exact .abandons pc closed
  rename_i live
  rw [Bool.not_eq_true] at live
  split
  · rename_i ill
    exact .expels pc live ill
  rename_i well
  split
  · rename_i ch rest listed
    exact .hands pc ch rest live well listed
  · rename_i nobody
    exact .rests pc live well nobody

theorem step_acts (choice : Choice) (task : Task) (p : Pool) :
    Acts choice p task (step choice task p).1 (step choice task p).2 := by
  have open' {q : Pool} (live : ¬q.closed = true) : q.closed = false := Bool.not_eq_true _ ▸ live
  cases task with
  | start =>
    rw [step]
    split <;> exact .goes _ _ rfl rfl
  | startLoop left =>
    cases left with
    | zero =>
      refine .goes _ _ rfl ?_
      rw [step]
      dsimp only
      split <;> rfl
    | succ left =>
      rw [step]
      split
      · exact .startDials left
      · exact .goes _ _ rfl rfl
  | startAdd left pc => exact .startAdds left pc
  | acquire orig => exact acquire_acts choice orig p
  | reserved orig =>
    rw [step]
    split
    · exact .dials orig
    · exact .dialFails orig
  | dialed orig outcome => exact finishDial_acts choice orig outcome p
  | waiting orig ch => exact wait_acts choice orig ch p
  | timedOut orig ch => exact .leaves orig ch
  | discarding orig pc => exact .discards orig pc
  | tryAcquire => exact .saves
  | restoring orig handle => exact .restores orig handle
  | holding pc => exact .holds pc
  | releasing pc => exact release_acts choice pc p
  | checker =>
    refine .goes _ _ rfl ?_
    rw [step]
    dsimp only
    split <;> rfl
  | health =>
    rw [step]
    split
    · exact .goes _ _ rfl rfl
    · rename_i live
      exact .heals (open' live)
  | deficit => exact .goes _ _ rfl rfl
  | healthLoop left =>
    cases left with
    | zero => exact .goes _ _ rfl rfl
    | succ left =>
      rw [step]
      split
      · exact .healthDials left
      · exact .goes _ _ rfl rfl
  | healthAdd left pc =>
    rw [step]
    split
    · rename_i closed
      exact .healthDrops left pc closed
    · rename_i live
      exact .healthAdds left pc (open' live)
  | closing =>
    rw [step, closePool]
    split
    · exact .goes _ _ rfl rfl
    · rename_i live
      exact .closes (open' live)
  | done => exact .goes _ _ rfl rfl

theorem removeUnhealthy_eq (look : Nat → Look) (p : Pool) : removeUnhealthy look p = { p with
    conns := p.conns.diff (p.idle.filter fun pc => !isHealthy look p pc)
    idle := (p.idle.filter (isHealthy look p)).diff
        (p.idle.filter fun pc => !isHealthy look p pc) } := by
  have removed (bad : List Nat) (q : Pool) : bad.foldl (fun p pc => removeConnLocked pc p) q =
      { q with conns := q.conns.diff bad, idle := q.idle.diff bad } := by
    induction bad generalizing q with
    | nil => simp
    | cons pc rest ih =>
      rw [List.foldl_cons, ih]
      simp only [removeConnLocked, List.diff_cons]
  exact removed _ _

/-- Telling a waiter to try again changes the waiters and the channels and nothing else. -/
theorem wakeWaiterLocked_eq (p : Pool) :
    ∃ waiters sent, wakeWaiterLocked p = { p with waiters, sent } := by
  unfold wakeWaiterLocked
  split
  · exact ⟨p.waiters, p.sent, rfl⟩
  · exact ⟨_, _, rfl⟩

/-! What the lock sections do to the total. -/

/-- Acquire reserves a slot only where one is free, and the slot that a dial gives back is the
one its connection takes. -/
theorem Acts.bounded (acts : Acts choice p task task' p') (positive : 0 < p.config.maxConns)
    (within : total p ≤ p.config.maxConns) (starts : ∀ left pc, task ≠ .startAdd left pc)
    (heals : ∀ left pc, task = .healthAdd left pc → p.closed = true) :
    p'.config.maxConns = p.config.maxConns ∧ total p' ≤ p.config.maxConns := by
  have fewer {conns : List Nat} (less : conns.Sublist p.conns) :
      conns.length + p.pending ≤ p.config.maxConns := by
    have length := less.length_le
    simp only [total] at within
    omega
  cases acts with
  | startAdds left pc => exact absurd rfl (starts left pc)
  | healthAdds left pc live => exact absurd ((heals left pc rfl).symm.trans live) (by simp)
  | takes _ _ _ _ _ found | givesUp _ _ _ _ found | queues _ _ _ _ found =>
    exact ⟨rfl, fewer (searched_conns found)⟩
  | reserves _ _ _ _ _ free =>
    have less := free.resolve_left (by omega)
    refine ⟨rfl, ?_⟩
    simp only [total]
    omega
  | frees =>
    obtain ⟨_, _, woken⟩ := wakeWaiterLocked_eq { p with pending := p.pending - 1 }
    rw [woken]
    exact ⟨rfl, by simp only [total] at within ⊢; omega⟩
  | drops => exact ⟨rfl, by simp only [total] at within ⊢; omega⟩
  | pools =>
    refine ⟨rfl, ?_⟩
    simp only [total, List.length_append, List.length_singleton] at within ⊢
    omega
  | discards => exact ⟨rfl, fewer List.erase_sublist⟩
  | expels pc =>
    obtain ⟨_, _, woken⟩ := wakeWaiterLocked_eq (removeConnLocked pc p)
    rw [woken]
    exact ⟨rfl, fewer List.erase_sublist⟩
  | heals =>
    rw [removeUnhealthy_eq]
    exact ⟨rfl, fewer (List.diff_sublist _ _)⟩
  | closes => exact ⟨rfl, fewer (List.nil_sublist _)⟩
  | _ => exact ⟨rfl, within⟩

end Sections

theorem total_addIdle (pc : Nat) (p : Pool) : total (addIdle pc p) = total p + 1 := by
  simp only [total, addIdle, List.length_append, List.length_singleton]
  omega

/-- An unreserved connection takes the total up by one, whatever it was. -/
theorem perform_unreserved {w : World} {e : Event} (adds : unreserved w e = true) :
    (perform w e).pool.config.maxConns = w.pool.config.maxConns ∧
      total (perform w e).pool = total w.pool + 1 := by
  cases e with
  | call request | giveBack i close => cases adds
  | step i choice =>
    rw [unreserved] at adds
    split at adds
    · rename_i left pc present
      have moved : (perform w (.step i choice)).pool = addIdle pc w.pool := by
        simp only [perform, present, step]
      rw [moved]
      exact ⟨rfl, total_addIdle pc w.pool⟩
    · rename_i left pc present
      have live : ¬ w.pool.closed = true := by simpa using adds
      have moved : (perform w (.step i choice)).pool = addIdle pc w.pool := by
        simp only [perform, present, step, if_neg live]
      rw [moved]
      exact ⟨rfl, total_addIdle pc w.pool⟩
    · cases adds

theorem perform_bounded {w : World} {e : Event} (positive : 0 < w.pool.config.maxConns)
    (within : total w.pool ≤ w.pool.config.maxConns) (spared : ¬ unreserved w e = true) :
    (perform w e).pool.config.maxConns = w.pool.config.maxConns ∧
      total (perform w e).pool ≤ w.pool.config.maxConns := by
  cases e with
  | call request => exact ⟨rfl, within⟩
  | giveBack i close =>
    rw [perform]
    split <;> exact ⟨rfl, within⟩
  | step i choice =>
    cases present : w.tasks[i]? with
    | none =>
      have idle : perform w (.step i choice) = w := by simp only [perform, present]
      rw [idle]
      exact ⟨rfl, within⟩
    | some task =>
      simp only [perform, present]
      apply (step_acts choice task w.pool).bounded positive within
      · rintro left pc rfl
        exact spared (by simp only [unreserved, present])
      · rintro left pc rfl
        simpa only [unreserved, present, Bool.not_eq_true, Bool.not_eq_false'] using spared

/-- The bound in every state of a run, from a state within it. -/
theorem bounded_iff {w : World} {limit : Int} (positive : 0 < limit)
    (limited : w.pool.config.maxConns = limit) (within : total w.pool ≤ limit)
    (events : List Event) :
    (∀ before, before <+: events → total (after before w).pool ≤ limit) ↔
      Along perform Roomy events w := by
  induction events generalizing w with
  | nil =>
    refine iff_of_true (fun before started => ?_) trivial
    rw [List.prefix_nil.mp started]
    exact within
  | cons e rest ih =>
    -- The states of the run are the first one and those of the rest.
    have states : (∀ before, before <+: e :: rest → total (after before w).pool ≤ limit) ↔
        ∀ before, before <+: rest → total (after before (perform w e)).pool ≤ limit := by
      constructor
      · intro bounded before started
        exact bounded (e :: before) (List.cons_prefix_cons.mpr ⟨rfl, started⟩)
      · intro bounded before started
        cases before with
        | nil => exact within
        | cons first before =>
          obtain ⟨rfl, shorter⟩ := List.cons_prefix_cons.mp started
          exact bounded before shorter
    rw [states, Along]
    by_cases adds : unreserved w e = true
    · obtain ⟨limit', grown⟩ := perform_unreserved adds
      have roomy : Roomy w e ↔ total w.pool < limit := by simp [Roomy, adds, limited]
      rw [roomy]
      by_cases free : total w.pool < limit
      · rw [ih (limit'.trans limited) (by omega)]
        exact (and_iff_right free).symm
      · refine iff_of_false (fun bounded => ?_) fun both => free both.1
        have first := bounded [] List.nil_prefix
        rw [after, run, grown] at first
        omega
    · obtain ⟨limit', bounded⟩ := perform_bounded (by omega) (by omega) adds
      rw [ih (limit'.trans limited) (by omega)]
      exact (and_iff_right fun some => absurd some adds).symm

theorem newPool_ok {config : PoolConfig} {p : Pool} (made : newPool config = .ok p) :
    p = ⟨config.applyDefaults, [], [], [], false, 0, [], [], [], 0⟩ := by
  obtain ⟨_, -, kept⟩ := Effect.except_bind_ok_iff.mp made
  exact (Effect.except_pure_ok_iff.mp kept).symm

/-- With a positive MaxConns the connections and the reserved slots stay within it along
a run, exactly if every connection that Start or a health check adds finds a free slot. -/
theorem capacity_iff {config : PoolConfig} {p : Pool} (made : newPool config = .ok p)
    (positive : 0 < config.maxConns) (events : List Event) :
    (∀ before, before <+: events → total (after before ⟨p, []⟩).pool ≤ config.maxConns) ↔
      Along perform Roomy events ⟨p, []⟩ := by
  obtain rfl := newPool_ok made
  have limited : config.applyDefaults.maxConns = config.maxConns := by
    simp only [PoolConfig.applyDefaults, orDefault]
    rw [if_neg (by omega)]
  exact bounded_iff positive limited (by simp only [total, List.length_nil]; omega) events

def smooth : Choice := ⟨true, false, fun _ => ⟨0, 0, some .established⟩⟩

def single : PoolConfig := ⟨1, 1, 0, 0, 0, 0, 0⟩

theorem newPool_single :
    newPool single = .ok ⟨single.applyDefaults, [], [], [], false, 0, [], [], [], 0⟩ := rfl

/-- Start dials its connection, and then Acquire uses it. -/
theorem capacity_kept : ∃ p, newPool single = .ok p ∧
    ∀ before, before <+: [.call .start, .step 0 smooth, .step 0 smooth, .step 0 smooth,
      .call .acquire, .step 1 smooth] → total (after before ⟨p, []⟩).pool ≤ 1 := by
  exact ⟨_, newPool_single, (capacity_iff newPool_single (by decide) _).mpr (by decide)⟩

/-- Acquire reserves the only slot while Start is dialling; both connections join. -/
theorem start_overfills : ∃ p, newPool single = .ok p ∧
    total (after [.call .start, .step 0 smooth, .step 0 smooth, .call .acquire, .step 1 smooth,
      .step 0 smooth] ⟨p, []⟩).pool = 2 ∧
    (after [.call .start, .step 0 smooth, .step 0 smooth, .call .acquire, .step 1 smooth,
      .step 0 smooth, .step 1 smooth, .step 1 smooth] ⟨p, []⟩).pool.conns.length = 2 := by
  refine ⟨_, rfl, ?_⟩
  decide

end QuantumGo.ConnectionPool
