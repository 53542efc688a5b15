import Mathlib.Logic.Function.Iterate
import QuantumGo.DatagramHandshake

/-!
The handshake driver (pkg/tunnel/dgram_handshake_driver.go): retransmission with
backoff, a retry ceiling and the initiator's linger. The clock is read once in each
event and is an argument of it; an unset time is the zero time of the source.
-/

namespace QuantumGo.DatagramDriver

open Octets Effect Symbolic Wire Tunnel Flights
open HonestRuns StreamAgreement
open DatagramHandshake hiding start

def datagramHandshakeMaxRetries : Int := 8

def datagramHandshakeLingerReplays : Nat := 16

inductive DriverStatus where
  | running
  | established
  | failed
  deriving DecidableEq, Repr

structure DgramDriver (Byte : Type) where
  fsm : DgramHandshake Byte
  rtoInitial : Int
  rtoMax : Int
  rto : Int
  retries : Int
  maxRetries : Int
  retransmitAt : Option Int
  lingerAt : Option Int
  replaysLeft : Nat
  status : DriverStatus

variable {Byte : Type} [Octet Byte]

abbrev DriverProg (Byte α : Type) := Prog (DgramDriver Byte) Fault α

def onFsm {α : Type} (method : FsmProg Byte α) : DriverProg Byte α := fun d =>
  match method d.fsm with
  | (outcome, fsm) => (outcome, { d with fsm })

def newDgramDriverWithRTO (session : Session Byte) (rtoInitial rtoMax : Int) :
    DgramDriver Byte where
  fsm := newDgramHandshake session
  rtoInitial := rtoInitial
  rtoMax := rtoMax
  rto := rtoInitial
  retries := 0
  maxRetries := datagramHandshakeMaxRetries
  retransmitAt := none
  lingerAt := none
  replaysLeft := 0
  status := .running

def armRetransmit (now : Int) (d : DgramDriver Byte) : DgramDriver Byte :=
  { d with retransmitAt := some (now + d.rto) }

def lingering (d : DgramDriver Byte) : Bool :=
  decide (d.status = .established) && decide (d.fsm.role = .initiator) && d.lingerAt.isSome

def done (d : DgramDriver Byte) : Bool :=
  decide (d.status = .failed) || (decide (d.status = .established) && !lingering d)

def start (env : Env Byte) (coins : Coins Byte) (now : Int) :
    DriverProg Byte (List (HsMessage Byte)) := do
  let msg ← onFsm (DatagramHandshake.start env coins)
  write (armRetransmit now)
  return msg

/-- A completed initiator lingers for as long as the responder may retransmit. -/
def onComplete (now : Int) (final : List (HsMessage Byte)) :
    DriverProg Byte (List (HsMessage Byte)) := do
  write fun d => { d with status := .established, retransmitAt := none }
  let d ← read
  if d.fsm.role = .initiator then
    write fun d => { d with
      lingerAt := some (now + int64 (d.maxRetries * d.rtoMax))
      replaysLeft := datagramHandshakeLingerReplays }
    return final
  else return final

/-- What the machine's reaction means for the timers. An advance is told from a replay
by whether the handshake's state moved. -/
def onReaction (now : Int) (before : HandshakeState) (out : List (HsMessage Byte))
    (complete : Bool) : DriverProg Byte (List (HsMessage Byte)) := do
  let d ← read
  if out.isEmpty = true ∧ complete = false ∧ d.fsm.hs.state = before then return []
  else if complete = true then onComplete now out
  else if d.fsm.hs.state ≠ before then
    write fun d => armRetransmit now { d with rto := d.rtoInitial, retries := 0 }
    return out
  else if lingering d = true then
    if d.replaysLeft = 0 then return []
    else
      write fun d => { d with replaysLeft := d.replaysLeft - 1 }
      return out
  else return out

def onInbound (env : Env Byte) (coins : Coins Byte) (now : Int) (typ : UInt8) (body : List Byte) :
    DriverProg Byte (List (HsMessage Byte)) := do
  let d ← read
  if d.status = .failed then return []
  else if d.status = .established ∧ lingering d = false then return []
  else
    let reaction ← onFsm (onMessage env coins typ body)
    onReaction now d.fsm.hs.state reaction.1 reaction.2

def onTimeout (now : Int) (d : DgramDriver Byte) : List (HsMessage Byte) × DgramDriver Byte :=
  if lingering d = true ∧ ∃ time ∈ d.lingerAt, time ≤ now then ([], { d with lingerAt := none })
  else if d.status = .running ∧ ∃ time ∈ d.retransmitAt, time ≤ now then
    let retries := int64 (d.retries + 1)
    if retries > d.maxRetries then
      ([], { d with retries, status := .failed, retransmitAt := none })
    else
      (d.fsm.cached, armRetransmit now { d with retries, rto := min (int64 (d.rto * 2)) d.rtoMax })
  else ([], d)

def nextWake (d : DgramDriver Byte) : Option Int :=
  match d.status with
  | .running => d.retransmitAt
  | _ => if lingering d = true then d.lingerAt else none

/-! Runs of a driver. -/

def fresh (session : Session Byte) (rtoInitial rtoMax maxRetries : Int) : DgramDriver Byte :=
  { newDgramDriverWithRTO session rtoInitial rtoMax with maxRetries }

inductive Event (Byte : Type) where
  | inbound (coins : Coins Byte) (now : Int) (typ : UInt8) (body : List Byte)
  | timeout (now : Int)

def handle (env : Env Byte) : Event Byte → DriverProg Byte (List (HsMessage Byte))
  | .inbound coins now typ body => onInbound env coins now typ body
  | .timeout now => fun d => (.ok (onTimeout now d).1, (onTimeout now d).2)

inductive Begun (env : Env Byte) (new : DgramDriver Byte) : DgramDriver Byte → Prop where
  | started {coins : Coins Byte} {now : Int} {out : List (HsMessage Byte)} {d : DgramDriver Byte}
      (role : new.fsm.role = .initiator) (ran : start env coins now new = (.ok out, d)) :
      Begun env new d
  | heard {coins : Coins Byte} {now : Int} {typ : UInt8} {body : List Byte}
      {out : List (HsMessage Byte)} {d : DgramDriver Byte} (role : new.fsm.role = .responder)
      (ran : onInbound env coins now typ body new = (.ok out, d)) : Begun env new d
  | later {d d' : DgramDriver Byte} {event : Event Byte} {out : List (HsMessage Byte)}
      (begun : Begun env new d) (ran : handle env event d = (.ok out, d')) : Begun env new d'

def wake (clock : Int) (d : DgramDriver Byte) : DgramDriver Byte :=
  (onTimeout ((nextWake d).getD clock) d).2

def Expires (d : DgramDriver Byte) : Prop := ∀ clock, ∃ n, done ((wake clock)^[n] d) = true

def Armed (d : DgramDriver Byte) : Prop := d.status = .running → d.retransmitAt.isSome = true

structure Timed (d : DgramDriver Byte) : Prop where
  armed : d.status = .running →
    (d.retransmitAt.isSome = true ↔ d.fsm.role = .initiator ∨ d.fsm.hs.state ≠ .initial)
  counted : d.status = .running → -2 ^ 63 ≤ d.retries ∧ d.retries ≤ max 0 d.maxRetries

variable {before : HandshakeState}

section Events
variable {env : Env Byte} {coins : Coins Byte} {now : Int}

def completedDriver (now : Int) (d : DgramDriver Byte) : DgramDriver Byte :=
  if d.fsm.role = .initiator then
    { d with
      status := .established, retransmitAt := none
      lingerAt := some (now + int64 (d.maxRetries * d.rtoMax))
      replaysLeft := datagramHandshakeLingerReplays }
  else { d with status := .established, retransmitAt := none }

inductive Reacts (now : Int) (before : HandshakeState) (flight : List (HsMessage Byte)) :
    Bool → DgramDriver Byte → List (HsMessage Byte) → DgramDriver Byte → Prop where
  | drops {d : DgramDriver Byte} (silent : flight = []) (same : d.fsm.hs.state = before) :
      Reacts now before flight false d [] d
  | completes {d : DgramDriver Byte} : Reacts now before flight true d flight
    (completedDriver now d)
  | advances {d : DgramDriver Byte} (moved : d.fsm.hs.state ≠ before) :
      Reacts now before flight false d flight
        (armRetransmit now { d with rto := d.rtoInitial, retries := 0 })
  | tires {d : DgramDriver Byte} (same : d.fsm.hs.state = before) (lingers : lingering d = true)
      (spent : d.replaysLeft = 0) : Reacts now before flight false d [] d
  | replays {d : DgramDriver Byte} (same : d.fsm.hs.state = before) (lingers : lingering d = true)
      (left : d.replaysLeft ≠ 0) :
      Reacts now before flight false d flight { d with replaysLeft := d.replaysLeft - 1 }
  | repeats {d : DgramDriver Byte} (same : d.fsm.hs.state = before) (runs : lingering d = false) :
      Reacts now before flight false d flight d

variable {d d' : DgramDriver Byte} {complete : Bool} {flight out : List (HsMessage Byte)}

omit [Octet Byte] in
theorem onReaction_reacts (ran : onReaction now before flight complete d = (.ok out, d')) :
    Reacts now before flight complete d out d' := by
  rw [onReaction, read_bind] at ran
  split at ran
  · rename_i dropped
    obtain ⟨silent, rfl, same⟩ := dropped
    obtain ⟨rfl, rfl⟩ := pure_ok_iff.mp ran
    exact .drops (List.isEmpty_iff.mp silent) same
  split at ran
  · rename_i full
    obtain rfl := full
    rw [onComplete, write_bind, read_bind] at ran
    have ended : Reacts now before flight true d flight (completedDriver now d) := .completes
    unfold completedDriver at ended
    split at ran
    · rename_i role
      obtain ⟨rfl, rfl⟩ := pure_ok_iff.mp ran
      rwa [if_pos role] at ended
    · rename_i role
      obtain ⟨rfl, rfl⟩ := pure_ok_iff.mp ran
      rwa [if_neg role] at ended
  rename_i unfinished
  obtain rfl := Bool.eq_false_of_not_eq_true unfinished
  split at ran
  · rename_i moved
    obtain ⟨rfl, rfl⟩ := pure_ok_iff.mp ran
    exact .advances moved
  rename_i unmoved
  have same := not_not.mp unmoved
  split at ran
  · rename_i lingers
    split at ran
    · rename_i spent
      obtain ⟨rfl, rfl⟩ := pure_ok_iff.mp ran
      exact .tires same lingers spent
    · rename_i left
      obtain ⟨rfl, rfl⟩ := pure_ok_iff.mp ran
      exact .replays same lingers left
  · rename_i runs
    obtain ⟨rfl, rfl⟩ := pure_ok_iff.mp ran
    exact .repeats same (Bool.eq_false_of_not_eq_true runs)

/-- A driver that is done ignores a message; any other gives it to its machine. -/
theorem onInbound_reacts {typ : UInt8} {body : List Byte}
    (ran : onInbound env coins now typ body d = (.ok out, d')) :
    (d.status ≠ .running ∧ lingering d = false ∧ out = [] ∧ d' = d) ∨
    ∃ flight complete fsm, onMessage env coins typ body d.fsm = (.ok (flight, complete), fsm) ∧
      Reacts now d.fsm.hs.state flight complete { d with fsm } out d' := by
  rw [onInbound, read_bind] at ran
  split at ran
  · rename_i failed
    obtain ⟨rfl, rfl⟩ := pure_ok_iff.mp ran
    exact .inl ⟨by simp [failed], by simp [lingering, failed], rfl, rfl⟩
  split at ran
  · rename_i ended
    obtain ⟨rfl, rfl⟩ := pure_ok_iff.mp ran
    exact .inl ⟨by simp [ended.1], ended.2, rfl, rfl⟩
  obtain ⟨⟨flight, complete⟩, d₁, fed, rest⟩ := bind_ok_iff.mp ran
  obtain rfl : { d with fsm := (onMessage env coins typ body d.fsm).2 } = d₁ :=
    congrArg Prod.snd fed
  have outcome : (onMessage env coins typ body d.fsm).1 = .ok (flight, complete) :=
    congrArg Prod.fst fed
  exact .inr ⟨flight, complete, _, Prod.ext outcome rfl, onReaction_reacts rest⟩

omit [Octet Byte] in
theorem onTimeout_fsm (now : Int) (d : DgramDriver Byte) : (onTimeout now d).2.fsm = d.fsm := by
  unfold onTimeout
  split
  · rfl
  · split
    · dsimp only
      split <;> rfl
    · rfl

omit [Octet Byte] in
theorem onTimeout_running (running : (onTimeout now d).2.status = .running) :
    d.status = .running := by
  unfold onTimeout at running
  split at running
  · exact running
  · split at running
    · rename_i due
      exact due.1
    · exact running

omit [Octet Byte] in
theorem reacts_running (reacts : Reacts now before flight complete d out d')
    (running : d'.status = .running) : complete = false ∧ d.status = .running := by
  cases reacts with
  | completes =>
    unfold completedDriver at running
    split at running <;> cases running
  | drops | advances | tires | replays | repeats => exact ⟨rfl, running⟩

omit [Octet Byte] in
theorem reacts_fsm (reacts : Reacts now before flight complete d out d') : d'.fsm = d.fsm := by
  cases reacts with
  | completes =>
    unfold completedDriver
    split <;> rfl
  | drops | advances | tires | replays | repeats => rfl

omit [Octet Byte] in
theorem Timed.onTimeout (timed : Timed d) : Timed (DatagramDriver.onTimeout now d).2 := by
  unfold DatagramDriver.onTimeout
  split
  · exact ⟨timed.armed, timed.counted⟩
  · split
    · rename_i due
      obtain ⟨running, time, scheduled, -⟩ := due
      have armed := (timed.armed running).mp (by rw [Option.mem_def.mp scheduled]; rfl)
      dsimp only
      split
      · exact ⟨nofun, nofun⟩
      · rename_i below
        exact ⟨fun _ => by simpa [armRetransmit] using armed,
          fun _ => ⟨int64_low _, le_max_of_le_right (not_lt.mp below)⟩⟩
    · exact timed

theorem timed_start {fresh : DgramDriver Byte}
    (counted : fresh.status = .running → -2 ^ 63 ≤ fresh.retries ∧
      fresh.retries ≤ max 0 fresh.maxRetries)
    (role : fresh.fsm.role = .initiator)
    (ran : start env coins now fresh = (.ok out, d)) : Timed d := by
  obtain ⟨msg, d', sent, rest⟩ := bind_ok_iff.mp ran
  obtain ⟨rfl⟩ : armRetransmit now d' = d := congrArg Prod.snd rest
  have kept : d'.fsm.role = fresh.fsm.role ∧ d'.status = fresh.status ∧
      d'.retries = fresh.retries ∧ d'.maxRetries = fresh.maxRetries := by
    have same := congrArg Prod.snd sent
    subst same
    exact ⟨start_keeps_role fresh.fsm, rfl, rfl, rfl⟩
  obtain ⟨role', status, retries, ceiling⟩ := kept
  exact ⟨fun _ => by simp [armRetransmit, role', role],
    fun running => by simpa [armRetransmit, retries, ceiling] using counted (status ▸ running)⟩

omit [Octet Byte] in
/-- Only an advance takes a responder out of its initial state, and an advance arms
the timer. -/
theorem Timed.reacts {fsm : DgramHandshake Byte} (timed : Timed d) (role : fsm.role = d.fsm.role)
    (past : d.fsm.role = .responder → d.fsm.hs.state ≠ .initial → fsm.hs.state ≠ .initial)
    (reacts : Reacts now d.fsm.hs.state flight complete { d with fsm } out d') : Timed d' := by
  -- Where the state did not move, nothing the timer depends on has changed.
  have still (same : fsm.hs.state = d.fsm.hs.state) : Timed { d with fsm } :=
    ⟨by simpa only [role, same] using timed.armed, timed.counted⟩
  cases reacts with
  | drops silent same => exact still same
  | completes =>
    have ended (running : (completedDriver now { d with fsm }).status = .running) : False := by
      cases (reacts_running (.completes : Reacts now .initial [] true _ _ _) running).1
    exact ⟨fun running => (ended running).elim, fun running => (ended running).elim⟩
  | advances moved =>
    have away : fsm.role = .initiator ∨ fsm.hs.state ≠ .initial := by
      cases owner : d.fsm.role with
      | initiator => exact .inl (role.trans owner)
      | responder =>
        by_cases first : d.fsm.hs.state = .initial
        · exact .inr (first ▸ moved)
        · exact .inr (past owner first)
    exact ⟨fun _ => by simpa [armRetransmit] using away,
      fun _ => ⟨by simp [armRetransmit], le_max_left _ _⟩⟩
  | tires same => exact still same
  | replays same => exact ⟨(still same).armed, (still same).counted⟩
  | repeats same => exact still same

theorem Timed.onInbound {typ : UInt8} {body : List Byte} (timed : Timed d)
    (ran : DatagramDriver.onInbound env coins now typ body d = (.ok out, d')) : Timed d' := by
  rcases onInbound_reacts ran with ⟨-, -, -, rfl⟩ | ⟨flight, complete, fsm, fed, reacts⟩
  · exact timed
  · obtain rfl : (onMessage env coins typ body d.fsm).2 = fsm := congrArg Prod.snd fed
    exact timed.reacts (onMessage_keeps_role typ body d.fsm)
      (fun responder away => (onMessage_answered typ body d.fsm ⟨responder, away⟩).2) reacts

/-- The rule for what holds of a driver from its first event on. -/
theorem Begun.maintains {holds : DgramDriver Byte → Prop} {new : DgramDriver Byte}
    (begun : Begun env new d) (idle : new.fsm.role = .responder → holds new)
    (starts : ∀ {coins now out d}, new.fsm.role = .initiator →
      start env coins now new = (.ok out, d) → holds d)
    (hears : ∀ {coins now typ body out d d'}, holds d →
      onInbound env coins now typ body d = (.ok out, d') → holds d')
    (wakes : ∀ {now d}, holds d → holds (onTimeout now d).2) : holds d := by
  induction begun with
  | started role ran => exact starts role ran
  | heard role ran => exact hears (idle role) ran
  | @later d d' event out _ ran ih =>
    cases event with
    | inbound coins now typ body => exact hears ih ran
    | timeout now =>
      obtain rfl : (onTimeout now d).2 = d' := congrArg Prod.snd ran
      exact wakes ih

theorem Begun.timed {session : Session Byte} {rtoInitial rtoMax maxRetries : Int}
    (begun : Begun env (fresh session rtoInitial rtoMax maxRetries) d) : Timed d := by
  have counted : -2 ^ 63 ≤ (0 : Int) ∧ 0 ≤ max 0 maxRetries := ⟨by decide, le_max_left _ _⟩
  refine begun.maintains (fun role => ⟨fun _ => ?_, fun _ => counted⟩)
    (timed_start fun _ => counted) Timed.onInbound Timed.onTimeout
  rw [role]
  simp [fresh, newDgramDriverWithRTO, newDgramHandshake, newHandshake]

end Events

/-! What waiting does. -/
section Waiting
variable {d : DgramDriver Byte} {clock : Int}
omit [Octet Byte]

theorem wake_running (clock : Int) {time : Int} (running : d.status = .running)
    (scheduled : d.retransmitAt = some time) :
    wake clock d = if int64 (d.retries + 1) > d.maxRetries then
        { d with retries := int64 (d.retries + 1), status := .failed, retransmitAt := none }
      else armRetransmit time { d with
        retries := int64 (d.retries + 1), rto := min (int64 (d.rto * 2)) d.rtoMax } := by
  by_cases spent : int64 (d.retries + 1) > d.maxRetries <;>
    simp [wake, nextWake, onTimeout, lingering, running, scheduled, spent]

theorem wake_unarmed (running : d.status = .running) (unset : d.retransmitAt = none) :
    wake clock d = d := by
  simp [wake, nextWake, onTimeout, lingering, running, unset]

theorem done_running (running : d.status = .running) : done d = false := by
  simp [done, running]

/-- The retry counter moves towards its ceiling at every wake-up. -/
theorem expires_of_armed (running : d.status = .running) (armed : d.retransmitAt.isSome = true)
    (counted : -2 ^ 63 ≤ d.retries ∧ d.retries ≤ max 0 d.maxRetries)
    (bounded : d.maxRetries < maxInt) :
    Expires d := by
  intro clock
  induction size : (d.maxRetries - d.retries).toNat using Nat.strong_induction_on
      generalizing d with
  | _ left ih =>
    obtain ⟨time, scheduled⟩ := Option.isSome_iff_exists.mp armed
    have exact : int64 (d.retries + 1) = d.retries + 1 := by
      refine int64_of_bounded ?_ ?_ <;> unfold maxInt at * <;> omega
    have woken := wake_running clock running scheduled
    rw [exact] at woken
    by_cases spent : d.retries + 1 > d.maxRetries
    · refine ⟨1, ?_⟩
      rw [Function.iterate_one, woken, if_pos spent]
      rfl
    · rw [if_neg spent] at woken
      have fewer : ((wake clock d).maxRetries - (wake clock d).retries).toNat < left := by
        rw [woken]
        show (d.maxRetries - (d.retries + 1)).toNat < left
        omega
      have counted' : -2 ^ 63 ≤ (wake clock d).retries ∧
          (wake clock d).retries ≤ max 0 (wake clock d).maxRetries := by
        rw [woken]
        show -2 ^ 63 ≤ d.retries + 1 ∧ d.retries + 1 ≤ max 0 d.maxRetries
        omega
      obtain ⟨n, reached⟩ := ih _ fewer (by rw [woken]; exact running) (by rw [woken]; rfl)
        counted' (by rw [woken]; exact bounded) rfl
      exact ⟨n + 1, by rwa [Function.iterate_succ_apply]⟩

theorem expires_of_terminal (terminal : d.status ≠ .running) : Expires d := by
  intro clock
  by_cases finished : done d = true
  · exact ⟨0, finished⟩
  · -- Only an initiator that lingers is left, and its linger ends at the next wake-up.
    have established : d.status = .established := by
      cases status : d.status <;> simp_all [done]
    have lingers : lingering d = true := by simpa [done, established] using finished
    obtain ⟨time, scheduled⟩ : ∃ time, d.lingerAt = some time := by
      refine Option.isSome_iff_exists.mp ?_
      simp only [lingering, Bool.and_eq_true] at lingers
      exact lingers.2
    have woken : wake clock d = { d with lingerAt := none } := by
      simp [wake, nextWake, onTimeout, lingers, established, scheduled]
    refine ⟨1, ?_⟩
    rw [Function.iterate_one, woken]
    simp [done, lingering, established]

/-- Without a deadline, or with a ceiling the counter cannot pass, a running driver
runs for ever. -/
theorem not_expires (running : d.status = .running)
    (stuck : d.retransmitAt = none ∨ maxInt ≤ d.maxRetries) : ¬ Expires d := by
  intro expires
  obtain ⟨n, reached⟩ := expires 0
  have runs : ((wake 0)^[n] d).status = .running := by
    clear reached expires
    induction n generalizing d with
    | zero => exact running
    | succ n ih =>
      rw [Function.iterate_succ_apply]
      cases scheduled : d.retransmitAt with
      | none =>
        rw [wake_unarmed running scheduled]
        exact ih running stuck
      | some time =>
        have unbounded : maxInt ≤ d.maxRetries := by simpa [scheduled] using stuck
        have below : ¬ int64 (d.retries + 1) > d.maxRetries := by
          have := int64_high (d.retries + 1)
          omega
        rw [wake_running _ running scheduled, if_neg below]
        exact ih running (.inr unbounded)
  rw [done_running runs] at reached
  cases reached

end Waiting

/-- A driver is bounded exactly when its handshake got past a responder's initial state
and the retry ceiling can be passed by an `int`. -/
theorem lifetime_bounded_iff {env : Env Byte} {session : Session Byte}
    {rtoInitial rtoMax maxRetries : Int} {d : DgramDriver Byte}
    (begun : Begun env (fresh session rtoInitial rtoMax maxRetries) d) :
    (Expires d ∧ Armed d) ↔ (d.status = .running →
      (d.fsm.role = .initiator ∨ d.fsm.hs.state ≠ .initial) ∧ d.maxRetries < maxInt) := by
  have timed := begun.timed
  constructor
  · rintro ⟨expires, armed⟩ running
    refine ⟨(timed.armed running).mp (armed running), ?_⟩
    by_contra unbounded
    exact not_expires running (.inr (not_lt.mp unbounded)) expires
  · intro condition
    by_cases running : d.status = .running
    · obtain ⟨away, bounded⟩ := condition running
      have armed := (timed.armed running).mpr away
      exact ⟨expires_of_armed running armed (timed.counted running) bounded, fun _ => armed⟩
    · exact ⟨expires_of_terminal running, fun runs => absurd runs running⟩

/-- The honest exchange of two machines in the symbolic build. -/
theorem symbolic_exchange : ∃ i r : Session Letter, i.role = .initiator ∧ r.role = .responder ∧
    Nonempty (Exchange SymbolicKem.env (fun _ => steadyCoins) (fun _ => steadyCoins)
      (newDgramHandshake i).hs (newDgramHandshake r).hs) := by
  obtain ⟨i, r, -, -, compatible, new⟩ := symbolic_sessions
  exact ⟨i, r, compatible.leads, compatible.follows, honest_exchange SymbolicKem.env_ideal
    symbolic_correct compatible (newDgramHandshake_startable new.keyPair new.alive)
    (newDgramHandshake_answerable r) new.known rfl _ _ rfl rfl⟩

/-- A machine that can make its ClientHello, in the symbolic build. -/
theorem symbolic_hello : ∃ (session : Session Letter) (hello : List Letter) (h : Handshake Letter),
    session.role = .initiator ∧ createClientHello SymbolicKem.env steadyCoins
      (newDgramHandshake session).hs = (.ok hello, h) := by
  obtain ⟨i, r, leads, -, ⟨run⟩⟩ := symbolic_exchange
  exact ⟨i, run.clientHello, run.sent, leads, run.hello⟩

/-- An initiator's driver that has sent its ClientHello, in the symbolic build. -/
theorem symbolic_started :
    ∃ (session : Session Letter) (hello : List Letter) (d : DgramDriver Letter),
    session.role = .initiator ∧ d.fsm.role = .initiator ∧ d.status = .running ∧
    d.fsm.cached = [⟨messageTypeClientHello, hello⟩] ∧
    d.maxRetries = datagramHandshakeMaxRetries ∧
    start SymbolicKem.env steadyCoins 0 (fresh session 500 8000 datagramHandshakeMaxRetries) =
      (.ok [⟨messageTypeClientHello, hello⟩], d) := by
  obtain ⟨i, hello, sent, leads, created⟩ := symbolic_hello
  refine ⟨i, hello, armRetransmit 0 { fresh i 500 8000 datagramHandshakeMaxRetries with
    fsm := { newDgramHandshake i with
      hs := sent, cached := [⟨messageTypeClientHello, hello⟩]
      expecting := messageTypeServerHello } }, leads, leads, rfl, rfl, rfl, ?_⟩
  simp only [start, DatagramHandshake.start, onFsm, onHs, run_bind, fresh, newDgramDriverWithRTO,
    created]
  rfl

/-- A driver that sent its ClientHello and hears nothing gives up. -/
theorem lifetime_bounded_symbolic : ∃ (session : Session Letter) (d : DgramDriver Letter),
    Begun SymbolicKem.env (fresh session 500 8000 datagramHandshakeMaxRetries) d ∧
    d.status = .running ∧ Expires d ∧ Armed d := by
  obtain ⟨session, hello, d, leads, role, running, -, ceiling, ran⟩ := symbolic_started
  have begun := Begun.started leads ran
  refine ⟨session, d, begun, running, (lifetime_bounded_iff begun).mpr fun _ => ⟨.inl role, ?_⟩⟩
  rw [ceiling]
  decide

/-- A responder that was sent one message of no meaning waits for ever: no deadline is
set and no wake-up ends it. -/
theorem responder_never_expires : ∃ (session : Session Letter) (d : DgramDriver Letter),
    Begun SymbolicKem.env (fresh session 500 8000 datagramHandshakeMaxRetries) d ∧
    ∀ clock n, done ((wake clock)^[n] d) = false ∧ nextWake ((wake clock)^[n] d) = none := by
  obtain ⟨r, made⟩ : ∃ r, SymbolicKem.IsNew .responder r := ⟨_, rfl⟩
  have follows : r.role = .responder := by
    obtain rfl := Except.ok.inj made
    rfl
  have ran : onInbound SymbolicKem.env steadyCoins 0 0 []
      (fresh r 500 8000 datagramHandshakeMaxRetries) =
      (.ok [], fresh r 500 8000 datagramHandshakeMaxRetries) := by
    simp [onInbound, onReaction, onFsm, onMessage, fresh, newDgramDriverWithRTO, newDgramHandshake,
      follows, run_bind]
  refine ⟨r, _, .heard follows ran, fun clock n => ?_⟩
  have still : (wake clock)^[n] (fresh r 500 8000 datagramHandshakeMaxRetries) =
      fresh r 500 8000 datagramHandshakeMaxRetries :=
    Function.iterate_fixed (wake_unarmed rfl rfl) n
  rw [still]
  exact ⟨rfl, rfl⟩

end QuantumGo.DatagramDriver
