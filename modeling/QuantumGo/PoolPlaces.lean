import QuantumGo.PoolExclusion

/-!
Where the connections of a pool are. A connection of an open pool is idle, or some task has
it: the handle of a caller, a release on its way, or a message in the wait channel of a
task that still listens. A waiter that gives up after a connection was put into its channel
takes that connection with it.
-/

namespace QuantumGo.PoolPlaces

open ConnectionPool PoolHandles PoolExclusion Interleaving

def abandons (p : Pool) : Task → Bool
  | .timedOut _ ch => ((p.sent.lookup ch).getD none).isSome
  | _ => false

/-- No waiter that gives up leaves a connection behind. -/
def Calm (w : World) : Event → Prop
  | .step i _ => ∀ task ∈ w.tasks[i]?, abandons w.pool task = false
  | _ => True

instance (w : World) (e : Event) : Decidable (Calm w e) := by
  cases e with
  | call _ => exact .isTrue trivial
  | step i _ =>
    exact inferInstanceAs (Decidable (∀ task ∈ w.tasks[i]?, abandons w.pool task = false))
  | giveBack _ _ => exact .isTrue trivial

/-- No operation is in progress: handles are out and the health checker sleeps. -/
def Quiet (w : World) : Prop :=
  ∀ task ∈ w.tasks, task = .done ∨ task = .checker ∨ ∃ pc, task = .holding pc

/-- Where things went in one step of a task. A connection is idle, in this task's hands, in
a waiter's channel, or where it was before. -/
structure Moves (task : Task) (p : Pool) (task' : Task) (p' : Pool) : Prop where
  live : p'.closed = false → p.closed = false
  messages : ∀ ch message, p.sent.lookup ch = some message → p'.sent.lookup ch = some message
  idle : p'.closed = false → ∀ pc ∈ p.idle, pc ∈ p'.conns → pc ∈ p'.idle ∨ Has p' task' pc
  had : p'.closed = false → ∀ pc, Has p task pc → pc ∈ p'.conns → pc ∈ p'.idle ∨
    Has p' task' pc ∨ (channel task = none ∧ ∃ ch ∈ p.waiters, p'.sent.lookup ch = some (some pc))
  added : ∀ pc ∈ p'.conns, pc ∈ p.conns ∨ pc ∈ p'.idle ∨ Has p' task' pc

variable {pc : Nat}

section Steps
variable {choice : Choice} {p p' : Pool} {task task' : Task}

theorem removed_absent (sound : Sound p) (pc : Nat) : pc ∉ (removeConnLocked pc p).conns :=
  sound.conns.not_mem_erase

theorem removed_idle {other : Nat} (sound : Sound p) (member : other ∈ p.idle)
    (stays : other ∈ (removeConnLocked pc p).conns) : other ∈ (removeConnLocked pc p).idle := by
  have apart : other ≠ pc := by
    rintro rfl
    exact removed_absent sound other stays
  exact (List.mem_erase_of_ne apart).mpr member

/-- An idle connection stays idle, is taken, or leaves the pool. -/
theorem tryGetIdleLocked_idle (look : Nat → Look) (left : Nat) (sound : Sound p)
    (member : pc ∈ p.idle) (stays : pc ∈ (tryGetIdleLocked look left p).2.conns) :
    pc ∈ (tryGetIdleLocked look left p).2.idle ∨ (tryGetIdleLocked look left p).1 = some pc := by
  induction left generalizing p with
  | zero => exact .inl member
  | succ left ih =>
    rw [tryGetIdleLocked] at stays ⊢
    split at stays
    · exact .inl member
    · rename_i last found
      have popped : Sound { p with idle := p.idle.dropLast } := { sound with }
      have split : pc ∈ p.idle.dropLast ∨ pc = last := by
        obtain ⟨front, whole⟩ := List.getLast?_eq_some_iff.mp found
        rw [whole] at member ⊢
        simpa using member
      dsimp only at stays ⊢
      by_cases healthy : isHealthy look { p with idle := p.idle.dropLast } last = true
      · rw [if_pos healthy] at stays ⊢
        rcases split with front | rfl
        · exact .inl front
        · exact .inr rfl
      · rw [if_neg healthy] at stays ⊢
        -- The connection that was popped is gone, so the one in question is another.
        have survives : pc ∈ (removeConnLocked last { p with idle := p.idle.dropLast }).conns := by
          obtain ⟨_, _, same, fewer, -⟩ :=
            tryGetIdleLocked_eq look left (removeConnLocked last { p with idle := p.idle.dropLast })
          rw [same] at stays
          exact fewer.subset stays
        rcases split with front | rfl
        · exact ih (popped.fewer List.erase_sublist) (removed_idle popped front survives) stays
        · exact absurd survives (removed_absent popped pc)

theorem removeUnhealthy_idle (look : Nat → Look) (sound : Sound p) (member : pc ∈ p.idle)
    (stays : pc ∈ (removeUnhealthy look p).conns) : pc ∈ (removeUnhealthy look p).idle := by
  rw [removeUnhealthy_eq] at stays ⊢
  have good : pc ∉ p.idle.filter fun pc => !isHealthy look p pc :=
    (sound.conns.mem_sdiff_iff.mp stays).2
  have healthy : isHealthy look p pc = true := by
    by_contra ill
    exact good (List.mem_filter.mpr ⟨member, by simpa using ill⟩)
  exact List.mem_diff_of_mem (List.mem_filter.mpr ⟨member, healthy⟩) good

theorem has_later
    (messages : ∀ ch message, p.sent.lookup ch = some message → p'.sent.lookup ch = some message)
    (has : Has p task pc) : Has p' task pc :=
  has.imp_right fun ⟨ch, listens, put⟩ => ⟨ch, listens, messages ch _ put⟩

theorem Moves.wake (moves : Moves task p task' p') : Moves task p task' (wakeWaiterLocked p') := by
  obtain ⟨conns, idle, closed, -⟩ := wake_frame p'
  have later {pc : Nat} (has : Has p' task' pc) : Has (wakeWaiterLocked p') task' pc :=
    has_later (fun _ _ => wake_messages) has
  refine ⟨fun live => moves.live (closed ▸ live), fun ch message found => ?_,
    fun live pc member stays => ?_, fun live pc has stays => ?_, fun pc member => ?_⟩
  · exact wake_messages (moves.messages ch message found)
  · rw [idle]
    exact (moves.idle (closed ▸ live) pc member (conns ▸ stays)).imp_right later
  · rw [idle]
    refine (moves.had (closed ▸ live) pc has (conns ▸ stays)).imp_right (Or.imp later ?_)
    rintro ⟨silent, ch, listed, put⟩
    exact ⟨silent, ch, listed, wake_messages put⟩
  · rw [idle]
    exact (moves.added pc (conns ▸ member)).imp_right (Or.imp_right later)

/-- A step that moves no connection: the task keeps what it has. -/
theorem Moves.still (conns : p'.conns = p.conns) (idle : p'.idle = p.idle) (sent : p'.sent = p.sent)
    (closed : p'.closed = p.closed) (kept : ∀ pc, Has p task pc → Has p' task' pc) :
    Moves task p task' p' where
  live live := closed ▸ live
  messages _ _ found := sent ▸ found
  idle _ _ member _ := .inl (idle ▸ member)
  had _ pc has _ := .inr (.inl (kept pc has))
  added _ member := .inl (conns ▸ member)

/-- A step of a task that has nothing and may remove connections. -/
theorem Moves.fewer (carried : carries task = none) (unlistening : channel task = none)
    (conns : p'.conns.Sublist p.conns) (sent : p'.sent = p.sent) (closed : p'.closed = p.closed)
    (idle : ∀ pc ∈ p.idle, pc ∈ p'.conns → pc ∈ p'.idle ∨ carries task' = some pc) :
    Moves task p task' p' where
  live live := closed ▸ live
  messages _ _ found := sent ▸ found
  idle _ pc member stays := (idle pc member stays).imp_right .inl
  had _ pc has _ := absurd has (not_has carried unlistening pc)
  added _ member := .inl (conns.subset member)

theorem addIdle_moves (carried : carries task = none) (unlistening : channel task = none) :
    Moves task p task' (addIdle pc p) where
  live := id
  messages _ _ := id
  idle _ other member _ := .inl (List.mem_append_left _ member)
  had _ other has _ := absurd has (not_has carried unlistening other)
  added other member := by
    rcases List.mem_append.mp member with before | last
    · exact .inl before
    · exact .inr (.inl (List.mem_append_right _ last))

theorem removed_moves (sound : Sound p) (carried : carries task = some pc)
    (unlistening : channel task = none) : Moves task p task' (removeConnLocked pc p) where
  live := id
  messages _ _ := id
  idle _ other member stays := .inl (removed_idle sound member stays)
  had _ other has stays := by
    rcases has with same | ⟨ch, listens, _⟩
    · cases carried.symm.trans same
      exact absurd stays (removed_absent sound pc)
    · exact absurd (unlistening.symm.trans listens) (by simp)
  added _ member := .inl (List.mem_of_mem_erase member)

/-- Every step says where each connection went, unless it leaves one in a channel. -/
theorem sound_moves (sound : Sound p) (acts : Acts choice p task task' p')
    (calm : abandons p task = false) : Moves task p task' p' := by
  have idle {taken : Option Nat} {conns idle : List Nat}
      (found : tryGetIdleLocked choice.look p.idle.length p = (taken, { p with conns, idle }))
      (pc : Nat) (member : pc ∈ p.idle) (stays : pc ∈ conns) : pc ∈ idle ∨ taken = some pc := by
    have goes := tryGetIdleLocked_idle choice.look p.idle.length sound member
    rw [found] at goes
    exact goes stays
  cases acts with
  | goes _ _ before =>
    obtain ⟨carried, unlistening, -⟩ := quiet_bare before
    exact .still rfl rfl rfl rfl fun pc has => absurd has (not_has carried unlistening pc)
  | startDials | dials | healthDials | refused | dialFails | drops | healthDrops | saves =>
    exact .still rfl rfl rfl rfl fun pc has => absurd has (not_has rfl rfl pc)
  | startAdds | healthAdds => exact addIdle_moves rfl rfl
  | takes orig pc _ _ _ found =>
    refine .fewer rfl rfl (searched_conns found) rfl rfl fun other member stays => ?_
    rw [carries_returned]
    exact idle found other member stays
  | reserves _ _ _ _ missed | givesUp _ _ _ _ missed | queues _ _ _ _ missed =>
    exact .fewer rfl rfl (searched_conns missed) rfl rfl fun pc member stays =>
      .inl ((idle missed pc member stays).resolve_right (by simp))
  | frees =>
    exact Moves.wake (.still rfl rfl rfl rfl fun pc has => absurd has (not_has rfl rfl pc))
  | pools orig pc =>
    exact
      { live := id
        messages := fun _ _ => id
        idle := fun _ other member _ => .inl member
        had := fun _ other has _ => absurd has (not_has rfl rfl other)
        added := fun other member => by
          rcases List.mem_append.mp member with before | last
          · exact .inl before
          · cases List.mem_singleton.mp last
            exact .inr (.inr (.inl (by simp))) }
  | timesOut orig ch | waits orig ch =>
    refine .still rfl rfl rfl rfl ?_
    rintro pc (⟨⟨⟩⟩ | ⟨_, ⟨⟩, put⟩)
    exact .inr ⟨ch, rfl, put⟩
  | gets orig ch pc put _ either =>
    refine .still rfl rfl rfl rfl ?_
    rintro pc (⟨⟨⟩⟩ | ⟨_, ⟨⟩, found⟩)
    cases put.symm.trans found
    rcases either with rfl | rfl
    · exact .inl (by simp)
    · exact .inl rfl
  | retries _ _ empty | evicted _ _ empty =>
    refine .still rfl rfl rfl rfl ?_
    rintro pc (⟨⟨⟩⟩ | ⟨_, ⟨⟩, put⟩)
    cases empty.symm.trans put
  | leaves =>
    -- Nothing was put into the channel of the waiter that gives up.
    refine .still rfl rfl rfl rfl ?_
    rintro pc (⟨⟨⟩⟩ | ⟨_, ⟨⟩, put⟩)
    simp [abandons, put] at calm
  | discards => exact removed_moves sound rfl rfl
  | restores orig held =>
    refine .still rfl rfl rfl rfl ?_
    rintro pc (carried | ⟨_, ⟨⟩, _⟩)
    exact .inl ((carries_handed held).trans carried)
  | holds => exact .still rfl rfl rfl rfl fun _ => id
  | abandons _ closed =>
    have shut (live : p.closed = false) : False := absurd (closed.symm.trans live) (by simp)
    exact ⟨id, fun _ _ => id, fun live => (shut live).elim, fun live => (shut live).elim,
      fun _ => .inl⟩
  | expels => exact (removed_moves sound rfl rfl).wake
  | hands pc ch rest live well listed =>
    have member : ch ∈ p.waiters := listed ▸ List.mem_cons_self
    exact
      { live := id
        messages := fun _ _ => lookup_sent
        idle := fun _ other member _ => .inl member
        had := by
          rintro - other (⟨⟨⟩⟩ | ⟨_, ⟨⟩, _⟩) -
          -- The channel of a waiter was empty, so the connection is what it now holds.
          exact .inr (.inr ⟨rfl, ch, member, by simp [List.lookup_append, sound.unsent ch member]⟩)
        added := fun _ => .inl }
  | rests pc =>
    exact
      { live := id
        messages := fun _ _ => id
        idle := fun _ other member _ => .inl (List.mem_append_left _ member)
        had := by
          rintro - other (⟨⟨⟩⟩ | ⟨_, ⟨⟩, _⟩) -
          exact .inl (List.mem_append_right _ (List.mem_singleton.mpr rfl))
        added := fun _ => .inl }
  | heals =>
    have stays (pc : Nat) (member : pc ∈ p.idle) := removeUnhealthy_idle choice.look sound member
    rw [removeUnhealthy_eq] at stays ⊢
    exact .fewer rfl rfl (List.diff_sublist _ _) rfl rfl fun pc member there =>
      .inl (stays pc member there)
  | closes => exact ⟨by simp, fun _ _ => id, by simp, by simp, by simp⟩

end Steps

/-! Runs. -/

structure Tracked (w : World) : Prop where
  exclusive : Exclusive w
  placed : w.pool.closed = false → ∀ pc ∈ w.pool.conns,
    pc ∈ w.pool.idle ∨ ∃ (i : Nat), ∃ task ∈ w.tasks[i]?, Has w.pool task pc

section Runs
variable {w : World}

/-- What one task does, with what the others keep. -/
theorem Tracked.moves {i : Nat} {task task' : Task} {p' : Pool} (tracked : Tracked w)
    (found : w.tasks[i]? = some task) (exclusive : Exclusive ⟨p', w.tasks.set i task'⟩)
    (moves : Moves task w.pool task' p') : Tracked ⟨p', w.tasks.set i task'⟩ := by
  have there (j : Nat) (other : Task) (kept : j = i ∧ other = task' ∨ j ≠ i ∧
      w.tasks[j]? = some other) : (w.tasks.set i task')[j]? = some other :=
    (getElem?_replaced found j other).mpr kept
  refine ⟨exclusive, fun live pc member => ?_⟩
  have own (has : Has p' task' pc) :
      ∃ (j : Nat), ∃ other ∈ (w.tasks.set i task')[j]?, Has p' other pc :=
    ⟨i, task', there i task' (.inl ⟨rfl, rfl⟩), has⟩
  rcases moves.added pc member with before | now
  · rcases tracked.placed (moves.live live) pc before with idle | ⟨j, other, present, has⟩
    · exact (moves.idle live pc idle member).imp_right own
    by_cases same : j = i
    · subst same
      cases found.symm.trans present
      rcases moves.had live pc has member with idle | kept | ⟨silent, ch, waits, put⟩
      · exact .inl idle
      · exact .inr (own kept)
      · -- The waiter whose channel got the connection is another task.
        obtain ⟨k, listener, waiting, listens⟩ := tracked.exclusive.listening ch waits
        have other : k ≠ j := by
          rintro rfl
          cases found.symm.trans waiting
          exact absurd (silent.symm.trans listens) (by simp)
        exact .inr ⟨k, listener, there k listener (.inr ⟨other, waiting⟩), .inr ⟨ch, listens, put⟩⟩
    · exact .inr ⟨j, other, there j other (.inr ⟨same, present⟩), has_later moves.messages has⟩
  · exact now.imp_right own

theorem Tracked.perform (tracked : Tracked w) (e : Event) (calm : Calm w e) :
    Tracked (ConnectionPool.perform w e) := by
  have exclusive := tracked.exclusive.perform e
  cases e with
  | call request =>
    refine ⟨exclusive, fun live pc member => (tracked.placed live pc member).imp_right ?_⟩
    rintro ⟨i, task, there, has⟩
    have inside := (List.getElem?_eq_some_iff.mp there).1
    exact ⟨i, task, (List.getElem?_append_left inside).trans there, has⟩
  | step i choice =>
    rw [ConnectionPool.perform] at exclusive ⊢
    cases found : w.tasks[i]? with
    | none => exact tracked
    | some task =>
      rw [found] at exclusive
      exact tracked.moves found exclusive
        (sound_moves tracked.exclusive.sound (step_acts choice task w.pool) (calm task found))
  | giveBack i close =>
    rw [ConnectionPool.perform] at exclusive ⊢
    split
    · rename_i pc found
      rw [found] at exclusive
      refine tracked.moves found exclusive (.still rfl rfl rfl rfl ?_)
      rintro other (carried | ⟨_, ⟨⟩, _⟩)
      exact .inl carried
    · exact tracked

theorem tracked_new {config : PoolConfig} {p : Pool} (made : newPool config = .ok p) :
    Tracked ⟨p, []⟩ := by
  refine ⟨exclusive_new made, ?_⟩
  obtain rfl := newPool_ok made
  simp

/-- In an open pool with no operation in progress, a connection that is not idle is in the
hands of a caller, as long as no waiter gave up a channel that held a connection. -/
theorem connections_placed {config : PoolConfig} {p : Pool} (made : newPool config = .ok p)
    (events : List Event) (calm : Along perform Calm events ⟨p, []⟩) :
    ∀ before, before <+: events → (after before ⟨p, []⟩).pool.closed = false →
      Quiet (after before ⟨p, []⟩) → ∀ pc ∈ (after before ⟨p, []⟩).pool.conns,
        pc ∈ (after before ⟨p, []⟩).pool.idle ∨ .holding pc ∈ (after before ⟨p, []⟩).tasks := by
  rintro before ⟨rest, rfl⟩ live quiet pc member
  have tracked : Tracked (after before ⟨p, []⟩) :=
    invariant_run (fun _ e calm tracked => tracked.perform e calm) calm.initial (tracked_new made)
  rcases tracked.placed live pc member with idle | ⟨i, task, there, has⟩
  · exact .inl idle
  · have listed := List.mem_of_getElem? there
    rcases quiet task listed with rfl | rfl | ⟨held, rfl⟩
    · exact absurd has (not_has rfl rfl pc)
    · exact absurd has (not_has rfl rfl pc)
    · rcases has with carried | ⟨ch, listens, _⟩
      · cases carried
        exact .inr listed
      · simp [channel] at listens

/-- One caller acquires and releases the only connection, and another gets it through its
wait channel. -/
theorem handover_placed : ∃ p, newPool single = .ok p ∧
    ∀ before, before <+: [.call .acquire, .step 0 smooth, .step 0 smooth, .step 0 smooth,
      .call .acquire, .step 1 smooth, .giveBack 0 false, .step 0 smooth, .step 1 smooth] →
      (after before ⟨p, []⟩).pool.closed = false → Quiet (after before ⟨p, []⟩) →
      ∀ pc ∈ (after before ⟨p, []⟩).pool.conns,
        pc ∈ (after before ⟨p, []⟩).pool.idle ∨ .holding pc ∈ (after before ⟨p, []⟩).tasks := by
  exact ⟨_, newPool_single, connections_placed newPool_single _ (by decide)⟩

/-- The waiter's timer fires, the other caller's Release puts the connection into the wait
channel, and then the waiter leaves. The pool is open and at rest, and its connection is
neither idle nor held. -/
theorem timeout_loses : ∃ p, newPool single = .ok p ∧
    let w := after [.call .acquire, .step 0 smooth, .step 0 smooth, .step 0 smooth,
      .call .acquire, .step 1 smooth, .giveBack 0 false, .step 1 late, .step 0 smooth,
      .step 1 smooth] ⟨p, []⟩
    w.pool.closed = false ∧ w.tasks = [.done, .done] ∧ w.pool.conns = [0] ∧ w.pool.idle = [] := by
  refine ⟨_, rfl, ?_⟩
  decide

end Runs

end QuantumGo.PoolPlaces
