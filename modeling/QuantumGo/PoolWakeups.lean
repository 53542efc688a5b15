import QuantumGo.PoolExclusion

/-!
Wake-ups of the pool. What a caller of Acquire could take, idle connections and free slots,
is set against the tasks that are on their way to take it: those that stand before Acquire's
lock and the waiters that were told to try again. While somebody waits, there are as many
of them as there is to take, unless a waiter gives up with such a message in its channel or
a connection is added past the limit.
-/

namespace QuantumGo.PoolWakeups

open ConnectionPool PoolHandles PoolExclusion Interleaving

def room (p : Pool) : Nat := p.idle.length + (p.config.maxConns - total p).toNat

def tries (p : Pool) : Task → Bool
  | .acquire _ => true
  | .waiting _ ch | .timedOut _ ch => p.sent.lookup ch = some none
  | _ => false

/-- A waiter that gives up while others wait was not told to try again, and a connection
is added without a reservation only if a slot is free or nobody waits. -/
def prompt (p : Pool) : Task → Bool
  | .timedOut _ ch => p.waiters = [] ∨ p.sent.lookup ch ≠ some none
  | .startAdd _ _ => p.waiters = [] ∨ total p < p.config.maxConns
  | .healthAdd _ _ => p.closed ∨ p.waiters = [] ∨ total p < p.config.maxConns
  | _ => true

def Prompt (w : World) : Event → Prop
  | .step i _ => ∀ task ∈ w.tasks[i]?, prompt w.pool task = true
  | _ => True

instance (w : World) (e : Event) : Decidable (Prompt w e) :=
  match e with
  | .call _ => .isTrue trivial
  | .step i _ => inferInstanceAs (Decidable (∀ task ∈ w.tasks[i]?, prompt w.pool task = true))
  | .giveBack _ _ => .isTrue trivial

variable {p : Pool}

/-! What the lock sections do to the room. -/

section Rooms
variable {p' : Pool}

theorem room_remove (pc : Nat) (p : Pool) : room (removeConnLocked pc p) ≤ room p + 1 := by
  have idle : (p.idle.erase pc).length ≤ p.idle.length := List.length_erase_le
  have conns : p.conns.length ≤ (p.conns.erase pc).length + 1 := by
    rw [List.length_erase]
    split <;> omega
  simp only [room, total, removeConnLocked]
  omega

theorem room_pop {last : Nat} (found : p.idle.getLast? = some last) :
    room { p with idle := p.idle.dropLast } + 1 = room p := by
  have some : p.idle ≠ [] := by
    intro empty
    simp [empty] at found
  have positive : 0 < p.idle.length := List.length_pos_iff.mpr some
  simp only [room, total, List.length_dropLast]
  omega

theorem tryGetIdleLocked_room (look : Nat → Look) (left : Nat) (p : Pool) :
    room (tryGetIdleLocked look left p).2 +
      (if (tryGetIdleLocked look left p).1.isSome then 1 else 0) ≤ room p := by
  induction left generalizing p with
  | zero => simp [tryGetIdleLocked]
  | succ left ih =>
    rw [tryGetIdleLocked]
    split
    · simp
    · rename_i last found
      have popped := room_pop found
      dsimp only
      split
      · simpa using popped.le
      · have removed := room_remove last { p with idle := p.idle.dropLast }
        exact (ih _).trans (removed.trans popped.le)

/-- A search that finds nothing has seen every idle connection. -/
theorem tryGetIdleLocked_exhausts (look : Nat → Look) (left : Nat) (p : Pool)
    (enough : p.idle.length ≤ left) (missed : (tryGetIdleLocked look left p).1 = none) :
    (tryGetIdleLocked look left p).2.idle = [] := by
  induction left generalizing p with
  | zero => exact List.eq_nil_of_length_eq_zero (Nat.le_zero.mp enough)
  | succ left ih =>
    rw [tryGetIdleLocked] at missed ⊢
    split at missed
    · rename_i empty
      exact List.getLast?_eq_none_iff.mp empty
    · rename_i last found
      dsimp only at missed ⊢
      split at missed
      · cases missed
      · rename_i ill
        rw [if_neg ill]
        refine ih _ ?_ missed
        have shorter : (p.idle.dropLast.erase last).length ≤ p.idle.dropLast.length :=
          List.length_erase_le
        rw [List.length_dropLast] at shorter
        exact shorter.trans (by omega)

theorem removeUnhealthy_room (look : Nat → Look) (p : Pool) :
    room (removeUnhealthy look p) ≤ room p := by
  have all (bad : List Nat) (q : Pool) :
      room (bad.foldl (fun p pc => removeConnLocked pc p) q) ≤ room q + bad.length := by
    induction bad generalizing q with
    | nil => simp
    | cons pc rest ih =>
      have first := room_remove pc q
      have others := ih (removeConnLocked pc q)
      rw [List.foldl_cons, List.length_cons]
      omega
  have parts := List.length_eq_length_filter_add (l := p.idle) (isHealthy look p)
  have kept := all (p.idle.filter fun pc => !isHealthy look p pc)
    { p with idle := p.idle.filter (isHealthy look p) }
  refine kept.trans ?_
  simp only [room, total]
  omega

end Rooms

/-! One step. -/

structure Spends (task : Task) (p : Pool) (task' : Task) (p' : Pool) : Prop where
  limit : p'.config.maxConns = p.config.maxConns
  live : p'.closed = false → p.closed = false
  told : ∀ ch, p'.sent.lookup ch = some none ↔ p.sent.lookup ch = some none
  room : p'.closed = false → p'.waiters ≠ [] → room p' = 0 ∨ p.waiters ≠ [] ∧
    room p' + (if tries p task then 1 else 0) ≤ room p + (if tries p' task' then 1 else 0)
  sent : ∀ ch, p'.sent.lookup ch = none → p.sent.lookup ch = none
  kept : p'.closed = false → ∀ ch ∈ p.waiters, channel task ≠ some ch →
    ch ∈ p'.waiters ∨ p'.sent.lookup ch ≠ none
  listed : ∀ ch, channel task' = some ch →
    ch ∈ p'.waiters ∨ channel task = some ch ∧ p'.waiters = p.waiters

structure Wakes (task : Task) (p : Pool) (task' : Task) (q : Pool) : Prop where
  limit : q.config.maxConns = p.config.maxConns
  live : q.closed = false → p.closed = false
  waiters : q.waiters = p.waiters
  sent : q.sent = p.sent
  room : room q ≤ room p + 1
  silent : channel task = none ∧ tries p task = false
  left : channel task' = none ∧ tries p task' = false

variable {task task' : Task}

section Steps
variable {choice : Choice} {p' : Pool}

/-- A step that changes neither the waiters nor the channels. -/
theorem Spends.still (limit : p'.config.maxConns = p.config.maxConns)
    (closed : p'.closed = p.closed) (waiters : p'.waiters = p.waiters) (sent : p'.sent = p.sent)
    (listens : ∀ ch, channel task' = some ch → channel task = some ch)
    (room : p'.closed = false → p'.waiters ≠ [] → PoolWakeups.room p' +
      (if tries p task then 1 else 0) ≤ PoolWakeups.room p + (if tries p' task' then 1 else 0)) :
    Spends task p task' p' where
  limit := limit
  live live := closed ▸ live
  told ch := by rw [sent]
  room live waits := .inr ⟨waiters ▸ waits, room live waits⟩
  sent ch empty := sent ▸ empty
  kept _ ch member _ := .inl (waiters ▸ member)
  listed ch listening := .inr ⟨listens ch listening, waiters⟩

/-- A step between tasks that do not try and do not listen. -/
theorem Spends.aside (limit : p'.config.maxConns = p.config.maxConns)
    (closed : p'.closed = p.closed) (waiters : p'.waiters = p.waiters) (sent : p'.sent = p.sent)
    (silent : tries p task = false) (unlistening : channel task' = none)
    (room : p'.closed = false → p'.waiters ≠ [] → PoolWakeups.room p' ≤ PoolWakeups.room p) :
    Spends task p task' p' := by
  refine .still limit closed waiters sent (by simp [unlistening]) fun live waits => ?_
  rw [silent]
  exact (room live waits).trans (Nat.le_add_right _ _)

theorem stays_spends (silent : tries p task = false) (unlistening : channel task' = none) :
    Spends task p task' p :=
  .aside rfl rfl rfl rfl silent unlistening fun _ _ => le_rfl

theorem dialed_spends (silent : tries p task = false) (unlistening : channel task' = none) :
    Spends task p task' { p with next := p.next + 1 } :=
  .aside rfl rfl rfl rfl silent unlistening fun _ _ => le_rfl

theorem closed_spends (closed : p.closed = true) (unlistening : channel task' = none) :
    Spends task p task' p :=
  .still rfl rfl rfl rfl (by simp [unlistening]) fun live => absurd (closed.symm.trans live)
    (by simp)

theorem addIdle_spends (pc : Nat) (silent : tries p task = false)
    (unlistening : channel task' = none)
    (free : p.waiters = [] ∨ total p < p.config.maxConns) : Spends task p task' (addIdle pc p) := by
  refine .aside rfl rfl rfl rfl silent unlistening fun _ waits => ?_
  have less := free.resolve_left waits
  have grown := total_addIdle pc p
  have limit : (addIdle pc p).config = p.config := rfl
  simp only [room, limit, grown]
  simp only [addIdle, List.length_append, List.length_singleton]
  omega

theorem tries_returned (p : Pool) (orig : Option Int) (handle : Option Nat) :
    tries p (returned orig handle) = false := by
  cases orig <;> cases handle <;> rfl

theorem timedOut_spends (orig : Option Int) (ch : Nat)
    (calm : p.waiters = [] ∨ p.sent.lookup ch ≠ some none) :
    Spends (.timedOut orig ch) p (returned orig none) { p with waiters := p.waiters.erase ch } where
  limit := rfl
  live live := live
  told _ := .rfl
  room live waits := by
    have before : p.waiters ≠ [] := by
      intro empty
      simp [empty] at waits
    have untold := calm.resolve_left before
    refine .inr ⟨before, ?_⟩
    simp only [tries, untold, decide_false, Bool.false_eq_true, if_false]
    exact Nat.le_add_right _ _
  sent _ := id
  kept _ other member differs := by
    refine .inl ((List.mem_erase_of_ne ?_).mpr member)
    rintro rfl
    exact differs rfl
  listed := by simp

theorem discard_spends (orig : Option Int) (pc : Nat) :
    Spends (.discarding orig pc) p (.acquire orig) (removeConnLocked pc p) :=
  .still rfl rfl rfl rfl (by simp [channel]) fun _ _ => by
    simpa [tries] using room_remove pc p

/-- The released connection goes to the first waiter, or nobody waits. -/
theorem handover_spends {pc : Nat} (sound : Sound p) {ch : Nat} {rest : List Nat}
    (listed : p.waiters = ch :: rest) :
    Spends (.releasing pc) p .done { p with waiters := rest, sent := p.sent ++
      [(ch, some pc)] } := by
  have empty : p.sent.lookup ch = none := sound.unsent ch (listed ▸ List.mem_cons_self)
  have elsewhere {other : Nat} (differs : other ≠ ch) :
      (p.sent ++ [(ch, some pc)]).lookup other = p.sent.lookup other := by
    simp [List.lookup_append, List.lookup_cons, beq_false_of_ne differs]
  have there : (p.sent ++ [(ch, some pc)]).lookup ch = some (some pc) := by
    simp [List.lookup_append, empty]
  exact
    { limit := rfl
      live := id
      told := fun other => by
        by_cases same : other = ch
        · simp [same, there, empty]
        · rw [elsewhere same]
      room := fun _ _ => .inr ⟨by simp [listed], by simp [tries, room, total]⟩
      sent := fun other silent => by
        by_cases same : other = ch
        · rw [same]
          exact empty
        · rwa [elsewhere same] at silent
      kept := fun _ other member _ => by
        rcases List.mem_cons.mp (listed ▸ member) with rfl | behind
        · exact .inr (by simp [there])
        · exact .inl behind
      listed := by simp [channel] }

theorem quiet_silent (idle : quiet task = true) : tries p task = false := by
  cases task <;> first | rfl | cases idle

/-- Every step pays for what it leaves, or tells a waiter. Acquire waits, or gives up, only if
there is nothing to take. -/
theorem acts_spends (acts : Acts choice p task task' p') (sound : Sound p)
    (positive : 0 < p.config.maxConns) (calm : prompt p task = true) :
    Spends task p task' p' ∨ ∃ q, p' = wakeWaiterLocked q ∧ Wakes task p task' q := by
  have left {taken : Option Nat} {q : Pool}
      (found : tryGetIdleLocked choice.look p.idle.length p = (taken, q)) :
      room q + (if taken.isSome then 1 else 0) ≤ room p := by
    have room := tryGetIdleLocked_room choice.look p.idle.length p
    rwa [found] at room
  have emptied {conns idle : List Nat} (missed : tryGetIdleLocked choice.look p.idle.length p =
      (none, { p with conns, idle })) : idle = [] := by
    have empty := tryGetIdleLocked_exhausts choice.look p.idle.length p le_rfl
    rw [missed] at empty
    exact empty rfl
  cases acts with
  | goes _ _ before behind =>
    exact .inl (stays_spends (quiet_silent before) (quiet_bare behind).2.1)
  | startDials | dials | healthDials => exact .inl (dialed_spends rfl rfl)
  | startAdds _ pc => exact .inl (addIdle_spends pc rfl rfl (by simpa [prompt] using calm))
  | healthAdds _ pc live =>
    exact .inl (addIdle_spends pc rfl rfl (by simpa [prompt, live] using calm))
  | refused _ closed => exact .inl (closed_spends closed (by simp))
  | abandons _ closed => exact .inl (closed_spends closed rfl)
  | takes orig pc _ _ _ found =>
    refine .inl (.still rfl rfl rfl rfl (by simp) fun _ _ => ?_)
    rw [tries_returned]
    simpa [tries] using left found
  | reserves orig conns idle _ missed free =>
    refine .inl (.still rfl rfl rfl rfl (by simp [channel]) fun _ _ => ?_)
    have less := free.resolve_left (by omega)
    have left := left missed
    simp only [tries, Bool.false_eq_true, if_true, if_false]
    simp only [room, total, Option.isSome_none, Bool.false_eq_true, if_false] at left ⊢
    omega
  | givesUp orig conns idle _ missed full =>
    refine .inl ⟨rfl, id, fun _ => .rfl, fun _ _ => .inl ?_, fun _ => id,
      fun _ _ member _ => .inl member, by simp⟩
    simp only [room, total, emptied missed, List.length_nil]
    omega
  | queues orig conns idle _ missed full =>
    refine .inl ⟨rfl, id, fun _ => .rfl, fun _ _ => .inl ?_, fun _ => id,
      fun _ _ member _ => .inl (List.mem_append_left _ member), ?_⟩
    · simp only [room, total, emptied missed, List.length_nil]
      omega
    · rintro ch ⟨⟩
      exact .inl (List.mem_append_right _ (List.mem_singleton.mpr rfl))
  | dialFails | healthDrops | holds => exact .inl (stays_spends rfl rfl)
  | frees orig =>
    refine .inr ⟨_, rfl, rfl, id, rfl, rfl, ?_, ⟨rfl, rfl⟩,
      ⟨channel_returned orig none, tries_returned p orig none⟩⟩
    simp only [room, total]
    omega
  | drops _ _ closed =>
    exact .inl (.aside rfl rfl rfl rfl rfl (by simp) fun live =>
      absurd (closed.symm.trans live) (by simp))
  | pools =>
    refine .inl (.aside rfl rfl rfl rfl rfl (by simp) fun _ _ => ?_)
    simp only [room, total, List.length_append, List.length_singleton]
    omega
  | timesOut | waits => exact .inl (.still rfl rfl rfl rfl (fun _ => id) fun _ _ => le_rfl)
  | gets _ _ _ put _ either =>
    refine .inl (.aside rfl rfl rfl rfl (by simp [tries, put]) ?_ fun _ _ => le_rfl)
    rcases either with rfl | rfl
    · simp
    · rfl
  | retries _ _ told =>
    exact .inl (.still rfl rfl rfl rfl (by simp [channel]) fun _ _ => by simp [tries, told])
  | evicted _ _ empty =>
    exact .inl (.aside rfl rfl rfl rfl (by simp [tries, empty]) (by simp) fun _ _ => le_rfl)
  | leaves orig ch => exact .inl (timedOut_spends orig ch (by simpa [prompt] using calm))
  | discards orig pc => exact .inl (discard_spends orig pc)
  | saves => exact .inl (.aside rfl rfl rfl rfl rfl rfl fun _ _ => le_rfl)
  | restores => exact .inl (.aside rfl rfl rfl rfl rfl (by simp) fun _ _ => le_rfl)
  | expels pc =>
    exact .inr ⟨_, rfl, rfl, id, rfl, rfl, room_remove pc p, ⟨rfl, rfl⟩, ⟨rfl, rfl⟩⟩
  | hands _ _ _ _ _ listed => exact .inl (handover_spends sound listed)
  | rests _ _ _ nobody =>
    exact .inl (.aside rfl rfl rfl rfl rfl rfl fun _ waits => absurd nobody waits)
  | heals =>
    have less := removeUnhealthy_room choice.look p
    rw [removeUnhealthy_eq] at less ⊢
    exact .inl (.aside rfl rfl rfl rfl rfl rfl fun _ _ => less)
  | closes =>
    exact .inl ⟨rfl, by simp, fun _ => .rfl, by simp, fun _ => id, by simp, by simp [channel]⟩

end Steps

/-! Runs. -/

structure Alert (w : World) : Prop where
  exclusive : Exclusive w
  positive : 0 < w.pool.config.maxConns
  ready : w.pool.closed = false → w.pool.waiters ≠ [] → room w.pool ≤ w.tasks.countP (tries w.pool)
  listed : w.pool.closed = false → ∀ (i : Nat), ∀ task ∈ w.tasks[i]?, ∀ ch,
    channel task = some ch → w.pool.sent.lookup ch = none → ch ∈ w.pool.waiters

section Runs
variable {w : World}

theorem Alert.spends {i : Nat} {p' : Pool} (alert : Alert w) (found : w.tasks[i]? = some task)
    (exclusive : Exclusive ⟨p', w.tasks.set i task'⟩) (spends : Spends task w.pool task' p') :
    Alert ⟨p', w.tasks.set i task'⟩ where
  exclusive := exclusive
  positive := spends.limit ▸ alert.positive
  ready live waits := by
    have same : tries p' = tries w.pool := by
      funext other
      cases other with
      | waiting _ ch | timedOut _ ch => simp only [tries, spends.told ch]
      | _ => rfl
    rcases spends.room live waits with used | ⟨before, paid⟩
    · exact used ▸ Nat.zero_le _
    · have enough := alert.ready (spends.live live) before
      have counted := countP_replaced found (tries w.pool) task'
      rw [same] at paid ⊢
      dsimp only
      omega
  listed live j other there ch listens empty := by
    have before := spends.sent ch empty
    rcases (getElem?_replaced found j other).mp there with ⟨_, rfl⟩ | ⟨differs, there⟩
    · rcases spends.listed ch listens with member | ⟨own, same⟩
      · exact member
      · rw [same]
        exact alert.listed (spends.live live) i task found ch own before
    · have member := alert.listed (spends.live live) j other there ch listens before
      have apart : channel task ≠ some ch := fun own =>
        differs (alert.exclusive.listener j i other there task found ch listens own)
      exact (spends.kept live ch member apart).resolve_right fun told => told empty

theorem Alert.wakes {i : Nat} {q : Pool} (alert : Alert w) (found : w.tasks[i]? = some task)
    (exclusive : Exclusive ⟨wakeWaiterLocked q, w.tasks.set i task'⟩)
    (wakes : Wakes task w.pool task' q) : Alert ⟨wakeWaiterLocked q, w.tasks.set i task'⟩ := by
  obtain ⟨conns, idle, closed, next⟩ := wake_frame q
  have limit : (wakeWaiterLocked q).config = q.config := by
    unfold wakeWaiterLocked
    split <;> rfl
  refine ⟨exclusive, by rw [limit, wakes.limit]; exact alert.positive, ?_, ?_⟩
  · intro live waits
    rw [closed] at live
    cases listed : q.waiters with
    | nil => simp [wakeWaiterLocked, listed] at waits
    | cons ch rest =>
      have waiting : ch ∈ w.pool.waiters := by
        rw [← wakes.waiters, listed]
        exact List.mem_cons_self
      obtain ⟨j, listener, there, listens⟩ := alert.exclusive.listening ch waiting
      have empty : w.pool.sent.lookup ch = none := alert.exclusive.sound.unsent ch waiting
      have differs : j ≠ i := by
        rintro rfl
        cases found.symm.trans there
        simp [wakes.silent.1] at listens
      have sent : (wakeWaiterLocked q).sent = w.pool.sent ++ [(ch, none)] := by
        simp only [wakeWaiterLocked, listed, wakes.sent]
      have told : (wakeWaiterLocked q).sent.lookup ch = some none := by
        simp [sent, List.lookup_append, empty]
      -- The acting task counts neither before nor after; the listener counts now.
      have counted := countP_replaced found (tries w.pool) task'
      rw [wakes.silent.2, wakes.left.2] at counted
      have gained : (w.tasks.set i task').countP (tries w.pool) <
          (w.tasks.set i task').countP (tries (wakeWaiterLocked q)) := by
        refine countP_lt_of_gains (fun other _ tried => ?_)
          (List.mem_of_getElem? ((getElem?_replaced found j listener).mpr (.inr ⟨differs, there⟩)))
          (?_ : tries (wakeWaiterLocked q) listener = true ∧ tries w.pool listener = false)
        · cases other with
          | acquire _ => rfl
          | waiting _ own | timedOut _ own =>
            simp only [tries, decide_eq_true_eq] at tried ⊢
            exact sent ▸ lookup_sent tried
          | _ => cases tried
        · cases listener with
          | waiting _ own | timedOut _ own =>
            cases listens
            simp [tries, told, empty]
          | _ => cases listens
      have enough := alert.ready (wakes.live live) (List.ne_nil_of_mem waiting)
      have less := wakes.room
      have same : room (wakeWaiterLocked q) = room q := by
        have pending : (wakeWaiterLocked q).pending = q.pending := by
          unfold wakeWaiterLocked
          split <;> rfl
        simp only [room, total, limit, idle, conns, pending]
      dsimp only
      omega
  · intro live j other there ch listens silent
    rw [closed] at live
    rcases (getElem?_replaced found j other).mp there with ⟨_, rfl⟩ | ⟨_, there⟩
    · simp [wakes.left.1] at listens
    · have before : w.pool.sent.lookup ch = none := by
        cases earlier : w.pool.sent.lookup ch with
        | none => rfl
        | some message =>
          rw [← wakes.sent] at earlier
          exact absurd ((wake_messages earlier).symm.trans silent) (by simp)
      have member := alert.listed (wakes.live live) j other there ch listens before
      rw [← wakes.waiters] at member
      dsimp only at silent ⊢
      unfold wakeWaiterLocked at silent ⊢
      split
      · exact member
      · rename_i first rest listed
        rw [listed] at silent member
        rcases List.mem_cons.mp member with rfl | behind
        · rw [wakes.sent] at silent
          simp [List.lookup_append] at silent
        · exact behind

theorem Alert.call (alert : Alert w) (request : Request) :
    Alert { w with tasks := w.tasks ++ [request.task] } where
  exclusive := alert.exclusive.call request
  positive := alert.positive
  ready live waits := by
    have enough := alert.ready live waits
    rw [List.countP_append]
    exact enough.trans (Nat.le_add_right _ _)
  listed live i task there ch listens empty := by
    rcases (getElem?_added i task).mp there with before | ⟨-, rfl⟩
    · exact alert.listed live i task before ch listens empty
    · cases request <;> cases listens

theorem Alert.perform (alert : Alert w) (e : Event) (calm : Prompt w e) :
    Alert (ConnectionPool.perform w e) := by
  have exclusive := alert.exclusive.perform e
  cases e with
  | call request => exact alert.call request
  | step i choice =>
    rw [ConnectionPool.perform] at exclusive ⊢
    cases found : w.tasks[i]? with
    | none => exact alert
    | some task =>
      rw [found] at exclusive
      rcases acts_spends (step_acts choice task w.pool) alert.exclusive.sound alert.positive
        (calm task found) with spends | ⟨q, woken, wakes⟩
      · exact alert.spends found exclusive spends
      · dsimp only at exclusive ⊢
        rw [woken] at exclusive ⊢
        exact alert.wakes found exclusive wakes
  | giveBack i close =>
    rw [ConnectionPool.perform] at exclusive ⊢
    split
    · rename_i pc found
      rw [found] at exclusive
      exact alert.spends found exclusive (.aside rfl rfl rfl rfl rfl rfl fun _ _ => le_rfl)
    · exact alert

/-- A pool that NewPool makes has a positive MaxConns: zero becomes the default. -/
theorem newPool_positive {config : PoolConfig} (made : newPool config = .ok p) :
    0 < p.config.maxConns := by
  obtain ⟨_, valid, kept⟩ := Effect.except_bind_ok_iff.mp made
  obtain rfl := Effect.except_pure_ok_iff.mp kept
  have checked : ¬config.applyDefaults.maxConns < 0 := by
    intro negative
    obtain ⟨_, -, rest⟩ := Effect.except_bind_ok_iff.mp valid
    obtain ⟨_, passed, -⟩ := Effect.except_bind_ok_iff.mp rest
    rw [nonNegative, if_pos negative] at passed
    cases passed
  have nonzero : config.applyDefaults.maxConns ≠ 0 := by
    simp only [PoolConfig.applyDefaults, orDefault]
    split
    · decide
    · assumption
  exact lt_of_le_of_ne (not_lt.mp checked) nonzero.symm

theorem alert_new {config : PoolConfig} (made : newPool config = .ok p) : Alert ⟨p, []⟩ := by
  refine ⟨exclusive_new made, newPool_positive made, fun _ waits => ?_, by simp⟩
  obtain rfl := newPool_ok made
  exact absurd rfl waits

/-- No goroutine is inside a pool operation, other than waiting at its channel. -/
def Resting (w : World) : Prop :=
  ∀ task ∈ w.tasks, task = .done ∨ task = .checker ∨ (∃ pc, task = .holding pc) ∨
    ∃ orig ch, task = .waiting orig ch ∧ w.pool.sent.lookup ch ≠ some none

/-- In an open pool at rest, whoever still waits at an empty channel finds nothing: no
connection is idle and no slot is free. -/
theorem wakeups_kept {config : PoolConfig} {p : Pool} (made : newPool config = .ok p)
    (events : List Event) (calm : Along perform Prompt events ⟨p, []⟩) :
    ∀ before, before <+: events → (after before ⟨p, []⟩).pool.closed = false →
      Resting (after before ⟨p, []⟩) →
      ∀ orig ch, .waiting orig ch ∈ (after before ⟨p, []⟩).tasks →
        (after before ⟨p, []⟩).pool.sent.lookup ch = none →
        (after before ⟨p, []⟩).pool.idle = [] ∧
          (after before ⟨p, []⟩).pool.config.maxConns ≤ total (after before ⟨p, []⟩).pool := by
  rintro before ⟨rest, rfl⟩ live resting orig ch waiting empty
  have alert : Alert (after before ⟨p, []⟩) :=
    invariant_run (fun _ e calm alert => alert.perform e calm) calm.initial (alert_new made)
  obtain ⟨i, there⟩ := List.getElem?_of_mem waiting
  have listed := alert.listed live i _ there ch rfl empty
  have nobody : (after before ⟨p, []⟩).tasks.countP (tries (after before ⟨p, []⟩).pool) = 0 := by
    rw [List.countP_eq_zero]
    intro task member
    rcases resting task member with rfl | rfl | ⟨pc, rfl⟩ | ⟨_, own, rfl, untold⟩
    · simp [tries]
    · simp [tries]
    · simp [tries]
    · simp [tries, untold]
  have none := alert.ready live (List.ne_nil_of_mem listed)
  rw [nobody, room] at none
  exact ⟨List.eq_nil_of_length_eq_zero (by omega), by omega⟩

def crowded : List Event :=
  [.call .acquire, .step 0 smooth, .step 0 smooth, .step 0 smooth, .call .acquire, .step 1 smooth,
    .call .acquire, .step 2 smooth]

/-- The holder closes its handle; the first waiter is told, dials, and the second waits on. -/
theorem wakeups_kept_crowded : ∃ p, newPool single = .ok p ∧
    let w := after (crowded ++ [.giveBack 0 true, .step 0 smooth, .step 1 smooth, .step 1 smooth,
      .step 1 smooth, .step 1 smooth]) ⟨p, []⟩
    w.tasks = [.done, .holding 3, .waiting none 2] ∧ w.pool.idle = [] ∧
      w.pool.config.maxConns ≤ total w.pool := by
  refine ⟨_, newPool_single, ?_⟩
  intro w
  have tasks : w.tasks = [.done, .holding 3, .waiting none 2] := by decide
  refine ⟨tasks, wakeups_kept newPool_single _ (by decide) _ List.prefix_rfl (by decide) ?_ none 2
    (by decide) (by decide)⟩
  intro task member
  have listed : task ∈ [Task.done, .holding 3, .waiting none 2] := tasks ▸ member
  simp only [List.mem_cons, List.not_mem_nil, or_false] at listed
  rcases listed with rfl | rfl | rfl
  · exact .inl rfl
  · exact .inr (.inr (.inl ⟨3, rfl⟩))
  · exact .inr (.inr (.inr ⟨none, 2, rfl, by decide⟩))

def overtaken : List Event :=
  crowded ++ [.giveBack 0 true, .step 1 late, .step 0 smooth, .step 1 smooth]

def toppedUp : List Event :=
  [.call .start, .step 0 smooth, .step 0 smooth, .call .acquire, .step 1 smooth, .call .acquire,
    .step 2 smooth, .step 0 smooth, .step 0 smooth, .step 1 smooth, .step 1 smooth]

/-- The pool is open and at rest, and somebody waits at an empty channel: in one run a slot
is free, in the other a connection is idle. -/
theorem wakeup_lost : ∃ p, newPool single = .ok p ∧ ((after overtaken ⟨p, []⟩).pool.closed = false ∧
      (after overtaken ⟨p, []⟩).tasks = [.done, .done, .waiting none 2] ∧
      (after overtaken ⟨p, []⟩).pool.sent.lookup 2 = none ∧
      total (after overtaken ⟨p, []⟩).pool = 0 ∧
      (after overtaken ⟨p, []⟩).pool.config.maxConns = 1) ∧
    (after toppedUp ⟨p, []⟩).pool.closed = false ∧
      (after toppedUp ⟨p, []⟩).tasks = [.checker, .holding 2, .waiting none 1] ∧
      (after toppedUp ⟨p, []⟩).pool.sent.lookup 1 = none ∧
      (after toppedUp ⟨p, []⟩).pool.idle = [0] := by
  refine ⟨_, rfl, ?_⟩
  decide

end Runs

end QuantumGo.PoolWakeups
