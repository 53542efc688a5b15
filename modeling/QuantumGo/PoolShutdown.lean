import QuantumGo.PoolHandles

/-!
How a pool ends. Over the lock sections of the pool stand the tunnels that a goroutine closes
between them, the goroutines that closeConnAsync starts, the context of the health checker
and the wait of Close for it. A connection that was dialled is in the pool, with the goroutine
that is to add or to close it, or closed. Start breaks this: it adds what it dialled, and
launches the health checker, without another look at `closed`. So does the peer: once its close
notify has marked a transport as closed, Transport.Close returns before it closes anything.
-/

namespace QuantumGo.PoolShutdown

open ConnectionPool PoolHandles Interleaving

/-- A goroutine closes these tunnels and then stands at its task. Start has made the context
of the health checker and is about to launch it. Close waits for the health checkers and
then closes the connections of the pool. -/
inductive Stage where
  | work (toClose : List Nat) (task : Task)
  | launching
  | awaiting (toClose : List Nat)
  deriving DecidableEq, Repr

/-- `healthCtx` is the context that Start stored last; Close cancels that one. `dialed` are
the connections that were ever dialled, `shut` those whose session and net.Conn were closed,
`notified` those whose transport the peer's close notify marked as closed before that. -/
structure Life where
  pool : Pool
  stages : List Stage
  healthCtx : Option Nat
  nextCtx : Nat
  cancelled : List Nat
  dialed : List Nat
  shut : List Nat
  notified : List Nat
  deriving DecidableEq, Repr

def checking : Task → Bool
  | .checker => true
  | .health => true
  | .deficit => true
  | .healthLoop _ => true
  | .healthAdd _ _ => true
  | _ => false

def Stage.checking : Stage → Bool
  | .work _ task => PoolShutdown.checking task
  | _ => false

/-- What tryGetIdleLocked takes off the end of the idle connections and does not return. -/
def poppedUnhealthy (look : Nat → Look) (left : Nat) (p : Pool) : List Nat :=
  (p.idle.drop (tryGetIdleLocked look left p).2.idle.length).reverse.filter
    fun pc => !isHealthy look p pc

def closesAsync (choice : Choice) (p : Pool) : Task → List Nat
  | .acquire _ => if p.closed then [] else poppedUnhealthy choice.look p.idle.length p
  | .discarding _ pc => [pc]
  | .releasing pc => if p.closed = true ∨ pc ∈ p.unhealthy then [pc] else []
  | _ => []

def closesNext (choice : Choice) (p : Pool) : Task → List Nat
  | .dialed _ (some pc) => if p.closed then [pc] else []
  | .health => if p.closed then [] else p.idle.filter fun pc => !isHealthy choice.look p pc
  | .healthAdd _ pc => if p.closed then [pc] else []
  | _ => []

def lockSection (choice : Choice) (i : Nat) (task : Task) (l : Life) : Life :=
  { l with
    pool := (step choice task l.pool).2
    dialed := l.dialed ++ (joins (step choice task l.pool).1).toList
    stages := l.stages.set i (.work (closesNext choice l.pool task) (step choice task l.pool).1) ++
      (closesAsync choice l.pool task).map fun pc => .work [pc] .done }

/-- Transport.Close of the connection. -/
def closeTunnel (pc : Nat) (l : Life) : Life :=
  if pc ∈ l.notified ∨ pc ∈ l.shut then l else { l with shut := l.shut ++ [pc] }

def advance (choice : Choice) (i : Nat) (l : Life) : Stage → Life
  | .work (pc :: toClose) task =>
    { closeTunnel pc l with stages := l.stages.set i (.work toClose task) }
  | .work [] task =>
    match task with
    | .startLoop 0 =>
      if l.pool.config.healthCheckInterval > 0 then
        { l with
          healthCtx := some l.nextCtx, nextCtx := l.nextCtx + 1
          stages := l.stages.set i .launching }
      else { l with stages := l.stages.set i (.work [] .done) }
    | .checker =>
      -- The select of healthChecker sees the end of the stored context, or a tick.
      if l.healthCtx.any (· ∈ l.cancelled) = true ∧ choice.timer = true then
        { l with stages := l.stages.set i (.work [] .done) }
      else { l with stages := l.stages.set i (.work [] .health) }
    | .closing =>
      if l.pool.closed then { l with stages := l.stages.set i (.work [] .done) }
      else { l with
        pool := closePool l.pool, cancelled := l.healthCtx.toList ++ l.cancelled
        stages := l.stages.set i (.awaiting l.pool.conns) }
    | task => lockSection choice i task l
  | .launching => { l with stages := l.stages.set i (.work [] .checker) }
  | .awaiting toClose =>
    if ∀ stage ∈ l.stages, stage.checking = false then
      { l with stages := l.stages.set i (.work toClose .done) }
    else l

def performPool (l : Life) : Event → Life
  | .call request => { l with stages := l.stages ++ [.work [] request.task] }
  | .step i choice =>
    match l.stages[i]? with
    | none => l
    | some stage => advance choice i l stage
  | .giveBack i close =>
    match l.stages[i]? with
    | some (.work [] (.holding pc)) => { l with
        pool := { l.pool with
          unhealthy := if close then pc :: l.pool.unhealthy else l.pool.unhealthy }
        stages := l.stages.set i (.work [] (.releasing pc)) }
    | _ => l

/-- Receive on a connection may handle the peer's close notify. -/
inductive Deed where
  | pool (e : Event)
  | notify (pc : Nat)

def perform (l : Life) : Deed → Life
  | .pool e => performPool l e
  | .notify pc => if pc ∈ l.shut then l else { l with notified := pc :: l.notified }

def after (deeds : List Deed) (l : Life) : Life := run perform deeds l

def born (p : Pool) : Life := ⟨p, [], none, 0, [], [], [], []⟩

/-- Start adds a connection, or launches the health checker, only to an open pool, and the
tunnel that is closed next is not one that the peer's close notify has marked. -/
def steady (l : Life) : Stage → Bool
  | .work [] (.startAdd _ _) => !l.pool.closed
  | .work (pc :: _) _ => pc ∉ l.notified
  | .launching => !l.pool.closed
  | _ => true

def Steady (l : Life) : Deed → Prop
  | .pool (.step i _) => ∀ stage ∈ l.stages[i]?, steady l stage = true
  | _ => True

instance (l : Life) (deed : Deed) : Decidable (Steady l deed) :=
  match deed with
  | .pool (.step i _) => inferInstanceAs (Decidable (∀ stage ∈ l.stages[i]?, steady l stage = true))
  | .pool (.call _) => .isTrue trivial
  | .pool (.giveBack _ _) => .isTrue trivial
  | .notify _ => .isTrue trivial

/-- No pool operation is in progress: handles may be out, and a health checker may sleep. -/
def Still (l : Life) : Prop :=
  ∀ stage ∈ l.stages, stage = .work [] .done ∨ stage = .work [] .checker ∨
    ∃ pc, stage = .work [] (.holding pc)

/-! What one lock section does to the connections. -/

section Sections
variable {choice : Choice} {p p' : Pool} {task task' : Task}

theorem poppedUnhealthy_removed (look : Nat → Look) (left : Nat) (p : Pool) {pc : Nat}
    (member : pc ∈ p.conns) :
    pc ∈ (tryGetIdleLocked look left p).2.conns ∨ pc ∈ poppedUnhealthy look left p := by
  simp only [poppedUnhealthy, List.mem_filter, List.mem_reverse]
  induction left generalizing p with
  | zero => exact .inl member
  | succ left ih =>
    rw [tryGetIdleLocked]
    cases found : p.idle.getLast? with
    | none => exact .inl member
    | some last =>
      dsimp only
      split
      · exact .inl member
      · rename_i ill
        by_cases same : pc = last
        · subst same
          obtain ⟨_, rest, ends, -, fewer⟩ := tryGetIdleLocked_eq look left
            (removeConnLocked pc { p with idle := p.idle.dropLast })
          refine .inr ⟨?_, (Bool.not_eq_true' _).mpr (Bool.eq_false_iff.mpr ill)⟩
          have shorter : rest.length ≤ p.idle.length - 1 :=
            (fewer.length_le.trans List.length_erase_le).trans_eq List.length_dropLast
          have some_idle : 0 < p.idle.length := List.length_pos_of_mem (List.mem_of_getLast? found)
          rw [ends]
          refine List.mem_of_getLast? ?_
          rw [List.getLast?_drop, if_neg (by dsimp only; omega), found]
        · have stays : pc ∈ (removeConnLocked last { p with idle := p.idle.dropLast }).conns :=
            (List.mem_erase_of_ne same).mpr member
          have fewer : (p.idle.dropLast.erase last).Sublist p.idle :=
            List.erase_sublist.trans (List.dropLast_sublist _)
          exact (ih _ stays).imp_right fun gone => ⟨(fewer.drop _).subset gone.1, gone.2⟩

theorem mem_erase_or {pc other : Nat} {conns : List Nat} (member : other ∈ conns) :
    other ∈ conns.erase pc ∨ other = pc := by
  by_cases same : other = pc
  · exact .inr same
  · exact .inl ((List.mem_erase_of_ne same).mpr member)

/-- A connection of the pool, or one that the task has dialled, stays, goes on with the
task, or is closed. -/
theorem acts_conserves (acts : Acts choice p task task' p') {pc : Nat} (ends : task ≠ .closing)
    (there : pc ∈ p.conns ∨ joins task = some pc) :
    pc ∈ p'.conns ∨ joins task' = some pc ∨ pc ∈ closesNext choice p task ∨
      pc ∈ closesAsync choice p task := by
  -- Most tasks have dialled nothing.
  have member (unjoined : joins task = none) : pc ∈ p.conns :=
    there.resolve_right (by simp [unjoined])
  have added {own : Nat} (joined : joins task = some own) : pc ∈ p.conns ++ [own] := by
    refine List.mem_append.mpr (there.imp id fun mine => ?_)
    exact List.mem_singleton.mpr (Option.some.inj (mine.symm.trans joined))
  have popped {taken : Option Nat} {conns idle : List Nat}
      (found : tryGetIdleLocked choice.look p.idle.length p = (taken, { p with conns, idle }))
      (pooled : pc ∈ p.conns) :
      pc ∈ conns ∨ pc ∈ poppedUnhealthy choice.look p.idle.length p := by
    have goes := poppedUnhealthy_removed choice.look p.idle.length p pooled
    rwa [found] at goes
  cases acts with
  | goes _ _ before => exact .inl (member (quiet_bare before).2.2)
  | startAdds | pools | healthAdds => exact .inl (added rfl)
  | takes _ _ _ _ live found | reserves _ _ _ live found | givesUp _ _ _ live found
  | queues _ _ _ live found =>
    refine (popped found (member rfl)).imp_right fun gone => .inr (.inr ?_)
    simpa [closesAsync, live] using gone
  | drops _ own closed | healthDrops _ own closed =>
    rcases there with pooled | joined
    · exact .inl pooled
    · refine .inr (.inr (.inl ?_))
      simpa [closesNext, closed, joins, eq_comm] using joined
  | frees =>
    rw [(wake_frame _).1]
    exact .inl (member rfl)
  | discards _ own =>
    exact (mem_erase_or (member rfl)).imp_right fun gone =>
      .inr (.inr (List.mem_singleton.mpr gone))
  | expels own _ ill =>
    rw [(wake_frame _).1]
    refine (mem_erase_or (member rfl)).imp_right fun gone => .inr (.inr ?_)
    simp [closesAsync, ill, gone]
  | heals live =>
    rw [removeUnhealthy_eq]
    by_cases ill : pc ∈ p.idle.filter fun pc => !isHealthy choice.look p pc
    · refine .inr (.inr (.inl ?_))
      simpa [closesNext, live] using ill
    · exact .inl (List.mem_diff_of_mem (member rfl) ill)
  | closes => exact absurd rfl ends
  | _ => exact .inl (member rfl)

/-- The flag and, in a closed pool, the connections: nothing but Close sets the one, nothing
but Start adds to the others. -/
theorem acts_closed (acts : Acts choice p task task' p') (ends : task ≠ .closing) :
    p'.closed = p.closed ∧
      (p.closed = true → (∀ left pc, task ≠ .startAdd left pc) → p.conns = [] → p'.conns = []) := by
  have opened {q : Pool} (closed : q.closed = p.closed) (live : p.closed = false) :
      q.closed = p.closed ∧ (p.closed = true → (∀ left pc, task ≠ .startAdd left pc) →
        p.conns = [] → q.conns = []) :=
    ⟨closed, fun shut => absurd (live.symm.trans shut) (by simp)⟩
  cases acts with
  | startAdds left pc => exact ⟨rfl, fun _ starts => absurd rfl (starts left pc)⟩
  | takes _ _ _ _ live | reserves _ _ _ live | givesUp _ _ _ live | queues _ _ _ live
  | pools _ _ live | hands _ _ _ live | rests _ live | healthAdds _ _ live =>
    exact opened rfl live
  | frees =>
    obtain ⟨conns, -, closed, -⟩ := wake_frame { p with pending := p.pending - 1 }
    exact ⟨closed, fun _ _ empty => conns.trans empty⟩
  | discards _ own => exact ⟨rfl, fun _ _ empty => by simp [removeConnLocked, empty]⟩
  | expels _ live => exact opened (wake_frame _).2.2.1 live
  | heals live =>
    rw [removeUnhealthy_eq]
    exact opened rfl live
  | closes => exact absurd rfl ends
  | _ => exact ⟨rfl, fun _ _ empty => empty⟩

@[simp] theorem checking_returned (orig : Option Int) (handle : Option Nat) :
    checking (returned orig handle) = false := by
  cases orig <;> cases handle <;> rfl

@[simp] theorem checking_handed (handle : Option Nat) : checking (handed handle) = false := by
  cases handle <;> rfl

theorem acts_checking (acts : Acts choice p task task' p') (busy : quiet task = false)
    (idle : checking task = false) : checking task' = false := by
  cases acts with
  | goes _ _ before => cases busy.symm.trans before
  | startDials | heals | healthDials => cases busy
  | healthDrops | healthAdds => cases idle
  | gets _ _ _ _ _ either =>
    rcases either with rfl | rfl
    · simp
    · rfl
  | restores _ held => exact checking_handed held
  | _ => first | rfl | simp

/-- Only a health checker goes on as one; Start launches it in a step of its own. -/
theorem step_checking (choice : Choice) (task : Task) (launches : task ≠ .startLoop 0)
    (idle : checking task = false) : checking (step choice task p).1 = false := by
  cases busy : quiet task with
  | false => exact acts_checking (step_acts choice task p) busy idle
  | true =>
    cases task with
    | start =>
      rw [step]
      split <;> rfl
    | startLoop left =>
      cases left with
      | zero => exact absurd rfl launches
      | succ left =>
        rw [step]
        split <;> rfl
    | closing | done => rfl
    | checker | health | deficit | healthLoop => cases idle
    | _ => cases busy

end Sections

/-! Runs. -/

def Stage.keeps : Stage → List Nat
  | .work toClose task => toClose ++ (joins task).toList
  | .launching => []
  | .awaiting toClose => toClose

structure Kept (l : Life) : Prop where
  accounted : ∀ pc ∈ l.dialed, pc ∈ l.shut ∨ pc ∈ l.pool.conns ∨
    ∃ stage ∈ l.stages, pc ∈ stage.keeps
  emptied : l.pool.closed = true → l.pool.conns = []
  watched : l.pool.closed = true → (∃ toClose, .awaiting toClose ∈ l.stages) ∨
    ∀ stage ∈ l.stages, stage.checking = false

section Runs
variable {l l' : Life} {i : Nat} {stage stage' : Stage}

/-- One goroutine moves on, and closers may be started. -/
theorem accounted_moves {started : List Stage} (kept : Kept l) (found : l.stages[i]? = some stage)
    (stages : l'.stages = l.stages.set i stage' ++ started) (shut : ∀ pc ∈ l.shut, pc ∈ l'.shut)
    (moved : ∀ pc, pc ∈ l.pool.conns ∨ pc ∈ stage.keeps → pc ∈ l'.shut ∨ pc ∈ l'.pool.conns ∨
      pc ∈ stage'.keeps ∨ ∃ other ∈ started, pc ∈ other.keeps)
    (dialed : ∀ pc ∈ l'.dialed, pc ∈ l.dialed ∨ pc ∈ stage'.keeps) :
    ∀ pc ∈ l'.dialed, pc ∈ l'.shut ∨ pc ∈ l'.pool.conns ∨ ∃ other ∈ l'.stages,
        pc ∈ other.keeps := by
  intro pc member
  rw [stages]
  have mine : stage' ∈ l.stages.set i stage' ++ started :=
    List.mem_append_left _ (mem_replacement found)
  have goes (there : pc ∈ l.pool.conns ∨ pc ∈ stage.keeps) : pc ∈ l'.shut ∨ pc ∈ l'.pool.conns ∨
      ∃ other ∈ l.stages.set i stage' ++ started, pc ∈ other.keeps := by
    rcases moved pc there with done | pooled | own | ⟨other, new, keeps⟩
    · exact .inl done
    · exact .inr (.inl pooled)
    · exact .inr (.inr ⟨stage', mine, own⟩)
    · exact .inr (.inr ⟨other, List.mem_append_right _ new, keeps⟩)
  rcases dialed pc member with before | new
  · rcases kept.accounted pc before with done | pooled | ⟨other, there, keeps⟩
    · exact .inl (shut pc done)
    · exact goes (.inl pooled)
    · rcases mem_replaced found stage' there with rfl | stays
      · exact goes (.inr keeps)
      · exact .inr (.inr ⟨other, List.mem_append_left _ stays, keeps⟩)
  · exact .inr (.inr ⟨stage', mine, new⟩)

/-- A stage that is no waiting Close gives way to one that is no new health checker. -/
theorem watched_moves {started : List Stage} (found : l.stages[i]? = some stage)
    (stages : l'.stages = l.stages.set i stage' ++ started)
    (waits : ∀ toClose, stage ≠ .awaiting toClose)
    (checks : stage.checking = false → stage'.checking = false)
    (idle : ∀ other ∈ started, other.checking = false)
    (watched : (∃ toClose, .awaiting toClose ∈ l.stages) ∨ ∀ other ∈ l.stages,
      other.checking = false) :
    (∃ toClose, .awaiting toClose ∈ l'.stages) ∨ ∀ other ∈ l'.stages, other.checking = false := by
  rw [stages]
  rcases watched with ⟨toClose, there⟩ | none
  · rcases mem_replaced found stage' there with same | stays
    · exact absurd same.symm (waits toClose)
    · exact .inl ⟨toClose, List.mem_append_left _ stays⟩
  · refine .inr fun other member => ?_
    rcases List.mem_append.mp member with there | new
    · rcases List.mem_or_eq_of_mem_set there with before | rfl
      · exact none other before
      · exact checks (none stage (List.mem_of_getElem? found))
    · exact idle other new

theorem Kept.goes (kept : Kept l) (found : l.stages[i]? = some stage) (stage' : Stage)
    (pool : l'.pool = l.pool) (stages : l'.stages = l.stages.set i stage') (shut : l'.shut = l.shut)
    (dialed : l'.dialed = l.dialed) (keeps : ∀ pc ∈ stage.keeps, pc ∈ stage'.keeps)
    (waits : ∀ toClose, stage ≠ .awaiting toClose)
    (checks : l.pool.closed = true → stage.checking = false → stage'.checking = false) :
    Kept l' := by
  have extended : l'.stages = l.stages.set i stage' ++ [] := by rw [stages, List.append_nil]
  refine ⟨?_, fun closed => ?_, fun closed => ?_⟩
  · refine accounted_moves kept found extended (fun pc => shut ▸ id) (fun pc there => ?_)
      (fun pc member => .inl (dialed ▸ member))
    rw [pool]
    exact .inr (there.imp_right fun own => .inl (keeps pc own))
  · rw [pool] at closed ⊢
    exact kept.emptied closed
  · rw [pool] at closed
    exact watched_moves found extended waits (checks closed) (by simp) (kept.watched closed)

theorem Kept.lockSection (kept : Kept l) (choice : Choice) {task : Task}
    (found : l.stages[i]? = some (.work [] task)) (ends : task ≠ .closing)
    (launches : task ≠ .startLoop 0) (calm : steady l (.work [] task) = true) :
    Kept (lockSection choice i task l) := by
  have acts := step_acts choice task l.pool
  obtain ⟨closed, emptied⟩ := acts_closed acts ends
  refine ⟨?_, fun shut => ?_, fun shut => ?_⟩
  · refine accounted_moves kept found rfl (fun _ => id) (fun pc there => ?_) (fun pc member => ?_)
    · have there : pc ∈ l.pool.conns ∨ joins task = some pc :=
        there.imp_right fun own => Option.mem_toList.mp own
      rcases acts_conserves acts ends there with stays | joined | next | async
      · exact .inr (.inl stays)
      · exact .inr (.inr (.inl (List.mem_append_right _ (Option.mem_toList.mpr joined))))
      · exact .inr (.inr (.inl (List.mem_append_left _ next)))
      · exact .inr (.inr (.inr ⟨_, List.mem_map_of_mem async,
          List.mem_append_left _ (List.mem_singleton.mpr rfl)⟩))
    · exact (List.mem_append.mp member).imp_right fun joined => List.mem_append_right _ joined
  · have before : l.pool.closed = true := closed ▸ shut
    refine emptied before ?_ (kept.emptied before)
    rintro left pc rfl
    simp [steady, before] at calm
  · have before : l.pool.closed = true := closed ▸ shut
    refine watched_moves found rfl (by simp) (step_checking choice task launches) ?_
      (kept.watched before)
    intro other member
    obtain ⟨pc, -, rfl⟩ := List.mem_map.mp member
    rfl

theorem Kept.closes (kept : Kept l) (found : l.stages[i]? = some (.work [] .closing))
    (live : ¬l.pool.closed = true) : Kept { l with
      pool := closePool l.pool, cancelled := l.healthCtx.toList ++ l.cancelled
      stages := l.stages.set i (.awaiting l.pool.conns) } := by
  refine ⟨?_, fun _ => ?_, fun _ => .inl ⟨_, mem_replacement found⟩⟩
  · refine accounted_moves kept found (List.append_nil _).symm (fun _ => id) (fun pc there => ?_)
      (fun _ => .inl)
    exact .inr (.inr (.inl (there.resolve_right (by simp [Stage.keeps, joins]))))
  · simp only [closePool, if_neg live]

/-- Close goes on when the last health checker has ended. -/
theorem Kept.awaited (kept : Kept l) {toClose : List Nat}
    (found : l.stages[i]? = some (.awaiting toClose))
    (ended : ∀ stage ∈ l.stages, stage.checking = false) :
    Kept { l with stages := l.stages.set i (.work toClose .done) } := by
  refine ⟨?_, kept.emptied, fun _ => .inr fun other member => ?_⟩
  · refine accounted_moves kept found (List.append_nil _).symm (fun _ => id) (fun pc there => ?_)
      (fun _ => .inl)
    exact .inr (there.imp_right fun own => .inl (List.mem_append_left _ own))
  · rcases List.mem_or_eq_of_mem_set member with before | rfl
    · exact ended other before
    · rfl

theorem Kept.shuts (kept : Kept l) {pc : Nat} {toClose : List Nat} {task : Task}
    (found : l.stages[i]? = some (.work (pc :: toClose) task)) (unmarked : pc ∉ l.notified) :
    Kept { closeTunnel pc l with stages := l.stages.set i (.work toClose task) } := by
  obtain ⟨pool, dialed, stays, closed⟩ : (closeTunnel pc l).pool = l.pool ∧
      (closeTunnel pc l).dialed = l.dialed ∧ (∀ other ∈ l.shut, other ∈ (closeTunnel pc l).shut) ∧
      pc ∈ (closeTunnel pc l).shut := by
    rw [closeTunnel]
    split
    · rename_i already
      exact ⟨rfl, rfl, fun _ => id, already.resolve_left unmarked⟩
    · exact ⟨rfl, rfl, fun _ => List.mem_append_left _,
        List.mem_append_right _ (List.mem_singleton.mpr rfl)⟩
  refine ⟨?_, pool ▸ kept.emptied, fun ended => ?_⟩
  · refine accounted_moves kept found (List.append_nil _).symm stays (fun other there => ?_)
      (fun _ member => .inl (dialed ▸ member))
    rcases there with pooled | own
    · exact .inr (.inl (pool ▸ pooled))
    · rcases List.mem_cons.mp own with rfl | rest
      · exact .inl closed
      · exact .inr (.inr (.inl rest))
  · exact watched_moves found (List.append_nil _).symm (by simp) id (by simp)
      (kept.watched (pool ▸ ended))

theorem Kept.advance (kept : Kept l) (choice : Choice) (found : l.stages[i]? = some stage)
    (calm : steady l stage = true) : Kept (advance choice i l stage) := by
  cases stage with
  | launching =>
    have live : l.pool.closed = false := by simpa [steady] using calm
    exact kept.goes found (.work [] .checker) rfl rfl rfl rfl (by simp [Stage.keeps]) (by simp)
      fun closed => absurd (live.symm.trans closed) (by simp)
  | awaiting toClose =>
    rw [PoolShutdown.advance]
    split
    · rename_i ended
      exact kept.awaited found ended
    · exact kept
  | work toClose task =>
    cases toClose with
    | cons pc toClose => exact kept.shuts found (by simpa [steady] using calm)
    | nil =>
      rw [PoolShutdown.advance.eq_def]
      dsimp only
      split
      · -- Start has dialled its connections.
        split
        · exact kept.goes found .launching rfl rfl rfl rfl (by simp [Stage.keeps, joins]) (by simp)
            fun _ _ => rfl
        · exact kept.goes found (.work [] .done) rfl rfl rfl rfl (by simp [Stage.keeps, joins])
            (by simp) fun _ _ => rfl
      · split
        · exact kept.goes found (.work [] .done) rfl rfl rfl rfl (by simp [Stage.keeps, joins])
            (by simp) fun _ _ => rfl
        · exact kept.goes found (.work [] .health) rfl rfl rfl rfl (by simp [Stage.keeps, joins])
            (by simp) fun _ => id
      · split
        · exact kept.goes found (.work [] .done) rfl rfl rfl rfl (by simp [Stage.keeps, joins])
            (by simp) fun _ _ => rfl
        · rename_i live
          exact kept.closes found live
      · rename_i launches _ ends
        exact kept.lockSection choice found ends launches calm

theorem Kept.performPool (kept : Kept l) (e : Event) (calm : Steady l (.pool e)) :
    Kept (performPool l e) := by
  cases e with
  | call request =>
    have idle : checking request.task = false := by cases request <;> rfl
    refine ⟨fun pc member => ?_, kept.emptied, fun closed => ?_⟩
    · refine (kept.accounted pc member).imp_right (Or.imp_right ?_)
      rintro ⟨stage, there, keeps⟩
      exact ⟨stage, List.mem_append_left _ there, keeps⟩
    · refine (kept.watched closed).imp ?_ fun none => forall_added none idle
      rintro ⟨toClose, there⟩
      exact ⟨toClose, List.mem_append_left _ there⟩
  | step i choice =>
    rw [PoolShutdown.performPool]
    cases found : l.stages[i]? with
    | none => exact kept
    | some stage => exact kept.advance choice found (calm stage found)
  | giveBack i close =>
    rw [PoolShutdown.performPool]
    split
    · rename_i pc found
      have kept' : Kept { l with pool := { l.pool with
          unhealthy := if close then pc :: l.pool.unhealthy else l.pool.unhealthy } } :=
        ⟨kept.accounted, kept.emptied, kept.watched⟩
      exact kept'.goes found (.work [] (.releasing pc)) rfl rfl rfl rfl
        (by simp [Stage.keeps, joins]) (by simp) fun _ _ => rfl
    · exact kept

theorem Kept.perform (kept : Kept l) (deed : Deed) (calm : Steady l deed) :
    Kept (PoolShutdown.perform l deed) := by
  cases deed with
  | pool e => exact kept.performPool e calm
  | notify pc =>
    rw [PoolShutdown.perform]
    split
    · exact kept
    · exact ⟨kept.accounted, kept.emptied, kept.watched⟩

theorem kept_born {config : PoolConfig} {p : Pool} (made : newPool config = .ok p) :
    Kept (born p) := by
  obtain rfl := newPool_ok made
  exact ⟨by simp [born], by simp [born], by simp [born]⟩

/-- When Close has returned and no operation is in progress, every connection that was ever
dialled is closed and no health checker runs, as long as no Start added a connection or
launched a health checker after Close had begun, and no tunnel that the pool closed had been
marked as closed by its peer. -/
theorem nothing_left_open {config : PoolConfig} {p : Pool} (made : newPool config = .ok p)
    (deeds : List Deed) (calm : Along perform Steady deeds (born p)) :
    ∀ before, before <+: deeds → (after before (born p)).pool.closed = true →
      Still (after before (born p)) →
      (∀ pc ∈ (after before (born p)).dialed, pc ∈ (after before (born p)).shut) ∧
        ∀ stage ∈ (after before (born p)).stages, stage.checking = false := by
  rintro before ⟨rest, rfl⟩ closed still
  have kept : Kept (after before (born p)) :=
    invariant_run (fun _ deed calm kept => kept.perform deed calm) calm.initial (kept_born made)
  constructor
  · intro pc member
    rcases kept.accounted pc member with done | pooled | ⟨stage, there, keeps⟩
    · exact done
    · rw [kept.emptied closed] at pooled
      cases pooled
    · rcases still stage there with rfl | rfl | ⟨_, rfl⟩ <;> simp [Stage.keeps, joins] at keeps
  · rcases kept.watched closed with ⟨toClose, there⟩ | none
    · rcases still _ there with same | same | ⟨_, same⟩ <;> cases same
    · exact none

/-- Start dials and launches the health checker, a caller has the connection, and Close waits
for the health checker and closes the connection. -/
theorem nothing_left_open_started : ∃ p, newPool single = .ok p ∧
    let l := after ([.call .start, .step 0 smooth, .step 0 smooth, .step 0 smooth, .step 0 smooth,
      .step 0 smooth, .call .acquire, .step 1 smooth, .call .close, .step 2 smooth, .step 2 smooth,
      .step 0 late, .step 2 smooth, .step 2 smooth].map .pool ++ [.notify 0]) (born p)
    l.stages = [.work [] .done, .work [] (.holding 0), .work [] .done] ∧ l.dialed = [0] ∧
      ∀ pc ∈ l.dialed, pc ∈ l.shut := by
  refine ⟨_, newPool_single, ?_⟩
  intro l
  have stages : l.stages = [.work [] .done, .work [] (.holding 0), .work [] .done] := by decide
  refine ⟨stages, by decide, (nothing_left_open newPool_single _ (by decide) _ List.prefix_rfl
    (by decide) ?_).1⟩
  intro stage member
  have listed : stage ∈ [Stage.work [] .done, .work [] (.holding 0), .work [] .done] :=
    stages ▸ member
  simp only [List.mem_cons, List.not_mem_nil, or_false] at listed
  rcases listed with rfl | rfl | rfl
  · exact .inl rfl
  · exact .inr (.inr ⟨0, rfl⟩)
  · exact .inl rfl

/-- Close runs from beginning to end between Start's dial and its lock section: the connection
is never closed, and the health checker that Start then launches runs with a context nobody
cancels. -/
theorem start_outlives_close : ∃ p, newPool single = .ok p ∧
    let l := after ([.call .start, .step 0 smooth, .step 0 smooth, .call .close, .step 1 smooth,
      .step 1 smooth, .step 0 smooth, .step 0 smooth, .step 0 smooth].map .pool) (born p)
    l.pool.closed = true ∧ l.stages = [.work [] .checker, .work [] .done] ∧ l.dialed = [0] ∧
      l.shut = [] ∧ l.healthCtx = some 0 ∧ l.cancelled = [] := by
  refine ⟨_, rfl, ?_⟩
  decide

end Runs

end QuantumGo.PoolShutdown
