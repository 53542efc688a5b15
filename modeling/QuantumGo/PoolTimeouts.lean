import QuantumGo.PoolHandles

/-!
The WaitTimeout of the pool. TryAcquire saves the field, sets it to zero, calls Acquire and
puts back what it saved, in two lock sections. Acquire reads the field twice: under the lock,
to decide whether to wait, and in effectiveTimeout, without the lock, to decide how long. The
run here has that second read as a step of its own and keeps what each Acquire decided.
-/

namespace QuantumGo.PoolTimeouts

open ConnectionPool Interleaving

def effectiveTimeout (waitTimeout : Int) (remaining : Option Int) : Int :=
  match remaining with
  | none => waitTimeout
  | some remaining => if remaining < waitTimeout then remaining else waitTimeout

/-- What an Acquire decided; `direct` if a user called it and not TryAcquire. -/
inductive Decision where
  | whether (direct waits : Bool)
  | howLong (direct : Bool) (remaining : Option Int) (timer : Int)
  deriving DecidableEq, Repr

/-- `armed` are the wait channels whose waiter has started its timer. -/
structure Timed where
  world : World
  armed : List Nat
  decisions : List Decision
  deriving DecidableEq, Repr

def saved : Task → Option Int
  | .acquire orig => orig
  | .reserved orig => orig
  | .dialed orig _ => orig
  | .waiting orig _ => orig
  | .timedOut orig _ => orig
  | .discarding orig _ => orig
  | .restoring orig _ => some orig
  | _ => none

def exhausted (look : Nat → Look) (p : Pool) : Bool :=
  let found := tryGetIdleLocked look p.idle.length p
  !p.closed && found.1.isNone &&
    !decide (found.2.config.maxConns = 0 ∨ total found.2 < found.2.config.maxConns)

def waits : Task → Bool
  | .waiting _ _ => true
  | _ => false

/-- A step of the pool, or effectiveTimeout's read by the waiter at a place. -/
inductive Happening where
  | pool (e : Event)
  | arm (i : Nat) (remaining : Option Int)

def stepTask (t : Timed) (i : Nat) (choice : Choice) : Timed :=
  match t.world.tasks[i]? with
  | some (.waiting _ ch) =>
    if ch ∈ t.armed then { t with world := perform t.world (.step i choice) } else t
  | some (.acquire orig) => { t with
      world := perform t.world (.step i choice)
      decisions := t.decisions ++ if exhausted choice.look t.world.pool then
        [.whether orig.isNone (waits (acquire choice.look orig t.world.pool).1)] else [] }
  | _ => { t with world := perform t.world (.step i choice) }

def happen (t : Timed) : Happening → Timed
  | .pool (.step i choice) => stepTask t i choice
  | .pool e => { t with world := perform t.world e }
  | .arm i remaining =>
    match t.world.tasks[i]? with
    | some (.waiting orig ch) =>
      if ch ∈ t.armed then t
      else { t with
        armed := ch :: t.armed
        decisions := t.decisions ++ [.howLong orig.isNone remaining
          (effectiveTimeout t.world.pool.config.waitTimeout remaining)] }
    | _ => t

def after (happenings : List Happening) (t : Timed) : Timed := run happen happenings t

def Decision.Follows (configured : Int) : Decision → Prop
  | .whether direct waits => direct = true → (waits = true ↔ configured ≠ 0)
  | .howLong direct remaining timer => direct = true → timer = effectiveTimeout configured remaining

def Free (tasks : List Task) : Prop := ∀ task ∈ tasks, saved task = none

instance (tasks : List Task) : Decidable (Free tasks) :=
  inferInstanceAs (Decidable (∀ task ∈ tasks, saved task = none))

/-- A TryAcquire that saved something else than zero restores it only when no other is
between its two lock sections, and no direct Acquire reads the field while one is. -/
def careful (t : Timed) : Happening → Bool
  | .pool (.step i choice) =>
    match t.world.tasks[i]? with
    | some (.restoring orig _) => orig = 0 ∨ Free (t.world.tasks.set i .done)
    | some (.acquire none) => exhausted choice.look t.world.pool = true → Free t.world.tasks
    | _ => true
  | .pool _ => true
  | .arm i _ =>
    match t.world.tasks[i]? with
    | some (.waiting none ch) => ch ∈ t.armed ∨ Free t.world.tasks
    | _ => true

/-! The lock sections. -/

section Sections
variable {choice : Choice} {p p' : Pool} {task task' : Task}

@[simp] theorem saved_returned (orig : Option Int) (handle : Option Nat) :
    saved (returned orig handle) = orig := by
  cases orig <;> cases handle <;> rfl

@[simp] theorem saved_handed (handle : Option Nat) : saved (handed handle) = none := by
  cases handle <;> rfl

/-- In an exhausted pool the field decides whether Acquire waits. -/
theorem acquire_waits (look : Nat → Look) (orig : Option Int) (full : exhausted look p = true) :
    waits (acquire look orig p).1 = true ↔ p.config.waitTimeout ≠ 0 := by
  have config : (tryGetIdleLocked look p.idle.length p).2.config = p.config := by
    obtain ⟨_, _, same, -⟩ := tryGetIdleLocked_eq look p.idle.length p
    rw [same]
  unfold exhausted at full
  unfold acquire
  generalize tryGetIdleLocked look p.idle.length p = result at config full ⊢
  obtain ⟨taken, q⟩ := result
  simp only [Bool.and_eq_true, Bool.not_eq_true', decide_eq_false_iff_not] at full
  obtain ⟨⟨live, missed⟩, used⟩ := full
  rw [if_neg (by simp [live])]
  cases taken with
  | some pc => cases missed
  | none =>
    dsimp only at used config ⊢
    rw [if_neg used, config]
    split
    · rename_i zero
      cases orig <;> simp [returned, handed, waits, zero]
    · rename_i nonzero
      simp [waits, nonzero]

theorem quiet_unsaved (idle : quiet task = true) : saved task = none := by
  cases task <;> first | rfl | cases idle

theorem acts_saved (acts : Acts choice p task task' p') (saves : task ≠ .tryAcquire)
    (restores : ∀ orig held, task ≠ .restoring orig held) :
    saved task' = saved task ∧ p'.config = p.config := by
  cases acts with
  | goes _ _ before behind => exact ⟨(quiet_unsaved behind).trans (quiet_unsaved before).symm, rfl⟩
  | refused orig | takes orig | givesUp orig | drops orig | pools orig
  | evicted orig | leaves orig =>
    exact ⟨saved_returned orig _, rfl⟩
  | gets orig _ _ _ _ either =>
    rcases either with rfl | rfl
    · exact ⟨saved_returned orig _, rfl⟩
    · exact ⟨rfl, rfl⟩
  | frees orig =>
    obtain ⟨_, _, woken⟩ := wakeWaiterLocked_eq { p with pending := p.pending - 1 }
    exact ⟨saved_returned orig none, woken ▸ rfl⟩
  | expels pc =>
    obtain ⟨_, _, woken⟩ := wakeWaiterLocked_eq (removeConnLocked pc p)
    exact ⟨rfl, woken ▸ rfl⟩
  | saves => exact absurd rfl saves
  | restores orig held => exact absurd rfl (restores orig held)
  | heals =>
    rw [removeUnhealthy_eq]
    exact ⟨rfl, rfl⟩
  | _ => exact ⟨rfl, rfl⟩

end Sections

/-! Runs. -/

structure Lent (configured : Int) (w : World) (keeper : Nat) : Prop where
  zero : w.pool.config.waitTimeout = 0
  keeps : ∃ task ∈ w.tasks[keeper]?, saved task = some configured
  others : ∀ (i : Nat), ∀ task ∈ w.tasks[i]?, i ≠ keeper → ∀ orig, saved task = some orig → orig = 0

def Guarded (configured : Int) (w : World) : Prop :=
  (w.pool.config.waitTimeout = configured ∧ Free w.tasks) ∨ ∃ keeper, Lent configured w keeper

section Runs
variable {configured : Int} {w : World} {i : Nat} {task : Task}

section Guard
variable (guarded : Guarded configured w)
include guarded

theorem Guarded.goes {task' : Task} {p' : Pool} (found : w.tasks[i]? = some task)
    (same : saved task' = saved task) (config : p'.config = w.pool.config) :
    Guarded configured ⟨p', w.tasks.set i task'⟩ := by
  rcases guarded with ⟨value, free⟩ | ⟨keeper, zero, ⟨holder, there, keeps⟩, others⟩
  · refine .inl ⟨by rw [config, value], fun other member => ?_⟩
    rcases List.mem_or_eq_of_mem_set member with before | rfl
    · exact free other before
    · exact same.trans (free task (List.mem_of_getElem? found))
  · refine .inr ⟨keeper, by rw [config, zero], ?_, fun j other present differs orig kept => ?_⟩
    · by_cases mine : keeper = i
      · subst mine
        cases found.symm.trans there
        exact ⟨task', (getElem?_replaced found keeper task').mpr (.inl ⟨rfl, rfl⟩),
          same.trans keeps⟩
      · exact ⟨holder, (getElem?_replaced found keeper holder).mpr (.inr ⟨mine, there⟩), keeps⟩
    · rcases (getElem?_replaced found j other).mp present with ⟨rfl, rfl⟩ | ⟨_, before⟩
      · exact others j task found differs orig (same ▸ kept)
      · exact others j other before differs orig kept

theorem Guarded.saves (found : w.tasks[i]? = some .tryAcquire) (choice : Choice) :
    Guarded configured ⟨(step choice .tryAcquire w.pool).2,
      w.tasks.set i (step choice .tryAcquire w.pool).1⟩ := by
  have places (j : Nat) (other : Task) :
      (w.tasks.set i (.acquire (some w.pool.config.waitTimeout)))[j]? = some other ↔
        j = i ∧ other = .acquire (some w.pool.config.waitTimeout) ∨
          j ≠ i ∧ w.tasks[j]? = some other :=
    getElem?_replaced found j other
  rcases guarded with ⟨value, free⟩ | ⟨keeper, zero, ⟨holder, there, keeps⟩, others⟩
  · refine .inr ⟨i, rfl, ⟨_, (places i _).mpr (.inl ⟨rfl, rfl⟩), congrArg some value⟩, ?_⟩
    intro j other present differs orig kept
    rcases (places j other).mp present with ⟨same, _⟩ | ⟨_, before⟩
    · exact absurd same differs
    · rw [free other (List.mem_of_getElem? before)] at kept
      cases kept
  · have apart : keeper ≠ i := by
      rintro rfl
      cases found.symm.trans there
      cases keeps
    refine .inr ⟨keeper, rfl, ⟨holder, (places keeper holder).mpr (.inr ⟨apart, there⟩), keeps⟩, ?_⟩
    intro j other present differs orig kept
    rcases (places j other).mp present with ⟨_, rfl⟩ | ⟨_, before⟩
    · exact (Option.some.inj kept).symm.trans zero
    · exact others j other before differs orig kept

/-- The keeper restores the configured value, when it is alone; the others restore zero. -/
theorem Guarded.restores {orig : Int} {held : Option Nat} (nonzero : configured ≠ 0)
    (found : w.tasks[i]? = some (.restoring orig held)) (choice : Choice)
    (last : orig = 0 ∨ Free (w.tasks.set i .done)) :
    Guarded configured ⟨(step choice (.restoring orig held) w.pool).2,
      w.tasks.set i (step choice (.restoring orig held) w.pool).1⟩ := by
  have listed := List.mem_of_getElem? found
  have places (j : Nat) (other : Task) : (w.tasks.set i (handed held))[j]? = some other ↔
      j = i ∧ other = handed held ∨ j ≠ i ∧ w.tasks[j]? = some other :=
    getElem?_replaced found j other
  rcases guarded with ⟨_, free⟩ | ⟨keeper, zero, ⟨holder, there, keeps⟩, others⟩
  · cases free _ listed
  by_cases mine : keeper = i
  · subst mine
    cases found.symm.trans there
    have value : orig = configured := Option.some.inj keeps
    have alone := last.resolve_left (value ▸ nonzero)
    refine .inl ⟨value, fun other member => ?_⟩
    obtain ⟨j, present⟩ := List.getElem?_of_mem member
    rcases (places j other).mp present with ⟨_, rfl⟩ | ⟨differs, before⟩
    · exact saved_handed held
    · exact alone other (List.mem_of_getElem?
        ((getElem?_replaced found j other).mpr (.inr ⟨differs, before⟩)))
  · have value : orig = 0 := others i _ found (Ne.symm mine) orig rfl
    refine .inr ⟨keeper, value, ⟨holder, (places keeper holder).mpr (.inr ⟨mine, there⟩), keeps⟩,
      ?_⟩
    intro j other present differs kept same
    rcases (places j other).mp present with ⟨_, rfl⟩ | ⟨_, before⟩
    · rw [saved_handed] at same
      cases same
    · exact others j other before differs kept same

theorem Guarded.call (request : Request) :
    Guarded configured { w with tasks := w.tasks ++ [request.task] } := by
  have unsaved : saved request.task = none := by cases request <;> rfl
  rcases guarded with ⟨value, free⟩ | ⟨keeper, zero, ⟨holder, there, keeps⟩, others⟩
  · exact .inl ⟨value, forall_added free unsaved⟩
  · have inside := (List.getElem?_eq_some_iff.mp there).1
    refine .inr ⟨keeper, zero, ⟨holder, (List.getElem?_append_left inside).trans there, keeps⟩, ?_⟩
    intro j other present differs orig kept
    rcases (getElem?_added j other).mp present with before | ⟨-, rfl⟩
    · exact others j other before differs orig kept
    · rw [unsaved] at kept
      cases kept

theorem Guarded.step (nonzero : configured ≠ 0) (choice : Choice)
    (last : ∀ orig held, w.tasks[i]? = some (.restoring orig held) →
      orig = 0 ∨ Free (w.tasks.set i .done)) : Guarded configured (perform w (.step i choice)) := by
  rw [perform]
  cases found : w.tasks[i]? with
  | none => exact guarded
  | some task =>
    by_cases saves : task = .tryAcquire
    · subst saves
      exact guarded.saves found choice
    by_cases restores : ∃ orig held, task = .restoring orig held
    · obtain ⟨orig, held, rfl⟩ := restores
      exact guarded.restores nonzero found choice (last orig held found)
    · have kept := acts_saved (step_acts choice task w.pool) saves fun orig held same =>
        restores ⟨orig, held, same⟩
      exact guarded.goes found kept.1 kept.2

theorem Guarded.giveBack (i : Nat) (close : Bool) :
    Guarded configured (perform w (.giveBack i close)) := by
  rw [perform]
  split
  · rename_i pc found
    exact guarded.goes found rfl rfl
  · exact guarded

/-- Without a TryAcquire in progress the field has the configured value. -/
theorem Guarded.value (free : Free w.tasks) : w.pool.config.waitTimeout = configured := by
  rcases guarded with ⟨value, _⟩ | ⟨keeper, _, ⟨holder, there, keeps⟩, _⟩
  · exact value
  · rw [free holder (List.mem_of_getElem? there)] at keeps
    cases keeps

end Guard

structure Undisturbed (configured : Int) (t : Timed) : Prop where
  guarded : Guarded configured t.world
  decided : ∀ decision ∈ t.decisions, decision.Follows configured

theorem Undisturbed.stepTask {t : Timed} (undisturbed : Undisturbed configured t)
    (nonzero : configured ≠ 0) (i : Nat) (choice : Choice)
    (calm : careful t (.pool (.step i choice)) = true) :
    Undisturbed configured (stepTask t i choice) := by
  have guarded : Guarded configured (perform t.world (.step i choice)) := by
    refine undisturbed.guarded.step nonzero choice fun orig held found => ?_
    simpa only [careful, found, decide_eq_true_eq] using calm
  unfold PoolTimeouts.stepTask
  split
  · split
    · exact ⟨guarded, undisturbed.decided⟩
    · exact undisturbed
  · rename_i orig found
    refine ⟨guarded, fun decision member => ?_⟩
    rcases List.mem_append.mp member with before | new
    · exact undisturbed.decided decision before
    · split at new
      · rename_i full
        cases List.mem_singleton.mp new
        intro direct
        -- The lock section of a direct Acquire finds the field as configured.
        cases orig with
        | some value => cases direct
        | none =>
          have free : Free t.world.tasks := by
            simpa only [careful, found, full, forall_const, decide_eq_true_eq] using calm
          rw [acquire_waits choice.look none full, undisturbed.guarded.value free]
      · cases new
  · exact ⟨guarded, undisturbed.decided⟩

theorem Undisturbed.happen {t : Timed} (undisturbed : Undisturbed configured t)
    (nonzero : configured ≠ 0) (h : Happening) (calm : careful t h = true) :
    Undisturbed configured (happen t h) := by
  cases h with
  | pool e =>
    cases e with
    | call request => exact ⟨undisturbed.guarded.call request, undisturbed.decided⟩
    | step i choice => exact undisturbed.stepTask nonzero i choice calm
    | giveBack i close => exact ⟨undisturbed.guarded.giveBack i close, undisturbed.decided⟩
  | arm i remaining =>
    rw [PoolTimeouts.happen]
    split
    · rename_i orig ch found
      split
      · exact undisturbed
      · rename_i unarmed
        refine ⟨undisturbed.guarded, forall_added undisturbed.decided fun direct => ?_⟩
        cases orig with
        | some value => cases direct
        | none =>
          have free : Free t.world.tasks := by
            simpa only [careful, found, unarmed, false_or, decide_eq_true_eq] using calm
          rw [undisturbed.guarded.value free]
    · exact undisturbed

/-- A pool that NewPool makes has a WaitTimeout other than zero. -/
theorem newPool_waitTimeout {config : PoolConfig} {p : Pool} (made : newPool config = .ok p) :
    p.config.waitTimeout ≠ 0 := by
  obtain rfl := newPool_ok made
  simp only [PoolConfig.applyDefaults, orDefault]
  split
  · decide
  · assumption

/-- Every direct Acquire decides from the WaitTimeout that the pool was made with, and the
field holds it whenever no TryAcquire is between its two lock sections, as long as whoever
saved it restores it last and no direct Acquire reads the field meanwhile. -/
theorem waitTimeout_undisturbed {config : PoolConfig} {p : Pool} (made : newPool config = .ok p)
    (happenings : List Happening)
    (calm : Along happen (careful · · = true) happenings ⟨⟨p, []⟩, [], []⟩) :
    ∀ before, before <+: happenings → (∀ decision ∈ (after before ⟨⟨p, []⟩, [], []⟩).decisions,
        decision.Follows p.config.waitTimeout) ∧
      (Free (after before ⟨⟨p, []⟩, [], []⟩).world.tasks →
        (after before ⟨⟨p, []⟩, [], []⟩).world.pool.config.waitTimeout = p.config.waitTimeout) := by
  rintro before ⟨rest, rfl⟩
  have first : Undisturbed p.config.waitTimeout ⟨⟨p, []⟩, [], []⟩ :=
    ⟨.inl ⟨rfl, by simp [Free]⟩, by simp⟩
  have undisturbed : Undisturbed p.config.waitTimeout (after before ⟨⟨p, []⟩, [], []⟩) :=
    invariant_run (fun _ h calm kept => kept.happen (newPool_waitTimeout made) h calm) calm.initial
      first
  exact ⟨undisturbed.decided, undisturbed.guarded.value⟩

def taken : List Happening :=
  [.pool (.call .acquire), .pool (.step 0 smooth), .pool (.step 0 smooth), .pool (.step 0 smooth)]

/-- A TryAcquire from its call to its return, and then an Acquire that waits. -/
theorem waitTimeout_undisturbed_alone : ∃ p, newPool single = .ok p ∧
    let t := after (taken ++ [.pool (.call .tryAcquire), .pool (.step 1 smooth),
      .pool (.step 1 smooth), .pool (.step 1 smooth), .pool (.call .acquire),
      .pool (.step 2 smooth), .arm 2 none]) ⟨⟨p, []⟩, [], []⟩
    t.decisions = [.whether false false, .whether true true, .howLong true none (seconds 30)] ∧
      t.world.pool.config.waitTimeout = p.config.waitTimeout := by
  refine ⟨_, newPool_single, by decide, ?_⟩
  exact (waitTimeout_undisturbed newPool_single _ (by decide) _ List.prefix_rfl).2 (by decide)

def overlapped : List Happening :=
  taken ++ [.pool (.call .tryAcquire), .pool (.step 1 smooth), .pool (.call .acquire),
    .pool (.step 2 smooth)]

def crossed : List Happening :=
  taken ++ [.pool (.call .tryAcquire), .pool (.call .tryAcquire), .pool (.step 1 smooth),
    .pool (.step 2 smooth), .pool (.step 1 smooth), .pool (.step 2 smooth), .pool (.step 1 smooth),
    .pool (.step 2 smooth), .pool (.call .acquire), .pool (.step 3 smooth)]

/-- WaitTimeout is thirty seconds. In both runs the direct Acquire does not wait at all, and
behind the second no TryAcquire is in progress and the field is zero for good. -/
theorem tryAcquire_disturbs : ∃ p, newPool single = .ok p ∧ p.config.waitTimeout = seconds 30 ∧
    .whether true false ∈ (after overlapped ⟨⟨p, []⟩, [], []⟩).decisions ∧
    .whether true false ∈ (after crossed ⟨⟨p, []⟩, [], []⟩).decisions ∧
    (after crossed ⟨⟨p, []⟩, [], []⟩).world.tasks = [.holding 0, .done, .done, .done] ∧
    (after crossed ⟨⟨p, []⟩, [], []⟩).world.pool.config.waitTimeout = 0 := by
  refine ⟨_, rfl, ?_⟩
  decide

end Runs

end QuantumGo.PoolTimeouts
