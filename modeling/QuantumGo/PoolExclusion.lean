import QuantumGo.PoolHandles

/-!
Who has a connection of the pool. A connection is idle, or exactly one task has it: dialled
and not yet added, in the channel it listens to, or in hand. A waiter that gives up leaves
the connection in its channel to nobody, so nothing here depends on how waits end.
-/

namespace QuantumGo.PoolExclusion

open ConnectionPool PoolHandles Interleaving

/-- The connection of the unreleased handle a task has; TryAcquire has one before it
returns. -/
def handle : Task → Option Nat
  | .holding pc => some pc
  | .restoring _ handle => handle
  | _ => none

def Owns (p : Pool) (task : Task) (pc : Nat) : Prop := Has p task pc ∨ joins task = some pc

variable {p : Pool} {task : Task} {pc : Nat}

theorem owns_handle (held : handle task = some pc) : Owns p task pc := by
  cases task with
  | holding _ | restoring _ _ => exact .inl (.inl held)
  | _ => cases held

/-! What one lock section does to the owners. -/

structure Transfers (task : Task) (p : Pool) (task' : Task) (p' : Pool) : Prop where
  later : p.next ≤ p'.next
  waiters : ∀ ch ∈ p'.waiters, channel task' = some ch ∨ ch ∈ p.waiters ∧ channel task ≠ some ch
  listens : ∀ ch, channel task' = some ch → channel task = some ch ∨ p.next ≤ ch ∧ ch < p'.next
  distinct : p'.idle.Nodup
  idle : ∀ pc ∈ p'.idle, (pc ∈ p.idle ∨ Owns p task pc) ∧ ¬Owns p' task' pc
  owned : ∀ pc, Owns p' task' pc → Owns p task pc ∨ pc ∈ p.idle ∨ p.next ≤ pc ∧ pc < p'.next
  sent : ∀ ch pc, p'.sent.lookup ch = some (some pc) → p.sent.lookup ch = some (some pc) ∨
    p.waiters.head? = some ch ∧ Owns p task pc ∧ pc ∉ p'.idle ∧ ¬Owns p' task' pc
  added : ∀ pc ∈ p'.conns, pc ∈ p.conns ∨ joins task = some pc
  joining : ∀ pc, joins task' = some pc → p.next ≤ pc

structure Clear (task : Task) (p : Pool) : Prop where
  sound : Sound p
  distinct : p.idle.Nodup
  apart : ∀ pc ∈ p.idle, ¬Owns p task pc
  old : ∀ pc ∈ p.idle, pc < p.next

variable {task' : Task}

section Sections
variable {choice : Choice} {p' : Pool}

theorem owns_nothing (bare : Bare task) (pc : Nat) : ¬Owns p task pc := by
  simp [Owns, Has, bare.1, bare.2.1, bare.2.2]

theorem owns_carried {other : Nat} (carried : carries task = some pc)
    (unlistening : channel task = none) (unjoined : joins task = none) :
    Owns p task other ↔ other = pc := by
  simp [Owns, Has, carried, unlistening, unjoined, eq_comm]

/-- A step that leaves the idle connections and the channels alone. -/
theorem Transfers.still (clear : Clear task p) (idle : p'.idle = p.idle)
    (waiters : ∀ ch ∈ p'.waiters, ch ∈ p.waiters ∧
      (channel task = some ch → channel task' = some ch))
    (sent : p'.sent = p.sent) (later : p.next ≤ p'.next)
    (listens : ∀ ch, channel task' = some ch → channel task = some ch)
    (owned : ∀ pc, Owns p' task' pc → Owns p task pc ∨ p.next ≤ pc ∧ pc < p'.next)
    (added : ∀ pc ∈ p'.conns, pc ∈ p.conns ∨ joins task = some pc)
    (joining : ∀ pc, joins task' = some pc → p.next ≤ pc) : Transfers task p task' p' where
  later := later
  waiters ch member := by
    obtain ⟨before, kept⟩ := waiters ch member
    by_cases own : channel task = some ch
    · exact .inl (kept own)
    · exact .inr ⟨before, own⟩
  listens ch listening := .inl (listens ch listening)
  distinct := idle ▸ clear.distinct
  idle pc member := by
    rw [idle] at member
    refine ⟨.inl member, fun owns => ?_⟩
    rcases owned pc owns with before | ⟨new, _⟩
    · exact clear.apart pc member before
    · exact absurd (clear.old pc member) (by omega)
  owned pc owns := (owned pc owns).imp_right .inr
  sent ch pc found := .inl (sent ▸ found)
  added := added
  joining := joining

/-- A step of a task that listens to nothing to one that has nothing: the pool may lose
connections and waiters. -/
theorem Transfers.fewer (clear : Clear task p) (unlistened : channel task = none)
    (bare : Bare task') (idle : p'.idle.Sublist p.idle) (conns : p'.conns ⊆ p.conns)
    (waiters : p'.waiters ⊆ p.waiters) (sent : p'.sent = p.sent) (next : p'.next = p.next) :
    Transfers task p task' p' where
  later := next.ge
  waiters ch member := .inr ⟨waiters member, by simp [unlistened]⟩
  listens ch listening := by simp [bare.2.1] at listening
  distinct := idle.nodup clear.distinct
  idle pc member := ⟨.inl (idle.subset member), owns_nothing bare pc⟩
  owned pc own := absurd own (owns_nothing bare pc)
  sent ch pc found := .inl (sent ▸ found)
  added pc member := .inl (conns member)
  joining := by simp [bare.2.2]

theorem stays_transfers (clear : Clear task p) (unlistened : channel task = none)
    (bare : Bare task') : Transfers task p task' p :=
  .fewer clear unlistened bare (.refl _) (fun _ => id) (fun _ => id) rfl rfl

theorem dialed_transfers (clear : Clear task p) (unlistened : channel task = none)
    (carried : carries task' = none) (unlistening : channel task' = none)
    (joined : joins task' = some p.next) :
    Transfers task p task' { p with next := p.next + 1 } := by
  have new {pc : Nat} (joining : joins task' = some pc) : p.next ≤ pc ∧ pc < p.next + 1 := by
    cases joined.symm.trans joining
    exact ⟨le_rfl, Nat.lt_succ_self _⟩
  refine .still clear rfl (fun ch member => ⟨member, by simp [unlistened]⟩) rfl (Nat.le_succ _)
    (by simp [unlistening]) ?_ (fun _ => .inl) fun pc joining => (new joining).1
  rintro pc (has | joining)
  · exact absurd has (not_has carried unlistening pc)
  · exact .inr (new joining)

/-- Ownership reads the connections in the channels and nothing else of the pool. -/
theorem owns_congr
    (sent : ∀ ch pc, p'.sent.lookup ch = some (some pc) ↔ p.sent.lookup ch = some (some pc))
    (pc : Nat) : Owns p' task pc ↔ Owns p task pc := by
  simp only [Owns, Has, sent]

theorem wake_sent (p : Pool) (ch pc : Nat) :
    (wakeWaiterLocked p).sent.lookup ch = some (some pc) ↔ p.sent.lookup ch = some (some pc) := by
  unfold wakeWaiterLocked
  split
  · rfl
  · rename_i first rest listed
    cases found : p.sent.lookup ch with
    | some message => simp [List.lookup_append, found]
    | none =>
      by_cases same : ch = first
      · subst same
        simp [List.lookup_append, found]
      · simp [List.lookup_append, found, List.lookup_cons, beq_false_of_ne same]

/-- Telling a waiter to try again moves no connection. -/
theorem Transfers.wake (transfers : Transfers task p task' p') :
    Transfers task p task' (wakeWaiterLocked p') := by
  obtain ⟨conns, idle, -, next⟩ := wake_frame p'
  have owns (pc : Nat) : Owns (wakeWaiterLocked p') task' pc ↔ Owns p' task' pc :=
    owns_congr (wake_sent p') pc
  refine ⟨next ▸ transfers.later, fun ch member => transfers.waiters ch (wake_waiters member),
    next ▸ transfers.listens, idle ▸ transfers.distinct, fun pc member => ?_, fun pc own => ?_,
    fun ch pc found => ?_, fun pc member => transfers.added pc (conns ▸ member), transfers.joining⟩
  · rw [owns]
    exact transfers.idle pc (idle ▸ member)
  · rw [next]
    exact transfers.owned pc ((owns pc).mp own)
  · rw [idle, owns]
    exact transfers.sent ch pc ((wake_sent p' ch pc).mp found)

theorem joined_added {other : Nat} (joined : joins task = some pc)
    (member : other ∈ p.conns ++ [pc]) : other ∈ p.conns ∨ joins task = some other :=
  (List.mem_append.mp member).imp_right fun last =>
    joined.trans (congrArg some (List.mem_singleton.mp last).symm)

/-- A task that listens to nothing makes what it has idle. -/
theorem idles_transfers (clear : Clear task p) (mine : Owns p task pc)
    (unlistened : channel task = none) (bare : Bare task') (idle : p'.idle = p.idle ++ [pc])
    (waiters : p'.waiters = p.waiters) (sent : p'.sent = p.sent) (next : p'.next = p.next)
    (added : ∀ other ∈ p'.conns, other ∈ p.conns ∨ joins task = some other) :
    Transfers task p task' p' where
  later := next.ge
  waiters ch member := .inr ⟨waiters ▸ member, by simp [unlistened]⟩
  listens ch listening := by simp [bare.2.1] at listening
  distinct := by
    rw [idle]
    refine List.nodup_append.mpr ⟨clear.distinct, List.nodup_singleton pc, ?_⟩
    intro other member last own same
    rw [List.mem_singleton.mp own] at same
    exact clear.apart other member (same ▸ mine)
  idle other member := by
    rw [idle] at member
    refine ⟨(List.mem_append.mp member).imp_right fun last => ?_, owns_nothing bare other⟩
    exact List.mem_singleton.mp last ▸ mine
  owned other own := absurd own (owns_nothing bare other)
  sent _ _ found := .inl (sent ▸ found)
  added := added
  joining _ joining := by simp [bare.2.2] at joining

/-- What the search for an idle connection takes was there and is not left. -/
theorem tryGetIdleLocked_takes (look : Nat → Look) (left : Nat) (p : Pool) (distinct : p.idle.Nodup)
    {pc : Nat} (taken : (tryGetIdleLocked look left p).1 = some pc) :
    pc ∈ p.idle ∧ pc ∉ (tryGetIdleLocked look left p).2.idle := by
  induction left generalizing p with
  | zero => cases taken
  | succ left ih =>
    rw [tryGetIdleLocked] at taken ⊢
    split at taken
    · cases taken
    · rename_i last found
      obtain ⟨front, whole⟩ := List.getLast?_eq_some_iff.mp found
      have popped : p.idle.dropLast = front := by simp [whole]
      have apart : front.Nodup ∧ last ∉ front := by
        have both := distinct
        rw [whole, List.nodup_append] at both
        exact ⟨both.1, fun member => both.2.2 last member last (List.mem_singleton.mpr rfl) rfl⟩
      dsimp only at taken ⊢
      rw [popped] at taken ⊢
      by_cases healthy : isHealthy look { p with idle := front } last = true
      · rw [if_pos healthy] at taken ⊢
        cases taken
        exact ⟨whole ▸ List.mem_append_right _ (List.mem_singleton.mpr rfl), apart.2⟩
      · rw [if_neg healthy] at taken ⊢
        -- The unhealthy one is gone; the search goes on with the others.
        have shorter : (front.erase last).Sublist front := List.erase_sublist
        obtain ⟨there, gone⟩ := ih (removeConnLocked last { p with idle := front })
          (shorter.nodup apart.1) taken
        exact ⟨whole ▸ List.mem_append_left _ (shorter.subset there), gone⟩

theorem searched_idle {look : Nat → Look} {taken : Option Nat} {conns idle : List Nat}
    (distinct : p.idle.Nodup)
    (found : tryGetIdleLocked look p.idle.length p = (taken, { p with conns, idle })) :
    idle.Sublist p.idle ∧ ∀ pc, taken = some pc → pc ∈ p.idle ∧ pc ∉ idle := by
  have takes (pc : Nat) := @tryGetIdleLocked_takes look p.idle.length p distinct pc
  obtain ⟨_, _, same, -, fewer⟩ := tryGetIdleLocked_eq look p.idle.length p
  rw [found] at takes same
  have left : idle = _ := congrArg Pool.idle same
  exact ⟨left ▸ fewer, takes⟩

/-- A waiter takes what was put into its channel, and leaves or stays. -/
theorem wait_transfers {orig : Option Int} {ch : Nat} (clear : Clear (.waiting orig ch) p)
    (listens : ∀ own, channel task' = some own → own = ch)
    (stays : ch ∈ p.waiters → channel task' = some ch) (unjoined : joins task' = none)
    (took : ∀ pc, carries task' = some pc → p.sent.lookup ch = some (some pc)) :
    Transfers (.waiting orig ch) p task' p := by
  refine .still clear rfl (fun own member => ⟨member, ?_⟩) rfl le_rfl
    (fun own listening => congrArg some (listens own listening).symm) (fun pc owns => .inl ?_)
    (fun _ => .inl) (by simp [unjoined])
  · rintro ⟨⟩
    exact stays member
  · rcases owns with (held | ⟨own, listening, put⟩) | joined
    · exact .inl (.inr ⟨ch, rfl, took pc held⟩)
    · exact .inl (.inr ⟨own, congrArg some (listens own listening).symm, put⟩)
    · simp [unjoined] at joined

theorem Clear.acts (clear : Clear task p) (acts : Acts choice p task task' p') :
    Transfers task p task' p' := by
  have heard {ch : Nat} {message : Option Nat} (found : p.sent.lookup ch = some message) :
      ch ∉ p.waiters :=
    fun listed => absurd (found.symm.trans (clear.sound.unsent ch listed)) (by simp)
  cases acts with
  | goes _ _ before behind =>
    exact stays_transfers clear (quiet_bare before).2.1 (quiet_bare behind)
  | startDials | dials | healthDials => exact dialed_transfers clear rfl rfl rfl rfl
  | startAdds | healthAdds =>
    exact idles_transfers clear (.inr rfl) rfl ⟨rfl, rfl, rfl⟩ rfl rfl rfl rfl fun _ =>
      joined_added rfl
  | dialFails | abandons | healthDrops => exact stays_transfers clear rfl ⟨rfl, rfl, rfl⟩
  | refused orig => exact stays_transfers clear rfl (bare_returned orig)
  | takes orig pc conns idle live found =>
    obtain ⟨shorter, taken⟩ := searched_idle clear.distinct found
    obtain ⟨member, gone⟩ := taken pc rfl
    have mine {other : Nat} {q : Pool} (own : Owns q (returned orig (some pc)) other) :
        other = pc :=
      (owns_carried (carries_returned orig (some pc)) (by simp) (by simp)).mp own
    exact
      { later := le_rfl
        waiters := fun ch member => .inr ⟨member, by simp [channel]⟩
        listens := by simp
        distinct := shorter.nodup clear.distinct
        idle := fun other there => ⟨.inl (shorter.subset there), fun own => gone (mine own ▸ there)⟩
        owned := fun other own => .inr (.inl (mine own ▸ member))
        sent := fun _ _ found => .inl found
        added := fun _ there => .inl ((searched_conns found).subset there)
        joining := by simp }
  | reserves _ _ _ _ missed =>
    exact .fewer clear rfl ⟨rfl, rfl, rfl⟩ (searched_idle clear.distinct missed).1
      (searched_conns missed).subset (fun _ => id) rfl rfl
  | givesUp orig _ _ _ missed =>
    exact .fewer clear rfl (bare_returned orig) (searched_idle clear.distinct missed).1
      (searched_conns missed).subset (fun _ => id) rfl rfl
  | queues orig conns idle live missed =>
    obtain ⟨shorter, -⟩ := searched_idle clear.distinct missed
    have nothing (q : Pool) (sent : q.sent = p.sent) (pc : Nat) :
        ¬Owns q (.waiting orig p.next) pc := by
      rintro ((⟨⟨⟩⟩ | ⟨ch, ⟨⟩, put⟩) | ⟨⟨⟩⟩)
      rw [sent, clear.sound.fresh] at put
      cases put
    exact
      { later := Nat.le_succ _
        waiters := fun ch member => (List.mem_append.mp member).symm.imp
          (fun last => congrArg some (List.mem_singleton.mp last).symm)
          fun before => ⟨before, by simp [channel]⟩
        listens := by
          rintro ch ⟨⟩
          exact .inr ⟨le_rfl, Nat.lt_succ_self _⟩
        distinct := shorter.nodup clear.distinct
        idle := fun pc member => ⟨.inl (shorter.subset member), nothing _ rfl pc⟩
        owned := fun pc own => absurd own (nothing _ rfl pc)
        sent := fun _ _ found => .inl found
        added := fun _ member => .inl ((searched_conns missed).subset member)
        joining := by simp [joins] }
  | frees orig =>
    exact Transfers.wake (.fewer clear rfl (bare_returned orig) (.refl _) (fun _ => id)
      (fun _ => id) rfl rfl)
  | drops orig =>
    exact .fewer clear rfl (bare_returned orig) (.refl _) (fun _ => id) (fun _ => id) rfl rfl
  | pools orig pc =>
    refine .still clear rfl (fun ch member => ⟨member, by simp [channel]⟩) rfl le_rfl (by simp)
      (fun other own => .inl (.inr ?_)) (fun other => joined_added rfl) (by simp)
    rw [(owns_carried (carries_returned orig (some pc)) (by simp) (by simp)).mp own]
    rfl
  | timesOut | waits =>
    exact wait_transfers clear (by simp [channel]) (fun _ => rfl) rfl (by simp [carries])
  | gets orig ch pc put _ either =>
    rcases either with rfl | rfl
    · exact wait_transfers clear (by simp) (fun listed => absurd listed (heard put)) (by simp)
        (by simp [put])
    · exact wait_transfers clear (by simp [channel]) (fun listed => absurd listed (heard put)) rfl
        (by simp [carries, put])
  | retries orig ch told =>
    exact wait_transfers clear (by simp [channel]) (fun listed => absurd listed (heard told)) rfl
      (by simp [carries])
  | evicted orig ch empty shut =>
    exact wait_transfers clear (by simp)
      (fun listed => absurd listed (clear.sound.opened ch shut)) (by simp) (by simp)
  | leaves orig ch =>
    refine .still clear rfl (fun own member => ⟨List.mem_of_mem_erase member, ?_⟩) rfl le_rfl
      (by simp) (fun pc owns => absurd owns (owns_nothing (bare_returned orig) pc)) (fun _ => .inl)
      (by simp)
    rintro ⟨⟩
    exact absurd member clear.sound.distinct.not_mem_erase
  | discards =>
    exact .fewer clear rfl ⟨rfl, rfl, rfl⟩ List.erase_sublist List.erase_subset
      (fun _ => id) rfl rfl
  | saves => exact .fewer clear rfl ⟨rfl, rfl, rfl⟩ (.refl _) (fun _ => id) (fun _ => id) rfl rfl
  | restores orig held =>
    refine .still clear rfl (fun ch member => ⟨member, by simp [channel]⟩) rfl le_rfl
      (by simp) (fun pc owns => .inl ?_) (fun _ => .inl) (by simp)
    rcases owns with (carried | ⟨ch, listens, _⟩) | joined
    · exact .inl (.inl ((carries_handed held).symm.trans carried))
    · simp at listens
    · simp at joined
  | holds pc =>
    exact .still clear rfl (fun ch member => ⟨member, id⟩) rfl le_rfl (fun _ => id)
      (fun _ => .inl) (fun _ => .inl) (by simp [joins])
  | expels =>
    exact Transfers.wake (.fewer clear rfl ⟨rfl, rfl, rfl⟩ List.erase_sublist List.erase_subset
      (fun _ => id) rfl rfl)
  | hands pc ch rest live well listed =>
    have mine : Owns p (.releasing pc) pc := .inl (.inl rfl)
    have nothing (q : Pool) (other : Nat) : ¬Owns q .done other :=
      owns_nothing ⟨rfl, rfl, rfl⟩ other
    exact
      { later := le_rfl
        waiters := fun other behind =>
          .inr ⟨listed ▸ List.mem_cons_of_mem _ behind, by simp [channel]⟩
        listens := by simp [channel]
        distinct := clear.distinct
        idle := fun other member => ⟨.inl member, nothing _ other⟩
        owned := fun other own => absurd own (nothing _ other)
        sent := fun other found lookup => by
          -- Only the first waiter's channel has something new, the connection itself.
          by_cases same : other = ch
          · subst same
            have empty := clear.sound.unsent other (listed ▸ List.mem_cons_self)
            have new : found = pc := by
              simpa [List.lookup_append, empty, List.lookup_cons, eq_comm] using lookup
            subst new
            exact .inr ⟨by simp [listed], mine, fun member => clear.apart _ member mine,
              nothing _ found⟩
          · refine .inl ?_
            simpa [List.lookup_append, List.lookup_cons, beq_false_of_ne same] using lookup
        added := fun _ => .inl
        joining := by simp [joins] }
  | rests pc =>
    exact idles_transfers clear (.inl (.inl rfl)) rfl ⟨rfl, rfl, rfl⟩ rfl rfl rfl rfl fun _ => .inl
  | heals =>
    rw [removeUnhealthy_eq]
    exact .fewer clear rfl ⟨rfl, rfl, rfl⟩ ((List.diff_sublist _ _).trans List.filter_sublist)
      (List.diff_subset _ _) (fun _ => id) rfl rfl
  | closes =>
    exact .fewer clear rfl ⟨rfl, rfl, rfl⟩ (List.nil_sublist _) (by simp) (by simp) rfl rfl

end Sections

/-! Runs. -/

structure Exclusive (w : World) : Prop where
  sound : Sound w.pool
  distinct : w.pool.idle.Nodup
  old : ∀ pc ∈ w.pool.idle, pc < w.pool.next
  drawn : ∀ (i : Nat), ∀ task ∈ w.tasks[i]?, ∀ pc, Owns w.pool task pc → pc < w.pool.next
  apart : ∀ (i : Nat), ∀ task ∈ w.tasks[i]?, ∀ pc, Owns w.pool task pc → pc ∉ w.pool.idle
  single : ∀ (i j : Nat), ∀ task ∈ w.tasks[i]?, ∀ other ∈ w.tasks[j]?, ∀ pc,
    Owns w.pool task pc → Owns w.pool other pc → i = j
  made : ∀ (i : Nat), ∀ task ∈ w.tasks[i]?, ∀ ch, channel task = some ch → ch < w.pool.next
  listener : ∀ (i j : Nat), ∀ task ∈ w.tasks[i]?, ∀ other ∈ w.tasks[j]?, ∀ ch,
    channel task = some ch → channel other = some ch → i = j
  listening : ∀ ch ∈ w.pool.waiters, ∃ (i : Nat), ∃ task ∈ w.tasks[i]?, channel task = some ch
  joining : ∀ (i : Nat), ∀ task ∈ w.tasks[i]?, ∀ pc, joins task = some pc → pc ∉ w.pool.conns

section Runs
variable {w : World}

theorem Exclusive.clear {i : Nat} (exclusive : Exclusive w) (found : w.tasks[i]? = some task) :
    Clear task w.pool where
  sound := exclusive.sound
  distinct := exclusive.distinct
  apart pc member owns := exclusive.apart i task found pc owns member
  old := exclusive.old

/-- What one task does leaves the others what they have; at most the first waiter gains
what the task gives away. -/
theorem Transfers.others {other : Task} {p' : Pool} (transfers : Transfers task p task' p')
    (owns : Owns p' other pc) : Owns p other pc ∨
      ∃ ch, channel other = some ch ∧ p.waiters.head? = some ch ∧ Owns p task pc ∧ pc ∉ p'.idle ∧
        ¬Owns p' task' pc := by
  rcases owns with (carried | ⟨ch, listens, put⟩) | joined
  · exact .inl (.inl (.inl carried))
  · exact (transfers.sent ch pc put).imp (fun before => .inl (.inr ⟨ch, listens, before⟩))
      fun given => ⟨ch, listens, given⟩
  · exact .inl (.inr joined)

theorem Exclusive.transfers {i : Nat} {p' : Pool} (exclusive : Exclusive w)
    (found : w.tasks[i]? = some task) (sound : Sound p')
    (transfers : Transfers task w.pool task' p') : Exclusive ⟨p', w.tasks.set i task'⟩ := by
  have places (j : Nat) (other : Task) : (w.tasks.set i task')[j]? = some other ↔
      j = i ∧ other = task' ∨ j ≠ i ∧ w.tasks[j]? = some other :=
    getElem?_replaced found j other
  -- What another task now has, it had, or this task had it.
  have given {other : Task} {pc : Nat} (owns : Owns p' other pc) :
      Owns w.pool other pc ∨ Owns w.pool task pc :=
    (transfers.others owns).imp_right fun handed => handed.choose_spec.2.2.1
  have before {pc : Nat} (owns : Owns w.pool task pc ∨ pc ∈ w.pool.idle) : pc < w.pool.next :=
    owns.elim (exclusive.drawn i task found pc) (exclusive.old pc)
  have idleOld (pc : Nat) (member : pc ∈ p'.idle) : pc < w.pool.next :=
    before (transfers.idle pc member).1.symm
  have drawn (j : Nat) (other : Task) (there : other ∈ (w.tasks.set i task')[j]?) (pc : Nat)
      (owns : Owns p' other pc) : pc < p'.next := by
    have later := transfers.later
    rcases (places j other).mp there with ⟨_, rfl⟩ | ⟨_, there⟩
    · rcases transfers.owned pc owns with own | idle | ⟨_, new⟩
      · exact lt_of_lt_of_le (before (.inl own)) later
      · exact lt_of_lt_of_le (before (.inr idle)) later
      · exact new
    · rcases given owns with own | own
      · exact lt_of_lt_of_le (exclusive.drawn j other there pc own) later
      · exact lt_of_lt_of_le (before (.inl own)) later
  have apart (j : Nat) (other : Task) (there : other ∈ (w.tasks.set i task')[j]?) (pc : Nat)
      (owns : Owns p' other pc) : pc ∉ p'.idle := by
    intro member
    rcases (places j other).mp there with ⟨_, rfl⟩ | ⟨differs, there⟩
    · exact (transfers.idle pc member).2 owns
    · rcases transfers.others owns with own | ⟨_, _, _, _, absent, _⟩
      · rcases (transfers.idle pc member).1 with idle | mine
        · exact exclusive.apart j other there pc own idle
        · exact differs (exclusive.single j i other there task found pc own mine)
      · exact absent member
  -- This task and another never have the same connection.
  have alone {j : Nat} {other : Task} (differs : j ≠ i) (there : w.tasks[j]? = some other)
      {pc : Nat} (own : Owns p' task' pc) (owns : Owns p' other pc) : False := by
    rcases transfers.others owns with kept | ⟨_, _, _, _, _, gone⟩
    · rcases transfers.owned pc own with mine | idle | ⟨new, _⟩
      · exact differs (exclusive.single j i other there task found pc kept mine)
      · exact exclusive.apart j other there pc kept idle
      · exact absurd (exclusive.drawn j other there pc kept) (by omega)
    · exact gone own
  refine ⟨sound, transfers.distinct, fun pc member => lt_of_lt_of_le (idleOld pc member)
    transfers.later, drawn, apart, ?_, ?_, ?_, ?_, ?_⟩
  · intro j k first thereFirst second thereSecond pc owns ownsToo
    rcases (places j first).mp thereFirst with ⟨rfl, rfl⟩ | ⟨differs, placed⟩ <;>
      rcases (places k second).mp thereSecond with ⟨rfl, rfl⟩ | ⟨differsToo, placedToo⟩
    · rfl
    · exact (alone differsToo placedToo owns ownsToo).elim
    · exact (alone differs placed ownsToo owns).elim
    · rcases transfers.others owns with kept | ⟨ch, listens, first, mine, _⟩
      · rcases transfers.others ownsToo with keptToo | ⟨_, _, _, mine, _⟩
        · exact exclusive.single j k _ placed _ placedToo pc kept keptToo
        · exact (differs (exclusive.single j i _ placed task found pc kept mine)).elim
      · rcases transfers.others ownsToo with keptToo | ⟨chToo, listensToo, firstToo, _⟩
        · exact (differsToo (exclusive.single k i _ placedToo task found pc keptToo mine)).elim
        · -- Both listen to the first waiter's channel.
          cases first.symm.trans firstToo
          exact exclusive.listener j k _ placed _ placedToo ch listens listensToo
  · intro j other there ch listens
    rcases (places j other).mp there with ⟨_, rfl⟩ | ⟨_, there⟩
    · rcases transfers.listens ch listens with own | ⟨_, new⟩
      · exact lt_of_lt_of_le (exclusive.made i task found ch own) transfers.later
      · exact new
    · exact lt_of_lt_of_le (exclusive.made j other there ch listens) transfers.later
  · -- A channel that this task has made is nobody else's.
    have own {k : Nat} {other : Task} (differs : k ≠ i) (there : w.tasks[k]? = some other)
        {ch : Nat} (mine : channel task' = some ch) (theirs : channel other = some ch) : False := by
      rcases transfers.listens ch mine with kept | ⟨new, _⟩
      · exact differs (exclusive.listener k i other there task found ch theirs kept)
      · exact absurd (exclusive.made k other there ch theirs) (by omega)
    intro j k first thereFirst second thereSecond ch listens listensToo
    rcases (places j first).mp thereFirst with ⟨rfl, rfl⟩ | ⟨differs, placed⟩ <;>
      rcases (places k second).mp thereSecond with ⟨rfl, rfl⟩ | ⟨differsToo, placedToo⟩
    · rfl
    · exact (own differsToo placedToo listens listensToo).elim
    · exact (own differs placed listensToo listens).elim
    · exact exclusive.listener j k _ placed _ placedToo ch listens listensToo
  · intro ch member
    rcases transfers.waiters ch member with mine | ⟨waited, left⟩
    · exact ⟨i, task', (places i task').mpr (.inl ⟨rfl, rfl⟩), mine⟩
    · obtain ⟨j, other, there, listens⟩ := exclusive.listening ch waited
      have differs : j ≠ i := by
        rintro rfl
        cases found.symm.trans there
        exact left listens
      exact ⟨j, other, (places j other).mpr (.inr ⟨differs, there⟩), listens⟩
  · intro j other there pc joined member
    rcases (places j other).mp there with ⟨_, rfl⟩ | ⟨differs, there⟩
    · have new := transfers.joining pc joined
      rcases transfers.added pc member with present | mine
      · exact absurd (exclusive.sound.old pc present) (by omega)
      · exact absurd (exclusive.drawn i task found pc (.inr mine)) (by omega)
    · rcases transfers.added pc member with present | mine
      · exact exclusive.joining j other there pc joined present
      · exact differs (exclusive.single j i other there task found pc (.inr joined) (.inr mine))

theorem Exclusive.call (exclusive : Exclusive w) (request : Request) :
    Exclusive { w with tasks := w.tasks ++ [request.task] } := by
  have fresh : Bare request.task := by cases request <;> exact ⟨rfl, rfl, rfl⟩
  have nothing (pc : Nat) : ¬Owns w.pool request.task pc := owns_nothing fresh pc
  have places (i : Nat) (task : Task) (there : task ∈ (w.tasks ++ [request.task])[i]?) :
      task ∈ w.tasks[i]? ∨ task = request.task :=
    ((getElem?_added i task).mp there).imp_right And.right
  have owner {i : Nat} {task : Task} {pc : Nat} (there : task ∈ (w.tasks ++ [request.task])[i]?)
      (owns : Owns w.pool task pc) : task ∈ w.tasks[i]? := by
    rcases places i task there with kept | rfl
    · exact kept
    · exact absurd owns (nothing pc)
  have listener {i : Nat} {task : Task} {ch : Nat} (there : task ∈ (w.tasks ++ [request.task])[i]?)
      (listens : channel task = some ch) : task ∈ w.tasks[i]? := by
    rcases places i task there with kept | rfl
    · exact kept
    · simp [fresh.2.1] at listens
  exact
    { sound := exclusive.sound
      distinct := exclusive.distinct
      old := exclusive.old
      drawn := fun i task there pc owns => exclusive.drawn i task (owner there owns) pc owns
      apart := fun i task there pc owns => exclusive.apart i task (owner there owns) pc owns
      single := fun i j task there other elsewhere pc owns ownsToo =>
        exclusive.single i j task (owner there owns) other (owner elsewhere ownsToo) pc owns ownsToo
      made := fun i task there ch listens => exclusive.made i task (listener there listens)
        ch listens
      listener := fun i j task there other elsewhere ch listens listensToo =>
        exclusive.listener i j task (listener there listens) other
          (listener elsewhere listensToo) ch listens listensToo
      listening := fun ch member => by
        obtain ⟨i, task, there, listens⟩ := exclusive.listening ch member
        obtain ⟨inside, _⟩ := List.getElem?_eq_some_iff.mp there
        exact ⟨i, task, (List.getElem?_append_left inside).trans there, listens⟩
      joining := fun i task there pc joined =>
        exclusive.joining i task (owner there (.inr joined)) pc joined }

theorem Exclusive.perform (exclusive : Exclusive w) (e : Event) :
    Exclusive (ConnectionPool.perform w e) := by
  cases e with
  | call request => exact exclusive.call request
  | step i choice =>
    rw [ConnectionPool.perform]
    cases found : w.tasks[i]? with
    | none => exact exclusive
    | some task =>
      have fresh (pc : Nat) (joined : joins task = some pc) :=
        And.intro (exclusive.drawn i task found pc (.inr joined))
          (exclusive.joining i task found pc joined)
      have acts := step_acts choice task w.pool
      exact exclusive.transfers found (exclusive.sound.acts acts fresh)
        ((exclusive.clear found).acts acts)
  | giveBack i close =>
    rw [ConnectionPool.perform]
    split
    · rename_i pc found
      refine exclusive.transfers found { exclusive.sound with } ?_
      refine .still (exclusive.clear found) rfl (fun ch member => ⟨member, by simp [channel]⟩) rfl
        le_rfl (by simp [channel]) (fun other owns => .inl ?_) (fun _ => .inl) (by simp [joins])
      have same : other = pc := (owns_carried rfl rfl rfl).mp owns
      exact .inl (.inl (congrArg some same.symm))
    · exact exclusive

theorem Exclusive.after (exclusive : Exclusive w) (events : List Event) :
    Exclusive (ConnectionPool.after events w) :=
  kept_run (fun _ e exclusive => exclusive.perform e) events exclusive

theorem exclusive_new {config : PoolConfig} (made : newPool config = .ok p) :
    Exclusive ⟨p, []⟩ := by
  have sound := sound_new made
  obtain rfl := newPool_ok made
  exact ⟨sound, List.nodup_nil, by simp, by simp, by simp, by simp, by simp, by simp, by simp,
    by simp⟩

/-- In every state of every run, no two unreleased handles have the same connection, none of
their connections is idle, and neither list of the pool has a connection twice. -/
theorem connections_exclusive {config : PoolConfig} {p : Pool} (made : newPool config = .ok p)
    (events : List Event) :
    (∀ (i j : Nat), ∀ task ∈ (after events ⟨p, []⟩).tasks[i]?,
      ∀ other ∈ (after events ⟨p, []⟩).tasks[j]?, ∀ pc,
        handle task = some pc → handle other = some pc → i = j) ∧
    (∀ task ∈ (after events ⟨p, []⟩).tasks, ∀ pc,
      handle task = some pc → pc ∉ (after events ⟨p, []⟩).pool.idle) ∧
    (after events ⟨p, []⟩).pool.conns.Nodup ∧ (after events ⟨p, []⟩).pool.idle.Nodup := by
  have exclusive := (exclusive_new made).after events
  refine ⟨?_, ?_, exclusive.sound.conns, exclusive.distinct⟩
  · intro i j task there other elsewhere pc held heldToo
    exact exclusive.single i j task there other elsewhere pc (owns_handle held)
      (owns_handle heldToo)
  · intro task member pc held
    obtain ⟨i, there⟩ := List.getElem?_of_mem member
    exact exclusive.apart i task there pc (owns_handle held)

/-- A connection goes from one caller through a wait channel to another. -/
theorem connections_exclusive_handover : ∃ p, newPool single = .ok p ∧
    (after [.call .acquire, .step 0 smooth, .step 0 smooth, .step 0 smooth, .call .acquire,
      .step 1 smooth, .giveBack 0 false, .step 0 smooth, .step 1 smooth] ⟨p, []⟩).tasks =
        [.done, .holding 0] ∧
    (after [.call .acquire, .step 0 smooth, .step 0 smooth, .step 0 smooth, .call .acquire,
      .step 1 smooth, .giveBack 0 false, .step 0 smooth, .step 1 smooth]
      ⟨p, []⟩).pool.conns.Nodup := by
  exact ⟨_, newPool_single, by decide, (connections_exclusive newPool_single _).2.2.1⟩

/-- The channel of a waiter is listened to by exactly one Acquire. -/
theorem waiters_attended {config : PoolConfig} {p : Pool} (made : newPool config = .ok p)
    (events : List Event) : let w := after events ⟨p, []⟩
    ∀ ch ∈ w.pool.waiters, ∃! i : Nat, ∃ task ∈ w.tasks[i]?, channel task = some ch := by
  have exclusive := (exclusive_new made).after events
  intro w ch listed
  obtain ⟨i, task, there, listens⟩ := exclusive.listening ch listed
  exact ⟨i, ⟨task, there, listens⟩, fun j ⟨other, elsewhere, also⟩ =>
    exclusive.listener j i other elsewhere task there ch also listens⟩

theorem waiters_attended_single : ∃ p, newPool single = .ok p ∧ ∀ events,
    let w := after events ⟨p, []⟩
    ∀ ch ∈ w.pool.waiters, ∃! i : Nat, ∃ task ∈ w.tasks[i]?, channel task = some ch :=
  ⟨_, rfl, waiters_attended (show newPool single = .ok _ from rfl)⟩

end Runs

end QuantumGo.PoolExclusion
