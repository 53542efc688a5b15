import QuantumGo.PoolExclusion

/-!
The wait channels of the pool. A channel has room for one value, so a second send would block
with the lock held, and a send on a closed channel would panic. Every lock section that sends on
a channel or closes it takes it off the list of waiters, and nothing puts it back there.
-/

namespace QuantumGo.PoolChannels

open ConnectionPool PoolHandles PoolExclusion Interleaving

/-- The channels of the values that were sent, in order. -/
def receivers (p : Pool) : List Nat := p.sent.map Prod.fst

/-- What a lock section does to the channels: nothing, or it sends on one of a waiter, or it
closes those of all waiters. -/
inductive Uses (p p' : Pool) : Prop
  | quiet (sent : p'.sent = p.sent) (shut : p'.closedWaiters = p.closedWaiters)
  | sends (ch : Nat) (message : Option Nat) (listed : ch ∈ p.waiters)
      (sent : p'.sent = p.sent ++ [(ch, message)]) (shut : p'.closedWaiters = p.closedWaiters)
  | closes (sent : p'.sent = p.sent) (shut : p'.closedWaiters = p.closedWaiters ++ p.waiters)

structure UsedOnce (p : Pool) : Prop where
  once : (receivers p).Nodup
  shut : p.closedWaiters.Nodup
  apart : ∀ ch ∈ p.closedWaiters, ch ∉ receivers p

section Sections
variable {choice : Choice} {p p' : Pool} {task task' : Task}

theorem wake_uses (waiters : p'.waiters = p.waiters) (sent : p'.sent = p.sent)
    (shut : p'.closedWaiters = p.closedWaiters) : Uses p (wakeWaiterLocked p') := by
  unfold wakeWaiterLocked
  split
  · exact .quiet sent shut
  · rename_i ch rest listed
    exact .sends ch none (waiters ▸ listed ▸ List.mem_cons_self) (congrArg (· ++ _) sent) shut

theorem acts_uses (acts : Acts choice p task task' p') : Uses p p' := by
  cases acts with
  | frees | expels => exact wake_uses rfl rfl rfl
  | hands pc ch rest _ _ listed => exact .sends ch (some pc) (listed ▸ List.mem_cons_self) rfl rfl
  | heals =>
    rw [removeUnhealthy_eq]
    exact .quiet rfl rfl
  | closes => exact .closes rfl rfl
  | _ => exact .quiet rfl rfl

theorem perform_uses (w : World) (e : Event) : Uses w.pool (perform w e).pool := by
  cases e with
  | call request => exact .quiet rfl rfl
  | step i choice =>
    rw [perform]
    split
    · exact .quiet rfl rfl
    · exact acts_uses (step_acts choice _ w.pool)
  | giveBack i close =>
    rw [perform]
    split <;> exact .quiet rfl rfl

/-- The channel of a waiter is empty and open. -/
theorem unused_of_listed (sound : Sound p) {ch : Nat} (listed : ch ∈ p.waiters) :
    ch ∉ receivers p ∧ ch ∉ p.closedWaiters := by
  refine ⟨fun got => ?_, fun closed => sound.opened ch closed listed⟩
  obtain ⟨entry, member, rfl⟩ := List.mem_map.mp got
  have absent := List.lookup_eq_none_iff.mp (sound.unsent _ listed) entry member
  simp at absent

theorem UsedOnce.next (used : UsedOnce p) (sound : Sound p) (uses : Uses p p') : UsedOnce p' := by
  cases uses with
  | quiet sent shut =>
    exact ⟨by rw [receivers, sent]; exact used.once, shut ▸ used.shut,
      by rw [receivers, sent, shut]; exact used.apart⟩
  | sends ch message listed sent shut =>
    obtain ⟨empty, open'⟩ := unused_of_listed sound listed
    have grown : receivers p' = receivers p ++ [ch] := by
      rw [receivers, sent, List.map_append]
      rfl
    refine ⟨?_, shut ▸ used.shut, fun other closed => ?_⟩
    · rw [grown]
      exact used.once.append (List.nodup_singleton ch) (by simpa using empty)
    · rw [shut] at closed
      rw [grown, List.mem_append, List.mem_singleton, not_or]
      exact ⟨used.apart other closed, fun same => open' (same ▸ closed)⟩
  | closes sent shut =>
    refine ⟨by rw [receivers, sent]; exact used.once, ?_, ?_⟩
    · rw [shut]
      exact used.shut.append sound.distinct fun ch closed listed => sound.opened ch closed listed
    · rw [receivers, sent, shut]
      intro ch closed
      rcases List.mem_append.mp closed with before | listed
      · exact used.apart ch before
      · exact (unused_of_listed sound listed).1

end Sections

/-- In every state of every run each channel has got one value at most, is closed once at most,
and is not both. What the next step sends goes to a channel that is empty and open. -/
theorem channels_used_once {config : PoolConfig} {p : Pool} (made : newPool config = .ok p)
    (events : List Event) :
    let w := after events ⟨p, []⟩
    ((receivers w.pool).Nodup ∧ w.pool.closedWaiters.Nodup ∧
      ∀ ch ∈ w.pool.closedWaiters, ch ∉ receivers w.pool) ∧
    ∀ e ch message, (perform w e).pool.sent = w.pool.sent ++ [(ch, message)] →
      ch ∉ receivers w.pool ∧ ch ∉ w.pool.closedWaiters := by
  intro w
  have exclusive := exclusive_new made
  have first : UsedOnce p := by
    obtain rfl := newPool_ok made
    exact ⟨List.nodup_nil, List.nodup_nil, by simp⟩
  have keeps (w : World) (e : Event) (kept : UsedOnce w.pool ∧ Exclusive w) :
      UsedOnce (perform w e).pool ∧ Exclusive (perform w e) :=
    ⟨kept.1.next kept.2.sound (perform_uses w e), kept.2.perform e⟩
  obtain ⟨used, exclusive⟩ : UsedOnce w.pool ∧ Exclusive w :=
    kept_run keeps events ⟨first, exclusive⟩
  refine ⟨⟨used.once, used.shut, used.apart⟩, fun e ch message sends => ?_⟩
  cases perform_uses w e with
  | quiet sent _ | closes sent _ => simp [sent] at sends
  | sends other _ listed sent _ =>
    obtain ⟨rfl, -⟩ : other = ch ∧ _ := by simpa [sent] using sends
    exact unused_of_listed exclusive.sound listed

/-- A connection goes through a channel from one caller to another. -/
theorem channels_used_once_handover : ∃ p, newPool single = .ok p ∧
    let w := after [.call .acquire, .step 0 smooth, .step 0 smooth, .step 0 smooth,
      .call .acquire, .step 1 smooth, .giveBack 0 false, .step 0 smooth] ⟨p, []⟩
    receivers w.pool = [1] ∧ (receivers w.pool).Nodup := by
  exact ⟨_, newPool_single, by decide, (channels_used_once newPool_single _).1.1⟩

end QuantumGo.PoolChannels
