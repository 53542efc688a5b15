import QuantumGo.ConnectionPool

/-!
What a task of the pool has: the handle of a caller, a release on its way, a connection that
it dialled, or a message in the wait channel it listens to. The lists and channels of a pool
stay in order in every lock section.
-/

namespace QuantumGo.PoolHandles

open ConnectionPool Interleaving

def carries : Task → Option Nat
  | .restoring _ handle => handle
  | .holding pc => some pc
  | .releasing pc => some pc
  | .discarding _ pc => some pc
  | _ => none

def channel : Task → Option Nat
  | .waiting _ ch => some ch
  | .timedOut _ ch => some ch
  | _ => none

def joins : Task → Option Nat
  | .startAdd _ pc => some pc
  | .healthAdd _ pc => some pc
  | .dialed _ outcome => outcome
  | _ => none

def Has (p : Pool) (task : Task) (pc : Nat) : Prop :=
  carries task = some pc ∨ ∃ ch, channel task = some ch ∧ p.sent.lookup ch = some (some pc)

structure Sound (p : Pool) : Prop where
  unsent : ∀ ch ∈ p.waiters, p.sent.lookup ch = none
  distinct : p.waiters.Nodup
  opened : ∀ ch ∈ p.closedWaiters, ch ∉ p.waiters
  listed : ∀ ch ∈ p.waiters, ch < p.next
  shut : ∀ ch ∈ p.closedWaiters, ch < p.next
  messages : ∀ ch message, p.sent.lookup ch = some message → ch < p.next
  conns : p.conns.Nodup
  old : ∀ pc ∈ p.conns, pc < p.next

variable {p : Pool} {ch : Nat} {message : Option Nat}

section Parts
variable {p' : Pool}

theorem Sound.fresh (sound : Sound p) : p.sent.lookup p.next = none := by
  cases found : p.sent.lookup p.next with
  | none => rfl
  | some message => exact absurd (sound.messages _ _ found) (lt_irrefl _)

theorem Sound.draw (sound : Sound p) : Sound { p with next := p.next + 1 } where
  unsent := sound.unsent
  distinct := sound.distinct
  opened := sound.opened
  listed ch member := Nat.lt_succ_of_lt (sound.listed ch member)
  shut ch member := Nat.lt_succ_of_lt (sound.shut ch member)
  messages ch message found := Nat.lt_succ_of_lt (sound.messages ch message found)
  conns := sound.conns
  old pc member := Nat.lt_succ_of_lt (sound.old pc member)

theorem Sound.listen (sound : Sound p) :
    Sound { p with waiters := p.waiters ++ [p.next], next := p.next + 1 } := by
  have drawn := sound.draw
  refine { drawn with
    unsent := forall_added sound.unsent sound.fresh
    distinct := List.nodup_append.mpr ⟨sound.distinct, List.nodup_singleton _, ?_⟩
    opened := fun ch shut member => ?_
    listed := forall_added drawn.listed (Nat.lt_succ_self _) }
  · intro ch before other last same
    cases List.mem_singleton.mp last
    exact absurd (sound.listed ch before) (same ▸ lt_irrefl _)
  · rcases List.mem_append.mp member with before | last
    · exact sound.opened ch shut before
    · cases List.mem_singleton.mp last
      exact absurd (sound.shut _ shut) (lt_irrefl _)

theorem Sound.leave (sound : Sound p) (ch : Nat) : Sound { p with waiters := p.waiters.erase ch } :=
  { sound with
    unsent := fun other member => sound.unsent other (List.mem_of_mem_erase member)
    distinct := sound.distinct.erase ch
    opened := fun other shut member => sound.opened other shut (List.mem_of_mem_erase member)
    listed := fun other member => sound.listed other (List.mem_of_mem_erase member) }

theorem Sound.fewer {conns idle : List Nat} (sound : Sound p) (less : conns.Sublist p.conns) :
    Sound { p with conns, idle } :=
  { sound with
    conns := less.nodup sound.conns
    old := fun pc member => sound.old pc (less.subset member) }

theorem Sound.send {rest : List Nat} (sound : Sound p) (listed : p.waiters = ch :: rest) :
    Sound { p with waiters := rest, sent := p.sent ++ [(ch, message)] } := by
  have distinct := sound.distinct
  rw [listed, List.nodup_cons] at distinct
  refine { sound with
    unsent := fun other member => ?_
    distinct := distinct.2
    opened := fun other shut member => ?_
    listed := fun other member => sound.listed other (listed ▸ List.mem_cons_of_mem _ member)
    messages := fun other found lookup => ?_ }
  · have apart : other ≠ ch := fun same => distinct.1 (same ▸ member)
    have before := sound.unsent other (listed ▸ List.mem_cons_of_mem _ member)
    simp [List.lookup_append, before, List.lookup_cons, beq_false_of_ne apart]
  · exact sound.opened other shut (listed ▸ List.mem_cons_of_mem _ member)
  · by_cases same : other = ch
    · exact same ▸ sound.listed ch (listed ▸ List.mem_cons_self)
    · refine sound.messages other found ?_
      simpa [List.lookup_append, List.lookup_cons, beq_false_of_ne same] using lookup

theorem lookup_sent {other : Nat} {found : Option Nat} (before : p.sent.lookup other = some found) :
    (p.sent ++ [(ch, message)]).lookup other = some found := by
  simp [List.lookup_append, before]

theorem Sound.wake (sound : Sound p) : Sound (wakeWaiterLocked p) := by
  unfold wakeWaiterLocked
  split
  · exact sound
  · rename_i ch rest listed
    exact sound.send listed

theorem wake_frame (p : Pool) : (wakeWaiterLocked p).conns = p.conns ∧
    (wakeWaiterLocked p).idle = p.idle ∧ (wakeWaiterLocked p).closed = p.closed ∧
    (wakeWaiterLocked p).next = p.next := by
  unfold wakeWaiterLocked
  split <;> exact ⟨rfl, rfl, rfl, rfl⟩

theorem wake_messages (found : p.sent.lookup ch = some message) :
    (wakeWaiterLocked p).sent.lookup ch = some message := by
  unfold wakeWaiterLocked
  split
  · exact found
  · exact lookup_sent found

theorem wake_waiters (member : ch ∈ (wakeWaiterLocked p).waiters) : ch ∈ p.waiters := by
  unfold wakeWaiterLocked at member
  split at member
  · exact member
  · rename_i first rest listed
    rw [listed]
    exact List.mem_cons_of_mem _ member

theorem Sound.join {pc : Nat} {idle : List Nat} (sound : Sound p) (drawn : pc < p.next)
    (absent : pc ∉ p.conns) : Sound { p with conns := p.conns ++ [pc], idle } :=
  { sound with
    conns := List.nodup_append.mpr ⟨sound.conns, List.nodup_singleton pc,
        fun other member last => by
      simp only [List.mem_singleton]
      rintro rfl rfl
      exact absent member⟩
    old := forall_added sound.old drawn }

end Parts

@[simp] theorem carries_returned (orig : Option Int) (handle : Option Nat) :
    carries (returned orig handle) = handle := by
  cases orig <;> cases handle <;> rfl

@[simp] theorem channel_returned (orig : Option Int) (handle : Option Nat) :
    channel (returned orig handle) = none := by
  cases orig <;> cases handle <;> rfl

@[simp] theorem joins_returned (orig : Option Int) (handle : Option Nat) :
    joins (returned orig handle) = none := by
  cases orig <;> cases handle <;> rfl

@[simp] theorem carries_handed (handle : Option Nat) : carries (handed handle) = handle := by
  cases handle <;> rfl

@[simp] theorem channel_handed (handle : Option Nat) : channel (handed handle) = none := by
  cases handle <;> rfl

@[simp] theorem joins_handed (handle : Option Nat) : joins (handed handle) = none := by
  cases handle <;> rfl

def Bare (task : Task) : Prop := carries task = none ∧ channel task = none ∧ joins task = none

theorem bare_returned (orig : Option Int) : Bare (returned orig none) := by
  simp [Bare]

section Steps
variable {choice : Choice} {p' : Pool} {task task' : Task}

theorem not_has (carried : carries task = none) (unlistening : channel task = none) (pc : Nat) :
    ¬Has p task pc := by
  simp [Has, carried, unlistening]

theorem quiet_bare (idle : quiet task = true) : Bare task := by
  cases task <;> first | exact ⟨rfl, rfl, rfl⟩ | cases idle

theorem Sound.acts (sound : Sound p) (acts : Acts choice p task task' p')
    (fresh : ∀ pc, joins task = some pc → pc < p.next ∧ pc ∉ p.conns) : Sound p' := by
  cases acts with
  | startDials | dials | healthDials => exact sound.draw
  | startAdds _ pc | healthAdds _ pc =>
    obtain ⟨drawn, absent⟩ := fresh pc rfl
    exact sound.join drawn absent
  | pools _ pc =>
    obtain ⟨drawn, absent⟩ := fresh pc rfl
    have freed : Sound { p with pending := p.pending - 1 } := { sound with }
    exact freed.join drawn absent
  | takes _ _ _ _ _ found | givesUp _ _ _ _ found => exact sound.fewer (searched_conns found)
  | reserves _ conns idle _ found =>
    have less : Sound { p with conns, idle } := sound.fewer (searched_conns found)
    exact { less with }
  | queues _ _ _ _ found => exact (sound.fewer (searched_conns found)).listen
  | frees => exact Sound.wake { sound with }
  | leaves _ ch => exact sound.leave ch
  | discards => exact sound.fewer List.erase_sublist
  | expels => exact (sound.fewer List.erase_sublist).wake
  | hands _ _ _ _ _ listed => exact sound.send listed
  | heals =>
    rw [removeUnhealthy_eq]
    exact sound.fewer (List.diff_sublist _ _)
  | closes =>
    refine ⟨by simp, List.nodup_nil, by simp, by simp, fun ch member => ?_, sound.messages,
      List.nodup_nil, by simp⟩
    exact (List.mem_append.mp member).elim (sound.shut ch) (sound.listed ch)
  | _ => exact { sound with }

end Steps

theorem sound_new {config : PoolConfig} (made : newPool config = .ok p) : Sound p := by
  obtain rfl := newPool_ok made
  constructor <;> simp

def late : Choice := { smooth with timer := true }

end QuantumGo.PoolHandles
