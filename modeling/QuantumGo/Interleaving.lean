import Mathlib.Data.List.Count

/-!
Runs of a system whose tasks share a state. A run is a list of events, a condition on the
events is asked of each of them in the state before it, and an invariant that every such
event keeps holds behind the run. The tasks are a list, and a step replaces one of them.
-/

namespace QuantumGo.Interleaving

section Runs
variable {σ ε : Type} {step : σ → ε → σ} {ok : σ → ε → Prop}

def run (step : σ → ε → σ) : List ε → σ → σ
  | [], s => s
  | e :: rest, s => run step rest (step s e)

def Along (step : σ → ε → σ) (ok : σ → ε → Prop) : List ε → σ → Prop
  | [], _ => True
  | e :: rest, s => ok s e ∧ Along step ok rest (step s e)

def decideAlong (step : σ → ε → σ) (ok : σ → ε → Prop) [∀ s e, Decidable (ok s e)] :
    (events : List ε) → (s : σ) → Decidable (Along step ok events s)
  | [], _ => .isTrue trivial
  | e :: rest, s =>
    have := decideAlong step ok rest (step s e)
    inferInstanceAs (Decidable (ok s e ∧ Along step ok rest (step s e)))

instance [∀ s e, Decidable (ok s e)] (events : List ε) (s : σ) :
    Decidable (Along step ok events s) :=
  decideAlong step ok events s

theorem Along.initial {before rest : List ε} {s : σ} (along : Along step ok (before ++ rest) s) :
    Along step ok before s := by
  induction before generalizing s with
  | nil => trivial
  | cons e before ih => exact ⟨along.1, ih along.2⟩

theorem Along.of_forall (all : ∀ s e, ok s e) (events : List ε) (s : σ) :
    Along step ok events s := by
  induction events generalizing s with
  | nil => trivial
  | cons e rest ih => exact ⟨all s e, ih (step s e)⟩

theorem run_append (step : σ → ε → σ) (before rest : List ε) (s : σ) :
    run step (before ++ rest) s = run step rest (run step before s) := by
  induction before generalizing s with
  | nil => rfl
  | cons e before ih => exact ih (step s e)

theorem Along.final {before rest : List ε} {s : σ} (along : Along step ok (before ++ rest) s) :
    Along step ok rest (run step before s) := by
  induction before generalizing s with
  | nil => exact along
  | cons e before ih => exact ih along.2

theorem Along.append {before rest : List ε} {s : σ} (along : Along step ok before s)
    (along' : Along step ok rest (run step before s)) : Along step ok (before ++ rest) s := by
  induction before generalizing s with
  | nil => exact along'
  | cons e before ih => exact ⟨along.1, ih along.2 along'⟩

theorem Along.both {ok' : σ → ε → Prop} {events : List ε} {s : σ} (along : Along step ok events s)
    (along' : Along step ok' events s) : Along step (fun s e => ok s e ∧ ok' s e) events s := by
  induction events generalizing s with
  | nil => trivial
  | cons e rest ih => exact ⟨⟨along.1, along'.1⟩, ih along.2 along'.2⟩

/-- The invariant rule: from one event to the run. -/
theorem invariant_run {inv : σ → Prop} (kept : ∀ s e, ok s e → inv s → inv (step s e))
    {events : List ε} {s : σ} (along : Along step ok events s) (first : inv s) :
    inv (run step events s) := by
  induction events generalizing s with
  | nil => exact first
  | cons e rest ih => exact ih along.2 (kept s e along.1 first)

theorem kept_run {inv : σ → Prop} (kept : ∀ s e, inv s → inv (step s e)) (events : List ε) {s : σ}
    (first : inv s) : inv (run step events s) := by
  have along : Along step (fun _ _ => True) events s := .of_forall (fun _ _ => trivial) events s
  exact invariant_run (fun s e _ => kept s e) along first

end Runs

section Tasks
variable {α : Type} {tasks : List α} {i : Nat} {task : α}

theorem getElem?_replaced {task' : α} (found : tasks[i]? = some task) (j : Nat) (other : α) :
    (tasks.set i task')[j]? = some other ↔
      j = i ∧ other = task' ∨ j ≠ i ∧ tasks[j]? = some other := by
  obtain ⟨inside, _⟩ := List.getElem?_eq_some_iff.mp found
  rw [List.getElem?_set]
  by_cases same : i = j
  · subst same
    simp [inside, eq_comm]
  · simp [same, Ne.symm same]

theorem getElem?_added (j : Nat) (other : α) : (tasks ++ [task])[j]? = some other ↔
      tasks[j]? = some other ∨ j = tasks.length ∧ other = task := by
  rcases Nat.lt_or_ge j tasks.length with inside | outside
  · rw [List.getElem?_append_left inside]
    simp [Nat.ne_of_lt inside]
  · rw [List.getElem?_append_right outside, List.getElem?_eq_none outside, List.getElem?_singleton]
    split
    · simp [show j = tasks.length by omega, eq_comm]
    · simp [show j ≠ tasks.length by omega]

theorem map_replaced {β : Type} {f : α → β} {task' : α} (found : tasks[i]? = some task)
    (same : f task' = f task) : (tasks.set i task').map f = tasks.map f := by
  rw [List.map_set, same]
  refine List.ext_getElem? fun j => ?_
  rw [List.getElem?_set]
  split
  · rename_i here
    subst here
    rw [List.getElem?_map, found]
    simp [(List.getElem?_eq_some_iff.mp found).1]
  · rfl

theorem forall_replaced {P : α → Prop} {task' : α} (all : ∀ other ∈ tasks, P other)
    (new : P task') : ∀ other ∈ tasks.set i task', P other := by
  intro other member
  rcases List.mem_or_eq_of_mem_set member with old | rfl
  · exact all other old
  · exact new

theorem forall_added {P : α → Prop} (all : ∀ other ∈ tasks, P other) (new : P task) :
    ∀ other ∈ tasks ++ [task], P other :=
  List.forall_mem_append.mpr ⟨all, List.forall_mem_singleton.mpr new⟩

theorem mem_replaced {other : α} (found : tasks[i]? = some task) (task' : α)
    (member : other ∈ tasks) : other = task ∨ other ∈ tasks.set i task' := by
  obtain ⟨j, there⟩ := List.getElem?_of_mem member
  by_cases same : j = i
  · subst same
    exact .inl (Option.some.inj (there.symm.trans found))
  · exact .inr (List.mem_of_getElem? ((getElem?_replaced found j other).mpr (.inr ⟨same, there⟩)))

theorem mem_replacement {task' : α} (found : tasks[i]? = some task) : task' ∈ tasks.set i task' :=
  List.mem_set (List.getElem?_eq_some_iff.mp found).1 task'

theorem countP_replaced (found : tasks[i]? = some task) (f : α → Bool) (task' : α) :
    (tasks.set i task').countP f + (if f task then 1 else 0) =
      tasks.countP f + (if f task' then 1 else 0) := by
  obtain ⟨inside, there⟩ := List.getElem?_eq_some_iff.mp found
  rw [List.countP_set inside, there]
  split
  · rename_i counted
    have some : 0 < tasks.countP f :=
      List.countP_pos_iff.mpr ⟨task, List.mem_of_getElem? found, counted⟩
    omega
  · omega

/-- A count grows where every counted task stays counted and one more is. -/
theorem countP_lt_of_gains {f g : α → Bool}
    (keeps : ∀ other ∈ tasks, f other = true → g other = true) (member : task ∈ tasks)
    (gains : g task = true ∧ f task = false) :
    tasks.countP f < tasks.countP g := by
  induction tasks with
  | nil => cases member
  | cons first rest ih =>
    have kept : rest.countP f ≤ rest.countP g :=
      List.countP_mono_left fun other there => keeps other (List.mem_cons_of_mem _ there)
    rcases List.mem_cons.mp member with rfl | behind
    · rw [List.countP_cons_of_neg (by simp [gains.2]), List.countP_cons_of_pos gains.1]
      omega
    · have grown := ih (fun other there => keeps other (List.mem_cons_of_mem _ there)) behind
      have head := keeps first List.mem_cons_self
      simp only [List.countP_cons]
      split
      · rw [if_pos (head ‹_›)]
        omega
      · split <;> omega

end Tasks

end QuantumGo.Interleaving
