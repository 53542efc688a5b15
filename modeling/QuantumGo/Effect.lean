import Mathlib.Logic.Basic

/-!
Computations over a mutable state that may stop part way. A stop keeps every
write made before it: this is how a method with a pointer receiver and early
error returns behaves, and it is what separates `Prog` from a state monad
over `Except`, where an error discards the state.
-/

namespace QuantumGo.Effect

/-- A run returns its outcome together with the state it left behind, on
success and on a stop alike. -/
def Prog (σ ε α : Type) := σ → Except ε α × σ

variable {σ ε α γ : Type}

def ret (value : α) : Prog σ ε α := fun s => (.ok value, s)

def andThen (first : Prog σ ε α) (next : α → Prog σ ε γ) : Prog σ ε γ := fun s =>
  match first s with
  | (.ok value, s') => next value s'
  | (.error stop, s') => (.error stop, s')

instance : Monad (Prog σ ε) where
  pure := ret
  bind := andThen

def read : Prog σ ε σ := fun s => (.ok s, s)

def write (update : σ → σ) : Prog σ ε Unit := fun s => (.ok (), update s)

def fail (stop : ε) : Prog σ ε α := fun s => (.error stop, s)

def lift (outcome : Except ε α) : Prog σ ε α := fun s => (outcome, s)

def reject (bad : Prop) [Decidable bad] (stop : ε) : Prog σ ε Unit :=
  if bad then fail stop else ret ()

variable {bad : Prop} {stop : ε} {first : Prog σ ε α} {next : α → Prog σ ε γ} {value : α}
  {result : γ} {outcome : Except ε α}

section Running
variable (s : σ)

@[simp] theorem run_pure (value : α) : (pure value : Prog σ ε α) s = (.ok value, s) := rfl

@[simp] theorem run_read : (read : Prog σ ε σ) s = (.ok s, s) := rfl

@[simp] theorem run_write (update : σ → σ) :
    (write update : Prog σ ε Unit) s = (.ok (), update s) := rfl

@[simp] theorem run_fail (stop : ε) : (fail stop : Prog σ ε α) s = (.error stop, s) := rfl

@[simp] theorem run_lift (outcome : Except ε α) :
    (lift outcome : Prog σ ε α) s = (outcome, s) := rfl

theorem run_reject (bad : Prop) [Decidable bad] (stop : ε) : (reject bad stop : Prog σ ε Unit) s =
      if bad then (.error stop, s) else (.ok (), s) := by
  by_cases holds : bad <;> simp [reject, holds, ret]

theorem run_reject_pos [Decidable bad] (holds : bad) :
    (reject bad stop : Prog σ ε Unit) s = (.error stop, s) := by
  rw [run_reject, if_pos holds]

theorem run_reject_neg [Decidable bad] (fails : ¬ bad) :
    (reject bad stop : Prog σ ε Unit) s = (.ok (), s) := by
  rw [run_reject, if_neg fails]

theorem run_bind (first : Prog σ ε α) (next : α → Prog σ ε γ) : (first >>= next) s =
      match first s with
      | (.ok value, s') => next value s'
      | (.error stop, s') => (.error stop, s') := rfl

variable {s' : σ}

theorem run_bind_ok {s : σ} (finished : first s = (.ok value, s')) :
    (first >>= next) s = next value s' := by
  simp only [run_bind, finished]

theorem run_bind_error {s : σ} (stopped : first s = (.error stop, s')) :
    (first >>= next) s = (.error stop, s') := by
  simp only [run_bind, stopped]

theorem bind_bind {δ : Type} (first : Prog σ ε α) (next : α → Prog σ ε γ) (last : γ → Prog σ ε δ) :
    (first >>= next >>= last) = first >>= fun value => next value >>= last := by
  funext s
  rw [run_bind, run_bind, run_bind]
  rcases first s with ⟨stop | value, s'⟩ <;> rfl

/-- A run on a part of a state. -/
theorem run_part_iff {τ : Type} (ran : Except ε α × σ) (put : σ → τ) {t : τ} :
    (ran.1, put ran.2) = (outcome, t) ↔ ∃ s, ran = (outcome, s) ∧ t = put s := by
  obtain ⟨outcome', s⟩ := ran
  simp only [Prod.mk.injEq]
  constructor
  · rintro ⟨rfl, rfl⟩
    exact ⟨s, ⟨rfl, rfl⟩, rfl⟩
  · rintro ⟨_, ⟨rfl, rfl⟩, rfl⟩
    exact ⟨rfl, rfl⟩

theorem bind_ok_iff {s s'' : σ} : (first >>= next) s = (.ok result, s'') ↔
      ∃ value s', first s = (.ok value, s') ∧ next value s' = (.ok result, s'') := by
  rw [run_bind]
  constructor
  · intro finished
    rcases outcome : first s with ⟨value | stop, s'⟩
    · simp [outcome] at finished
    · exact ⟨stop, s', rfl, by simpa [outcome] using finished⟩
  · rintro ⟨value, s', head, tail⟩
    simp only [head, tail]

theorem bind_error_iff {s s'' : σ} : (first >>= next) s = (.error stop, s'') ↔
      first s = (.error stop, s'') ∨
        ∃ value s', first s = (.ok value, s') ∧ next value s' = (.error stop, s'') := by
  rw [run_bind]
  rcases outcome : first s with ⟨early | value, s'⟩
  · simp
  · constructor
    · intro stopped
      exact .inr ⟨value, s', rfl, stopped⟩
    · rintro (impossible | ⟨other, t, same, stopped⟩)
      · simp at impossible
      · obtain ⟨rfl, rfl⟩ : value = other ∧ s' = t := by simpa using same
        exact stopped

theorem lift_ok_iff {s : σ} :
    (lift outcome : Prog σ ε α) s = (.ok value, s') ↔ outcome = .ok value ∧ s' = s := by
  simp [lift, eq_comm]

theorem reject_ok_iff [Decidable bad] {s : σ} {value : Unit} :
    (reject bad stop : Prog σ ε Unit) s = (.ok value, s') ↔ ¬ bad ∧ s' = s := by
  by_cases holds : bad <;> simp [run_reject, holds, eq_comm]

end Running

variable {update : σ → σ}

/-! One step of a finished run at a time, for each kind of first step. -/
section Steps
variable {s t : σ}

@[simp] theorem read_bind (next : σ → Prog σ ε γ) : (read >>= next) s = next s s := rfl

@[simp] theorem write_bind (update : σ → σ) (next : Unit → Prog σ ε γ) :
    (write update >>= next) s = next () (update s) := rfl

theorem pure_bind_run (value : α) (next : α → Prog σ ε γ) :
    (pure value >>= next) s = next value s := rfl

theorem reject_bind_ok_iff [Decidable bad] {next : Unit → Prog σ ε γ} :
    (reject bad stop >>= next) s = (.ok result, t) ↔ ¬ bad ∧ next () s = (.ok result, t) := by
  by_cases holds : bad <;> simp [run_bind, run_reject, holds]

theorem lift_bind_ok_iff : (lift outcome >>= next) s = (.ok result, t) ↔
      ∃ value, outcome = .ok value ∧ next value s = (.ok result, t) := by
  cases outcome <;> simp [run_bind]

theorem reject_bind_error_iff [Decidable bad] {error : ε} {next : Unit → Prog σ ε γ} :
    (reject bad stop >>= next) s = (.error error, t) ↔
      (bad ∧ error = stop ∧ t = s) ∨ ¬ bad ∧ next () s = (.error error, t) := by
  by_cases holds : bad <;> simp [run_bind, run_reject, holds, eq_comm]

theorem lift_bind_error_iff {error : ε} : (lift outcome >>= next) s = (.error error, t) ↔
      (outcome = .error error ∧ t = s) ∨
        ∃ value, outcome = .ok value ∧ next value s = (.error error, t) := by
  cases outcome <;> simp [run_bind, eq_comm]

theorem pure_ok_iff {value : γ} :
    (pure value : Prog σ ε γ) s = (.ok result, t) ↔ result = value ∧ t = s := by
  simp [eq_comm]

theorem write_ok_iff {value : Unit} :
    (write update : Prog σ ε Unit) s = (.ok value, t) ↔ t = update s := by
  simp [eq_comm]

end Steps

/-- A guarded outcome is reached past the guard only. -/
theorem guard_ok_iff [Decidable bad] {rest : Except ε α} :
    (if bad then .error stop else rest) = .ok value ↔ ¬ bad ∧ rest = .ok value := by
  by_cases holds : bad <;> simp [holds]

theorem except_bind_ok_iff {first : Except ε α} {next : α → Except ε γ} :
    (first >>= next) = .ok result ↔ ∃ value, first = .ok value ∧ next value = .ok result := by
  cases first with
  | error stop | ok value => simp [bind, Except.bind]

theorem except_pure_ok_iff {result : α} :
    (pure value : Except ε α) = .ok result ↔ value = result := by
  simp [pure, Except.pure]

variable {cond : Prop} {yes no : Prog σ ε α}

/-! A run keeps an observation when no outcome changes it. The rules below
follow the constructors of a program, so a whole method is done by its parts. -/
section Keeping
variable {ω : Type}

def Keeps (observe : σ → ω) (program : Prog σ ε α) : Prop :=
  ∀ s, observe (program s).2 = observe s

variable {observe : σ → ω}

protected theorem Keeps.pure (value : α) : Keeps observe (pure value : Prog σ ε α) := fun _ => rfl

protected theorem Keeps.read : Keeps observe (read : Prog σ ε σ) := fun _ => rfl

protected theorem Keeps.fail (stop : ε) : Keeps observe (fail stop : Prog σ ε α) := fun _ => rfl

protected theorem Keeps.lift (outcome : Except ε α) : Keeps observe (lift outcome : Prog σ ε α) :=
  fun _ => rfl

protected theorem Keeps.reject (bad : Prop) [Decidable bad] (stop : ε) :
    Keeps observe (reject bad stop : Prog σ ε Unit) := by
  intro s
  by_cases holds : bad <;> simp [run_reject, holds]

protected theorem Keeps.write (same : ∀ s, observe (update s) = observe s) :
    Keeps observe (write update : Prog σ ε Unit) := same

protected theorem Keeps.bind (head : Keeps observe first)
    (tail : ∀ value, Keeps observe (next value)) : Keeps observe (first >>= next) := by
  intro s
  rw [run_bind]
  have kept := head s
  rcases outcome : first s with ⟨stop | value, s'⟩
  · simpa [outcome] using kept
  · rw [outcome] at kept
    exact (tail value s').trans kept

protected theorem Keeps.read_bind {next : σ → Prog σ ε γ} (tail : ∀ s, Keeps observe (next s)) :
    Keeps observe (read >>= next) :=
  .bind .read tail

protected theorem Keeps.lift_bind (tail : ∀ value, Keeps observe (next value)) :
    Keeps observe (lift outcome >>= next) :=
  .bind (.lift _) tail

protected theorem Keeps.reject_bind [Decidable bad] {next : Unit → Prog σ ε γ}
    (tail : ∀ value, Keeps observe (next value)) : Keeps observe (reject bad stop >>= next) :=
  .bind (.reject _ _) tail

protected theorem Keeps.write_bind {next : Unit → Prog σ ε γ}
    (same : ∀ s, observe (update s) = observe s)
    (tail : ∀ value, Keeps observe (next value)) : Keeps observe (write update >>= next) :=
  .bind (.write same) tail

protected theorem Keeps.ite [Decidable cond] (left : Keeps observe yes) (right : Keeps observe no) :
    Keeps observe (if cond then yes else no) := by
  by_cases holds : cond
  · simpa [holds] using left
  · simpa [holds] using right

end Keeping

variable {program : Prog σ ε α}

/-! A run maintains an invariant when every outcome has it. Again the rules follow
the constructors of a program. -/
section Maintaining

def Maintains (inv : σ → Prop) (program : Prog σ ε α) : Prop := ∀ s, inv s → inv (program s).2

variable {inv : σ → Prop}

protected theorem Maintains.pure (value : α) : Maintains inv (pure value : Prog σ ε α) :=
  fun _ held => held

protected theorem Maintains.read : Maintains inv (read : Prog σ ε σ) := fun _ held => held

protected theorem Maintains.fail (stop : ε) : Maintains inv (fail stop : Prog σ ε α) :=
  fun _ held => held

protected theorem Maintains.lift (outcome : Except ε α) :
    Maintains inv (lift outcome : Prog σ ε α) :=
  fun _ held => held

protected theorem Maintains.reject (bad : Prop) [Decidable bad] (stop : ε) :
    Maintains inv (reject bad stop : Prog σ ε Unit) := by
  intro s held
  by_cases holds : bad <;> simpa [run_reject, holds] using held

protected theorem Maintains.write (kept : ∀ s, inv s → inv (update s)) :
    Maintains inv (write update : Prog σ ε Unit) := kept

protected theorem Maintains.bind (head : Maintains inv first)
    (tail : ∀ value, Maintains inv (next value)) : Maintains inv (first >>= next) := by
  intro s held
  rw [run_bind]
  have kept := head s held
  rcases outcome : first s with ⟨stop | value, s'⟩
  · simpa [outcome] using kept
  · rw [outcome] at kept
    exact tail value s' kept

/-- What was read satisfies the invariant. -/
protected theorem Maintains.read_bind {next : σ → Prog σ ε γ}
    (tail : ∀ s, inv s → Maintains inv (next s)) : Maintains inv (read >>= next) :=
  fun s held => tail s held s held

protected theorem Maintains.lift_bind
    (tail : ∀ value, outcome = .ok value → Maintains inv (next value)) :
    Maintains inv (lift outcome >>= next) := by
  intro s held
  cases outcome with
  | error stop => exact held
  | ok value => exact tail value rfl s held

protected theorem Maintains.reject_bind [Decidable bad] {next : Unit → Prog σ ε γ}
    (tail : ∀ value, Maintains inv (next value)) : Maintains inv (reject bad stop >>= next) :=
  .bind (.reject _ _) tail

protected theorem Maintains.ite [Decidable cond] (left : cond → Maintains inv yes)
    (right : ¬ cond → Maintains inv no) : Maintains inv (if cond then yes else no) := by
  by_cases holds : cond
  · simpa [holds] using left holds
  · simpa [holds] using right holds

theorem Keeps.maintains {ω : Type} {observe : σ → ω} (kept : Keeps observe program)
    (fact : ω → Prop) : Maintains (fun s => fact (observe s)) program := by
  intro s held
  rw [kept s]
  exact held

theorem keeps_of_maintains {ω : Type} {observe : σ → ω}
    (kept : ∀ seen, Maintains (observe · = seen) program) : Keeps observe program :=
  fun s => kept _ s rfl

end Maintaining

/-! Pre- and postconditions. The last predicate is what holds where the run
stops, so one triple covers the error returns as well. -/
section Triples
variable {pre : σ → Prop} {stops : ε → σ → Prop} {post : α → σ → Prop}

def Ensures (pre : σ → Prop) (program : Prog σ ε α) (post : α → σ → Prop)
    (stops : ε → σ → Prop) : Prop :=
  ∀ s, pre s → match program s with
    | (.ok value, s') => post value s'
    | (.error stop, s') => stops stop s'

protected theorem Ensures.pure (holds : ∀ s, pre s → post value s) :
    Ensures pre (pure value : Prog σ ε α) post stops := holds

protected theorem Ensures.bind {between : α → σ → Prop} {post : γ → σ → Prop}
    (head : Ensures pre first between stops)
    (tail : ∀ value, Ensures (between value) (next value) post stops) :
    Ensures pre (first >>= next) post stops := by
  intro s start
  rw [run_bind]
  have reached := head s start
  rcases outcome : first s with ⟨stop | value, s'⟩
  · simpa [outcome] using reached
  · rw [outcome] at reached
    exact tail value s' reached

protected theorem Ensures.fail (holds : ∀ s, pre s → stops stop s) :
    Ensures pre (fail stop : Prog σ ε α) post stops := holds

protected theorem Ensures.lift (finished : ∀ value s, outcome = .ok value → pre s → post value s)
    (stopped : ∀ stop s, outcome = .error stop → pre s → stops stop s) :
    Ensures pre (lift outcome : Prog σ ε α) post stops := by
  intro s start
  cases outcome with
  | ok value => exact finished value s rfl start
  | error stop => exact stopped stop s rfl start

protected theorem Ensures.reject [Decidable bad] {post : Unit → σ → Prop}
    (passed : ∀ s, ¬ bad → pre s → post () s) (refused : ∀ s, bad → pre s → stops stop s) :
    Ensures pre (reject bad stop : Prog σ ε Unit) post stops := by
  intro s start
  by_cases holds : bad
  · simpa [run_reject, holds] using refused s holds start
  · simpa [run_reject, holds] using passed s holds start

protected theorem Ensures.ite [Decidable cond] (left : cond → Ensures pre yes post stops)
    (right : ¬ cond → Ensures pre no post stops) :
    Ensures pre (if cond then yes else no) post stops := by
  by_cases holds : cond
  · simpa [holds] using left holds
  · simpa [holds] using right holds

protected theorem Ensures.weaken {strong : α → σ → Prop} (proved : Ensures pre program strong stops)
    (implied : ∀ value s, strong value s → post value s) : Ensures pre program post stops := by
  intro s start
  have reached := proved s start
  rcases outcome : program s with ⟨stop | value, s'⟩
  · simpa [outcome] using reached
  · rw [outcome] at reached
    exact implied value s' reached

def Yields (program : Prog σ ε α) (value : α) : Prop :=
  ∀ s, ∃ s', program s = (.ok value, s')

protected theorem Yields.pure (value : α) : Yields (pure value : Prog σ ε α) value :=
  fun s => ⟨s, rfl⟩

protected theorem Yields.bind (head : Yields first value) (tail : Yields (next value) result) :
    Yields (first >>= next) result := by
  intro s
  obtain ⟨s', finished⟩ := head s
  rw [run_bind_ok finished]
  exact tail s'

protected theorem Yields.reject [Decidable bad] (passed : ¬ bad) :
    Yields (reject bad stop : Prog σ ε Unit) () := by
  intro s
  exact ⟨s, by simp [run_reject, passed]⟩

protected theorem Yields.lift (finished : outcome = .ok value) :
    Yields (lift outcome : Prog σ ε α) value :=
  fun s => ⟨s, by rw [finished]; rfl⟩

/-- What follows a step that surely finishes may start anywhere. -/
protected theorem Ensures.after {post : γ → σ → Prop} (head : Yields first value)
    (tail : Ensures (fun _ => True) (next value) post stops) :
    Ensures (fun _ => True) (first >>= next) post stops := by
  intro s _
  obtain ⟨s', finished⟩ := head s
  rw [run_bind_ok finished]
  exact tail s' trivial

end Triples

/-! A run restores an observation when every stop leaves it as it was. The part of a program
that writes it comes last, where nothing can stop any more. -/
section Restoring
variable {ω : Type}

def Unstopped (program : Prog σ ε α) : Prop := ∀ s stop s', program s ≠ (.error stop, s')

protected theorem Unstopped.pure (value : α) : Unstopped (pure value : Prog σ ε α) := nofun

protected theorem Unstopped.write (update : σ → σ) : Unstopped (write update : Prog σ ε Unit) :=
  nofun

protected theorem Unstopped.bind (head : Unstopped first) (tail : ∀ value, Unstopped (next value)) :
    Unstopped (first >>= next) := by
  intro s stop s' stopped
  rcases bind_error_iff.mp stopped with early | ⟨value, t, _, late⟩
  · exact head s stop s' early
  · exact tail value t stop s' late

def Restores (observe : σ → ω) (program : Prog σ ε α) : Prop :=
  ∀ s stop s', program s = (.error stop, s') → observe s' = observe s

variable {observe : σ → ω}

theorem restores_of_keeps (kept : Keeps observe program) : Restores observe program := by
  intro s stop s' stopped
  simpa [stopped] using kept s

theorem restores_of_unstopped (unstopped : Unstopped program) : Restores observe program :=
  fun s stop s' stopped => absurd stopped (unstopped s stop s')

protected theorem Restores.bind (head : Keeps observe first)
    (tail : ∀ value, Restores observe (next value)) : Restores observe (first >>= next) := by
  intro s stop s' stopped
  rcases bind_error_iff.mp stopped with early | ⟨value, t, finished, late⟩
  · exact restores_of_keeps head s stop s' early
  · have kept := head s
    rw [finished] at kept
    exact (tail value t stop s' late).trans kept

/-- A stop spares an invariant. -/
def Spares (inv : σ → Prop) (program : Prog σ ε α) : Prop :=
  ∀ s stop s', inv s → program s = (.error stop, s') → inv s'

variable {inv : σ → Prop}

theorem spares_of_maintains (kept : Maintains inv program) : Spares inv program := by
  intro s stop s' held stopped
  simpa [stopped] using kept s held

theorem spares_of_unstopped (unstopped : Unstopped program) : Spares inv program :=
  fun s stop s' _ stopped => absurd stopped (unstopped s stop s')

protected theorem Spares.bind (head : Maintains inv first)
    (tail : ∀ value, Spares inv (next value)) : Spares inv (first >>= next) := by
  intro s stop s' held stopped
  have kept := head s held
  rcases bind_error_iff.mp stopped with early | ⟨value, t, finished, late⟩
  · rwa [early] at kept
  · rw [finished] at kept
    exact tail value t stop s' kept late

end Restoring

end QuantumGo.Effect
