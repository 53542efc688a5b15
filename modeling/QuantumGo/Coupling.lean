import QuantumGo.Effect

/-!
Two runs side by side. Programs are coupled when related states make them end
alike, with one value or at one stop, and leave related states behind; the
relation may change from step to step. The rules follow the constructors of a
program.
-/

namespace QuantumGo.Coupling

open Effect

variable {σ ε α γ : Type}

/-- `post` relates the states of finished runs, `stop` those of stopped ones. -/
def Coupled (pre : σ → σ → Prop) (left right : Prog σ ε α) (post stop : σ → σ → Prop) : Prop :=
  ∀ a b, pre a b →
    (∃ value a' b', left a = (.ok value, a') ∧ right b = (.ok value, b') ∧ post a' b') ∨
    ∃ error a' b', left a = (.error error, a') ∧ right b = (.error error, b') ∧ stop a' b'

variable {pre mid post stop : σ → σ → Prop}

protected theorem Coupled.refl (program : Prog σ ε α) : Coupled Eq program program Eq Eq := by
  rintro a _ rfl
  rcases outcome : program a with ⟨error | value, a'⟩
  · exact .inr ⟨error, a', a', rfl, rfl, rfl⟩
  · exact .inl ⟨value, a', a', rfl, rfl, rfl⟩

variable {left right : Prog σ ε α}

/-- Strengthen what is assumed and weaken what is concluded. -/
theorem Coupled.weaken {pre' post' stop' : σ → σ → Prop}
    (coupled : Coupled pre left right post stop) (before : ∀ a b, pre' a b → pre a b)
    (after : ∀ a b, post a b → post' a b) (stopped : ∀ a b, stop a b → stop' a b) :
    Coupled pre' left right post' stop' := by
  intro a b related
  rcases coupled a b (before a b related) with ⟨value, a', b', ran, ran', holds⟩ |
      ⟨error, a', b', ran, ran', holds⟩
  · exact .inl ⟨value, a', b', ran, ran', after a' b' holds⟩
  · exact .inr ⟨error, a', b', ran, ran', stopped a' b' holds⟩

protected theorem Coupled.pure (value : α) (after : ∀ a b, pre a b → post a b) :
    Coupled pre (pure value : Prog σ ε α) (pure value) post stop :=
  fun a b related => .inl ⟨value, a, b, rfl, rfl, after a b related⟩

protected theorem Coupled.fail (error : ε) (stopped : ∀ a b, pre a b → stop a b) :
    Coupled pre (fail error : Prog σ ε α) (fail error) post stop :=
  fun a b related => .inr ⟨error, a, b, rfl, rfl, stopped a b related⟩

protected theorem Coupled.write {update update' : σ → σ}
    (after : ∀ a b, pre a b → post (update a) (update' b)) :
    Coupled pre (write update : Prog σ ε Unit) (write update') post stop :=
  fun a b related => .inl ⟨(), update a, update' b, rfl, rfl, after a b related⟩

protected theorem Coupled.lift (outcome : Except ε α) (stopped : ∀ a b, pre a b → stop a b) :
    Coupled pre (lift outcome : Prog σ ε α) (lift outcome) pre stop := by
  intro a b related
  cases outcome with
  | ok value => exact .inl ⟨value, a, b, rfl, rfl, related⟩
  | error error => exact .inr ⟨error, a, b, rfl, rfl, stopped a b related⟩

protected theorem Coupled.reject (bad : Prop) [Decidable bad] (error : ε)
    (stopped : ∀ a b, pre a b → stop a b) :
    Coupled pre (reject bad error : Prog σ ε Unit) (reject bad error)
      (fun a b => pre a b ∧ ¬ bad) stop := by
  intro a b related
  by_cases holds : bad
  · exact .inr ⟨error, a, b, by simp [run_reject, holds], by simp [run_reject, holds],
      stopped a b related⟩
  · exact .inl ⟨(), a, b, by simp [run_reject, holds], by simp [run_reject, holds], related, holds⟩

variable {next : α → Prog σ ε γ}

protected theorem Coupled.bind {next' : α → Prog σ ε γ} (head : Coupled pre left right mid stop)
    (tail : ∀ value, Coupled mid (next value) (next' value) post stop) :
    Coupled pre (left >>= next) (right >>= next') post stop := by
  intro a b related
  rcases head a b related with
    ⟨value, a', b', ran, ran', between⟩ | ⟨error, a', b', ran, ran', holds⟩
  · rw [run_bind_ok ran, run_bind_ok ran']
    exact tail value a' b' between
  · exact .inr ⟨error, a', b', run_bind_error ran, run_bind_error ran', holds⟩

/-- What was read is the state that the rest starts from. -/
protected theorem Coupled.read_bind {next next' : σ → Prog σ ε γ}
    (tail : ∀ a b, pre a b → Coupled (fun x y => x = a ∧ y = b) (next a) (next' b) post stop) :
    Coupled pre (read >>= next) (read >>= next') post stop :=
  fun a b related => tail a b related a b ⟨rfl, rfl⟩

protected theorem Coupled.ite {cond : Prop} [Decidable cond] {yes yes' no no' : Prog σ ε α}
    (left : cond → Coupled pre yes yes' post stop) (right : ¬ cond → Coupled pre no no' post stop) :
    Coupled pre (if cond then yes else no) (if cond then yes' else no') post stop := by
  by_cases holds : cond
  · simpa [holds] using left holds
  · simpa [holds] using right holds

/-- What a program keeps may be added to any relation. -/
protected theorem Coupled.keeping {ω : Type} {observe : σ → ω} {value : ω}
    (coupled : Coupled (fun a b => observe a = value ∧ pre a b) left right post stop)
    (kept : Keeps observe left) :
    Coupled (fun a b => observe a = value ∧ pre a b) left right
      (fun a b => observe a = value ∧ post a b) (fun a b => observe a = value ∧ stop a b) := by
  intro a b related
  have same : observe (left a).2 = value := (kept a).trans related.1
  rcases coupled a b related with
    ⟨result, a', b', ran, ran', after⟩ | ⟨error, a', b', ran, ran', after⟩
  · rw [ran] at same
    exact .inl ⟨result, a', b', ran, ran', same, after⟩
  · rw [ran] at same
    exact .inr ⟨error, a', b', ran, ran', same, after⟩

abbrev Blind (rel : σ → σ → Prop) (program : Prog σ ε α) : Prop :=
  Coupled rel program program rel rel

section Blindness
variable {rel : σ → σ → Prop}

protected theorem Blind.pure (value : α) : Blind rel (pure value : Prog σ ε α) :=
  Coupled.pure value fun _ _ related => related

protected theorem Blind.fail (error : ε) : Blind rel (fail error : Prog σ ε α) :=
  Coupled.fail error fun _ _ related => related

protected theorem Blind.lift (outcome : Except ε α) : Blind rel (lift outcome : Prog σ ε α) :=
  Coupled.lift outcome fun _ _ related => related

protected theorem Blind.reject (bad : Prop) [Decidable bad] (error : ε) :
    Blind rel (reject bad error : Prog σ ε Unit) :=
  (Coupled.reject bad error fun _ _ related => related).weaken (fun _ _ related => related)
    (fun _ _ both => both.1) fun _ _ related => related

protected theorem Blind.write {update : σ → σ} (kept : ∀ a b, rel a b → rel (update a) (update b)) :
    Blind rel (write update : Prog σ ε Unit) := Coupled.write kept

protected theorem Blind.bind {first : Prog σ ε α} (head : Blind rel first)
    (tail : ∀ value, Blind rel (next value)) : Blind rel (first >>= next) :=
  Coupled.bind head tail

/-- The rest may use what was read as long as it cannot tell the two readings apart. -/
protected theorem Blind.read_bind {next : σ → Prog σ ε γ}
    (tail : ∀ a b, rel a b → Coupled rel (next a) (next b) rel rel) : Blind rel (read >>= next) :=
  fun a b related => tail a b related a b related

end Blindness

end QuantumGo.Coupling
