import QuantumGo.HalfOpen

/-!
Who takes an entry out of byIndex. `remove` has an index and no session, and a session may call
it when its entry is gone: teardown runs on every Close of a connection, on a CLOSE of the peer and
in the reaper, and a failed dial removes the index after its loop has. An index that is drawn again
in between is the index of another session.
-/

namespace QuantumGo.IndexOwners

open Registry HalfOpen Interleaving

inductive Event (Source : Type) where
  | loop (event : HalfOpen.Event Source)
  /-- A Close, a CLOSE of the peer or the reaper. -/
  | teardown (i : Nat)

theorem indexed_of_surfaced {stage : Stage} (set : stage.surfaced = true) :
    stage.indexed = true := by
  unfold Stage.surfaced at set
  split at set
  · rfl
  · rfl
  · rfl
  · cases set

variable {Source : Type}

def perform [DecidableEq Source] (e : Endpoint Source) : Event Source → Endpoint Source
  | .loop event => HalfOpen.perform e event
  | .teardown i =>
    match e.loops[i]? with
    | none => e
    | some l =>
      if l.stage.surfaced then { e with registry := remove l.localIndex e.registry } else e

/-- The step is the failure, the close or the reaping of session `n`. -/
def Ends (e : Endpoint Source) (n : Nat) : Event Source → Prop
  | .teardown i | .loop (.act i .teardown) => i = n
  | .loop (.act i .call) =>
    i = n ∧ ∃ l ∈ e.loops[i]?, l.stage = .unregistering ∨ l.stage = .dialFailed
  | _ => False

/-- A registration draws no free index that another session may still remove. -/
def Fresh (e : Endpoint Source) : Event Source → Prop
  | .loop (.act _ (.register draws)) => ∀ attempt < maxIndexAllocAttempts, ∀ idx ∈ draws attempt,
      e.registry.byIndex.lookup idx = none →
        ∀ l ∈ e.loops, l.localIndex = idx → l.stage.indexed = false
  | _ => True

def Carries (e : Endpoint Source) (i : Nat) (idx : UInt32) : Prop :=
  ∃ l, e.loops[i]? = some l ∧ l.localIndex = idx ∧ l.stage.indexed = true

/-- What a step does to the table and to the sessions that carry an index. -/
inductive Changes (e : Endpoint Source) (event : Event Source) (e' : Endpoint Source) : Prop
  | keeps (table : e'.registry.byIndex = e.registry.byIndex)
      (carried : ∀ j x, Carries e' j x ↔ Carries e j x)
  | registers (i : Nat) (idx : UInt32) (valid : idx ≠ 0)
      (free : e.registry.byIndex.lookup idx = none)
      (table : e'.registry.byIndex = e.registry.byIndex.insert idx i)
      (fresh : Fresh e event → ∀ j, ¬ Carries e j idx)
      (carried : ∀ j x, Carries e' j x ↔ j = i ∧ x = idx ∨ Carries e j x)
  | removes (i : Nat) (idx : UInt32) (mine : Carries e i idx) (ends : Ends e i event)
      (table : e'.registry.byIndex = e.registry.byIndex.erase idx)
      (before : ∀ j x, Carries e' j x → Carries e j x)
      (others : ∀ j x, j ≠ i → Carries e j x → Carries e' j x)

section Steps
variable {e e' : Endpoint Source} {event : Event Source} {i : Nat} {l l' : Loop Source}
  {r' : ConnRegistry Source}

theorem carries_replaced (here : e.loops[i]? = some l) (j : Nat) (x : UInt32) :
    Carries ⟨r', e.loops.set i l'⟩ j x ↔
      j = i ∧ l'.localIndex = x ∧ l'.stage.indexed = true ∨ j ≠ i ∧ Carries e j x := by
  unfold Carries
  simp only [getElem?_replaced here]
  constructor
  · rintro ⟨m, ⟨rfl, rfl⟩ | ⟨apart, there⟩, carries⟩
    · exact .inl ⟨rfl, carries⟩
    · exact .inr ⟨apart, m, there, carries⟩
  · rintro (⟨rfl, carries⟩ | ⟨apart, m, there, carries⟩)
    · exact ⟨l', .inl ⟨rfl, rfl⟩, carries⟩
    · exact ⟨m, .inr ⟨apart, there⟩, carries⟩

theorem carries_here (here : e.loops[i]? = some l) (x : UInt32) :
    Carries e i x ↔ l.localIndex = x ∧ l.stage.indexed = true := by
  simp [Carries, here]

theorem Changes.stays (here : e.loops[i]? = some l) (index : l'.localIndex = l.localIndex)
    (stage : l'.stage.indexed = l.stage.indexed) (table : r'.byIndex = e.registry.byIndex) :
    Changes e event ⟨r', e.loops.set i l'⟩ := by
  refine .keeps table fun j x => ?_
  rw [carries_replaced here, index, stage, ← carries_here here]
  by_cases same : j = i <;> simp [same]

theorem Changes.drops (here : e.loops[i]? = some l) (own : l.stage.indexed = true)
    (index : l'.localIndex = l.localIndex) (ends : Ends e i event)
    (table : r'.byIndex = e.registry.byIndex.erase l.localIndex) :
    Changes e event ⟨r', e.loops.set i l'⟩ := by
  have mine : Carries e i l.localIndex := ⟨l, here, rfl, own⟩
  refine .removes i l.localIndex mine ends table (fun j x carries => ?_) fun j x apart carries => ?_
  · rcases (carries_replaced here j x).mp carries with ⟨rfl, same, -⟩ | ⟨-, carries⟩
    · exact same ▸ index ▸ mine
    · exact carries
  · exact (carries_replaced here j x).mpr (.inr ⟨apart, carries⟩)

theorem carries_append (new : Loop Source) (bare : new.stage.indexed = false) (j : Nat)
    (x : UInt32) : Carries ⟨r', e.loops ++ [new]⟩ j x ↔ Carries e j x := by
  unfold Carries
  simp [getElem?_added, or_and_right, exists_or, and_assoc, bare]

theorem act_changes [DecidableEq Source] (here : e.loops[i]? = some l) (action : Action) :
    Changes e (.loop (.act i action))
      ⟨(act i l e.registry action).2, e.loops.set i (act i l e.registry action).1⟩ := by
  have indexes := act_indexes i l e.registry action
  generalize act i l e.registry action = moved at indexes ⊢
  obtain ⟨l', r'⟩ := moved
  dsimp only at indexes ⊢
  cases indexes with
  | keeps _ _ _ index _ _ stage table => exact .stays here index stage table
  | removes _ _ index _ _ own due =>
    refine .drops here own index ?_ rfl
    rcases due with rfl | ⟨rfl, stage⟩
    · rfl
    · exact ⟨rfl, l, here, stage⟩
  | registers draws attempt idx starting below drawn positive free =>
    refine .registers i idx positive free rfl (fun fresh j => ?_) fun j x => ?_
    · rintro ⟨m, there, same, indexed⟩
      rw [fresh attempt below idx drawn free m (List.mem_of_getElem? there) same] at indexed
      cases indexed
    · have bare : ¬ Carries e i x := by
        rw [carries_here here, starting]
        simp [Stage.indexed]
      rw [carries_replaced here]
      by_cases same : j = i
      · subst same
        simp [Stage.indexed, bare, eq_comm]
      · simp [same]

theorem perform_changes [DecidableEq Source] (e : Endpoint Source) (event : Event Source) :
    Changes e event (perform e event) := by
  cases event with
  | teardown i =>
    rw [perform]
    split
    · exact .keeps rfl fun _ _ => .rfl
    · rename_i l here
      split
      · rename_i ready
        exact .removes i l.localIndex ⟨l, here, rfl, indexed_of_surfaced ready⟩ rfl rfl
          (fun _ _ => id) fun _ _ _ => id
      · exact .keeps rfl fun _ _ => .rfl
  | loop event =>
    cases event with
    | dial dst => exact .keeps rfl (carries_append _ rfl)
    | hello src =>
      rw [perform, HalfOpen.perform]
      rcases reserveSource_cases src e.loops.length e.registry with
        ⟨answer, reserved⟩ | ⟨-, -, reserved⟩
      · rw [reserved]
        cases answer <;> exact .keeps rfl fun _ _ => .rfl
      · rw [reserved]
        exact .keeps rfl (carries_append _ rfl)
    | act i action =>
      rw [perform, HalfOpen.perform]
      cases here : e.loops[i]? with
      | none => exact .keeps rfl fun _ _ => .rfl
      | some l => exact act_changes here action

/-- An entry has a session that carries its index, and no two sessions carry one. -/
structure Owned (e : Endpoint Source) : Prop where
  entry : ∀ idx n, e.registry.byIndex.lookup idx = some n → idx ≠ 0 ∧ Carries e n idx
  alone : ∀ i j idx, Carries e i idx → Carries e j idx → i = j

theorem Owned.next (owned : Owned e) (changes : Changes e event e') (fresh : Fresh e event) :
    Owned e' := by
  cases changes with
  | keeps table carried =>
    refine ⟨fun idx n => ?_, fun i j idx => ?_⟩
    · rw [table, carried]
      exact owned.entry idx n
    · rw [carried, carried]
      exact owned.alone i j idx
  | registers i idx valid _ table unique carried =>
    refine ⟨fun x n found => ?_, fun j k x first second => ?_⟩
    · rw [table] at found
      rw [carried]
      by_cases same : x = idx
      · subst same
        rw [AList.lookup_insert] at found
        exact ⟨valid, .inl ⟨(Option.some.inj found).symm, rfl⟩⟩
      · rw [AList.lookup_insert_ne same] at found
        exact (owned.entry x n found).imp_right .inr
    · rcases (carried j x).mp first with ⟨rfl, rfl⟩ | first <;>
        rcases (carried k x).mp second with ⟨rfl, same⟩ | second
      · rfl
      · exact absurd second (unique fresh k)
      · exact absurd (same ▸ first) (unique fresh j)
      · exact owned.alone j k x first second
  | removes i idx mine _ table before others =>
    refine ⟨fun x n found => ?_, fun j k x first second =>
      owned.alone j k x (before j x first) (before k x second)⟩
    rw [table] at found
    have apart : x ≠ idx := by
      rintro rfl
      rw [AList.lookup_erase] at found
      cases found
    rw [AList.lookup_erase_ne apart] at found
    obtain ⟨valid, carries⟩ := owned.entry x n found
    refine ⟨valid, others n x ?_ carries⟩
    rintro rfl
    obtain ⟨l, here, same, -⟩ := mine
    exact apart (((carries_here here x).mp carries).1.symm.trans same)

end Steps

/-- In a run that draws no index which another session may still remove, every entry has the
index of its session, and only this session's own failure, close or reaping takes it away. -/
theorem entry_removed_by_owner [DecidableEq Source] (option cores : Int)
    (events : List (Event Source)) (fresh : Along perform Fresh events (start option cores)) :
    let e := run perform events (start option cores)
    (∀ idx n, e.registry.byIndex.lookup idx = some n →
      idx ≠ 0 ∧ ∃ l, e.loops[n]? = some l ∧ l.localIndex = idx) ∧
    ∀ event idx n, e.registry.byIndex.lookup idx = some n →
      (perform e event).registry.byIndex.lookup idx ≠ some n → Ends e n event := by
  intro e
  have first : Owned (start option cores : Endpoint Source) :=
    ⟨fun _ _ => by rintro ⟨⟩, fun _ _ _ => by rintro ⟨_, there, -⟩; cases there⟩
  have owned : Owned e :=
    invariant_run (fun e event fresh owned => owned.next (perform_changes e event) fresh)
      fresh first
  refine ⟨fun idx n found => ?_, fun event idx n found gone => ?_⟩
  · obtain ⟨valid, l, there, same, -⟩ := owned.entry idx n found
    exact ⟨valid, l, there, same⟩
  · cases perform_changes e event with
    | keeps table _ => exact absurd found (table ▸ gone)
    | registers i x _ free table _ _ =>
      rw [table, AList.lookup_insert_ne
        (by rintro rfl; exact absurd (free.symm.trans found) (by simp))] at gone
      exact absurd found gone
    | removes i x mine ends table _ _ =>
      by_cases same : idx = x
      · subst same
        exact owned.alone i n idx mine (owned.entry idx n found).2 ▸ ends
      · rw [table, AList.lookup_erase_ne same] at gone
        exact absurd found gone

def twoDials : List (Event Bool) :=
  [.loop (.dial false), .loop (.act 0 (.register fun _ => some 9)), .loop (.dial true),
    .loop (.act 1 (.register fun _ => some 7)), .loop (.act 0 .establish),
    .loop (.act 1 .establish), .loop (.act 0 .call), .loop (.act 0 .call)]

/-- Of two dials that establish the first is closed: its entry goes, the other stays. -/
theorem entry_removed_by_owner_closed :
    let e := run perform twoDials (start 1 1)
    let left := (perform e (.teardown 0)).registry.byIndex
    e.registry.byIndex.lookup 9 = some 0 ∧ left.lookup 9 = none ∧ left.lookup 7 = some 1 ∧
      (∃ l, e.loops[1]? = some l ∧ l.localIndex = 7) ∧ Ends e 0 (.teardown 0) := by
  intro e left
  have fresh : Along perform Fresh twoDials (start 1 1) := by
    refine ⟨trivial, fun _ _ _ drawn _ => ?_, trivial, fun _ _ _ drawn _ => ?_, trivial, trivial,
      trivial, trivial, trivial⟩
    · cases drawn
      decide +kernel
    · cases drawn
      decide +kernel
  have entry : e.registry.byIndex.lookup 9 = some 0 := by decide +kernel
  have gone : left.lookup 9 = none := by decide +kernel
  obtain ⟨carried, removed⟩ := entry_removed_by_owner 1 1 twoDials fresh
  refine ⟨entry, gone, by decide +kernel, (carried 7 1 (by decide +kernel)).2, ?_⟩
  exact removed (.teardown 0) 9 0 entry (by rw [gone]; simp)

/-- The index of a closed session is drawn again, and a second Close of its connection removes the
entry of the session that has it now. -/
theorem second_close_removes_another :
    let e := run perform [.loop (.dial ()), .loop (.act 0 (.register fun _ => some 9)),
      .loop (.act 0 .establish), .loop (.act 0 .call), .loop (.act 0 .call), .teardown 0,
      .loop (.dial ()), .loop (.act 1 (.register fun _ => some 9))] (start 1 1)
    e.registry.byIndex.lookup 9 = some 1 ∧
      (perform e (.teardown 0)).registry.byIndex.lookup 9 = none ∧ ¬ Ends e 1 (.teardown 0) := by
  refine ⟨by decide +kernel, by decide +kernel, fun same => ?_⟩
  exact absurd (show (0 : Nat) = 1 from same) (by decide)

end QuantumGo.IndexOwners
