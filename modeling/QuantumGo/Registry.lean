import QuantumGo.Tables

/-!
pkg/tunnel/datagram.go: the connection registry of a datagram endpoint and its half-open
ceiling. A session is a number. Each method holds the registry's lock for its whole body, so a
call is one step. The hellos of finished handshakes (recentHellos) and the snapshot of idle
sessions are left out: no method below reads them.
-/

namespace QuantumGo.Registry

open Tables

def maxIndexAllocAttempts : Nat := 100
def datagramMaxHalfOpenPerCore : Int := 256
def datagramMaxHalfOpenFloor : Nat := 1024
def datagramMaxHalfOpenCeiling : Int := 8192

structure ConnRegistry (Source : Type) where
  byIndex : Table UInt32 Nat
  bySource : Table Source Nat
  halfOpen : Table Source Nat
  halfOpenTotal : Int
  maxHalfOpen : Int

inductive AddError where
  | random
  | connIndexExhausted
  deriving DecidableEq, Repr

variable {Source : Type} [DecidableEq Source]

def clampMaxHalfOpen (cores : Int) : Int :=
  let n := cores * datagramMaxHalfOpenPerCore
  if n < datagramMaxHalfOpenFloor then datagramMaxHalfOpenFloor
  else if n > datagramMaxHalfOpenCeiling then datagramMaxHalfOpenCeiling
  else n

def resolveMaxHalfOpen (option cores : Int) : Int :=
  if option < 1 then clampMaxHalfOpen cores else option

def newConnRegistry (maxHalfOpen : Int) : ConnRegistry Source :=
  ⟨∅, ∅, ∅, 0, maxHalfOpen⟩

/-- The loop of `add`: `draws` are the answers of randIndex, none where the random source fails. -/
def addLoop (s : Nat) (r : ConnRegistry Source) :
    Nat → (Nat → Option UInt32) → Except AddError UInt32 × ConnRegistry Source
  | 0, _ => (.error .connIndexExhausted, r)
  | attempts + 1, draws =>
    match draws 0 with
    | none => (.error .random, r)
    | some idx =>
      -- index 0 is reserved, and a taken index is drawn again
      if idx = 0 ∨ (r.byIndex.lookup idx).isSome then
        addLoop s r attempts fun i => draws (i + 1)
      else (.ok idx, { r with byIndex := r.byIndex.insert idx s })

def add (draws : Nat → Option UInt32) (s : Nat) (r : ConnRegistry Source) :
    Except AddError UInt32 × ConnRegistry Source :=
  addLoop s r maxIndexAllocAttempts draws

def lookup (index : UInt32) (r : ConnRegistry Source) : Option Nat := r.byIndex.lookup index

def remove (index : UInt32) (r : ConnRegistry Source) : ConnRegistry Source :=
  { r with byIndex := r.byIndex.erase index }

def addHalfOpenLocked (source : Source) (r : ConnRegistry Source) : Bool × ConnRegistry Source :=
  if r.halfOpenTotal ≥ r.maxHalfOpen then (false, r)
  else (true, { r with
    halfOpen := r.halfOpen.insert source ((r.halfOpen.lookup source).getD 0 + 1)
    halfOpenTotal := r.halfOpenTotal + 1 })

def releaseHalfOpen (source : Source) (r : ConnRegistry Source) : ConnRegistry Source :=
  let n := (r.halfOpen.lookup source).getD 0
  if n = 0 then r
  else { r with
    halfOpen := if n > 1 then r.halfOpen.insert source (n - 1) else r.halfOpen.erase source
    halfOpenTotal := r.halfOpenTotal - 1 }

def halfOpenLoad (r : ConnRegistry Source) : Int := r.halfOpenTotal

def knownSource (index : UInt32) (src : Source) (r : ConnRegistry Source) : Bool :=
  (index ≠ 0 ∧ (r.byIndex.lookup index).isSome) ∨ (r.bySource.lookup src).isSome

theorem knownSource_zero (src : Source) (r : ConnRegistry Source) :
    knownSource 0 src r = (r.bySource.lookup src).isSome := by
  unfold knownSource
  simp only [ne_eq, not_true, false_and, false_or]
  exact Bool.decide_eq_true

/-- The answer is the session now or already in progress for the source, and whether it is the
new one; `fresh` is the number of the session that build makes. -/
def reserveSource (source : Source) (fresh : Nat) (r : ConnRegistry Source) :
    (Option Nat × Bool) × ConnRegistry Source :=
  match r.bySource.lookup source with
  | some existing => ((some existing, false), r)
  | none =>
    match addHalfOpenLocked source r with
    | (false, r) => ((none, false), r)
    | (true, r) => ((some fresh, true), { r with bySource := r.bySource.insert source fresh })

def sourceOwner (source : Source) (s : Nat) (r : ConnRegistry Source) : Bool :=
  r.bySource.lookup source = some s

def removeSource (source : Source) (r : ConnRegistry Source) : ConnRegistry Source :=
  { r with bySource := r.bySource.erase source }

/-! What the calls do to the accounts: the source entries, the slots of each source and their
total. -/

section Accounts
variable {r r' : ConnRegistry Source} {source s : Source}

def slots (source : Source) (r : ConnRegistry Source) : Nat := (r.halfOpen.lookup source).getD 0

structure SameAccounts (r r' : ConnRegistry Source) : Prop where
  entries : r'.bySource = r.bySource
  slots : r'.halfOpen = r.halfOpen
  total : r'.halfOpenTotal = r.halfOpenTotal
  ceiling : r'.maxHalfOpen = r.maxHalfOpen

omit [DecidableEq Source] in
theorem SameAccounts.refl (r : ConnRegistry Source) : SameAccounts r r := ⟨rfl, rfl, rfl, rfl⟩

omit [DecidableEq Source] in
/-- A registration takes an index that is drawn, free and not the reserved one, or fails. -/
theorem add_cases (draws : Nat → Option UInt32) (n : Nat) (r : ConnRegistry Source) :
    (∃ error, add draws n r = (.error error, r)) ∨
    ∃ attempt < maxIndexAllocAttempts, ∃ idx ∈ draws attempt, idx ≠ 0 ∧
      r.byIndex.lookup idx = none ∧
      add draws n r = (.ok idx, { r with byIndex := r.byIndex.insert idx n }) := by
  unfold add
  generalize maxIndexAllocAttempts = attempts
  induction attempts generalizing draws with
  | zero => exact .inl ⟨_, rfl⟩
  | succ attempts ih =>
    unfold addLoop
    split
    · exact .inl ⟨_, rfl⟩
    · rename_i idx drawn
      split
      · rcases ih fun i => draws (i + 1) with failed | ⟨attempt, below, taken⟩
        · exact .inl failed
        · exact .inr ⟨attempt + 1, Nat.succ_lt_succ below, taken⟩
      · rename_i free
        obtain ⟨positive, absent⟩ := not_or.mp free
        exact .inr ⟨0, Nat.zero_lt_succ _, idx, drawn, positive,
          Option.not_isSome_iff_eq_none.mp absent, rfl⟩

omit [DecidableEq Source] in
theorem add_accounts (draws : Nat → Option UInt32) (n : Nat) (r : ConnRegistry Source) :
    SameAccounts r (add draws n r).2 := by
  obtain ⟨_, failed⟩ | ⟨_, _, _, _, _, _, taken⟩ := add_cases draws n r
  · rw [failed]
    exact .refl r
  · rw [taken]
    exact ⟨rfl, rfl, rfl, rfl⟩

omit [DecidableEq Source] in
theorem remove_accounts (index : UInt32) (r : ConnRegistry Source) :
    SameAccounts r (remove index r) := ⟨rfl, rfl, rfl, rfl⟩

theorem resolveMaxHalfOpen_pos (option cores : Int) : 0 < resolveMaxHalfOpen option cores := by
  unfold resolveMaxHalfOpen clampMaxHalfOpen datagramMaxHalfOpenFloor datagramMaxHalfOpenCeiling
  dsimp only
  split
  · split
    · omega
    · split <;> omega
  · omega

/-- A reservation takes a slot and the entry of a source without one, below the ceiling, or
changes nothing. -/
theorem reserveSource_cases (source : Source) (fresh : Nat) (r : ConnRegistry Source) :
    (∃ answer, reserveSource source fresh r = ((answer, false), r)) ∨
    r.bySource.lookup source = none ∧ r.halfOpenTotal < r.maxHalfOpen ∧
      reserveSource source fresh r = ((some fresh, true), { r with
        bySource := r.bySource.insert source fresh
        halfOpen := r.halfOpen.insert source (slots source r + 1)
        halfOpenTotal := r.halfOpenTotal + 1 }) := by
  unfold reserveSource
  cases entry : r.bySource.lookup source with
  | some existing => exact .inl ⟨_, rfl⟩
  | none =>
    unfold addHalfOpenLocked
    by_cases full : r.halfOpenTotal ≥ r.maxHalfOpen
    · rw [if_pos full]
      exact .inl ⟨_, rfl⟩
    · rw [if_neg full]
      exact .inr ⟨rfl, Int.not_le.mp full, rfl⟩

@[simp] theorem releaseHalfOpen_bySource (source : Source) (r : ConnRegistry Source) :
    (releaseHalfOpen source r).bySource = r.bySource := by
  unfold releaseHalfOpen
  dsimp only
  split <;> rfl

@[simp] theorem releaseHalfOpen_maxHalfOpen (source : Source) (r : ConnRegistry Source) :
    (releaseHalfOpen source r).maxHalfOpen = r.maxHalfOpen := by
  unfold releaseHalfOpen
  dsimp only
  split <;> rfl

theorem releaseHalfOpen_none (none : slots source r = 0) : releaseHalfOpen source r = r :=
  if_pos none

theorem releaseHalfOpen_slots (some : slots source r ≠ 0) (s : Source) :
    slots s (releaseHalfOpen source r) = slots s r - if s = source then 1 else 0 := by
  unfold slots at some
  rw [releaseHalfOpen, if_neg some]
  unfold slots
  dsimp only
  by_cases same : s = source
  · subst same
    rw [if_pos rfl]
    split
    · rw [AList.lookup_insert]
      rfl
    · rw [AList.lookup_erase]
      simp only [Option.getD_none]
      omega
  · rw [if_neg same, Nat.sub_zero]
    split
    · rw [AList.lookup_insert_ne same]
    · rw [AList.lookup_erase_ne same]

theorem releaseHalfOpen_total (some : slots source r ≠ 0) :
    (releaseHalfOpen source r).halfOpenTotal = r.halfOpenTotal - 1 := by
  unfold slots at some
  rw [releaseHalfOpen, if_neg some]

end Accounts

end QuantumGo.Registry
