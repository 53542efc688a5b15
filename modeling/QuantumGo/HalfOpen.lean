import QuantumGo.Interleaving
import QuantumGo.Registry
import QuantumGo.Kem

/-!
pkg/tunnel/dgram_handshake_wire.go: the handshake loops of one endpoint and their registry
calls. A loop takes its entry and its slot when a ClientHello starts it and gives them back on
one of four ways: a failed start, establishment, the retry ceiling, or the dial's own clean-up.
Each registry call is a step, and the steps of the loops interleave. When a driver establishes or
fails, and whether a step of the start-up fails, is the event's choice.
-/

namespace QuantumGo.HalfOpen

open Registry Kem Interleaving

inductive Exit where
  | unwound
  | surfaced
  | failed
  deriving DecidableEq, Repr

inductive Stage where
  /-- A responder with its reservation, a dial before anything; no index yet. -/
  | starting
  | running
  /-- Before removeSource. -/
  | removing (exit : Exit)
  /-- Before releaseHalfOpen. -/
  | releasing (exit : Exit)
  /-- Before the loop's own remove. -/
  | unregistering
  /-- Before the remove of DialDatagram. -/
  | dialFailed
  | established
  | ended
  deriving DecidableEq, Repr

structure Loop (Source : Type) where
  role : Role
  src : Source
  localIndex : UInt32
  stage : Stage
  deriving DecidableEq, Repr

inductive Action where
  | newSessionFails
  | register (draws : Nat → Option UInt32)
  | startFails
  | establish
  | fail
  | call
  | teardown

structure Endpoint (Source : Type) where
  registry : ConnRegistry Source
  loops : List (Loop Source)

inductive Event (Source : Type) where
  /-- A ClientHello without an index, past the cookie gate and not a stale one. -/
  | hello (src : Source)
  | dial (dst : Source)
  | act (i : Nat) (action : Action)

variable {Source : Type} [DecidableEq Source]

def Exit.next : Exit → Stage
  | .unwound => .ended
  | .surfaced => .established
  | .failed => .unregistering

/-- A step of loop `i`; an action that its stage does not have changes nothing. -/
def act (i : Nat) (l : Loop Source) (r : ConnRegistry Source) :
    Action → Loop Source × ConnRegistry Source
  | .newSessionFails =>
    -- a dial makes its session before it has a loop
    if l.stage = .starting ∧ l.role = .responder then ({ l with stage := .removing .unwound }, r)
    else (l, r)
  | .register draws =>
    if l.stage = .starting then
      match add draws i r with
      | (.ok idx, r) => ({ l with localIndex := idx, stage := .running }, r)
      | (.error _, r) =>
        match l.role with
        | .responder => ({ l with stage := .removing .unwound }, r)
        | .initiator => ({ l with stage := .ended }, r)
    else (l, r)
  | .startFails =>
    if l.stage = .running ∧ l.role = .initiator then ({ l with stage := .dialFailed }, r)
    else (l, r)
  | .establish =>
    if l.stage = .running then ({ l with stage := .removing .surfaced }, r) else (l, r)
  | .fail => if l.stage = .running then ({ l with stage := .removing .failed }, r) else (l, r)
  | .call =>
    match l.stage with
    | .removing exit => ({ l with stage := .releasing exit }, removeSource l.src r)
    | .releasing exit => ({ l with stage := exit.next }, releaseHalfOpen l.src r)
    | .unregistering =>
      ({ l with stage := match l.role with | .initiator => .dialFailed | .responder => .ended },
        remove l.localIndex r)
    | .dialFailed => ({ l with stage := .ended }, remove l.localIndex r)
    | _ => (l, r)
  | .teardown => if l.stage = .established then (l, remove l.localIndex r) else (l, r)

def perform (e : Endpoint Source) : Event Source → Endpoint Source
  | .hello src =>
    match reserveSource src e.loops.length e.registry with
    | ((some _, true), r) => ⟨r, e.loops ++ [⟨.responder, src, 0, .starting⟩]⟩
    | (_, r) => ⟨r, e.loops⟩
  | .dial dst => ⟨e.registry, e.loops ++ [⟨.initiator, dst, 0, .starting⟩]⟩
  | .act i action =>
    match e.loops[i]? with
    | none => e
    | some l => ⟨(act i l e.registry action).2, e.loops.set i (act i l e.registry action).1⟩

def after (events : List (Event Source)) (e : Endpoint Source) : Endpoint Source :=
  run perform events e

def start (option cores : Int) : Endpoint Source :=
  ⟨newConnRegistry (resolveMaxHalfOpen option cores), []⟩

/-! The accounts that are meant. -/

def Loop.inProgress (l : Loop Source) : Bool := l.role = .responder ∧ l.stage = .running

def Settled (e : Endpoint Source) : Prop :=
  ∀ l ∈ e.loops, l.stage = .running ∨ l.stage = .established ∨ l.stage = .ended

instance (e : Endpoint Source) : Decidable (Settled e) :=
  inferInstanceAs (Decidable (∀ l ∈ e.loops, _))

structure Exact (e : Endpoint Source) : Prop where
  entry : ∀ i l, e.loops[i]? = some l → l.inProgress = true →
    e.registry.bySource.lookup l.src = some i
  total : e.registry.halfOpenTotal = e.loops.countP Loop.inProgress
  ceiling : (e.loops.countP Loop.inProgress : Int) ≤ e.registry.maxHalfOpen

def Stage.entered : Stage → Bool
  | .starting | .running | .removing _ => true
  | _ => false

def Stage.slotted : Stage → Bool
  | .starting | .running | .removing _ | .releasing _ => true
  | _ => false

def Loop.owner (l : Loop Source) : Bool := l.role = .responder && l.stage.entered

def Loop.holder (l : Loop Source) : Bool := l.role = .responder && l.stage.slotted

def Stage.returning : Stage → Bool
  | .removing _ | .releasing _ => true
  | _ => false

/-- An initiator's loop that is about to release finds no responder of its address with a slot. -/
def Clear (e : Endpoint Source) : Event Source → Prop
  | .act i .call => ∀ l ∈ e.loops[i]?, l.role = .initiator → l.stage.returning = true →
      ∀ other ∈ e.loops, other.holder = true → other.src ≠ l.src
  | _ => True

instance (e : Endpoint Source) : (event : Event Source) → Decidable (Clear e event)
  | .act i .call => inferInstanceAs (Decidable (∀ l ∈ e.loops[i]?, _))
  | .act _ .newSessionFails | .act _ (.register _) | .act _ .startFails | .act _ .establish
  | .act _ .fail | .act _ .teardown | .hello _ | .dial _ => isTrue trivial

variable {p : Loop Source → Bool} {m : Loop Source}

section Invariant
variable {e : Endpoint Source} {l l' : Loop Source} {r r' : ConnRegistry Source} {i : Nat}

structure Accounted (e : Endpoint Source) : Prop where
  entries : ∀ s i, e.registry.bySource.lookup s = some i ↔
    ∃ l, e.loops[i]? = some l ∧ l.owner = true ∧ l.src = s
  slots : ∀ s, Registry.slots s e.registry = e.loops.countP fun l => l.holder && l.src = s
  total : e.registry.halfOpenTotal = e.loops.countP Loop.holder
  ceiling : e.registry.halfOpenTotal ≤ e.registry.maxHalfOpen

inductive Moves (l : Loop Source) (r : ConnRegistry Source) :
    Action → Loop Source → ConnRegistry Source → Prop where
  | elsewhere (action : Action) (l' : Loop Source) (r' : ConnRegistry Source)
      (role : l'.role = l.role) (src : l'.src = l.src)
      (stage : l.role = .responder →
        l'.stage.entered = l.stage.entered ∧ l'.stage.slotted = l.stage.slotted)
      (same : SameAccounts r r') : Moves l r action l' r'
  | removes (exit : Exit) (stage : l.stage = .removing exit) :
      Moves l r .call { l with stage := .releasing exit } (removeSource l.src r)
  | releases (exit : Exit) (stage : l.stage = .releasing exit) :
      Moves l r .call { l with stage := exit.next } (releaseHalfOpen l.src r)

theorem act_moves (i : Nat) (l : Loop Source) (r : ConnRegistry Source) (action : Action) :
    Moves l r action (act i l r action).1 (act i l r action).2 := by
  have idle {action : Action} : Moves l r action l r :=
    .elsewhere _ _ _ rfl rfl (fun _ => ⟨rfl, rfl⟩) (.refl r)
  cases action with
  | newSessionFails =>
    simp only [act]
    split
    · rename_i here
      exact .elsewhere _ _ _ rfl rfl (fun _ => by rw [here.1]; exact ⟨rfl, rfl⟩) (.refl r)
    · exact idle
  | register draws =>
    simp only [act]
    split
    · rename_i here
      have same := add_accounts draws i r
      split <;> rename_i run <;> rw [run] at same
      · exact .elsewhere _ _ _ rfl rfl (fun _ => by rw [here]; exact ⟨rfl, rfl⟩) same
      · split <;> rename_i role
        · exact .elsewhere _ _ _ rfl rfl (fun _ => by rw [here]; exact ⟨rfl, rfl⟩) same
        · exact .elsewhere _ _ _ rfl rfl (fun responder => nomatch role.symm.trans responder) same
    · exact idle
  | startFails =>
    simp only [act]
    split
    · rename_i here
      exact .elsewhere _ _ _ rfl rfl (fun responder => nomatch here.2.symm.trans responder)
        (.refl r)
    · exact idle
  | establish | fail =>
    simp only [act]
    split
    · rename_i here
      exact .elsewhere _ _ _ rfl rfl (fun _ => by rw [here]; exact ⟨rfl, rfl⟩) (.refl r)
    · exact idle
  | call =>
    simp only [act]
    split <;> rename_i here
    · exact .removes _ here
    · exact .releases _ here
    · refine .elsewhere _ _ _ rfl rfl (fun responder => ?_) (remove_accounts _ r)
      rw [here, responder]
      exact ⟨rfl, rfl⟩
    · exact .elsewhere _ _ _ rfl rfl (fun _ => by rw [here]; exact ⟨rfl, rfl⟩) (remove_accounts _ r)
    · exact idle
  | teardown =>
    simp only [act]
    split
    · exact .elsewhere _ _ _ rfl rfl (fun _ => ⟨rfl, rfl⟩) (remove_accounts _ r)
    · exact idle

/-- The session has an index and may still remove it. -/
def Stage.indexed : Stage → Bool
  | .starting | .removing .unwound | .releasing .unwound | .ended => false
  | _ => true

/-- maybeSurface has set the session. -/
def Stage.surfaced : Stage → Bool
  | .removing .surfaced | .releasing .surfaced | .established => true
  | _ => false

/-- What a step of loop `i` does to the indices. -/
inductive Indexes (i : Nat) (l : Loop Source) (r : ConnRegistry Source) :
    Action → Loop Source → ConnRegistry Source → Prop where
  | keeps (action : Action) (l' : Loop Source) (r' : ConnRegistry Source)
      (index : l'.localIndex = l.localIndex) (starting : l'.stage = .starting → l.stage = .starting)
      (fewer : ∀ idx n, lookup idx r' = some n → lookup idx r = some n)
      (stage : l'.stage.indexed = l.stage.indexed) (table : r'.byIndex = r.byIndex) :
      Indexes i l r action l' r'
  | registers (draws : Nat → Option UInt32) (attempt : Nat) (idx : UInt32)
      (starting : l.stage = .starting) (below : attempt < maxIndexAllocAttempts)
      (drawn : idx ∈ draws attempt) (positive : idx ≠ 0) (free : r.byIndex.lookup idx = none) :
      Indexes i l r (.register draws) { l with localIndex := idx, stage := .running }
        { r with byIndex := r.byIndex.insert idx i }
  | removes (action : Action) (l' : Loop Source) (index : l'.localIndex = l.localIndex)
      (starting : l'.stage = .starting → l.stage = .starting)
      (fewer : ∀ idx n, lookup idx (remove l.localIndex r) = some n → lookup idx r = some n)
      (own : l.stage.indexed = true) (due : action = .teardown ∨ action = .call ∧
        (l.stage = .unregistering ∨ l.stage = .dialFailed)) :
      Indexes i l r action l' (remove l.localIndex r)

omit [DecidableEq Source] in
theorem remove_fewer (index : UInt32) (r : ConnRegistry Source) (idx : UInt32) (n : Nat)
    (found : lookup idx (remove index r) = some n) : lookup idx r = some n := by
  unfold lookup remove at found
  by_cases same : idx = index
  · rw [same, AList.lookup_erase] at found
    cases found
  · rwa [AList.lookup_erase_ne same] at found

theorem act_indexes (i : Nat) (l : Loop Source) (r : ConnRegistry Source) (action : Action) :
    Indexes i l r action (act i l r action).1 (act i l r action).2 := by
  have idle {action : Action} : Indexes i l r action l r :=
    .keeps _ _ _ rfl id (fun _ _ found => found) rfl rfl
  have moves {action : Action} {stage : Stage} (running : stage ≠ .starting)
      (same : stage.indexed = l.stage.indexed) : Indexes i l r action { l with stage } r :=
    .keeps _ _ _ rfl (fun starting => absurd starting running) (fun _ _ found => found) same rfl
  cases action with
  | register draws =>
    simp only [act]
    split
    · rename_i starting
      obtain ⟨error, failed⟩ | ⟨attempt, below, idx, drawn, positive, free, taken⟩ :=
        add_cases draws i r
      · rw [failed]
        dsimp only
        split <;> exact moves (by simp) (by rw [starting]; rfl)
      · rw [taken]
        exact .registers draws attempt idx starting below drawn positive free
    · exact idle
  | call =>
    simp only [act]
    split
    · rename_i exit here
      exact .keeps _ _ _ rfl (by simp) (fun _ _ found => found)
        (by rw [here]; cases exit <;> rfl) rfl
    · rename_i exit here
      have table : (releaseHalfOpen l.src r).byIndex = r.byIndex := by
        unfold releaseHalfOpen
        dsimp only
        split <;> rfl
      exact .keeps _ _ _ rfl (by cases exit <;> simp [Exit.next])
        (fun _ _ found => by rwa [lookup, ← table]) (by rw [here]; cases exit <;> rfl) table
    · rename_i here
      refine .removes _ _ rfl ?_ (remove_fewer _ r) (by rw [here]; rfl) (.inr ⟨rfl, .inl here⟩)
      cases l.role <;> simp
    · rename_i here
      exact .removes _ _ rfl (by simp) (remove_fewer _ r) (by rw [here]; rfl)
        (.inr ⟨rfl, .inr here⟩)
    · exact idle
  | teardown =>
    simp only [act]
    split
    · rename_i here
      exact .removes _ _ rfl id (remove_fewer _ r) (by rw [here]; rfl) (.inl rfl)
    · exact idle
  | newSessionFails | startFails =>
    simp only [act]
    split
    · rename_i here
      exact moves (by simp) (by rw [here.1]; rfl)
    · exact idle
  | establish | fail =>
    simp only [act]
    split
    · rename_i here
      exact moves (by simp) (by rw [here]; rfl)
    · exact idle

section Replace
variable {loops : List (Loop Source)} (here : loops[i]? = some l)
include here
omit [DecidableEq Source]

theorem countP_set_same (same : p l' = p l) : (loops.set i l').countP p = loops.countP p := by
  have counted := countP_replaced here p l'
  rw [same] at counted
  exact Nat.add_right_cancel counted

theorem countP_set_less (was : p l = true) (now : p l' = false) :
    (loops.set i l').countP p + 1 = loops.countP p := by
  simpa [was, now] using countP_replaced here p l'

theorem owner_set (j : Nat) (s : Source) :
    (∃ m, (loops.set i l')[j]? = some m ∧ m.owner = true ∧ m.src = s) ↔
      if i = j then l'.owner = true ∧ l'.src = s
      else ∃ m, loops[j]? = some m ∧ m.owner = true ∧ m.src = s := by
  obtain ⟨inside, -⟩ := List.getElem?_eq_some_iff.mp here
  rw [List.getElem?_set, if_pos inside]
  split
  · simp
  · rfl

end Replace

/-- The step lemma for a step that moves no account. -/
theorem Accounted.elsewhere (accounted : Accounted e) (here : e.loops[i]? = some l)
    (role : l'.role = l.role) (src : l'.src = l.src) (stage : l.role = .responder →
      l'.stage.entered = l.stage.entered ∧ l'.stage.slotted = l.stage.slotted)
    (same : SameAccounts e.registry r') : Accounted ⟨r', e.loops.set i l'⟩ := by
  have owner : l'.owner = l.owner := by
    by_cases responder : l.role = .responder
    · simp [Loop.owner, role, (stage responder).1]
    · simp [Loop.owner, role, responder]
  have holder : l'.holder = l.holder := by
    by_cases responder : l.role = .responder
    · simp [Loop.holder, role, (stage responder).2]
    · simp [Loop.holder, role, responder]
  refine ⟨fun s j => ?_, fun s => ?_, ?_, ?_⟩
  · rw [same.entries, accounted.entries, owner_set here]
    split
    · rename_i mine
      subst mine
      rw [here, owner, src]
      simp
    · rfl
  · rw [countP_set_same here (by rw [holder, src]), ← accounted.slots]
    unfold Registry.slots
    rw [same.slots]
  · rw [countP_set_same here holder, ← accounted.total]
    exact same.total
  · rw [same.total, same.ceiling]
    exact accounted.ceiling

theorem Accounted.owner_unique (accounted : Accounted e) {j : Nat} (here : e.loops[i]? = some l)
    (there : e.loops[j]? = some m) (owner : l.owner = true) (owner' : m.owner = true)
    (same : m.src = l.src) : i = j := by
  have first := (accounted.entries l.src i).mpr ⟨l, here, owner, rfl⟩
  have second := (accounted.entries l.src j).mpr ⟨m, there, owner', same⟩
  exact Option.some.inj (first.symm.trans second)

omit [DecidableEq Source] in
theorem Loop.holder_of_owner (owner : m.owner = true) : m.holder = true := by
  simp only [Loop.owner, Loop.holder, Bool.and_eq_true] at owner ⊢
  refine ⟨owner.1, ?_⟩
  cases stage : m.stage <;> simp_all [Stage.entered, Stage.slotted]

/-- The step lemma for removeSource: a responder gives up its own entry, an initiator nothing. -/
theorem Accounted.removes (accounted : Accounted e) (here : e.loops[i]? = some l) {exit : Exit}
    (stage : l.stage = .removing exit) (clear : l.role = .initiator →
      ∀ other ∈ e.loops, other.holder = true → other.src ≠ l.src) :
    Accounted ⟨removeSource l.src e.registry,
      e.loops.set i { l with stage := .releasing exit }⟩ := by
  have owner : ({ l with stage := .releasing exit } : Loop Source).owner = false := by
    simp [Loop.owner, Stage.entered]
  have holder : ({ l with stage := .releasing exit } : Loop Source).holder = l.holder := by
    simp [Loop.holder, stage, Stage.slotted]
  -- no other loop has the entry
  have alone : ∀ j m, e.loops[j]? = some m → m.owner = true → m.src = l.src → i = j := by
    intro j m there owned same
    cases role : l.role with
    | responder =>
      have mine : l.owner = true := by simp [Loop.owner, role, stage, Stage.entered]
      exact accounted.owner_unique here there mine owned same
    | initiator =>
      exact absurd same (clear role m (List.mem_of_getElem? there) (m.holder_of_owner owned))
  refine ⟨fun s j => ?_, fun s => ?_, ?_, accounted.ceiling⟩
  · rw [owner_set here, owner]
    by_cases same : s = l.src
    · subst same
      rw [removeSource, AList.lookup_erase]
      split
      · simp
      · rename_i other
        simp only [reduceCtorEq, false_iff]
        rintro ⟨m, there, owned, src⟩
        exact other (alone j m there owned src)
    · rw [removeSource, AList.lookup_erase_ne same, accounted.entries]
      split
      · rename_i mine
        subst mine
        simp only [here, Option.some.injEq, Bool.false_eq_true, false_and, iff_false]
        rintro ⟨m, rfl, -, src⟩
        exact same src.symm
      · rfl
  · rw [countP_set_same here (by rw [holder])]
    exact accounted.slots s
  · rw [countP_set_same here holder]
    exact accounted.total

/-- The step lemma for releaseHalfOpen: a responder gives up its own slot, an initiator nothing. -/
theorem Accounted.releases (accounted : Accounted e) (here : e.loops[i]? = some l) {exit : Exit}
    (stage : l.stage = .releasing exit) (clear : l.role = .initiator →
      ∀ other ∈ e.loops, other.holder = true → other.src ≠ l.src) :
    Accounted ⟨releaseHalfOpen l.src e.registry, e.loops.set i { l with stage := exit.next }⟩ := by
  have outside : exit.next.entered = false ∧ exit.next.slotted = false := by
    cases exit <;> exact ⟨rfl, rfl⟩
  obtain role | role : l.role = .initiator ∨ l.role = .responder := by cases l.role <;> simp
  · -- there is no slot to release, so the registry stays as it is
    have none : Registry.slots l.src e.registry = 0 := by
      rw [accounted.slots, List.countP_eq_zero]
      intro other member counted
      simp only [Bool.and_eq_true, decide_eq_true_eq] at counted
      exact clear role other member counted.1 counted.2
    rw [releaseHalfOpen_none none]
    exact accounted.elsewhere here rfl rfl (fun responder => nomatch role.symm.trans responder)
      (.refl _)
  · have was : l.holder = true := by simp [Loop.holder, role, stage, Stage.slotted]
    have wasOwner : l.owner = false := by simp [Loop.owner, stage, Stage.entered]
    have holder : ({ l with stage := exit.next } : Loop Source).holder = false := by
      simp [Loop.holder, outside]
    have owner : ({ l with stage := exit.next } : Loop Source).owner = false := by
      simp [Loop.owner, outside]
    have some : Registry.slots l.src e.registry ≠ 0 := by
      rw [accounted.slots, ← Nat.pos_iff_ne_zero, List.countP_pos_iff]
      exact ⟨l, List.mem_of_getElem? here, by simp [was]⟩
    have total := countP_set_less here was holder
    refine ⟨fun s j => ?_, fun s => ?_, ?_, ?_⟩
    · rw [releaseHalfOpen_bySource, accounted.entries, owner_set here, owner]
      split
      · rename_i mine
        subst mine
        simp [here, wasOwner]
      · rfl
    · rw [releaseHalfOpen_slots some, accounted.slots]
      split
      · rename_i same
        have fewer : (e.loops.set i { l with stage := exit.next }).countP
            (fun l => l.holder && l.src = s) + 1 = e.loops.countP fun l => l.holder && l.src = s :=
          countP_set_less here (by simp [was, same]) (by simp [holder])
        dsimp only
        omega
      · rename_i different
        rw [countP_set_same here (by simp [Ne.symm different]), Nat.sub_zero]
    · rw [releaseHalfOpen_total some, accounted.total]
      dsimp only
      omega
    · rw [releaseHalfOpen_total some, releaseHalfOpen_maxHalfOpen]
      have := accounted.ceiling
      omega

omit [DecidableEq Source] in
theorem owner_append (loops : List (Loop Source)) (new : Loop Source) (j : Nat) (s : Source) :
    (∃ m, (loops ++ [new])[j]? = some m ∧ m.owner = true ∧ m.src = s) ↔
      (∃ m, loops[j]? = some m ∧ m.owner = true ∧ m.src = s) ∨
        j = loops.length ∧ new.owner = true ∧ new.src = s := by
  simp only [getElem?_added, or_and_right, exists_or, and_assoc, exists_and_left, exists_eq_left]

theorem Accounted.dial (accounted : Accounted e) (dst : Source) :
    Accounted (perform e (.dial dst)) := by
  simp only [perform]
  have owner : (⟨.initiator, dst, 0, .starting⟩ : Loop Source).owner = false := rfl
  have holder : (⟨.initiator, dst, 0, .starting⟩ : Loop Source).holder = false := rfl
  refine ⟨fun s j => ?_, fun s => ?_, ?_, accounted.ceiling⟩
  · rw [accounted.entries, owner_append]
    simp [owner]
  · rw [accounted.slots, List.countP_append]
    simp [holder]
  · rw [accounted.total, List.countP_append]
    simp [holder]

/-- The step lemma for a ClientHello: a new responder has the entry and a slot. -/
theorem Accounted.hello (accounted : Accounted e) (src : Source) :
    Accounted (perform e (.hello src)) := by
  simp only [perform]
  rcases reserveSource_cases src e.loops.length e.registry with
    ⟨answer, reserved⟩ | ⟨absent, below, reserved⟩
  · rw [reserved]
    cases answer <;> exact accounted
  · rw [reserved]
    have holder : (⟨.responder, src, 0, .starting⟩ : Loop Source).holder = true := rfl
    have vacant : ∀ (j : Nat) (m : Loop Source), e.loops[j]? = some m → m.owner = true →
        m.src ≠ src := by
      intro j m there owned same
      have taken := (accounted.entries src j).mpr ⟨m, there, owned, same⟩
      exact nomatch absent.symm.trans taken
    refine ⟨fun s j => ?_, fun s => ?_, ?_, ?_⟩
    · rw [owner_append]
      by_cases same : s = src
      · subst same
        rw [AList.lookup_insert]
        constructor
        · rintro ⟨⟩
          exact .inr ⟨rfl, rfl, rfl⟩
        · rintro (⟨m, there, owned, same⟩ | ⟨rfl, -, -⟩)
          · exact absurd same (vacant j m there owned)
          · rfl
      · rw [AList.lookup_insert_ne same, accounted.entries]
        simp [Ne.symm same]
    · rw [List.countP_append, ← accounted.slots]
      unfold Registry.slots
      by_cases same : s = src
      · subst same
        rw [AList.lookup_insert]
        simp [holder]
      · rw [AList.lookup_insert_ne same]
        simp [Ne.symm same]
    · rw [List.countP_append, List.countP_singleton, holder]
      simp [accounted.total]
    · exact Int.add_one_le_iff.mpr below

theorem Accounted.step (accounted : Accounted e) {event : Event Source} (clear : Clear e event) :
    Accounted (perform e event) := by
  cases event with
  | hello src => exact accounted.hello src
  | dial dst => exact accounted.dial dst
  | act i action =>
    simp only [perform]
    cases here : e.loops[i]? with
    | none => exact accounted
    | some l =>
      dsimp only
      have moves := act_moves i l e.registry action
      rcases run : act i l e.registry action with ⟨l', r'⟩
      rw [run] at moves
      dsimp only at moves ⊢
      cases moves with
      | elsewhere _ _ _ role src stage same => exact accounted.elsewhere here role src stage same
      | removes exit stage =>
        exact accounted.removes here stage fun role => clear l here role (by rw [stage]; rfl)
      | releases exit stage =>
        exact accounted.releases here stage fun role => clear l here role (by rw [stage]; rfl)

theorem start_accounted (option cores : Int) :
    Accounted (start option cores : Endpoint Source) := by
  refine ⟨fun s i => ?_, fun s => rfl, rfl, ?_⟩
  · constructor
    · exact nofun
    · rintro ⟨l, there, -⟩
      exact nomatch there
  · exact (resolveMaxHalfOpen_pos option cores).le

omit [DecidableEq Source] in
theorem Settled.holder (settled : Settled e) (member : m ∈ e.loops) : m.holder = m.inProgress := by
  unfold Loop.holder Loop.inProgress
  rcases settled m member with stage | stage | stage <;> rw [stage] <;> simp [Stage.slotted]

end Invariant

/-- In a run in which no initiator releases what a responder of the same address holds, the
registry counts the responders in progress whenever no loop is between two calls. -/
theorem half_open_exact (option cores : Int) (events : List (Event Source))
    (clear : Along perform Clear events (start option cores))
    (settled : Settled (after events (start option cores))) :
    Exact (after events (start option cores)) := by
  have accounted : Accounted (after events (start option cores)) :=
    invariant_run (fun _ _ clear accounted => accounted.step clear) clear
      (start_accounted option cores)
  have counts : (after events (start option cores)).loops.countP Loop.holder =
      (after events (start option cores)).loops.countP Loop.inProgress :=
    List.countP_congr fun m member => by rw [settled.holder member]
  refine ⟨fun i l there progress => ?_, ?_, ?_⟩
  · refine (accounted.entries l.src i).mpr ⟨l, there, ?_, rfl⟩
    simp only [Loop.inProgress, Bool.decide_and, Bool.and_eq_true, decide_eq_true_eq] at progress
    simp [Loop.owner, progress, Stage.entered]
  · rw [accounted.total, counts]
  · rw [← counts, ← accounted.total]
    exact accounted.ceiling

/-- A dial to one address while a hello of another is answered, with a second hello past the
ceiling. -/
theorem half_open_exact_dial : Exact (after [.hello 0, .act 0 (.register fun _ => some 7), .hello 5,
    .dial 3, .act 1 (.register fun _ => some 9), .act 1 .establish, .act 1 .call, .act 1 .call]
    (start 1 1) : Endpoint Nat) :=
  half_open_exact 1 1 _ (by decide +kernel) (by decide +kernel)

/-- Both endpoints dial each other: the dial takes 7, the peer's hello starts a responder with
index 9, and the dial establishes first. A hello of another address then starts a second one. -/
def simultaneousOpen : List (Event Nat) :=
  [.dial 0, .act 0 (.register fun _ => some 7), .hello 0, .act 1 (.register fun _ => some 9),
    .act 0 .establish, .act 0 .call, .act 0 .call, .hello 5, .act 2 (.register fun _ => some 11)]

/-- The first responder has lost its entry and its slot, and the ceiling of one has let in two. -/
theorem simultaneous_open_miscounts : Settled (after simultaneousOpen (start 1 1)) ∧
    (after simultaneousOpen (start 1 1)).registry.bySource.lookup 0 = none ∧
    (after simultaneousOpen (start 1 1)).registry.halfOpenTotal = 1 ∧
    (after simultaneousOpen (start 1 1)).registry.maxHalfOpen = 1 ∧
    (after simultaneousOpen (start 1 1)).loops.countP Loop.inProgress = 2 ∧
    ¬ Exact (after simultaneousOpen (start 1 1)) := by
  have two : (after simultaneousOpen (start 1 1)).loops.countP Loop.inProgress = 2 := by
    decide +kernel
  have one : (after simultaneousOpen (start 1 1)).registry.maxHalfOpen = 1 := by decide +kernel
  refine ⟨by decide +kernel, by decide +kernel, by decide +kernel, one, two, fun exact => ?_⟩
  have within := exact.ceiling
  rw [two, one] at within
  exact absurd within (by decide)

end QuantumGo.HalfOpen
