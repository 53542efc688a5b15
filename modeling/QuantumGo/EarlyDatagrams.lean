import QuantumGo.DatagramConn
import QuantumGo.Interleaving

/-!
DATA datagrams around the moment when a session is established: routeDatagram up to the
data path, stashEarly, and maybeSurface with flushEarly (pkg/tunnel/datagram.go,
dgram_handshake_wire.go). The session pointer is read and written on its own, the buffer has
its own lock, and a run places those steps in any order. Registry and session stay in place
meanwhile, so a datagram for the index finds the session.
-/

namespace QuantumGo.EarlyDatagrams

open Octets Wire DatagramSession Interleaving
open DatagramConn (datagramMTU)

variable {Byte Addr : Type} [Octet Byte]

def earlyDatagramCap : Nat := 4

structure Datagram (Byte Addr : Type) where
  arrival : Nat
  src : Addr
  data : List Byte

/-- `keyed` is whether the session pointer is set. `handed` went on to the data path,
`dropped` were not held, each with how many were. -/
structure State (Byte Addr : Type) where
  keyed : Bool
  early : List (Datagram Byte Addr)
  earlyDone : Bool
  handed : List (Datagram Byte Addr)
  dropped : List (Datagram Byte Addr × Nat)

inductive Stage where
  | arrived
  /-- With the session of the index, before getSession. -/
  | looked
  /-- getSession gave nothing. -/
  | unkeyed
  /-- stashEarly found the buffer flushed. -/
  | flushed
  | ended
  deriving DecidableEq, Repr

def forIndex (index : UInt32) (data : List Byte) : Bool :=
  match peekDatagramType data, parseDatagramHeader data with
  | .ok frameType, .ok (h, _) => frameType = datagramFrameData ∧ h.recvIndex = index
  | _, _ => false

def hand (d : Datagram Byte Addr) (s : State Byte Addr) : State Byte Addr :=
  { s with handed := s.handed ++ [d] }

def stashEarly (d : Datagram Byte Addr) (s : State Byte Addr) : Stage × State Byte Addr :=
  if s.earlyDone then (.flushed, s)
  else if s.early.length < earlyDatagramCap ∧ d.data.length ≤ datagramMTU then
    (.ended, { s with early := s.early ++ [d] })
  else (.ended, { s with dropped := s.dropped ++ [(d, s.early.length)] })

def advance (index : UInt32) (d : Datagram Byte Addr) :
    Stage → State Byte Addr → Stage × State Byte Addr
  | .arrived, s => (if forIndex index d.data then .looked else .ended, s)
  | .looked, s => if s.keyed then (.ended, hand d s) else (.unkeyed, s)
  | .unkeyed, s => stashEarly d s
  | .flushed, s => if s.keyed then (.ended, hand d s) else (.ended, s)
  | .ended, s => (.ended, s)

/-- The handshake goroutine in maybeSurface: before it, with the session published, in the
loop of flushEarly, and behind it. In the loop it runs routeDatagram itself. -/
inductive Surface (Byte Addr : Type) where
  | waiting
  | published
  | flushing (current : Option (Datagram Byte Addr × Stage)) (rest : List (Datagram Byte Addr))
  | finished

def surface (index : UInt32) :
    Surface Byte Addr → State Byte Addr → Surface Byte Addr × State Byte Addr
  | .waiting, s => (.published, { s with keyed := true })
  | .published, s => (.flushing none s.early, { s with early := [], earlyDone := true })
  | .flushing none [], s => (.finished, s)
  | .flushing none (d :: rest), s => (.flushing (some (d, .arrived)) rest, s)
  | .flushing (some (_, .ended)) rest, s => (.flushing none rest, s)
  | .flushing (some (d, stage)) rest, s =>
    (.flushing (some (d, (advance index d stage s).1)) rest, (advance index d stage s).2)
  | .finished, s => (.finished, s)

structure World (Byte Addr : Type) where
  state : State Byte Addr
  calls : List (Datagram Byte Addr × Stage)
  surface : Surface Byte Addr

inductive Event (Byte Addr : Type) where
  | arrive (src : Addr) (data : List Byte)
  | step (i : Nat)
  | surface

def perform (index : UInt32) (w : World Byte Addr) : Event Byte Addr → World Byte Addr
  | .arrive src data => { w with calls := w.calls ++ [(⟨w.calls.length, src, data⟩, .arrived)] }
  | .step i =>
    match w.calls[i]? with
    | none => w
    | some (d, stage) => { w with
        state := (advance index d stage w.state).2
        calls := w.calls.set i (d, (advance index d stage w.state).1) }
  | .surface => { w with
      surface := (surface index w.surface w.state).1
      state := (surface index w.surface w.state).2 }

def start : World Byte Addr := ⟨⟨false, [], false, [], []⟩, [], .waiting⟩

def Fits (index : UInt32) (_ : World Byte Addr) : Event Byte Addr → Prop
  | .arrive _ data => forIndex index data = true ∧ data.length ≤ datagramMTU
  | _ => True

instance (index : UInt32) (w : World Byte Addr) (e : Event Byte Addr) :
    Decidable (Fits index w e) :=
  match e with
  | .arrive _ data =>
    inferInstanceAs (Decidable (forIndex index data = true ∧ data.length ≤ datagramMTU))
  | .step _ => .isTrue trivial
  | .surface => .isTrue trivial

def Complete (w : World Byte Addr) : Prop :=
  w.surface = .finished ∧ ∀ call ∈ w.calls, call.2 = .ended

/-! One step of a call. -/

def kept (arrival : Nat) (s : State Byte Addr) : Nat :=
  s.early.countP (·.arrival = arrival) + s.handed.countP (·.arrival = arrival) +
    s.dropped.countP (·.1.arrival = arrival)

def busy (arrival : Nat) (call : Datagram Byte Addr × Stage) : Bool :=
  call.1.arrival = arrival ∧ call.2 ≠ .ended

structure Advances (d : Datagram Byte Addr) (stage : Stage) (s : State Byte Addr) (stage' : Stage)
    (s' : State Byte Addr) : Prop where
  balance : ∀ arrival, (if busy arrival (d, stage') then 1 else 0) + kept arrival s' =
    (if busy arrival (d, stage) then 1 else 0) + kept arrival s
  keyed : s'.keyed = s.keyed
  done : s'.earlyDone = s.earlyDone
  early : ∀ other ∈ s'.early, other ∈ s.early ∨ other = d
  handed : ∀ other ∈ s'.handed, other ∈ s.handed ∨ other = d
  dropped : ∀ drop ∈ s'.dropped, drop ∈ s.dropped ∨ drop = (d, earlyDatagramCap)
  small : s'.early.length ≤ earlyDatagramCap
  emptied : s.earlyDone = true → s'.early = s.early
  late : stage' = .flushed → s.earlyDone = true

variable {d : Datagram Byte Addr} {stage : Stage}

section Calls
variable {index : UInt32} {s : State Byte Addr}

omit [Octet Byte] in
theorem Advances.still (small : s.early.length ≤ earlyDatagramCap) {stage' : Stage}
    (same : stage' = .ended ↔ stage = .ended) (late : stage' = .flushed → s.earlyDone = true) :
    Advances d stage s stage' s where
  balance arrival := by
    have stays : busy arrival (d, stage') = busy arrival (d, stage) := by simp [busy, same]
    rw [stays]
  keyed := rfl
  done := rfl
  early _ := .inl
  handed _ := .inl
  dropped _ := .inl
  small := small
  emptied _ := rfl
  late := late

omit [Octet Byte] in
theorem hand_advances (small : s.early.length ≤ earlyDatagramCap) (running : stage ≠ .ended) :
    Advances d stage s .ended (hand d s) where
  balance arrival := by
    simp only [busy, kept, hand, List.countP_append, List.countP_singleton, running, ne_eq,
      not_false_eq_true, and_true, not_true, and_false, decide_false, Bool.false_eq_true, if_false]
    omega
  keyed := rfl
  done := rfl
  early _ := .inl
  handed other member := (List.mem_append.mp member).imp_right List.mem_singleton.mp
  dropped _ := .inl
  small := small
  emptied _ := rfl
  late := by simp

omit [Octet Byte] in
/-- The buffer takes the datagram, or four are held, or it was flushed. -/
theorem stashEarly_advances (small : s.early.length ≤ earlyDatagramCap)
    (short : d.data.length ≤ datagramMTU) :
    Advances d .unkeyed s (stashEarly d s).1 (stashEarly d s).2 := by
  unfold stashEarly
  split
  · rename_i done
    exact .still small (by simp) fun _ => done
  rename_i open'
  split
  · rename_i room
    exact
      { balance := fun arrival => by
          simp only [busy, kept, List.countP_append, List.countP_singleton, ne_eq, reduceCtorEq,
            not_false_eq_true, and_true, not_true, and_false, decide_false, Bool.false_eq_true,
            if_false]
          omega
        keyed := rfl
        done := rfl
        early := fun other member => (List.mem_append.mp member).imp_right List.mem_singleton.mp
        handed := fun _ => .inl
        dropped := fun _ => .inl
        small := by
          simp only [List.length_append, List.length_singleton]
          omega
        emptied := fun done => absurd done open'
        late := by simp }
  · rename_i full
    have four : s.early.length = earlyDatagramCap :=
      le_antisymm small (not_lt.mp fun less => full ⟨less, short⟩)
    exact
      { balance := fun arrival => by
          simp only [busy, kept, List.countP_append, List.countP_singleton, ne_eq, reduceCtorEq,
            not_false_eq_true, and_true, not_true, and_false, decide_false, Bool.false_eq_true,
            if_false]
          omega
        keyed := rfl
        done := rfl
        early := fun _ => .inl
        handed := fun _ => .inl
        dropped := fun drop member => (List.mem_append.mp member).imp_right fun last => by
          rw [List.mem_singleton.mp last, four]
        small := small
        emptied := fun _ => rfl
        late := by simp }

/-- A call whose buffer was flushed finds the session: it was published before. -/
theorem advance_advances (small : s.early.length ≤ earlyDatagramCap)
    (ours : forIndex index d.data = true) (short : d.data.length ≤ datagramMTU)
    (published : stage = .flushed → s.keyed = true) :
    Advances d stage s (advance index d stage s).1 (advance index d stage s).2 := by
  cases stage with
  | arrived =>
    simp only [advance, ours, if_true]
    exact .still small (by simp) (by simp)
  | looked =>
    rw [advance]
    split
    · exact hand_advances small (by simp)
    · exact .still small (by simp) (by simp)
  | unkeyed => exact stashEarly_advances small short
  | flushed =>
    rw [advance, if_pos (published rfl)]
    exact hand_advances small (by simp)
  | ended => exact .still small .rfl (by simp [advance])

end Calls

/-! Runs. -/

def Surface.held (arrival : Nat) : Surface Byte Addr → Nat
  | .flushing none rest => rest.countP (·.arrival = arrival)
  | .flushing (some call) rest =>
    (if busy arrival call then 1 else 0) + rest.countP (·.arrival = arrival)
  | _ => 0

def Surface.datagrams : Surface Byte Addr → List (Datagram Byte Addr)
  | .flushing none rest => rest
  | .flushing (some call) rest => call.1 :: rest
  | _ => []

def Surface.flushed : Surface Byte Addr → Bool
  | .flushing _ _ => true
  | .finished => true
  | _ => false

/-- Every arrived datagram is in one place and is what arrived; the session is published
before the buffer is flushed, and a flushed buffer is empty. -/
structure Sorted (index : UInt32) (w : World Byte Addr) : Prop where
  placed : ∀ arrival, w.calls.countP (busy arrival) + w.surface.held arrival +
    kept arrival w.state =
    if arrival < w.calls.length then 1 else 0
  numbered : ∀ (i : Nat), ∀ call ∈ w.calls[i]?, call.1.arrival = i
  fits : ∀ call ∈ w.calls, forIndex index call.1.data = true ∧ call.1.data.length ≤ datagramMTU
  known : ∀ d, d ∈ w.state.early ∨ d ∈ w.state.handed ∨ d ∈ w.surface.datagrams →
    ∃ stage, (d, stage) ∈ w.calls
  small : w.state.early.length ≤ earlyDatagramCap
  full : ∀ drop ∈ w.state.dropped, drop.2 = earlyDatagramCap
  published : w.surface ≠ .waiting ∨ w.state.earlyDone = true → w.state.keyed = true
  emptied : w.state.earlyDone = true → w.state.early = []
  late : ∀ call ∈ w.calls, call.2 = .flushed → w.state.earlyDone = true
  flushed : w.surface.flushed = true → w.state.earlyDone = true

variable {events : List (Event Byte Addr)}

section Runs
variable {index : UInt32} {w : World Byte Addr}

omit [Octet Byte] in
theorem mem_calls_replaced {i : Nat} (found : w.calls[i]? = some (d, stage)) (stage' : Stage)
    {other : Datagram Byte Addr} (present : ∃ point, (other, point) ∈ w.calls) :
    ∃ point, (other, point) ∈ w.calls.set i (d, stage') := by
  obtain ⟨point, member⟩ := present
  rcases mem_replaced found (d, stage') member with same | stays
  · cases same
    exact ⟨stage', mem_replacement found⟩
  · exact ⟨point, stays⟩

theorem Sorted.start : Sorted index (start : World Byte Addr) where
  placed _ := rfl
  numbered := by simp [EarlyDatagrams.start]
  fits := by simp [EarlyDatagrams.start]
  known := by simp [EarlyDatagrams.start, Surface.datagrams]
  small := Nat.zero_le _
  full := by simp [EarlyDatagrams.start]
  published := by simp [EarlyDatagrams.start]
  emptied _ := rfl
  late := by simp [EarlyDatagrams.start]
  flushed := by simp [EarlyDatagrams.start, Surface.flushed]

section Sorting
variable (sorted : Sorted index w)
include sorted

theorem Sorted.arrive (src : Addr) {data : List Byte} (ours : forIndex index data = true)
    (short : data.length ≤ datagramMTU) :
    Sorted index (perform index w (.arrive src data)) where
  placed arrival := by
    have before := sorted.placed arrival
    simp only [perform, List.countP_append, List.countP_singleton, busy, List.length_append,
      List.length_singleton, ne_eq, reduceCtorEq, not_false_eq_true, and_true, decide_eq_true_eq]
    split at before <;> split <;> split <;> omega
  numbered i call there := by
    rcases (getElem?_added i call).mp there with before | ⟨rfl, rfl⟩
    · exact sorted.numbered i call before
    · rfl
  fits := forall_added sorted.fits ⟨ours, short⟩
  known d place := by
    obtain ⟨stage, member⟩ := sorted.known d place
    exact ⟨stage, List.mem_append_left _ member⟩
  small := sorted.small
  full := sorted.full
  published := sorted.published
  emptied := sorted.emptied
  late := forall_added sorted.late nofun
  flushed := sorted.flushed

theorem Sorted.step (i : Nat) : Sorted index (perform index w (.step i)) := by
  rw [perform]
  cases found : w.calls[i]? with
  | none => exact sorted
  | some call =>
    obtain ⟨d, stage⟩ := call
    have listed := List.mem_of_getElem? found
    obtain ⟨ours, short⟩ : forIndex index d.data = true ∧ d.data.length ≤ datagramMTU :=
      sorted.fits _ listed
    have advances : Advances d stage w.state (advance index d stage w.state).1
        (advance index d stage w.state).2 :=
      advance_advances sorted.small ours short fun flushed =>
        sorted.published (.inr (sorted.late _ listed flushed))
    exact
      { placed := fun arrival => by
          have before := sorted.placed arrival
          have balance := advances.balance arrival
          have replaced := countP_replaced found (busy arrival)
            (d, (advance index d stage w.state).1)
          simp only [List.length_set]
          omega
        numbered := fun j other there => by
          rcases (getElem?_replaced found j other).mp there with ⟨rfl, rfl⟩ | ⟨_, before⟩
          · exact sorted.numbered j (d, stage) found
          · exact sorted.numbered j other before
        fits := fun other member => by
          rcases List.mem_or_eq_of_mem_set member with before | rfl
          · exact sorted.fits other before
          · exact ⟨ours, short⟩
        known := fun other place => by
          refine mem_calls_replaced found _ ?_
          rcases place with early | handed | nested
          · rcases advances.early other early with before | rfl
            · exact sorted.known other (.inl before)
            · exact ⟨stage, listed⟩
          · rcases advances.handed other handed with before | rfl
            · exact sorted.known other (.inr (.inl before))
            · exact ⟨stage, listed⟩
          · exact sorted.known other (.inr (.inr nested))
        small := advances.small
        full := fun drop member => by
          rcases advances.dropped drop member with before | rfl
          · exact sorted.full drop before
          · rfl
        published := fun either => by
          rw [advances.keyed]
          exact sorted.published (either.imp_right fun done => advances.done ▸ done)
        emptied := fun done => by
          rw [advances.done] at done
          rw [advances.emptied done, sorted.emptied done]
        late := fun other member flushed => by
          rw [advances.done]
          rcases List.mem_or_eq_of_mem_set member with before | rfl
          · exact sorted.late other before flushed
          · exact advances.late flushed
        flushed := fun taken => by
          rw [advances.done]
          exact sorted.flushed taken }

theorem Sorted.goes {next : Surface Byte Addr}
    (held : ∀ arrival, next.held arrival = w.surface.held arrival)
    (datagrams : ∀ d ∈ next.datagrams, d ∈ w.surface.datagrams) (begun : w.surface ≠ .waiting)
    (taken : w.surface.flushed = true) : Sorted index { w with surface := next } :=
  { sorted with
    placed := fun arrival => by
      rw [held]
      exact sorted.placed arrival
    known := fun d place => sorted.known d (place.imp_right (Or.imp_right (datagrams d)))
    published := fun _ => sorted.published (.inl begun)
    flushed := fun _ => sorted.flushed taken }

theorem Sorted.flush (published : w.surface = .published) : Sorted index { w with
      surface := .flushing none w.state.early
      state := { w.state with early := [], earlyDone := true } } where
  placed arrival := by
    have before := sorted.placed arrival
    rw [published] at before
    simp only [Surface.held, kept, List.countP_nil] at before ⊢
    omega
  numbered := sorted.numbered
  fits := sorted.fits
  known d place := by
    refine sorted.known d ?_
    rcases place with none | handed | taken
    · cases none
    · exact .inr (.inl handed)
    · exact .inl taken
  small := Nat.zero_le _
  full := sorted.full
  published _ := sorted.published (.inl (by simp [published]))
  emptied _ := rfl
  late _ _ _ := rfl
  flushed _ := rfl

theorem Sorted.replay {rest : List (Datagram Byte Addr)}
    (flushing : w.surface = .flushing (some (d, stage)) rest) :
    Sorted index { w with
      surface := .flushing (some (d, (advance index d stage w.state).1)) rest
      state := (advance index d stage w.state).2 } := by
  have mine : d ∈ w.surface.datagrams := by
    rw [flushing]
    exact List.mem_cons_self
  obtain ⟨point, listed⟩ := sorted.known d (.inr (.inr mine))
  obtain ⟨ours, short⟩ : forIndex index d.data = true ∧ d.data.length ≤ datagramMTU :=
    sorted.fits _ listed
  have keyed : w.state.keyed = true := sorted.published (.inl (by simp [flushing]))
  have advances : Advances d stage w.state (advance index d stage w.state).1
      (advance index d stage w.state).2 :=
    advance_advances sorted.small ours short fun _ => keyed
  exact
    { placed := fun arrival => by
        have before := sorted.placed arrival
        have balance := advances.balance arrival
        rw [flushing] at before
        simp only [Surface.held] at before ⊢
        omega
      numbered := sorted.numbered
      fits := sorted.fits
      known := fun other place => by
        rcases place with early | handed | nested
        · rcases advances.early other early with before | rfl
          · exact sorted.known other (.inl before)
          · exact ⟨point, listed⟩
        · rcases advances.handed other handed with before | rfl
          · exact sorted.known other (.inr (.inl before))
          · exact ⟨point, listed⟩
        · refine sorted.known other (.inr (.inr ?_))
          rw [flushing]
          exact nested
      small := advances.small
      full := fun drop member => by
        rcases advances.dropped drop member with before | rfl
        · exact sorted.full drop before
        · rfl
      published := fun _ => by rw [advances.keyed, keyed]
      emptied := fun done => by
        rw [advances.done] at done
        rw [advances.emptied done, sorted.emptied done]
      late := fun other member flushed => by
        rw [advances.done]
        exact sorted.late other member flushed
      flushed := fun _ => by
        rw [advances.done]
        exact sorted.flushed (by rw [flushing]; rfl) }

theorem Sorted.surface : Sorted index (perform index w .surface) := by
  rw [perform]
  cases at' : w.surface with
  | waiting =>
    exact { sorted with
      placed := fun arrival => by
        have before := sorted.placed arrival
        rw [at'] at before
        exact before
      known := fun d place => sorted.known d (by rw [at']; exact place)
      published := fun _ => rfl
      flushed := by simp [EarlyDatagrams.surface, Surface.flushed] }
  | published => exact sorted.flush at'
  | finished =>
    have same : { w with surface := Surface.finished } = w := by rw [← at']
    rw [EarlyDatagrams.surface, same]
    exact sorted
  | flushing current rest =>
    cases current with
    | none =>
      cases rest with
      | nil =>
        exact sorted.goes (by simp [at', EarlyDatagrams.surface, Surface.held])
          (by simp [EarlyDatagrams.surface, Surface.datagrams]) (by simp [at'])
          (by simp [at', Surface.flushed])
      | cons d rest =>
        refine sorted.goes (fun arrival => ?_) ?_ (by simp [at']) (by simp [at', Surface.flushed])
        · simp only [at', EarlyDatagrams.surface, Surface.held, List.countP_cons, busy, ne_eq,
            reduceCtorEq, not_false_eq_true, and_true]
          omega
        · simp [at', EarlyDatagrams.surface, Surface.datagrams]
    | some call =>
      obtain ⟨d, stage⟩ := call
      by_cases ended' : stage = .ended
      · subst ended'
        refine sorted.goes (fun arrival => ?_) ?_ (by simp [at']) (by simp [at', Surface.flushed])
        · simp [at', EarlyDatagrams.surface, Surface.held, busy]
        · intro other member
          rw [at']
          exact List.mem_cons_of_mem d member
      · have moved : EarlyDatagrams.surface index (.flushing (some (d, stage)) rest) w.state =
            (.flushing (some (d, (advance index d stage w.state).1)) rest,
              (advance index d stage w.state).2) := by
          cases stage with
          | ended => exact absurd rfl ended'
          | _ => rfl
        rw [moved]
        exact sorted.replay at'

theorem Sorted.perform (e : Event Byte Addr) (fits : Fits index w e) :
    Sorted index (EarlyDatagrams.perform index w e) := by
  cases e with
  | arrive src data => exact sorted.arrive src fits.1 fits.2
  | step i => exact sorted.step i
  | surface => exact sorted.surface

end Sorting

theorem sorted_run (fits : Along (perform index) (Fits index) events start) :
    Sorted index (run (perform index) events start) :=
  invariant_run (fun _ e fits sorted => sorted.perform e fits) fits .start

/-- However the calls of routeDatagram and maybeSurface interleave: no datagram is handed on
twice, what is handed on is what a call received, a flushed buffer stays empty, and when all
have ended every datagram was handed on or came while four were held. -/
theorem early_once (index : UInt32) (events : List (Event Byte Addr))
    (fits : Along (perform index) (Fits index) events start) :
    let w := run (perform index) events start
    (∀ arrival, w.state.handed.countP (·.arrival = arrival) ≤ 1) ∧
    (∀ d ∈ w.state.handed, ∃ stage, w.calls[d.arrival]? = some (d, stage)) ∧
    (w.state.earlyDone = true → w.state.early = []) ∧
    (Complete w → w.state.early = [] ∧ ∀ arrival < w.calls.length,
      w.state.handed.countP (·.arrival = arrival) = 1 ∨
        w.state.handed.countP (·.arrival = arrival) = 0 ∧
          ∃ drop ∈ w.state.dropped, drop.1.arrival = arrival ∧ drop.2 = earlyDatagramCap) := by
  intro w
  have sorted : Sorted index w := sorted_run fits
  refine ⟨fun arrival => ?_, fun d member => ?_, sorted.emptied, fun complete => ?_⟩
  · have placed := sorted.placed arrival
    simp only [kept] at placed
    split at placed <;> omega
  · obtain ⟨stage, listed⟩ := sorted.known d (.inr (.inl member))
    obtain ⟨i, there⟩ := List.getElem?_of_mem listed
    have same : d.arrival = i := sorted.numbered i _ there
    exact ⟨stage, same ▸ there⟩
  · have empty := sorted.emptied (sorted.flushed (by rw [complete.1]; rfl))
    refine ⟨empty, fun arrival inside => ?_⟩
    have placed := sorted.placed arrival
    have none : w.calls.countP (busy arrival) = 0 := by
      rw [List.countP_eq_zero]
      intro call member
      simp [busy, complete.2 call member]
    rw [none, complete.1, if_pos inside] at placed
    simp only [Surface.held, kept, empty, List.countP_nil] at placed
    rcases Nat.eq_zero_or_pos (w.state.dropped.countP (·.1.arrival = arrival)) with never | some
    · exact .inl (by omega)
    · obtain ⟨drop, member, same⟩ := List.countP_pos_iff.mp some
      exact .inr ⟨by omega, drop, member, by simpa using same, sorted.full drop member⟩

end Runs

def sample : List UInt8 := encodeDatagramHeader ⟨datagramFrameData, 0, 1, 0⟩

def raced : List (Event UInt8 Unit) :=
  [.arrive () sample, .step 0, .step 0, .step 0, .arrive () sample, .step 1, .step 1, .surface,
    .surface, .step 1, .step 1, .surface, .surface, .surface, .surface, .surface]

theorem early_once_raced : Complete (run (perform 1) raced start) ∧
    ∀ arrival < 2, (run (perform 1) raced start).state.handed.countP (·.arrival = arrival) = 1 ∨
      (run (perform 1) raced start).state.handed.countP (·.arrival = arrival) = 0 ∧
        ∃ drop ∈ (run (perform 1) raced start).state.dropped,
          drop.1.arrival = arrival ∧ drop.2 = earlyDatagramCap := by
  have fits : Along (perform 1) (Fits 1) raced start := by decide +kernel
  have complete : Complete (run (perform 1) raced start) := by
    refine ⟨rfl, ?_⟩
    decide +kernel
  exact ⟨complete, ((early_once 1 raced fits).2.2.2 complete).2⟩

end QuantumGo.EarlyDatagrams
