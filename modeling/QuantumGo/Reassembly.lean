import QuantumGo.HandshakeFrames
import QuantumGo.Registry

/-!
The Reassembler of pkg/tunnel/reassembly.go. Its maps are tables, the coverage bitset is a
list with a flag for each byte. A call of Add reads the clock for the timeouts and again for a
new buffer. Which of several oldest buffers an eviction meets depends on the order in which Go
walks the map; it is a choice of the call.
-/

namespace QuantumGo.Reassembly

open Octets HandshakeFrames Tables

def datagramMaxConcurrentReassembly : Nat := 4
def datagramReassemblyTimeout : Int := 10 * 10 ^ 9

structure ReasmKey where
  sender : UInt32
  msg : UInt8
  deriving DecidableEq, Repr

structure FragmentBuffer (Byte : Type) where
  total : Nat
  buf : List Byte
  covered : List Bool
  coveredN : Nat
  createdAt : Int

structure Reassembler (Byte Source : Type) where
  bySource : Table Source (Table ReasmKey (FragmentBuffer Byte))
  maxSources : Nat
  maxConcurrentPerSource : Nat
  maxMessageSize : Nat
  timeout : Int

/-- What a call of Add meets outside: two clock readings and an eviction order. -/
structure Meeting where
  expiry : Int
  creation : Int
  pick : ReasmKey

inductive Refusal where
  | messageTooLarge
  | invalidMessage
  | reassemblerFull
  deriving DecidableEq, Repr

variable {Byte Source : Type}

/-- Arguments that are not positive stand for the defaults. -/
def newReassembler (maxConcurrentPerSource maxMessageSize timeout : Int) :
    Reassembler Byte Source where
  bySource := ∅
  maxSources := Registry.datagramMaxHalfOpenFloor
  maxConcurrentPerSource :=
    if maxConcurrentPerSource ≤ 0 then datagramMaxConcurrentReassembly
    else maxConcurrentPerSource.toNat
  maxMessageSize :=
    if maxMessageSize ≤ 0 then datagramMaxHandshakeMessageSize else maxMessageSize.toNat
  timeout := if timeout ≤ 0 then datagramReassemblyTimeout else timeout

/-! Buffers. -/

def newBuffer [Octet Byte] (total : Nat) (now : Int) : FragmentBuffer Byte :=
  ⟨total, List.replicate total (lit 0), List.replicate total false, 0, now⟩

def cover : Nat → Nat → List Bool × Nat → List Bool × Nat
  | 0, _, c => c
  | n + 1, i, (covered, coveredN) =>
    cover n (i + 1) (if covered[i]? = some false then (covered.set i true, coveredN + 1)
      else (covered, coveredN))

def FragmentBuffer.fill (fb : FragmentBuffer Byte) (off : Nat) (fragment : List Byte) :
    FragmentBuffer Byte :=
  let (covered, coveredN) := cover fragment.length off (fb.covered, fb.coveredN)
  { fb with
    buf := fb.buf.take off ++ fragment ++ fb.buf.drop (off + fragment.length), covered, coveredN }

/-! Eviction. -/

def evictExpired (now : Int) (r : Reassembler Byte Source) : Reassembler Byte Source :=
  { r with
    bySource := sweep (fun _ bufs =>
      let kept := sweep (fun _ fb => if fb.createdAt < now - r.timeout then none else some fb) bufs
      if kept.entries.isEmpty then none else some kept) r.bySource }

def oldest (bufs : Table ReasmKey (FragmentBuffer Byte)) : List ReasmKey :=
  (bufs.entries.filter fun e => bufs.entries.all fun e' => e.2.createdAt ≤ e'.2.createdAt).map (·.1)

def evictOldest (pick : ReasmKey) (bufs : Table ReasmKey (FragmentBuffer Byte)) :
    Table ReasmKey (FragmentBuffer Byte) :=
  if pick ∈ oldest bufs then bufs.erase pick
  else
    match (oldest bufs).head? with
    | some key => bufs.erase key
    | none => bufs

def sourceCount (r : Reassembler Byte Source) : Nat := size r.bySource

/-! Add. -/

section Add
variable [DecidableEq Source]

def finish (source : Source) (key : ReasmKey) (bufs : Table ReasmKey (FragmentBuffer Byte))
    (fb : FragmentBuffer Byte) (r : Reassembler Byte Source) :
    Except Refusal (Option (List Byte)) × Reassembler Byte Source :=
  if fb.coveredN < fb.total then
    (.ok none, { r with bySource := r.bySource.insert source (bufs.insert key fb) })
  else
    let rest := bufs.erase key
    (.ok (some fb.buf), { r with
      bySource := if rest.entries.isEmpty then r.bySource.erase source
        else r.bySource.insert source rest })

def addTo [Octet Byte] (meeting : Meeting) (source : Source) (h : DatagramHandshakeHeader Byte)
    (fragment : List Byte) (bufs : Table ReasmKey (FragmentBuffer Byte))
    (r : Reassembler Byte Source) : Except Refusal (Option (List Byte)) × Reassembler Byte Source :=
  let key : ReasmKey := ⟨h.senderIndex, h.msgType⟩
  match bufs.lookup key with
  | none =>
    let bufs := if size bufs ≥ r.maxConcurrentPerSource then evictOldest meeting.pick bufs else bufs
    let fb := newBuffer h.totalLength.toNat meeting.creation
    finish source key bufs (fb.fill h.fragOffset.toNat fragment) r
  | some fb =>
    if fb.total ≠ h.totalLength.toNat then (.error .invalidMessage, r)
    else finish source key bufs (fb.fill h.fragOffset.toNat fragment) r

def add [Octet Byte] (meeting : Meeting) (source : Source) (h : DatagramHandshakeHeader Byte)
    (fragment : List Byte) (r : Reassembler Byte Source) :
    Except Refusal (Option (List Byte)) × Reassembler Byte Source :=
  let total := h.totalLength.toNat
  if total = 0 ∨ total > r.maxMessageSize then (.error .messageTooLarge, r)
  else if h.fragOffset.toNat + h.fragLength.toNat > total ∨
      h.fragLength.toNat ≠ fragment.length then (.error .invalidMessage, r)
  else
    let r := evictExpired meeting.expiry r
    match r.bySource.lookup source with
    | none =>
      if size r.bySource ≥ r.maxSources then (.error .reassemblerFull, r)
      else addTo meeting source h fragment ∅ r
    | some bufs => addTo meeting source h fragment bufs r

def drop (source : Source) (r : Reassembler Byte Source) : Reassembler Byte Source :=
  { r with bySource := r.bySource.erase source }

end Add

/-! What a buffer covers. -/

structure FragmentBuffer.Counted (fb : FragmentBuffer Byte) : Prop where
  bytes : fb.buf.length = fb.total
  flags : fb.covered.length = fb.total
  count : fb.coveredN = fb.covered.count true

theorem cover_length (n i : Nat) (c : List Bool × Nat) : (cover n i c).1.length = c.1.length := by
  induction n generalizing i c with
  | zero => rfl
  | succ n ih =>
    obtain ⟨covered, coveredN⟩ := c
    rw [cover, ih]
    split <;> simp

theorem cover_get (n i : Nat) (c : List Bool × Nat) {j : Nat} (inside : j < c.1.length) :
    (cover n i c).1[j]? = some true ↔ c.1[j]? = some true ∨ i ≤ j ∧ j < i + n := by
  induction n generalizing i c with
  | zero => simp [cover]
  | succ n ih =>
    obtain ⟨covered, coveredN⟩ := c
    rw [cover, ih _ _ (by split <;> simpa using inside)]
    dsimp only at inside ⊢
    by_cases here : i = j
    · subst here
      have flag : covered[i]? = some covered[i] := List.getElem?_eq_getElem inside
      cases value : covered[i] with
      | false => simp [value, inside]
      | true => simp [flag, value]
    · have same : (if covered[i]? = some false then (covered.set i true, coveredN + 1)
          else (covered, coveredN)).1[j]? = covered[j]? := by
        split
        · simp [List.getElem?_set_ne here]
        · rfl
      rw [same]
      have : (i + 1 ≤ j ∧ j < i + 1 + n) ↔ (i ≤ j ∧ j < i + (n + 1)) := by omega
      rw [this]

theorem cover_count (n i : Nat) (c : List Bool × Nat) (counted : c.2 = c.1.count true) :
    (cover n i c).2 = (cover n i c).1.count true := by
  induction n generalizing i c with
  | zero => exact counted
  | succ n ih =>
    obtain ⟨covered, coveredN⟩ := c
    rw [cover]
    apply ih
    split
    · rename_i unset
      obtain ⟨inside, clear⟩ := List.getElem?_eq_some_iff.mp unset
      dsimp only at counted ⊢
      rw [List.count_set inside, counted]
      simp [clear]
    · exact counted

theorem newBuffer_counted [Octet Byte] (total : Nat) (now : Int) :
    (newBuffer total now : FragmentBuffer Byte).Counted :=
  ⟨by simp [newBuffer], by simp [newBuffer], by simp [newBuffer, List.count_replicate]⟩

variable {fb : FragmentBuffer Byte}

section Fill
variable {off : Nat} {fragment : List Byte}

theorem FragmentBuffer.Counted.fill (counted : fb.Counted)
    (inside : off + fragment.length ≤ fb.total) : (fb.fill off fragment).Counted := by
  refine ⟨?_, ?_, ?_⟩
  · have := counted.bytes
    simp only [FragmentBuffer.fill, List.length_append, List.length_take, List.length_drop]
    omega
  · exact (cover_length _ _ _).trans counted.flags
  · exact cover_count _ _ _ counted.count

theorem fill_covered {j : Nat} (counted : fb.Counted) (here : j < fb.total) :
    (fb.fill off fragment).covered[j]? = some true ↔
      fb.covered[j]? = some true ∨ off ≤ j ∧ j < off + fragment.length :=
  cover_get _ _ _ (counted.flags ▸ here)

/-- A byte is the fragment's where it covers it, and else what it was. -/
theorem fill_buf {j : Nat} (counted : fb.Counted) (inside : off + fragment.length ≤ fb.total) :
    (fb.fill off fragment).buf[j]? =
      if off ≤ j ∧ j < off + fragment.length then fragment[j - off]? else fb.buf[j]? := by
  have length := counted.bytes
  have start : (fb.buf.take off).length = off := by
    rw [List.length_take]
    omega
  simp only [FragmentBuffer.fill, List.append_assoc]
  by_cases before : j < off
  · rw [List.getElem?_append_left (by omega), if_neg (by omega), List.getElem?_take_of_lt before]
  · rw [List.getElem?_append_right (by omega), start]
    by_cases within : j < off + fragment.length
    · rw [List.getElem?_append_left (by omega), if_pos (by omega)]
    · rw [List.getElem?_append_right (by omega), List.getElem?_drop, if_neg (by omega)]
      congr 1
      omega

theorem FragmentBuffer.Counted.complete_iff (counted : fb.Counted) :
    ¬ fb.coveredN < fb.total ↔ ∀ j < fb.total, fb.covered[j]? = some true := by
  have bound : fb.covered.count true ≤ fb.total := counted.flags ▸ List.count_le_length
  rw [counted.count, not_lt]
  constructor
  · intro full j inside
    have all : fb.covered.count true = fb.covered.length := by
      rw [counted.flags]
      omega
    have flag := List.count_eq_length.mp all
    rw [← counted.flags] at inside
    rw [List.getElem?_eq_getElem inside, flag _ (List.getElem_mem inside)]
  · intro all
    have every : ∀ flag ∈ fb.covered, true = flag := by
      intro flag member
      obtain ⟨j, inside, rfl⟩ := List.getElem_of_mem member
      have := all j (counted.flags ▸ inside)
      rw [List.getElem?_eq_getElem inside] at this
      exact (Option.some.inj this).symm
    rw [List.count_eq_length.mpr every, counted.flags]

end Fill

variable {bufs : Table ReasmKey (FragmentBuffer Byte)} {fb' : FragmentBuffer Byte}

/-! What a call does to the buffers. -/

section Calls
variable [DecidableEq Source] {r r' : Reassembler Byte Source} {source s : Source}
  {key k : ReasmKey}

def Reassembler.Holds (r : Reassembler Byte Source) (source : Source) (key : ReasmKey)
    (fb : FragmentBuffer Byte) : Prop :=
  ∃ bufs, r.bySource.lookup source = some bufs ∧ bufs.lookup key = some fb

theorem evictExpired_holds (now : Int) : (evictExpired now r).Holds source key fb ↔
      r.Holds source key fb ∧ ¬ fb.createdAt < now - r.timeout := by
  unfold Reassembler.Holds evictExpired
  simp only [lookup_sweep, Option.bind_eq_some_iff]
  constructor
  · rintro ⟨kept, ⟨bufs, here, swept⟩, held⟩
    split at swept
    · cases swept
    · obtain rfl := Option.some.inj swept
      rw [lookup_sweep, Option.bind_eq_some_iff] at held
      obtain ⟨old, held, young⟩ := held
      split at young
      · cases young
      · rename_i alive
        obtain rfl := Option.some.inj young
        exact ⟨⟨bufs, here, held⟩, alive⟩
  · rintro ⟨⟨bufs, here, held⟩, alive⟩
    have kept : (sweep (fun _ (fb : FragmentBuffer Byte) =>
        if fb.createdAt < now - r.timeout then none else some fb) bufs).lookup key = some fb := by
      rw [lookup_sweep, held]
      simp [alive]
    refine ⟨_, ⟨bufs, here, if_neg fun empty => ?_⟩, kept⟩
    rw [lookup_of_isEmpty empty] at kept
    cases kept

theorem evictOldest_lookup {pick : ReasmKey}
    (held : (evictOldest pick bufs).lookup k = some fb) : bufs.lookup k = some fb := by
  have erased {key : ReasmKey} (held : (bufs.erase key).lookup k = some fb) :
      bufs.lookup k = some fb := by
    by_cases same : k = key
    · subst same
      rw [AList.lookup_erase] at held
      cases held
    · rwa [AList.lookup_erase_ne same] at held
  unfold evictOldest at held
  split at held
  · exact erased held
  · split at held
    · exact erased held
    · exact held

/-- A call of Add refuses a fragment, or puts it into the buffer of its key, an old one or a new
one, and hands the buffer over when it is complete. -/
inductive Adds [Octet Byte] (meeting : Meeting) (source : Source) (h : DatagramHandshakeHeader Byte)
    (fragment : List Byte) (r : Reassembler Byte Source) :
    Except Refusal (Option (List Byte)) → Reassembler Byte Source → Prop
  | refused (refusal : Refusal) (r' : Reassembler Byte Source)
      (kept : ∀ s k fb, r'.Holds s k fb → r.Holds s k fb) :
      Adds meeting source h fragment r (.error refusal) r'
  | waits (fb : FragmentBuffer Byte) (r' : Reassembler Byte Source)
      (origin : r.Holds source ⟨h.senderIndex, h.msgType⟩ fb ∧ fb.total = h.totalLength.toNat ∨
        fb = newBuffer h.totalLength.toNat meeting.creation)
      (inside : h.fragOffset.toNat + fragment.length ≤ h.totalLength.toNat)
      (lacking : (fb.fill h.fragOffset.toNat fragment).coveredN < h.totalLength.toNat)
      (kept : ∀ s k fb', r'.Holds s k fb' → r.Holds s k fb' ∨ s = source ∧
        k = ⟨h.senderIndex, h.msgType⟩ ∧ fb' = fb.fill h.fragOffset.toNat fragment) :
      Adds meeting source h fragment r (.ok none) r'
  | completes (fb : FragmentBuffer Byte) (r' : Reassembler Byte Source)
      (origin : r.Holds source ⟨h.senderIndex, h.msgType⟩ fb ∧ fb.total = h.totalLength.toNat ∨
        fb = newBuffer h.totalLength.toNat meeting.creation)
      (inside : h.fragOffset.toNat + fragment.length ≤ h.totalLength.toNat)
      (full : ¬ (fb.fill h.fragOffset.toNat fragment).coveredN < h.totalLength.toNat)
      (kept : ∀ s k fb', r'.Holds s k fb' → r.Holds s k fb') :
      Adds meeting source h fragment r (.ok (some (fb.fill h.fragOffset.toNat fragment).buf)) r'

theorem finish_elsewhere (other : s ≠ source) :
    (finish source key bufs fb r).2.bySource.lookup s = r.bySource.lookup s := by
  unfold finish
  split
  · exact AList.lookup_insert_ne other
  · dsimp only
    split
    · exact AList.lookup_erase_ne other
    · exact AList.lookup_insert_ne other

theorem finish_bounds :
    (finish source key bufs fb r).2.maxConcurrentPerSource = r.maxConcurrentPerSource ∧
    (finish source key bufs fb r).2.maxSources = r.maxSources ∧
    (finish source key bufs fb r).2.maxMessageSize = r.maxMessageSize ∧
    (finish source key bufs fb r).2.timeout = r.timeout := by
  unfold finish
  split <;> exact ⟨rfl, rfl, rfl, rfl⟩

theorem finish_outcome :
    (finish source key bufs fb r).1 =
      .ok (if fb.coveredN < fb.total then none else some fb.buf) := by
  unfold finish
  split <;> rfl

/-- The buffers of the source after a call: the one filled is among them as long as it lacks a
byte. -/
theorem finish_holds (held : (finish source key bufs fb r).2.Holds s k fb') :
    s ≠ source ∧ r.Holds s k fb' ∨ s = source ∧ (k ≠ key ∧ bufs.lookup k = some fb' ∨
      k = key ∧ fb' = fb ∧ fb.coveredN < fb.total) := by
  obtain ⟨bufs', here, held⟩ := held
  by_cases same : s = source
  · subst same
    refine .inr ⟨rfl, ?_⟩
    by_cases mine : k = key
    · subst mine
      refine .inr ⟨rfl, ?_⟩
      unfold finish at here
      split at here
      · rename_i lacking
        obtain rfl : bufs.insert k fb = bufs' := by simpa using here
        exact ⟨by simpa using held.symm, lacking⟩
      · dsimp only at here
        split at here
        · simp at here
        · obtain rfl : bufs.erase k = bufs' := by simpa using here
          simp at held
    · refine .inl ⟨mine, ?_⟩
      unfold finish at here
      split at here
      · obtain rfl : bufs.insert key fb = bufs' := by simpa using here
        rwa [AList.lookup_insert_ne mine] at held
      · dsimp only at here
        split at here
        · simp at here
        · obtain rfl : bufs.erase key = bufs' := by simpa using here
          rwa [AList.lookup_erase_ne mine] at held
  · rw [finish_elsewhere same] at here
    exact .inl ⟨same, bufs', here, held⟩

structure Admissible (r : Reassembler Byte Source) (h : DatagramHandshakeHeader Byte)
    (fragment : List Byte) : Prop where
  nonzero : h.totalLength.toNat ≠ 0
  small : h.totalLength.toNat ≤ r.maxMessageSize
  inside : h.fragOffset.toNat + h.fragLength.toNat ≤ h.totalLength.toNat
  length : h.fragLength.toNat = fragment.length

variable [Octet Byte] {h : DatagramHandshakeHeader Byte} {fragment : List Byte}

theorem Admissible.add_eq (admissible : Admissible r h fragment) (meeting : Meeting) :
    add meeting source h fragment r =
      match (evictExpired meeting.expiry r).bySource.lookup source with
      | none =>
        if size (evictExpired meeting.expiry r).bySource ≥ r.maxSources then
          (.error .reassemblerFull, evictExpired meeting.expiry r)
        else addTo meeting source h fragment ∅ (evictExpired meeting.expiry r)
      | some bufs => addTo meeting source h fragment bufs (evictExpired meeting.expiry r) := by
  have := admissible.small
  have := admissible.inside
  unfold add
  dsimp only
  rw [if_neg (not_or.mpr ⟨admissible.nonzero, by omega⟩),
    if_neg (not_or.mpr ⟨by omega, not_not.mpr admissible.length⟩)]
  rfl

inductive Takes (meeting : Meeting) (source : Source) (key : ReasmKey) (total : Nat)
    (r : Reassembler Byte Source) :
    Table ReasmKey (FragmentBuffer Byte) → FragmentBuffer Byte → Prop
  | held (bufs : Table ReasmKey (FragmentBuffer Byte)) (fb : FragmentBuffer Byte)
      (here : r.bySource.lookup source = some bufs) (found : bufs.lookup key = some fb)
      (sized : fb.total = total) : Takes meeting source key total r bufs fb
  | created (bufs : Table ReasmKey (FragmentBuffer Byte))
      (own : r.bySource.lookup source = some bufs ∨
        r.bySource.lookup source = none ∧ bufs = ∅ ∧ size r.bySource < r.maxSources)
      (absent : bufs.lookup key = none) :
      Takes meeting source key total r
        (if size bufs ≥ r.maxConcurrentPerSource then evictOldest meeting.pick bufs else bufs)
        (newBuffer total meeting.creation)

theorem addTo_takes (meeting : Meeting) (h : DatagramHandshakeHeader Byte)
    (fragment : List Byte) (own : r.bySource.lookup source = some bufs ∨
      r.bySource.lookup source = none ∧ bufs = ∅ ∧ size r.bySource < r.maxSources) :
    addTo meeting source h fragment bufs r = (.error .invalidMessage, r) ∨
    ∃ bufs' fb, Takes meeting source ⟨h.senderIndex, h.msgType⟩ h.totalLength.toNat r bufs' fb ∧
      addTo meeting source h fragment bufs r = finish source ⟨h.senderIndex, h.msgType⟩ bufs'
        (fb.fill h.fragOffset.toNat fragment) r := by
  unfold addTo
  dsimp only
  split
  · rename_i absent
    exact .inr ⟨_, _, .created bufs own absent, rfl⟩
  · rename_i fb found
    split
    · exact .inl rfl
    · rename_i sized
      rcases own with here | ⟨-, rfl, -⟩
      · exact .inr ⟨bufs, fb, .held bufs fb here found (not_ne_iff.mp sized), rfl⟩
      · simp at found

/-- A call of Add refuses a fragment, at most with an eviction, or finishes a buffer with it. -/
theorem add_cases (meeting : Meeting) (source : Source) (h : DatagramHandshakeHeader Byte)
    (fragment : List Byte) (r : Reassembler Byte Source) :
    (∃ refusal r', add meeting source h fragment r = (.error refusal, r') ∧
      (r' = r ∨ r' = evictExpired meeting.expiry r)) ∨
    Admissible r h fragment ∧ ∃ bufs fb,
      Takes meeting source ⟨h.senderIndex, h.msgType⟩ h.totalLength.toNat
        (evictExpired meeting.expiry r) bufs fb ∧
      add meeting source h fragment r = finish source ⟨h.senderIndex, h.msgType⟩ bufs
        (fb.fill h.fragOffset.toNat fragment) (evictExpired meeting.expiry r) := by
  by_cases admissible : Admissible r h fragment
  · rw [admissible.add_eq]
    split
    · rename_i absent
      split
      · exact .inl ⟨_, _, rfl, .inr rfl⟩
      · rename_i room
        rcases addTo_takes meeting h fragment (.inr ⟨absent, rfl, not_le.mp room⟩) with
          refused | finished
        · exact .inl ⟨_, _, refused, .inr rfl⟩
        · exact .inr ⟨admissible, finished⟩
    · rename_i bufs here
      rcases addTo_takes meeting h fragment (.inl here) with refused | finished
      · exact .inl ⟨_, _, refused, .inr rfl⟩
      · exact .inr ⟨admissible, finished⟩
  · left
    unfold add
    dsimp only
    split
    · exact ⟨_, _, rfl, .inl rfl⟩
    split
    · exact ⟨_, _, rfl, .inl rfl⟩
    rename_i nonzero valid
    exact absurd ⟨by omega, by omega, by omega, by omega⟩ admissible

variable {meeting : Meeting}

theorem Takes.others {total : Nat} (takes : Takes meeting source key total r bufs fb)
    (held : bufs.lookup k = some fb') : r.Holds source k fb' := by
  cases takes with
  | held bufs fb here found sized => exact ⟨bufs, here, held⟩
  | created bufs own absent =>
    have before : bufs.lookup k = some fb' := by
      split at held
      · exact evictOldest_lookup held
      · exact held
    rcases own with here | ⟨-, rfl, -⟩
    · exact ⟨bufs, here, before⟩
    · simp at before

theorem Takes.origin {total : Nat} (takes : Takes meeting source key total r bufs fb) :
    r.Holds source key fb ∧ fb.total = total ∨ fb = newBuffer total meeting.creation := by
  cases takes with
  | held bufs fb here found sized => exact .inl ⟨⟨bufs, here, found⟩, sized⟩
  | created bufs own absent => exact .inr rfl

theorem Takes.total {total : Nat}
    (takes : Takes meeting source key total r bufs fb) : fb.total = total := by
  rcases takes.origin with ⟨-, sized⟩ | rfl
  · exact sized
  · rfl

theorem add_adds (meeting : Meeting) (source : Source) (h : DatagramHandshakeHeader Byte)
    (fragment : List Byte) (r : Reassembler Byte Source) :
    Adds meeting source h fragment r (add meeting source h fragment r).1
      (add meeting source h fragment r).2 := by
  have swept {s k fb} (held : (evictExpired meeting.expiry r).Holds s k fb) : r.Holds s k fb :=
    ((evictExpired_holds _).mp held).1
  rcases add_cases meeting source h fragment r with
    ⟨refusal, r', run, rfl | rfl⟩ | ⟨admissible, bufs, fb, takes, run⟩
  · rw [run]
    exact .refused _ _ fun _ _ _ => id
  · rw [run]
    exact .refused _ _ fun _ _ _ => swept
  have origin := takes.origin.imp_left (And.imp_left swept)
  have inside : h.fragOffset.toNat + fragment.length ≤ h.totalLength.toNat :=
    admissible.length ▸ admissible.inside
  have size : (fb.fill h.fragOffset.toNat fragment).total = h.totalLength.toNat := takes.total
  have kept {s k fb'} (held : (add meeting source h fragment r).2.Holds s k fb') :
      r.Holds s k fb' ∨ (s = source ∧ k = ⟨h.senderIndex, h.msgType⟩ ∧
        fb' = fb.fill h.fragOffset.toNat fragment) ∧
          (fb.fill h.fragOffset.toNat fragment).coveredN < h.totalLength.toNat := by
    rw [run] at held
    rcases finish_holds held with ⟨-, old⟩ | ⟨rfl, ⟨-, other⟩ | ⟨rfl, rfl, lacking⟩⟩
    · exact .inl (swept old)
    · exact .inl (swept (takes.others other))
    · exact .inr ⟨⟨rfl, rfl, rfl⟩, size ▸ lacking⟩
  by_cases lacking : (fb.fill h.fragOffset.toNat fragment).coveredN < h.totalLength.toNat
  · have outcome : (add meeting source h fragment r).1 = .ok none := by
      rw [run, finish_outcome, size, if_pos lacking]
    rw [outcome]
    exact .waits fb _ origin inside lacking fun s k fb' held => (kept held).imp_right And.left
  · have outcome : (add meeting source h fragment r).1 =
        .ok (some (fb.fill h.fragOffset.toNat fragment).buf) := by
      rw [run, finish_outcome, size, if_neg lacking]
    rw [outcome]
    exact .completes fb _ origin inside lacking fun s k fb' held =>
      (kept held).resolve_right fun new => lacking new.2

/-! A fragment that is accepted. -/

structure Puts (meeting : Meeting) (source : Source) (h : DatagramHandshakeHeader Byte)
    (fragment : List Byte) (r : Reassembler Byte Source) (fb : FragmentBuffer Byte) : Prop where
  outcome : (add meeting source h fragment r).1 =
    .ok (if (fb.fill h.fragOffset.toNat fragment).coveredN < h.totalLength.toNat then none
      else some (fb.fill h.fragOffset.toNat fragment).buf)
  held : (fb.fill h.fragOffset.toNat fragment).coveredN < h.totalLength.toNat →
    (add meeting source h fragment r).2.Holds source ⟨h.senderIndex, h.msgType⟩
      (fb.fill h.fragOffset.toNat fragment)

theorem puts_of_finish
    (total : fb.total = h.totalLength.toNat) (run : add meeting source h fragment r =
      finish source ⟨h.senderIndex, h.msgType⟩ bufs (fb.fill h.fragOffset.toNat fragment) r') :
    Puts meeting source h fragment r fb := by
  have size : (fb.fill h.fragOffset.toNat fragment).total = h.totalLength.toNat := total
  unfold finish at run
  rw [size] at run
  by_cases lacking : (fb.fill h.fragOffset.toNat fragment).coveredN < h.totalLength.toNat
  · rw [if_pos lacking] at run
    refine ⟨by rw [run, if_pos lacking], fun _ => ?_⟩
    rw [run]
    exact ⟨_, AList.lookup_insert _, AList.lookup_insert _⟩
  · rw [if_neg lacking] at run
    exact ⟨by rw [run, if_neg lacking], fun lacks => absurd lacks lacking⟩

theorem add_new (meeting : Meeting) (admissible : Admissible r h fragment)
    (absent : r.bySource.lookup source = none) (room : size r.bySource < r.maxSources) :
    Puts meeting source h fragment r (newBuffer h.totalLength.toNat meeting.creation) := by
  have gone : (evictExpired meeting.expiry r).bySource.lookup source = none := by
    simp [evictExpired, absent]
  have fewer : ¬ size (evictExpired meeting.expiry r).bySource ≥ r.maxSources :=
    not_le.mpr ((size_sweep_le _ _).trans_lt room)
  refine puts_of_finish rfl (?_ : _ = finish source _
    (if size (∅ : Table ReasmKey (FragmentBuffer Byte)) ≥ r.maxConcurrentPerSource then
      evictOldest meeting.pick ∅ else ∅) _ (evictExpired meeting.expiry r))
  rw [admissible.add_eq, gone]
  dsimp only
  rw [if_neg fewer, addTo, AList.lookup_empty]
  rfl

/-- A buffer that has not expired is used again. -/
theorem add_held (meeting : Meeting) (admissible : Admissible r h fragment)
    (held : r.Holds source ⟨h.senderIndex, h.msgType⟩ fb)
    (alive : ¬ fb.createdAt < meeting.expiry - r.timeout)
    (total : fb.total = h.totalLength.toNat) : Puts meeting source h fragment r fb := by
  obtain ⟨bufs, here, held⟩ := (evictExpired_holds meeting.expiry).mpr ⟨held, alive⟩
  refine puts_of_finish total (?_ : _ = finish source _ bufs _ (evictExpired meeting.expiry r))
  rw [admissible.add_eq, here]
  dsimp only
  rw [addTo]
  simp only [held]
  rw [if_neg (not_ne_iff.mpr total)]

/-- Another source's call at most evicts. -/
theorem add_elsewhere (meeting : Meeting) {source s : Source} (other : s ≠ source)
    (h : DatagramHandshakeHeader Byte) (fragment : List Byte) (r : Reassembler Byte Source) :
    (add meeting source h fragment r).2.bySource.lookup s = r.bySource.lookup s ∨
    (add meeting source h fragment r).2.bySource.lookup s =
      (evictExpired meeting.expiry r).bySource.lookup s := by
  rcases add_cases meeting source h fragment r with
    ⟨refusal, r', run, rfl | rfl⟩ | ⟨-, bufs, fb, -, run⟩
  · exact .inl (by rw [run])
  · exact .inr (by rw [run])
  · exact .inr (by rw [run, finish_elsewhere other])

/-- No call changes the limits. -/
theorem add_bounds (meeting : Meeting) (source : Source) (h : DatagramHandshakeHeader Byte)
    (fragment : List Byte) (r : Reassembler Byte Source) :
    (add meeting source h fragment r).2.maxConcurrentPerSource = r.maxConcurrentPerSource ∧
    (add meeting source h fragment r).2.maxSources = r.maxSources ∧
    (add meeting source h fragment r).2.maxMessageSize = r.maxMessageSize ∧
    (add meeting source h fragment r).2.timeout = r.timeout := by
  rcases add_cases meeting source h fragment r with
    ⟨refusal, r', run, rfl | rfl⟩ | ⟨-, bufs, fb, -, run⟩
  all_goals rw [run]
  · exact ⟨rfl, rfl, rfl, rfl⟩
  · exact ⟨rfl, rfl, rfl, rfl⟩
  · exact finish_bounds

end Calls

end QuantumGo.Reassembly
