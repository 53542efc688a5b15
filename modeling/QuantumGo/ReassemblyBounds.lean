import QuantumGo.Reassembly
import QuantumGo.Interleaving
import Mathlib.Data.List.MinMax

/-!
The bounds of the Reassembler over every sequence of calls: how many sources and buffers it
holds, how large each is, and that a message it returns was written byte by byte into one buffer.
-/

namespace QuantumGo.ReassemblyBounds

open Octets HandshakeFrames Tables Reassembly Interleaving

variable {Byte Source : Type} [DecidableEq Source]

structure Traced (Byte Source : Type) where
  r : Reassembler Byte Source
  writes : Source → ReasmKey → List (Nat × List Byte)

def lastWritten : List (Nat × List Byte) → Nat → Option Byte
  | [], _ => none
  | (off, fragment) :: earlier, j =>
    if off ≤ j ∧ j < off + fragment.length then fragment[j - off]? else lastWritten earlier j

def bufferAt (r : Reassembler Byte Source) (source : Source) (key : ReasmKey) :
    Option (FragmentBuffer Byte) :=
  (r.bySource.lookup source).bind (·.lookup key)

/-- What has been written into the buffer of a fragment since the buffer was created, with the
fragment itself. A fragment that finds no buffer creates one. -/
def written (meeting : Meeting) (source : Source) (h : DatagramHandshakeHeader Byte)
    (fragment : List Byte) (t : Traced Byte Source) : List (Nat × List Byte) :=
  (h.fragOffset.toNat, fragment) ::
    match bufferAt (evictExpired meeting.expiry t.r) source ⟨h.senderIndex, h.msgType⟩ with
    | none => []
    | some _ => t.writes source ⟨h.senderIndex, h.msgType⟩

/-! One buffer. -/

structure Accounts (fb : FragmentBuffer Byte) (writes : List (Nat × List Byte)) : Prop where
  counted : fb.Counted
  last : ∀ j, fb.covered[j]? = some true → fb.buf[j]? = lastWritten writes j

variable {fb : FragmentBuffer Byte} {writes : List (Nat × List Byte)}

theorem Accounts.fill {off : Nat} {fragment : List Byte} (accounts : Accounts fb writes)
    (inside : off + fragment.length ≤ fb.total) :
    Accounts (fb.fill off fragment) ((off, fragment) :: writes) := by
  have counted := accounts.counted.fill inside
  refine ⟨counted, fun j set => ?_⟩
  have here : j < fb.total := by
    have := (List.getElem?_eq_some_iff.mp set).1
    rwa [counted.flags] at this
  rw [fill_buf accounts.counted inside, lastWritten]
  split
  · rfl
  · rename_i outside
    exact accounts.last j (((fill_covered accounts.counted here).mp set).resolve_right outside)

/-- A complete buffer has been written everywhere. -/
theorem Accounts.complete (accounts : Accounts fb writes) (full : ¬ fb.coveredN < fb.total)
    {j : Nat}
    (here : j < fb.total) : ∃ byte, fb.buf[j]? = some byte ∧ lastWritten writes j = some byte := by
  have set := accounts.counted.complete_iff.mp full j here
  rw [← accounts.counted.bytes] at here
  exact ⟨_, List.getElem?_eq_getElem here, accounts.last j set ▸ List.getElem?_eq_getElem here⟩

/-! The buffers of a source. -/

variable {bufs : Table ReasmKey (FragmentBuffer Byte)}

theorem one_le_size (some : ¬ bufs.entries.isEmpty = true) : 1 ≤ size bufs :=
  List.length_pos_iff.mpr fun empty => some (List.isEmpty_iff.mpr empty)

/-- An eviction makes room wherever there is a buffer. -/
theorem evictOldest_size {pick : ReasmKey} (some : 1 ≤ size bufs) :
    size (evictOldest pick bufs) + 1 = size bufs := by
  have erased {key : ReasmKey} (inside : key ∈ oldest bufs) :
      size (bufs.erase key) + 1 = size bufs := by
    obtain ⟨⟨_, fb⟩, among, rfl⟩ := List.mem_map.mp inside
    exact size_erase (lookup_some_iff.mpr (List.mem_filter.mp among).1)
  unfold evictOldest
  split
  · rename_i picked
    exact erased picked
  · split
    · rename_i key first
      exact erased (List.mem_of_head? first)
    · -- one of the buffers was created no later than the others
      rename_i empty
      cases least : bufs.entries.argmin fun e => e.2.createdAt with
      | none =>
        rw [size, List.argmin_eq_none.mp least] at some
        cases some
      | some e =>
        have inside : e.1 ∈ oldest bufs := by
          refine List.mem_map.mpr ⟨e, List.mem_filter.mpr ⟨List.argmin_mem least, ?_⟩, rfl⟩
          simpa using fun e' member => List.le_of_mem_argmin member least
        rw [List.head?_eq_none_iff.mp empty] at inside
        cases inside

/-! The invariant. -/

structure Bounded (t : Traced Byte Source) : Prop where
  positive : 1 ≤ t.r.maxConcurrentPerSource
  sources : size t.r.bySource ≤ t.r.maxSources
  buffers : ∀ source bufs, t.r.bySource.lookup source = some bufs →
    1 ≤ size bufs ∧ size bufs ≤ t.r.maxConcurrentPerSource
  totals : ∀ source key fb, t.r.Holds source key fb →
    (1 ≤ fb.total ∧ fb.total ≤ t.r.maxMessageSize) ∧ fb.coveredN < fb.total
  accounts : ∀ source key fb, t.r.Holds source key fb → Accounts fb (t.writes source key)

theorem new_bounded (maxConcurrentPerSource maxMessageSize timeout : Int) :
    Bounded (⟨newReassembler maxConcurrentPerSource maxMessageSize timeout, fun _ _ => []⟩ :
      Traced Byte Source) where
  positive := by
    dsimp only [newReassembler]
    split
    · decide
    · omega
  sources := Nat.zero_le _
  buffers := by rintro _ _ ⟨⟩
  totals := by rintro _ _ _ ⟨_, ⟨⟩, _⟩
  accounts := by rintro _ _ _ ⟨_, ⟨⟩, _⟩

variable {t : Traced Byte Source}

theorem Bounded.evictExpired (bounded : Bounded t) (now : Int) :
    Bounded { t with r := Reassembly.evictExpired now t.r } where
  positive := bounded.positive
  sources := (size_sweep_le _ _).trans bounded.sources
  buffers := by
    intro source bufs here
    simp only [Reassembly.evictExpired, lookup_sweep, Option.bind_eq_some_iff] at here
    obtain ⟨before, found, kept⟩ := here
    split at kept
    · cases kept
    · rename_i some
      obtain rfl := Option.some.inj kept
      exact ⟨one_le_size some, (size_sweep_le _ _).trans (bounded.buffers source before found).2⟩
  totals source key fb held := bounded.totals source key fb ((evictExpired_holds now).mp held).1
  accounts source key fb held := bounded.accounts source key fb ((evictExpired_holds now).mp held).1

theorem Bounded.drop (bounded : Bounded t) (source : Source) :
    Bounded { t with r := Reassembly.drop source t.r } := by
  have before {s bufs} (here : (Reassembly.drop source t.r).bySource.lookup s = some bufs) :
      t.r.bySource.lookup s = some bufs := by
    by_cases same : s = source
    · subst same
      simp [Reassembly.drop] at here
    · rwa [Reassembly.drop, AList.lookup_erase_ne same] at here
  have held {s k fb} (held : (Reassembly.drop source t.r).Holds s k fb) : t.r.Holds s k fb :=
    held.imp fun _ found => found.imp_left before
  exact ⟨bounded.positive, (size_erase_le _ _).trans bounded.sources,
    fun s bufs here => bounded.buffers s bufs (before here),
    fun s k fb found => bounded.totals s k fb (held found),
    fun s k fb found => bounded.accounts s k fb (held found)⟩

section Calls
variable [Octet Byte] {meeting : Meeting} {source : Source} {key : ReasmKey} {total : Nat}

/-- A source is among those held, or there is room for it. -/
theorem Bounded.admits (bounded : Bounded t) (takes : Takes meeting source key total t.r bufs fb)
    (bufs' : Table ReasmKey (FragmentBuffer Byte)) :
    size (t.r.bySource.insert source bufs') ≤ t.r.maxSources := by
  have held {old} (here : t.r.bySource.lookup source = some old) :
      size (t.r.bySource.insert source bufs') ≤ t.r.maxSources :=
    (size_insert here bufs').le.trans bounded.sources
  cases takes with
  | held bufs fb here found sized => exact held here
  | created bufs own absent =>
    rcases own with here | ⟨-, -, room⟩
    · exact held here
    · exact (size_insert_le source bufs' t.r.bySource).trans room

/-- A buffer is among those of its source, or there is room for it. -/
theorem Bounded.fits (bounded : Bounded t) (takes : Takes meeting source key total t.r bufs fb)
    (fb' : FragmentBuffer Byte) : size (bufs.insert key fb') ≤ t.r.maxConcurrentPerSource := by
  have positive := bounded.positive
  cases takes with
  | held bufs fb here found sized =>
    exact (size_insert found fb').le.trans (bounded.buffers source bufs here).2
  | created bufs own absent =>
    refine (size_insert_le key fb' _).trans ?_
    split
    · rename_i full
      have some : 1 ≤ size bufs := positive.trans full
      rw [evictOldest_size some]
      rcases own with here | ⟨-, rfl, -⟩
      · exact (bounded.buffers source bufs here).2
      · cases some
    · rename_i room
      exact not_le.mp room

theorem newBuffer_accounts (total : Nat) (now : Int) (writes : List (Nat × List Byte)) :
    Accounts (newBuffer total now : FragmentBuffer Byte) writes := by
  refine ⟨newBuffer_counted total now, fun j set => ?_⟩
  simp [newBuffer, List.getElem?_replicate] at set

/-- The step lemma for a fragment that is put into a buffer. -/
theorem Bounded.finish {writes' : List (Nat × List Byte)} {fb' : FragmentBuffer Byte}
    (bounded : Bounded t) (takes : Takes meeting source key total t.r bufs fb)
    (accounts : Accounts fb' writes') (sized : 1 ≤ fb'.total ∧ fb'.total ≤ t.r.maxMessageSize) :
    Bounded ⟨(Reassembly.finish source key bufs fb' t.r).2,
      fun s k => if s = source ∧ k = key then writes' else t.writes s k⟩ := by
  obtain ⟨perSource, sources, message, -⟩ : (Reassembly.finish source key bufs fb'
      t.r).2.maxConcurrentPerSource = t.r.maxConcurrentPerSource ∧ _ := finish_bounds
  refine ⟨?_, ?_, ?_, ?_, ?_⟩
  · rw [perSource]
    exact bounded.positive
  · rw [sources]
    unfold Reassembly.finish
    split
    · exact bounded.admits takes _
    · dsimp only
      split
      · exact (size_erase_le _ _).trans bounded.sources
      · exact bounded.admits takes _
  · intro s bufs' here
    rw [perSource]
    by_cases same : s = source
    · subst same
      have fits := bounded.fits takes fb'
      have some : 1 ≤ size (bufs.insert key fb') := by
        rw [size, AList.entries_insert, List.length_cons]
        exact Nat.le_add_left 1 _
      unfold Reassembly.finish at here
      split at here
      · obtain rfl : bufs.insert key fb' = bufs' := by simpa using here
        exact ⟨some, fits⟩
      · dsimp only at here
        split at here
        · simp at here
        · rename_i rest
          obtain rfl : bufs.erase key = bufs' := by simpa using here
          refine ⟨one_le_size rest, le_trans ?_ fits⟩
          rw [size, size, AList.entries_insert, List.length_cons]
          exact Nat.le_succ _
    · rw [finish_elsewhere same] at here
      exact bounded.buffers s bufs' here
  · intro s k held found
    rw [message]
    rcases finish_holds found with ⟨-, old⟩ | ⟨rfl, ⟨-, other⟩ | ⟨-, rfl, lacking⟩⟩
    · exact bounded.totals s k held old
    · exact bounded.totals s k held (takes.others other)
    · exact ⟨sized, lacking⟩
  · intro s k held found
    dsimp only
    rcases finish_holds found with ⟨different, old⟩ | ⟨rfl, ⟨different, other⟩ | ⟨rfl, rfl, -⟩⟩
    · rw [if_neg fun same => different same.1]
      exact bounded.accounts s k held old
    · rw [if_neg fun same => different same.2]
      exact bounded.accounts s k held (takes.others other)
    · rw [if_pos ⟨rfl, rfl⟩]
      exact accounts

/-! Whole runs. -/

inductive Call (Byte Source : Type) where
  | add (meeting : Meeting) (source : Source) (h : DatagramHandshakeHeader Byte)
      (fragment : List Byte)
  | drop (source : Source)

def perform (t : Traced Byte Source) : Call Byte Source → Traced Byte Source
  | .drop source => { t with r := drop source t.r }
  | .add meeting source h fragment =>
    { r := (add meeting source h fragment t.r).2
      writes :=
        match (add meeting source h fragment t.r).1 with
        | .error _ => t.writes
        | .ok _ => fun s k =>
          if s = source ∧ k = ⟨h.senderIndex, h.msgType⟩ then
            written meeting source h fragment t
          else t.writes s k }

def after (maxConcurrentPerSource maxMessageSize timeout : Int) (calls : List (Call Byte Source)) :
    Traced Byte Source :=
  run perform calls ⟨newReassembler maxConcurrentPerSource maxMessageSize timeout, fun _ _ => []⟩

variable {h : DatagramHandshakeHeader Byte} {fragment : List Byte}

/-- The buffer that a fragment is put into, with the fragment. -/
theorem Bounded.fills (bounded : Bounded t) (admissible : Admissible t.r h fragment)
    (takes : Takes meeting source ⟨h.senderIndex, h.msgType⟩ h.totalLength.toNat
      (Reassembly.evictExpired meeting.expiry t.r) bufs fb) :
    Accounts (fb.fill h.fragOffset.toNat fragment) (written meeting source h fragment t) := by
  have inside : h.fragOffset.toNat + fragment.length ≤ fb.total :=
    takes.total ▸ admissible.length ▸ admissible.inside
  refine Accounts.fill ?_ inside
  cases takes with
  | held bufs fb here found sized =>
    have present : bufferAt (Reassembly.evictExpired meeting.expiry t.r) source
        ⟨h.senderIndex, h.msgType⟩ = some fb := by
      rw [bufferAt, here]
      exact found
    rw [present]
    exact (bounded.evictExpired _).accounts _ _ _ ⟨bufs, here, found⟩
  | created bufs own absent => exact newBuffer_accounts _ _ _

/-- The step lemma. -/
theorem Bounded.perform (bounded : Bounded t) (call : Call Byte Source) :
    Bounded (perform t call) := by
  cases call with
  | drop source => exact bounded.drop source
  | add meeting source h fragment =>
    rw [ReassemblyBounds.perform]
    rcases add_cases meeting source h fragment t.r with
      ⟨refusal, r', run, rfl | rfl⟩ | ⟨admissible, bufs, fb, takes, run⟩
    · rw [run]
      exact bounded
    · rw [run]
      exact bounded.evictExpired _
    · have sized : (fb.fill h.fragOffset.toNat fragment).total = h.totalLength.toNat := takes.total
      have finished := (bounded.evictExpired meeting.expiry).finish takes
        (bounded.fills admissible takes)
        (sized ▸ ⟨Nat.pos_of_ne_zero admissible.nonzero, admissible.small⟩)
      simp only [run, finish_outcome]
      exact finished

theorem perform_limits (t : Traced Byte Source) (call : Call Byte Source) :
    (perform t call).r.maxConcurrentPerSource = t.r.maxConcurrentPerSource ∧
    (perform t call).r.maxSources = t.r.maxSources ∧
    (perform t call).r.maxMessageSize = t.r.maxMessageSize := by
  cases call with
  | drop source => exact ⟨rfl, rfl, rfl⟩
  | add meeting source h fragment =>
    obtain ⟨perSource, sources, message, -⟩ := add_bounds meeting source h fragment t.r
    exact ⟨perSource, sources, message⟩

/-- The run lemma. -/
theorem Bounded.performs (bounded : Bounded t) (calls : List (Call Byte Source)) :
    let last := run ReassemblyBounds.perform calls t
    Bounded last ∧ last.r.maxConcurrentPerSource = t.r.maxConcurrentPerSource ∧
    last.r.maxSources = t.r.maxSources ∧ last.r.maxMessageSize = t.r.maxMessageSize := by
  induction calls generalizing t with
  | nil => exact ⟨bounded, rfl, rfl, rfl⟩
  | cons call rest ih =>
    obtain ⟨perSource, sources, message⟩ := perform_limits t call
    obtain ⟨bounded', perSource', sources', message'⟩ := ih (bounded.perform call)
    exact ⟨bounded', perSource'.trans perSource, sources'.trans sources, message'.trans message⟩

/-- A message is complete in the buffer that the last fragment was put into. -/
theorem Bounded.returns (bounded : Bounded t) {message : List Byte}
    (returned : (add meeting source h fragment t.r).1 = .ok (some message)) :
    message.length = h.totalLength.toNat ∧ ∀ j < message.length, ∃ byte,
      message[j]? = some byte ∧ lastWritten (written meeting source h fragment t) j =
        some byte := by
  rcases add_cases meeting source h fragment t.r with
    ⟨refusal, r', run, -⟩ | ⟨admissible, bufs, fb, takes, run⟩
  · rw [run] at returned
    cases returned
  · have accounts := bounded.fills admissible takes
    rw [run, finish_outcome] at returned
    split at returned
    · cases returned
    · rename_i full
      obtain rfl : (fb.fill h.fragOffset.toNat fragment).buf = message := by simpa using returned
      have length := accounts.counted.bytes
      exact ⟨length.trans takes.total, fun j here => accounts.complete full (length ▸ here)⟩

/-- After every sequence of calls the reassembler is within its limits, and a message that the
next call returns was written, byte by byte, into one buffer since that buffer was created. -/
theorem reassembler_bounded (maxConcurrentPerSource maxMessageSize timeout : Int)
    (calls : List (Call Byte Source)) :
    let new : Reassembler Byte Source :=
      newReassembler maxConcurrentPerSource maxMessageSize timeout
    let t := after maxConcurrentPerSource maxMessageSize timeout calls
    size t.r.bySource ≤ new.maxSources ∧
    (∀ source bufs, t.r.bySource.lookup source = some bufs →
      1 ≤ size bufs ∧ size bufs ≤ new.maxConcurrentPerSource) ∧
    (∀ source key fb, t.r.Holds source key fb → (1 ≤ fb.total ∧ fb.total ≤ new.maxMessageSize) ∧
      fb.coveredN = fb.covered.count true ∧ fb.coveredN < fb.total) ∧
    ∀ meeting source h fragment message,
      (add meeting source h fragment t.r).1 = .ok (some message) →
      message.length = h.totalLength.toNat ∧ ∀ j < message.length, ∃ byte,
        message[j]? = some byte ∧
        lastWritten (written meeting source h fragment t) j = some byte := by
  intro new t
  obtain ⟨bounded, perSource, sources, message⟩ :=
    (new_bounded maxConcurrentPerSource maxMessageSize timeout).performs calls
  refine ⟨?_, fun source bufs here => ?_, fun source key fb held => ?_, fun _ _ _ _ _ => ?_⟩
  · exact sources ▸ bounded.sources
  · exact perSource ▸ bounded.buffers source bufs here
  · obtain ⟨total, lacking⟩ := bounded.totals source key fb held
    exact ⟨message ▸ total, (bounded.accounts source key fb held).counted.count, lacking⟩
  · exact bounded.returns

end Calls

end QuantumGo.ReassemblyBounds
