import Mathlib.Data.List.AList

/-!
Tables with one value for a key: Mathlib's `AList` at a constant family, with a sweep that
replaces or drops entries.
-/

namespace QuantumGo.Tables

abbrev Table (κ α : Type) := AList fun _ : κ => α

variable {κ α : Type}

def size (t : Table κ α) : Nat := t.entries.length

def sweep (keep : κ → α → Option α) (t : Table κ α) : Table κ α where
  entries := t.entries.filterMap fun e => (keep e.1 e.2).map fun value => ⟨e.1, value⟩
  nodupKeys := by
    have kept : ∀ l : List (Sigma fun _ : κ => α),
        (l.filterMap fun e => (keep e.1 e.2).map fun value =>
          (⟨e.1, value⟩ : Sigma fun _ : κ => α)).keys.Sublist l.keys := by
      intro l
      induction l with
      | nil => exact .slnil
      | cons e rest ih =>
        cases value : keep e.1 e.2 with
        | none => simpa [value] using ih.cons e.1
        | some value' => simpa [value] using ih.cons_cons e.1
    exact (kept _).nodup t.keys_nodup

theorem size_sweep_le (keep : κ → α → Option α) (t : Table κ α) : size (sweep keep t) ≤ size t :=
  List.length_filterMap_le _ _

theorem size_keys (t : Table κ α) : size t = t.keys.length := (List.length_map _).symm

variable [DecidableEq κ]

theorem lookup_some_iff {t : Table κ α} {k : κ} {value : α} :
    t.lookup k = some value ↔ ⟨k, value⟩ ∈ t.entries :=
  AList.mem_lookup_iff

@[simp] theorem lookup_sweep (keep : κ → α → Option α) (t : Table κ α) (k : κ) :
    (sweep keep t).lookup k = (t.lookup k).bind (keep k) := by
  ext value
  simp only [lookup_some_iff, sweep, List.mem_filterMap, Option.map_eq_some_iff,
    Option.bind_eq_some_iff]
  constructor
  · rintro ⟨⟨k', old⟩, inside, value', kept, same⟩
    cases same
    exact ⟨old, inside, kept⟩
  · rintro ⟨old, inside, kept⟩
    exact ⟨⟨k, old⟩, inside, value, kept, rfl⟩

theorem size_erase_le (k : κ) (t : Table κ α) : size (t.erase k) ≤ size t :=
  (List.kerase_sublist k t.entries).length_le

theorem size_erase {k : κ} {value : α} {t : Table κ α} (found : t.lookup k = some value) :
    size (t.erase k) + 1 = size t := by
  have inside : k ∈ t.keys := AList.lookup_isSome.mp (found ▸ rfl)
  rw [size_keys, size_keys, AList.keys_erase, List.length_erase_add_one inside]

theorem size_insert {k : κ} {old : α} {t : Table κ α} (found : t.lookup k = some old) (value : α) :
    size (t.insert k value) = size t := by
  rw [← size_erase found]
  unfold size
  rw [AList.entries_insert, List.length_cons]
  rfl

theorem size_insert_le (k : κ) (value : α) (t : Table κ α) :
    size (t.insert k value) ≤ size t + 1 := by
  unfold size
  rw [AList.entries_insert, List.length_cons]
  exact Nat.succ_le_succ (List.kerase_sublist k t.entries).length_le

theorem lookup_of_isEmpty {t : Table κ α} (empty : t.entries.isEmpty = true) (k : κ) :
    t.lookup k = none := by
  rw [Option.eq_none_iff_forall_ne_some]
  intro value found
  have inside := lookup_some_iff.mp found
  rw [List.isEmpty_iff.mp empty] at inside
  cases inside

end QuantumGo.Tables
