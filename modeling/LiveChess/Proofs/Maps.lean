import Mathlib.Tactic
import LiveChess.SortedMap

/-! # Reading maps after writing

The laws of `get?` for keys compared by equality instead of by rank. -/

namespace LiveChess.SortedMap

open Ranked (rank_inj)

variable {κ ν μ : Type} [Ranked κ] {j k : κ}

@[simp] theorem get?_insert_self (m : SortedMap κ ν) (k : κ) (v : ν) :
    (m.insert k v).get? k = some v := by
  rw [get?_insert, if_pos rfl]

theorem get?_insert_of_ne (m : SortedMap κ ν) (v : ν) (h : j ≠ k) :
    (m.insert k v).get? j = m.get? j := by
  rw [get?_insert, if_neg fun e => h (rank_inj e).symm]

@[simp] theorem get?_erase_self (m : SortedMap κ ν) (k : κ) : (m.erase k).get? k = none := by
  rw [get?_erase, if_pos rfl]

theorem get?_erase_of_ne (m : SortedMap κ ν) (h : j ≠ k) : (m.erase k).get? j = m.get? j := by
  rw [get?_erase, if_neg fun e => h (rank_inj e).symm]

/-- What is read after writing is what was written, or was there before. -/
theorem get?_insert_eq_some {m : SortedMap κ ν} {v w : ν} (h : (m.insert k v).get? j = some w) :
    j = k ∧ w = v ∨ j ≠ k ∧ m.get? j = some w := by
  by_cases hj : j = k
  · subst hj
    rw [get?_insert_self] at h
    exact .inl ⟨rfl, (Option.some.inj h).symm⟩
  · rw [get?_insert_of_ne m v hj] at h
    exact .inr ⟨hj, h⟩

theorem get?_of_erase {m : SortedMap κ ν} {w : ν} (h : (m.erase k).get? j = some w) :
    j ≠ k ∧ m.get? j = some w := by
  by_cases hj : j = k
  · subst hj
    rw [get?_erase_self] at h
    cases h
  · rw [get?_erase_of_ne m hj] at h
    exact ⟨hj, h⟩

theorem get?_map (f : κ → ν → μ) (m : SortedMap κ ν) (k : κ) :
    (m.map f).get? k = (m.get? k).map (f k) := by
  obtain ⟨l, hl⟩ := m
  show find? k (l.map fun e => (e.1, f e.1 e.2)) = (find? k l).map (f k)
  clear hl
  induction l with
  | nil => rfl
  | cons e l ih =>
      simp only [List.map_cons, find?]
      split_ifs with h
      · rw [rank_inj h]
        rfl
      · exact ih

theorem map_insert (f : κ → ν → μ) (m : SortedMap κ ν) (k : κ) (v : ν) :
    (m.insert k v).map f = (m.map f).insert k (f k v) := by
  refine ext_get? fun j => ?_
  rw [get?_map]
  by_cases hj : j = k
  · subst hj
    rw [get?_insert_self, get?_insert_self]
    rfl
  · rw [get?_insert_of_ne _ _ hj, get?_insert_of_ne _ _ hj, get?_map]

theorem map_erase (f : κ → ν → μ) (m : SortedMap κ ν) (k : κ) :
    (m.erase k).map f = (m.map f).erase k := by
  refine ext_get? fun j => ?_
  rw [get?_map]
  by_cases hj : j = k
  · subst hj
    rw [get?_erase_self, get?_erase_self]
    rfl
  · rw [get?_erase_of_ne _ hj, get?_erase_of_ne _ hj, get?_map]

theorem map_map {ξ : Type} (f : κ → ν → μ) (g : κ → μ → ξ) (m : SortedMap κ ν) :
    (m.map f).map g = m.map fun k v => g k (f k v) := by
  refine ext_get? fun j => ?_
  rw [get?_map, get?_map, get?_map, Option.map_map]
  rfl

theorem contains_erase_iff {m : SortedMap κ ν} :
    (m.erase k).contains j = true ↔ j ≠ k ∧ m.contains j = true := by
  unfold contains
  by_cases h : j = k
  · subst h
    simp
  · rw [get?_erase_of_ne m h]
    simp [h]

theorem contains_insert_iff {m : SortedMap κ ν} {v : ν} :
    (m.insert k v).contains j = true ↔ j = k ∨ m.contains j = true := by
  unfold contains
  by_cases h : j = k
  · subst h
    simp
  · rw [get?_insert_of_ne m v h]
    simp [h]

/-- Setting two keys comes to the same in either order. -/
theorem insert_comm (m : SortedMap κ ν) (v w : ν) (h : j ≠ k) :
    (m.insert j v).insert k w = (m.insert k w).insert j v := by
  refine ext_get? fun i => ?_
  by_cases hj : i = j
  · subst hj
    rw [get?_insert_of_ne _ _ h, get?_insert_self, get?_insert_self]
  · rw [get?_insert_of_ne (m.insert k w) v hj]
    by_cases hk : i = k
    · subst hk
      rw [get?_insert_self, get?_insert_self]
    · rw [get?_insert_of_ne _ _ hk, get?_insert_of_ne _ _ hk, get?_insert_of_ne _ _ hj]

/-- Of two values that one key is set to the later one stays. -/
theorem insert_insert (m : SortedMap κ ν) (k : κ) (v w : ν) :
    (m.insert k v).insert k w = m.insert k w := by
  refine ext_get? fun i => ?_
  by_cases hk : i = k
  · subst hk
    rw [get?_insert_self, get?_insert_self]
  · rw [get?_insert_of_ne _ _ hk, get?_insert_of_ne _ _ hk, get?_insert_of_ne _ _ hk]

/-- Sets with the same keys are equal. -/
theorem ext_contains {s t : SortedSet κ} (h : ∀ k, s.contains k = true ↔ t.contains k = true) :
    s = t := by
  refine ext_get? fun k => ?_
  have hk := h k
  unfold contains at hk
  cases hs : s.get? k with
  | none =>
      cases ht : t.get? k with
      | none => rfl
      | some v => simp [hs, ht] at hk
  | some v =>
      cases ht : t.get? k with
      | none => simp [hs, ht] at hk
      | some w => rfl

theorem isEmpty_iff {m : SortedMap κ ν} : m.isEmpty = true ↔ ∀ k, m.contains k = false := by
  unfold isEmpty
  rw [List.isEmpty_iff]
  constructor
  · intro h k
    unfold contains get?
    rw [h]
    rfl
  · intro h
    rw [List.eq_nil_iff_forall_not_mem]
    intro e he
    have := h e.1
    rw [← Bool.not_eq_true, ← mem_keys] at this
    exact this (List.mem_map_of_mem he)

theorem nodup_of_ascending {l : List κ}
    (h : l.Pairwise fun a b => Ranked.rank a < Ranked.rank b) : l.Nodup :=
  h.imp fun hlt e => Nat.ne_of_lt hlt (congrArg Ranked.rank e)

/-- Ascending lists of the same keys are equal. -/
theorem eq_of_ascending {l l' : List κ} (h : l.Pairwise fun a b => Ranked.rank a < Ranked.rank b)
    (h' : l'.Pairwise fun a b => Ranked.rank a < Ranked.rank b) (hmem : ∀ k, k ∈ l ↔ k ∈ l') :
    l = l' := by
  have hperm : l.Perm l' :=
    (List.perm_ext_iff_of_nodup (nodup_of_ascending h) (nodup_of_ascending h')).mpr hmem
  exact hperm.eq_of_pairwise (fun a b _ _ hab hba => absurd hab (Nat.lt_asymm hba)) h h'

theorem nodup_keys (m : SortedMap κ ν) : m.keys.Nodup :=
  nodup_of_ascending (List.pairwise_map.mpr m.ascending)

theorem mem_entries_iff {m : SortedMap κ ν} {k : κ} {v : ν} :
    (k, v) ∈ m.entries ↔ m.get? k = some v :=
  ⟨fun h => find?_of_mem m.ascending h, mem_of_find?⟩

end LiveChess.SortedMap
