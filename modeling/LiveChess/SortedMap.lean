/-! # Maps in key order

A finite map kept as a list of entries in strictly ascending key order. The order makes the
entries of a map a function of its look-ups, so maps that look alike are equal (`ext_get?`), and
listing keys is sorting them. A set is a map to the unit type.

Keys are ordered by a number of their own, their rank. -/

namespace LiveChess

/-- A type whose values are told apart by a number. -/
class Ranked (κ : Type) where
  rank : κ → Nat
  rank_inj : ∀ {a b : κ}, rank a = rank b → a = b

/-- Entries in ascending key order, one per key. -/
structure SortedMap (κ ν : Type) [Ranked κ] where
  entries : List (κ × ν)
  ascending : entries.Pairwise fun a b => Ranked.rank a.1 < Ranked.rank b.1

/-- A set of keys. -/
abbrev SortedSet (κ : Type) [Ranked κ] := SortedMap κ Unit

namespace SortedMap

variable {κ ν : Type} [Ranked κ]

open Ranked (rank rank_inj)

/-! ### Lists of entries -/

/-- The value of a key among entries. -/
def find? (k : κ) : List (κ × ν) → Option ν
  | [] => none
  | e :: r => if rank e.1 = rank k then some e.2 else find? k r

/-- Entries with the value of a key set. -/
def enter (k : κ) (v : ν) : List (κ × ν) → List (κ × ν)
  | [] => [(k, v)]
  | e :: r =>
    if rank k < rank e.1 then (k, v) :: e :: r
    else if rank e.1 = rank k then (k, v) :: r
    else e :: enter k v r

/-- Entries without a key. -/
def leave (k : κ) (l : List (κ × ν)) : List (κ × ν) := l.filter fun e => decide (rank e.1 ≠ rank k)

theorem mem_enter {k : κ} {v : ν} {l : List (κ × ν)} {e : κ × ν} (h : e ∈ enter k v l) :
    e = (k, v) ∨ e ∈ l := by
  induction l with
  | nil => simpa [enter] using h
  | cons d r ih =>
    simp only [enter] at h
    split at h
    · simpa using h
    · split at h
      · rcases List.mem_cons.1 h with h | h
        · exact .inl h
        · exact .inr (List.mem_cons_of_mem _ h)
      · rcases List.mem_cons.1 h with h | h
        · exact .inr (h ▸ List.mem_cons_self)
        · exact (ih h).imp_right (List.mem_cons_of_mem _)

theorem pairwise_enter {k : κ} {v : ν} {l : List (κ × ν)}
    (h : l.Pairwise fun a b => rank a.1 < rank b.1) :
    (enter k v l).Pairwise fun a b => rank a.1 < rank b.1 := by
  induction l with
  | nil => simp [enter]
  | cons d r ih =>
    have hd := List.pairwise_cons.1 h
    simp only [enter]
    split
    · refine List.pairwise_cons.2 ⟨fun e he => ?_, h⟩
      rcases List.mem_cons.1 he with he | he
      · simpa [he]
      · exact Nat.lt_trans (by assumption) (hd.1 e he)
    · split
      · rename_i e
        exact List.pairwise_cons.2 ⟨fun x hx => e ▸ hd.1 x hx, hd.2⟩
      · refine List.pairwise_cons.2 ⟨fun e he => ?_, ih hd.2⟩
        rcases mem_enter he with he | he
        · subst he
          simp only
          omega
        · exact hd.1 e he

theorem find?_enter (j k : κ) (v : ν) {l : List (κ × ν)} :
    find? j (enter k v l) = if rank k = rank j then some v else find? j l := by
  induction l with
  | nil => simp [enter, find?]
  | cons d r ih =>
    simp only [enter]
    split
    · simp [find?]
    · split
      · rename_i e
        by_cases hk : rank k = rank j
        · simp [find?, hk]
        · simp [find?, hk, e]
      · rename_i h1 h2
        by_cases hk : rank k = rank j
        · have : rank d.1 ≠ rank j := fun h => h2 (h.trans hk.symm)
          simp [find?, ih, hk, this]
        · simp [find?, ih, hk]

theorem find?_leave (j k : κ) {l : List (κ × ν)} :
    find? j (leave k l) = if rank k = rank j then none else find? j l := by
  induction l with
  | nil => simp [leave, find?]
  | cons d r ih =>
    unfold leave at ih ⊢
    by_cases h2 : rank d.1 = rank k
    · rw [List.filter_cons_of_neg (by simpa using h2), ih]
      by_cases hk : rank k = rank j
      · simp [hk]
      · have : rank d.1 ≠ rank j := fun h => hk (h2.symm.trans h)
        simp [find?, hk, this]
    · rw [List.filter_cons_of_pos (by simpa using h2)]
      simp only [find?, ih]
      by_cases hk : rank k = rank j
      · have : rank d.1 ≠ rank j := fun h => h2 (h.trans hk.symm)
        simp [hk, this]
      · simp [hk]

theorem find?_of_mem {l : List (κ × ν)} (h : l.Pairwise fun a b => rank a.1 < rank b.1)
    {e : κ × ν} (he : e ∈ l) : find? e.1 l = some e.2 := by
  induction l with
  | nil => simp at he
  | cons d r ih =>
    have hd := List.pairwise_cons.1 h
    rcases List.mem_cons.1 he with he | he
    · simp [find?, he]
    · have : rank d.1 ≠ rank e.1 := Nat.ne_of_lt (hd.1 e he)
      simp [find?, this, ih hd.2 he]

theorem mem_of_find? {k : κ} {v : ν} {l : List (κ × ν)} (h : find? k l = some v) : (k, v) ∈ l := by
  induction l with
  | nil => simp [find?] at h
  | cons d r ih =>
    simp only [find?] at h
    split at h
    · rename_i e
      obtain ⟨d1, d2⟩ := d
      simp only [Option.some.injEq] at h
      have : d1 = k := rank_inj e
      simp [this, h]
    · exact List.mem_cons_of_mem _ (ih h)

theorem entries_eq {l m : List (κ × ν)} (hl : l.Pairwise fun a b => rank a.1 < rank b.1)
    (hm : m.Pairwise fun a b => rank a.1 < rank b.1) (h : ∀ k, find? k l = find? k m) : l = m := by
  have mem_iff : ∀ e, e ∈ l ↔ e ∈ m := fun e =>
    ⟨fun he => mem_of_find? (h e.1 ▸ find?_of_mem hl he),
      fun he => mem_of_find? ((h e.1).symm ▸ find?_of_mem hm he)⟩
  clear h
  induction l generalizing m with
  | nil =>
    cases m with
    | nil => rfl
    | cons d r => exact absurd ((mem_iff d).2 List.mem_cons_self) (by simp)
  | cons d r ih =>
    cases m with
    | nil => exact absurd ((mem_iff d).1 List.mem_cons_self) (by simp)
    | cons c q =>
      have hd := List.pairwise_cons.1 hl
      have hc := List.pairwise_cons.1 hm
      have hdc : d = c := by
        rcases List.mem_cons.1 ((mem_iff d).1 List.mem_cons_self) with h1 | h1
        · exact h1
        · rcases List.mem_cons.1 ((mem_iff c).2 List.mem_cons_self) with h2 | h2
          · exact h2.symm
          · exact absurd (hc.1 d h1) (Nat.lt_asymm (hd.1 c h2))
      subst hdc
      refine congrArg (d :: ·) (ih hd.2 hc.2 fun e => ⟨fun he => ?_, fun he => ?_⟩)
      · rcases List.mem_cons.1 ((mem_iff e).1 (List.mem_cons_of_mem _ he)) with h1 | h1
        · exact absurd (hd.1 e he) (h1 ▸ Nat.lt_irrefl _)
        · exact h1
      · rcases List.mem_cons.1 ((mem_iff e).2 (List.mem_cons_of_mem _ he)) with h1 | h1
        · exact absurd (hc.1 e he) (h1 ▸ Nat.lt_irrefl _)
        · exact h1

/-! ### Maps -/

/-- The map without entries. -/
def empty : SortedMap κ ν := ⟨[], List.Pairwise.nil⟩

instance : Inhabited (SortedMap κ ν) := ⟨empty⟩

/-- The value of a key. -/
def get? (m : SortedMap κ ν) (k : κ) : Option ν := find? k m.entries

/-- Set the value of a key. -/
def insert (m : SortedMap κ ν) (k : κ) (v : ν) : SortedMap κ ν :=
  ⟨enter k v m.entries, pairwise_enter m.ascending⟩

/-- Remove a key. -/
def erase (m : SortedMap κ ν) (k : κ) : SortedMap κ ν :=
  ⟨leave k m.entries, m.ascending.filter _⟩

/-- Replace every value, in key order. -/
def map {μ : Type} (f : κ → ν → μ) (m : SortedMap κ ν) : SortedMap κ μ :=
  ⟨m.entries.map fun e => (e.1, f e.1 e.2), by
    rw [List.pairwise_map]
    exact m.ascending⟩

/-- A key has a value. -/
def contains (m : SortedMap κ ν) (k : κ) : Bool := (m.get? k).isSome

/-- The keys, ascending. -/
def keys (m : SortedMap κ ν) : List κ := m.entries.map (·.1)

/-- The values, by ascending key. -/
def values (m : SortedMap κ ν) : List ν := m.entries.map (·.2)

/-- The number of keys. -/
def size (m : SortedMap κ ν) : Nat := m.entries.length

/-- No key has a value. -/
def isEmpty (m : SortedMap κ ν) : Bool := m.entries.isEmpty

/-- Add a key to a set. -/
def add (s : SortedSet κ) (k : κ) : SortedSet κ := s.insert k ()

@[simp] theorem get?_empty (k : κ) : (empty : SortedMap κ ν).get? k = none := rfl

theorem get?_insert (m : SortedMap κ ν) (j k : κ) (v : ν) :
    (m.insert k v).get? j = if rank k = rank j then some v else m.get? j := find?_enter j k v

theorem get?_erase (m : SortedMap κ ν) (j k : κ) :
    (m.erase k).get? j = if rank k = rank j then none else m.get? j := find?_leave j k

theorem mem_keys {m : SortedMap κ ν} {k : κ} : k ∈ m.keys ↔ m.contains k = true := by
  constructor
  · intro h
    obtain ⟨e, he, rfl⟩ := List.mem_map.1 h
    simp [contains, get?, find?_of_mem m.ascending he]
  · intro h
    obtain ⟨v, hv⟩ := Option.isSome_iff_exists.1 h
    exact List.mem_map.2 ⟨(k, v), mem_of_find? hv, rfl⟩

/-- Maps that look alike are equal. -/
theorem ext_get? {m n : SortedMap κ ν} (h : ∀ k, m.get? k = n.get? k) : m = n := by
  obtain ⟨l, hl⟩ := m
  obtain ⟨l', hl'⟩ := n
  have : l = l' := entries_eq hl hl' h
  subst this
  rfl

end SortedMap
end LiveChess
