import LiveChess.Connections
import LiveChess.Proofs.Maps

/-! # Sets of connections

What belongs to a set of connections after one came or went, and in which order they are numbered
off.  When no number belongs to two users, numbering off names every connection once
(`count_ids`).  A map that keeps no user without a connection (`Tight`) is determined by its
connections (`Tight.ext`), so what holds of sets holds of it: coming twice is coming once, and the
order in which different connections come and go does not matter. -/

namespace LiveChess.Connections

variable {cs ds : Connections} {c d : Connection} {u v : UserId} {i : ConnectionId}

theorem contains_iff : cs.contains c = true ↔
    ∃ s, cs.byUser.get? c.user = some s ∧ s.contains c.id = true := by
  unfold contains numbersOf
  cases cs.byUser.get? c.user with
  | none => simp [SortedMap.contains]
  | some s => simp

theorem eq_iff_id_eq (h : d.user = c.user) : d = c ↔ d.id = c.id := by
  cases c
  cases d
  simp only at h
  simp [h]

theorem contains_insert : (cs.insert c).contains d = true ↔ d = c ∨ cs.contains d = true := by
  unfold contains insert numbersOf
  by_cases hu : d.user = c.user
  · rw [hu, SortedMap.get?_insert_self, eq_iff_id_eq hu]
    exact SortedMap.contains_insert_iff
  · rw [SortedMap.get?_insert_of_ne _ _ hu]
    have hdc : d ≠ c := fun e => hu (congrArg Connection.user e)
    simp [hdc]

theorem contains_insertAll {l : List Connection} :
    (l.foldl insert cs).contains d = true ↔ d ∈ l ∨ cs.contains d = true := by
  induction l generalizing cs with
  | nil => simp
  | cons c l ih =>
      rw [List.foldl_cons, ih, contains_insert, List.mem_cons]
      tauto

theorem contains_erase : (cs.erase c).contains d = true ↔ d ≠ c ∧ cs.contains d = true := by
  unfold erase
  cases hc : cs.byUser.get? c.user with
  | none =>
      refine ⟨fun h => ⟨?_, h⟩, And.right⟩
      rintro rfl
      obtain ⟨s, hs, -⟩ := contains_iff.mp h
      rw [hc] at hs
      cases hs
  | some s =>
      simp only
      by_cases hu : d.user = c.user
      · have hs : cs.contains d = s.contains d.id := by
          unfold contains numbersOf
          rw [hu, hc]
          rfl
        rw [hs, ne_eq, eq_iff_id_eq hu, ← SortedMap.contains_erase_iff]
        unfold contains numbersOf
        split_ifs with he
        · -- no connection of the user is left, so the user goes too
          rw [hu, SortedMap.get?_erase_self, SortedMap.isEmpty_iff.mp he]
          rfl
        · rw [hu, SortedMap.get?_insert_self]
          rfl
      · have hdc : d ≠ c := fun e => hu (congrArg Connection.user e)
        unfold contains numbersOf
        split_ifs with he
        · rw [SortedMap.get?_erase_of_ne _ hu]
          simp [hdc]
        · rw [SortedMap.get?_insert_of_ne _ _ hu]
          simp [hdc]

/-- Removing says whether the connection was there, and leaves what erasing leaves. -/
theorem remove_eq (cs : Connections) (c : Connection) : cs.remove c = (cs.contains c, cs.erase c) := by
  unfold remove erase contains numbersOf
  cases cs.byUser.get? c.user with
  | none => rfl
  | some ids => rfl

theorem mem_ofUser : d ∈ cs.ofUser u ↔ d.user = u ∧ cs.contains d = true := by
  unfold ofUser contains
  rw [List.mem_map]
  constructor
  · rintro ⟨i, hi, rfl⟩
    exact ⟨rfl, SortedMap.mem_keys.mp hi⟩
  · rintro ⟨rfl, h⟩
    exact ⟨d.id, SortedMap.mem_keys.mpr h, rfl⟩

theorem ofUser_ne_nil (h : cs.contains d = true) : (cs.ofUser d.user).isEmpty = false := by
  have hd : d ∈ cs.ofUser d.user := mem_ofUser.mpr ⟨rfl, h⟩
  cases hl : cs.ofUser d.user with
  | nil =>
      rw [hl] at hd
      cases hd
  | cons c l => rfl

theorem exists_of_ofUser (h : (cs.ofUser u).isEmpty = false) :
    ∃ d, d.user = u ∧ cs.contains d = true := by
  cases hl : cs.ofUser u with
  | nil =>
      rw [hl] at h
      cases h
  | cons d l => exact ⟨d, mem_ofUser.mp (hl ▸ List.mem_cons_self)⟩

/-! ### Numbering off -/

/-- The connections, user by user. -/
def toList (cs : Connections) : List Connection := cs.users.flatMap cs.ofUser

theorem mem_toList : c ∈ cs.toList ↔ cs.contains c = true := by
  unfold toList users
  rw [List.mem_flatMap]
  constructor
  · rintro ⟨u, -, hc⟩
    exact (mem_ofUser.mp hc).2
  · intro hc
    obtain ⟨s, hs, -⟩ := contains_iff.mp hc
    refine ⟨c.user, ?_, mem_ofUser.mpr ⟨rfl, hc⟩⟩
    rw [SortedMap.mem_keys]
    exact Option.isSome_iff_exists.mpr ⟨s, hs⟩

theorem nodup_toList (cs : Connections) : cs.toList.Nodup := by
  unfold toList
  rw [List.nodup_flatMap]
  refine ⟨fun u _ => ?_, ?_⟩
  · exact (cs.numbersOf u).nodup_keys.map fun i j h => congrArg Connection.id h
  · refine cs.byUser.nodup_keys.imp fun huv c hu hv => huv ?_
    exact (mem_ofUser.mp hu).1.symm.trans (mem_ofUser.mp hv).1

/-- Numbering off names the number of each connection in turn. -/
theorem ids_eq_map (cs : Connections) : cs.ids = cs.toList.map (·.id) := by
  have hnumbers : ∀ e ∈ cs.byUser.entries, e.2.keys = (cs.ofUser e.1).map (·.id) := by
    rintro ⟨u, s⟩ he
    have hs : cs.numbersOf u = s := by
      unfold numbersOf
      rw [SortedMap.mem_entries_iff.mp he]
      rfl
    simp [ofUser, hs, Function.comp_def]
  unfold ids toList users SortedMap.values SortedMap.keys
  rw [List.flatMap_map, List.flatMap_map, List.map_flatMap]
  exact List.flatMap_congr hnumbers

theorem mem_ids : i ∈ cs.ids ↔ ∃ u, cs.contains ⟨i, u⟩ = true := by
  rw [ids_eq_map, List.mem_map]
  constructor
  · rintro ⟨c, hc, rfl⟩
    exact ⟨c.user, mem_toList.mp hc⟩
  · rintro ⟨u, h⟩
    exact ⟨⟨i, u⟩, mem_toList.mpr h, rfl⟩

/-- No number belongs to two users. -/
def Distinct (cs : Connections) : Prop :=
  ∀ i u v, cs.contains ⟨i, u⟩ = true → cs.contains ⟨i, v⟩ = true → u = v

theorem nodup_ids (h : cs.Distinct) : cs.ids.Nodup := by
  rw [ids_eq_map]
  refine cs.nodup_toList.map_on ?_
  rintro ⟨i, u⟩ hc ⟨j, v⟩ hd hij
  obtain rfl : i = j := hij
  rw [h i u v (mem_toList.mp hc) (mem_toList.mp hd)]

/-- Numbering off names a connection once if it belongs to the set, and else not at all. -/
theorem count_ids (h : cs.Distinct)
    (hc : ∀ u, cs.contains ⟨c.id, u⟩ = true → u = c.user) :
    cs.ids.count c.id = if cs.contains c then 1 else 0 := by
  split_ifs with hi
  · exact List.count_eq_one_of_mem (nodup_ids h) (mem_ids.mpr ⟨c.user, hi⟩)
  · refine List.count_eq_zero_of_not_mem fun hm => hi ?_
    obtain ⟨u, hu⟩ := mem_ids.mp hm
    obtain rfl := hc u hu
    exact hu

/-! ### Users -/

/-- Every user that is kept has a connection. -/
def Tight (cs : Connections) : Prop := ∀ u s, cs.byUser.get? u = some s → ∃ i, s.contains i = true

theorem tight_empty : empty.Tight := by
  intro u s h
  cases h

theorem Tight.insert (h : cs.Tight) (c : Connection) : (cs.insert c).Tight := by
  intro u s hs
  rcases SortedMap.get?_insert_eq_some hs with ⟨-, rfl⟩ | ⟨-, hs⟩
  · exact ⟨c.id, SortedMap.contains_insert_iff.mpr (.inl rfl)⟩
  · exact h u s hs

theorem Tight.insertAll (h : cs.Tight) (l : List Connection) : (l.foldl Connections.insert cs).Tight := by
  induction l generalizing cs with
  | nil => exact h
  | cons c l ih => exact ih (h.insert c)

theorem Tight.erase (h : cs.Tight) (c : Connection) : (cs.erase c).Tight := by
  unfold Connections.erase
  cases hc : cs.byUser.get? c.user with
  | none => exact h
  | some s =>
      simp only
      split_ifs with he
      · intro u s' hs'
        exact h u s' (SortedMap.get?_of_erase hs').2
      · intro u s' hs'
        rcases SortedMap.get?_insert_eq_some hs' with ⟨-, rfl⟩ | ⟨-, hs'⟩
        · by_contra hnone
          apply he
          rw [SortedMap.isEmpty_iff]
          simpa using hnone
        · exact h u s' hs'

theorem mem_users (h : cs.Tight) : u ∈ cs.users ↔ ∃ i, cs.contains ⟨i, u⟩ = true := by
  unfold users
  rw [SortedMap.mem_keys]
  constructor
  · intro hu
    obtain ⟨s, hs⟩ := Option.isSome_iff_exists.mp hu
    obtain ⟨i, hi⟩ := h u s hs
    exact ⟨i, contains_iff.mpr ⟨s, hs, hi⟩⟩
  · rintro ⟨i, hi⟩
    obtain ⟨s, hs, -⟩ := contains_iff.mp hi
    exact Option.isSome_iff_exists.mpr ⟨s, hs⟩

theorem ascending_users (cs : Connections) :
    cs.users.Pairwise fun u v => Ranked.rank u < Ranked.rank v :=
  List.pairwise_map.mpr cs.byUser.ascending

/-- The users are the only ascending list of those who have a connection. -/
theorem users_eq_iff (h : cs.Tight) {us : List UserId} : cs.users = us ↔
    us.Pairwise (fun u v => Ranked.rank u < Ranked.rank v) ∧
      ∀ u, u ∈ us ↔ ∃ i, cs.contains ⟨i, u⟩ = true := by
  constructor
  · rintro rfl
    exact ⟨cs.ascending_users, fun u => mem_users h⟩
  · rintro ⟨hus, hmem⟩
    exact SortedMap.eq_of_ascending cs.ascending_users hus fun u => (mem_users h).trans (hmem u).symm

/-! ### Maps without idle users are sets -/

theorem Tight.isEmpty_eq_false (h : cs.Tight) {s : SortedSet ConnectionId}
    (hs : cs.byUser.get? u = some s) : s.isEmpty = false := by
  obtain ⟨i, hi⟩ := h u s hs
  rw [Bool.eq_false_iff]
  intro he
  rw [SortedMap.isEmpty_iff.mp he i] at hi
  cases hi

theorem Tight.get?_eq (h : cs.Tight) (u : UserId) : cs.byUser.get? u =
    if (cs.numbersOf u).isEmpty then none else some (cs.numbersOf u) := by
  unfold numbersOf
  cases hu : cs.byUser.get? u with
  | none => rfl
  | some s => simp [h.isEmpty_eq_false hu]

/-- Maps that keep no idle user are equal if they have the same connections. -/
theorem Tight.ext (hc : cs.Tight) (hd : ds.Tight)
    (h : ∀ c, cs.contains c = true ↔ ds.contains c = true) : cs = ds := by
  have hnumbers : ∀ u, cs.numbersOf u = ds.numbersOf u := fun u =>
    SortedMap.ext_contains fun i => h ⟨i, u⟩
  have hget : cs.byUser = ds.byUser := SortedMap.ext_get? fun u => by
    rw [hc.get?_eq, hd.get?_eq, hnumbers]
  cases cs
  cases ds
  exact congrArg mk hget

theorem Tight.insert_of_contains (h : cs.Tight) (hc : cs.contains c = true) : cs.insert c = cs := by
  refine (h.insert c).ext h fun e => ?_
  rw [contains_insert, or_iff_right_iff_imp]
  rintro rfl
  exact hc

theorem Tight.insert_comm (h : cs.Tight) (c d : Connection) :
    (cs.insert c).insert d = (cs.insert d).insert c := by
  refine ((h.insert c).insert d).ext ((h.insert d).insert c) fun e => ?_
  simp only [contains_insert]
  exact or_left_comm

theorem Tight.erase_comm (h : cs.Tight) (c d : Connection) :
    (cs.erase c).erase d = (cs.erase d).erase c := by
  refine ((h.erase c).erase d).ext ((h.erase d).erase c) fun e => ?_
  simp only [contains_erase]
  exact and_left_comm

theorem Tight.erase_insert_comm (h : cs.Tight) (hcd : c ≠ d) :
    (cs.insert c).erase d = (cs.erase d).insert c := by
  refine ((h.insert c).erase d).ext ((h.erase d).insert c) fun e => ?_
  simp only [contains_insert, contains_erase]
  rw [and_or_left, and_iff_right_of_imp]
  rintro rfl
  exact hcd

end LiveChess.Connections
