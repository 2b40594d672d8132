import LiveChess.Proofs.Followers
import LiveChess.Proofs.MatchRun

/-! # Who is entitled to hear of a match

A user is entitled to hear of a match who has a seat in it or watches it.  A connection that comes
up is shown exactly the matches its user is entitled to (`mem_shown`).  What users watch changes
with two requests only (`handle_noted`): watching adds a match, and disconnecting forgets a user who
has no open connection left.  A match that has not begun is watched by nobody (`Unborn`). -/

namespace LiveChess.Arbiter

variable {a : Arbiter} {m : MatchId} {t : Table} {c : Connection} {u v : UserId}
  {opened : Connections} {r : Request}

/-- The user has a seat in the match, as the store has it, or watches the match. -/
def Entitled (a : Arbiter) (m : MatchId) (u : UserId) : Prop :=
  (∃ r, a.store.records.get? m = some r ∧ (r.seats.seatOf u).isSome = true) ∨
    (a.watched u).contains m = true

theorem mem_view {seated : List MatchId} {watched : SortedSet MatchId} :
    m ∈ view seated watched ↔ m ∈ seated ∨ watched.contains m = true := by
  unfold view
  rw [SortedMap.mem_keys]
  induction seated generalizing watched with
  | nil => simp
  | cons id l ih =>
      rw [List.foldl_cons, ih, List.mem_cons]
      unfold SortedMap.add
      rw [SortedMap.contains_insert_iff]
      tauto

theorem mem_seated {s : Store} {budget : Duration} {ids : List MatchId}
    (h : s.seated u budget = .ok ids) :
    m ∈ ids ↔ ∃ r, s.records.get? m = some r ∧ (r.seats.seatOf u).isSome = true := by
  unfold Store.seated at h
  split at h
  · cases h
  · cases h
    simp only [List.mem_map, List.mem_filter]
    constructor
    · rintro ⟨⟨id, r⟩, ⟨he, hr⟩, rfl⟩
      exact ⟨r, SortedMap.mem_entries_iff.mp he, hr⟩
    · rintro ⟨r, hr, hs⟩
      exact ⟨(m, r), ⟨SortedMap.mem_entries_iff.mpr hr, hs⟩, rfl⟩

/-- If the store answers, a connection is shown the matches that its user is entitled to. -/
theorem mem_shown (h : (a.hall.seated c.user a.store).isOk = true) :
    m ∈ a.shown c ↔ Entitled a m c.user := by
  unfold shown Entitled
  unfold Hall.seated at h ⊢
  cases hs : a.store.seated c.user a.hall.budget with
  | error e =>
      rw [hs] at h
      cases h
  | ok ids =>
      simp only
      rw [mem_view, mem_seated hs]

theorem entitled_of_mem_shown (h : m ∈ a.shown c) : Entitled a m c.user := by
  cases hs : a.hall.seated c.user a.store with
  | error e =>
      unfold shown at h
      rw [hs] at h
      cases h
  | ok ids =>
      refine (mem_shown ?_).mp h
      rw [hs]
      rfl

/-- The connections that a request lets follow a match are the one that came up, if it is shown the
match, and those of a user who asked to watch it. -/
theorem mem_welcomes {d : Connection} : d ∈ a.welcomes opened m r ↔
    r = .connect d ∧ m ∈ a.shown d ∨ r = .watch m d.user ∧ d ∈ opened.ofUser d.user := by
  cases r with
  | connect c =>
      simp only [welcomes, List.mem_map, List.mem_filter, decide_eq_true_eq, reduceCtorEq,
        false_and, or_false, Request.connect.injEq]
      constructor
      · rintro ⟨id, ⟨hid, rfl⟩, rfl⟩
        exact ⟨rfl, hid⟩
      · rintro ⟨rfl, hm⟩
        exact ⟨m, ⟨hm, rfl⟩, rfl⟩
  | watch id u =>
      simp only [welcomes, reduceCtorEq, false_and, false_or, Request.watch.injEq]
      constructor
      · intro hd
        split_ifs at hd with hid
        · obtain ⟨rfl, -⟩ := Connections.mem_ofUser.mp hd
          exact ⟨⟨hid, rfl⟩, hd⟩
        · cases hd
      · rintro ⟨⟨rfl, rfl⟩, hd⟩
        rw [if_pos rfl]
        exact hd
  | _ => simp [welcomes]

/-! ### How what is watched changes -/

/-- What a request does to the lists of watched matches. -/
inductive Noted (a : Arbiter) (opened : Connections) (r : Request) (a' : Arbiter) : Prop where
  | same (h : a'.watching = a.watching)
  | forgot (c : Connection) (hr : r = .disconnect c) (hnone : (opened.ofUser c.user).isEmpty = true)
      (h : a'.watching = a.watching.erase c.user)
  | noted (id : MatchId) (u : UserId) (hr : r = .watch id u)
      (hsome : (opened.ofUser u).isEmpty = false)
      (h : a'.watching = a.watching.insert u ((a.watched u).add id))

theorem watching_showOne (c : Connection) (a : Arbiter) (id : MatchId) :
    (showOne c a id).2.watching = a.watching := by
  rw [state_showOne]
  exact a.attend_watching id _

theorem watching_showAll (c : Connection) (ids : List MatchId) (a : Arbiter) :
    (showAll c ids a).2.watching = a.watching :=
  showAll_keeps (P := fun a' => a'.watching = a.watching)
    (fun a' id h => (watching_showOne c a' id).trans h) ids rfl

theorem watch_noted (a : Arbiter) (opened : Connections) (id : MatchId) (u : UserId) :
    Noted a opened (.watch id u) (a.watch opened id u).state := by
  have h := a.attend_watching id (followAct (opened.ofUser u))
  rw [watch_eq]
  generalize a.attend id (followAct (opened.ofUser u)) = x at h ⊢
  obtain ⟨e | t, x⟩ := x
  · exact .same h
  · cases hu : (opened.ofUser u).isEmpty with
    | true =>
        refine .same ?_
        simp only [if_true]
        exact h
    | false =>
        refine .noted id u rfl hu ?_
        have hw : x.watched u = a.watched u := by
          unfold watched
          rw [show x.watching = a.watching from h]
        simp only [hw, Bool.false_eq_true, if_false]
        rw [show x.watching = a.watching from h]

theorem handle_noted (hk : a.hall.Keyed) (opened : Connections) (r : Request) :
    Noted a opened r (a.handle opened r).state := by
  cases r with
  | connect c =>
      refine .same ?_
      show (a.connect c).state.watching = a.watching
      rw [state_connect]
      exact watching_showAll c _ a
  | disconnect c =>
      cases hu : (opened.ofUser c.user).isEmpty with
      | true =>
          refine .forgot c rfl hu ?_
          show (if _ then _ else _) = _
          rw [if_pos hu]
      | false =>
          refine .same ?_
          show (if (opened.ofUser c.user).isEmpty = true then _ else _) = _
          rw [hu]
          rfl
  | showMoves c id source =>
      refine .same ?_
      show (a.showMoves c id source).state.watching = a.watching
      rcases a.state_showMoves c id source with hs | ⟨s, hs⟩
      · rw [hs]
      · rw [hs]
        exact a.attend_watching id _
  | move c id source target =>
      refine .same ?_
      show (a.move c id source target).state.watching = a.watching
      rcases state_move hk c id source target with hs | ⟨s, s', hs⟩
      · rw [hs]
      · rw [hs]
        exact a.attend_watching id _
  | join id u =>
      refine .same ?_
      show (a.join opened id u).state.watching = a.watching
      rw [state_join]
      exact a.attend_watching id _
  | watch id u => exact watch_noted a opened id u
  | create creator color opponent =>
      refine .same ?_
      show (a.create opened creator color opponent).state.watching = a.watching
      cases create_founded hk opened creator color opponent with
      | refused e hx => rw [hx]
      | founded answer distinct stands off watching => exact watching

variable {a' : Arbiter}

theorem watched_insert {ids : SortedSet MatchId} (h : a'.watching = a.watching.insert u ids) :
    a'.watched v = if v = u then ids else a.watched v := by
  unfold watched
  rw [h]
  split_ifs with hv
  · rw [hv, SortedMap.get?_insert_self]
    rfl
  · rw [SortedMap.get?_insert_of_ne _ _ hv]

theorem watched_erase (h : a'.watching = a.watching.erase u) :
    a'.watched v = if v = u then .empty else a.watched v := by
  unfold watched
  rw [h]
  split_ifs with hv
  · rw [hv, SortedMap.get?_erase_self]
    rfl
  · rw [SortedMap.get?_erase_of_ne _ hv]

/-- A user with an open connection goes on watching. -/
theorem Noted.keeps (h : Noted a opened r a') (hopen : (opened.ofUser v).isEmpty = false)
    (hw : (a.watched v).contains m = true) : (a'.watched v).contains m = true := by
  cases h with
  | same h =>
      unfold watched at hw ⊢
      rw [h]
      exact hw
  | forgot c hr hnone h =>
      rw [watched_erase h]
      split_ifs with hv
      · rw [hv, hnone] at hopen
        cases hopen
      · exact hw
  | noted id u hr hsome h =>
      rw [watched_insert h]
      split_ifs with hv
      · rw [SortedMap.add, SortedMap.contains_insert_iff, ← hv]
        exact .inr hw
      · exact hw

/-- A match that is watched was watched before, or the request was to watch it. -/
theorem Noted.origin (h : Noted a opened r a') (hw : (a'.watched v).contains m = true) :
    (a.watched v).contains m = true ∨
      r = .watch m v ∧ (opened.ofUser v).isEmpty = false := by
  cases h with
  | same h =>
      unfold watched at hw ⊢
      rw [h] at hw
      exact .inl hw
  | forgot c hr hnone h =>
      rw [watched_erase h] at hw
      split_ifs at hw with hv
      · cases hw
      · exact .inl hw
  | noted id u hr hsome h =>
      rw [watched_insert h] at hw
      split_ifs at hw with hv
      · rw [SortedMap.add, SortedMap.contains_insert_iff] at hw
        rcases hw with rfl | hw
        · exact .inr ⟨hv ▸ hr, hv ▸ hsome⟩
        · exact .inl (hv ▸ hw)
      · exact .inl hw

/-- A user with an open connection who asks to watch a standing match does so. -/
theorem Stands.watched_watch (h : Stands a m t) (hu : (opened.ofUser u).isEmpty = false) :
    ((a.watch opened m u).state.watched u).contains m = true := by
  have hw : (a.watch opened m u).state.watching = a.watching.insert u ((a.watched u).add m) := by
    rw [watch_eq, h.attend]
    simp only [hu]
    rfl
  rw [watched_insert hw, if_pos rfl, SortedMap.add, SortedMap.contains_insert_iff]
  exact .inl rfl

/-! ### Matches that have not begun -/

/-- Nothing is known of the match, and nobody watches it. -/
structure Unborn (a : Arbiter) (m : MatchId) : Prop where
  table : a.hall.tables.get? m = none
  record : a.store.records.get? m = none
  unwatched : ∀ u, (a.watched u).contains m = false

theorem Unborn.under (h : Unborn a m) (o : Outage) : Unborn (a.under o) m :=
  ⟨h.table, h.record, h.unwatched⟩

theorem Unborn.attend {β : Type} (h : Unborn a m) (act : Table → Store → β × Table × Store) :
    ∃ e, a.attend m act =
      (.error e, { a with store := { a.store with loads := a.store.loads + 1 } }) := by
  have hf := a.find_finds m
  unfold Arbiter.attend
  generalize a.find m = x at hf ⊢
  cases hf with
  | held t ht => rw [h.table] at ht; cases ht
  | refused e ht => exact ⟨e, rfl⟩
  | loaded r g ht hr hg => rw [h.record] at hr; cases hr

theorem Unborn.state_attend {β : Type} (h : Unborn a m)
    (act : Table → Store → β × Table × Store) : Unborn (a.attend m act).2 m := by
  obtain ⟨e, he⟩ := h.attend act
  rw [he]
  exact ⟨h.table, h.record, h.unwatched⟩

theorem Unborn.showAll (h : Unborn a m) (hk : a.hall.Keyed) (c : Connection)
    (ids : List MatchId) : Unborn (Arbiter.showAll c ids a).2 m := by
  have hone : ∀ a id, Unborn a m ∧ a.hall.Keyed →
      Unborn (Arbiter.showOne c a id).2 m ∧ (Arbiter.showOne c a id).2.hall.Keyed := by
    rintro a id ⟨h, hk⟩
    have hoff := agreesOff_showOne hk c id
    refine ⟨?_, hoff.keyed⟩
    by_cases hid : m = id
    · subst hid
      rw [state_showOne]
      exact h.state_attend _
    · refine ⟨(hoff.tables m hid).trans h.table, (hoff.records m hid).trans h.record, ?_⟩
      intro u
      unfold watched
      rw [watching_showOne]
      exact h.unwatched u
  exact (showAll_keeps (P := fun a => Unborn a m ∧ a.hall.Keyed) hone ids ⟨h, hk⟩).1

/-- Requests on a match that has not begun are refused. -/
theorem Unborn.refused (h : Unborn a m) (hk : a.hall.Keyed) (opened : Connections)
    (hr : r.about = some m) : Unborn (a.handle opened r).state m := by
  cases r with
  | connect c => cases hr
  | disconnect c => cases hr
  | create creator color opponent => cases hr
  | showMoves c id source =>
      cases hr
      show Unborn (a.showMoves c m source).state m
      rcases a.state_showMoves c m source with hs | ⟨s, hs⟩
      · rw [hs]
        exact h
      · rw [hs]
        exact h.state_attend _
  | move c id source target =>
      cases hr
      show Unborn (a.move c m source target).state m
      rcases state_move hk c m source target with hs | ⟨s, s', hs⟩
      · rw [hs]
        exact h
      · rw [hs]
        exact h.state_attend _
  | join id u =>
      cases hr
      show Unborn (a.join opened m u).state m
      rw [state_join]
      exact h.state_attend _
  | watch id u =>
      cases hr
      obtain ⟨e, he⟩ := h.attend (followAct (opened.ofUser u))
      show Unborn (a.watch opened m u).state m
      rw [watch_eq, he]
      exact ⟨h.table, h.record, h.unwatched⟩

theorem Unborn.handle (h : Unborn a m) (hk : a.hall.Keyed) (opened : Connections)
    (hr : (a.handle opened r).answer ≠ .created m) : Unborn (a.handle opened r).state m := by
  by_cases habout : r.about = some m
  · exact h.refused hk opened habout
  · have hunwatched : ∀ u, ((a.handle opened r).state.watched u).contains m = false := by
      intro u
      by_contra hu
      rcases (handle_noted hk opened r).origin (Bool.not_eq_false _ ▸ hu) with hw | ⟨rfl, -⟩
      · rw [h.unwatched u] at hw
        cases hw
      · exact habout rfl
    cases hid : r.about with
    | some id =>
        have hoff := agreesOff_handle hk opened hid
        have hne : m ≠ id := by
          rintro rfl
          exact habout hid
        exact ⟨(hoff.tables m hne).trans h.table, (hoff.records m hne).trans h.record, hunwatched⟩
    | none =>
        cases r with
        | connect c =>
            show Unborn (a.connect c).state m
            rw [state_connect]
            exact h.showAll hk c _
        | disconnect c =>
            refine ⟨?_, h.record, hunwatched⟩
            show (a.disconnect opened c).state.hall.tables.get? m = none
            rw [get?_disconnect, h.table]
            rfl
        | create creator color opponent =>
            show Unborn (a.create opened creator color opponent).state m
            cases create_founded hk opened creator color opponent with
            | refused e hx =>
                rw [hx]
                exact h
            | founded answer distinct stands off watching =>
                have hne : m ≠ a.store.nextId := by
                  intro hm
                  apply hr
                  rw [hm]
                  exact answer
                exact ⟨(off.tables m hne).trans h.table, (off.records m hne).trans h.record,
                  hunwatched⟩
        | _ => cases hid

end LiveChess.Arbiter
