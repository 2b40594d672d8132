import LiveChess.Proofs.Permanence
import LiveChess.Proofs.Watching

/-! # Seats are held as promised

A user gets a seat by beginning a match, by being named as the opponent then, or by joining it; and
each time somebody is told so.  `promised` reads from a request and its answer who was promised a
seat.  In a run with fresh names the promises about a match are those who have its seats, each
promised once (`Booked`).  So the matches that the store lists for a user are those in which the
user was promised a seat, and at most one join of a match succeeds (`seated_iff_promised`). -/

namespace LiveChess

/-- The users who got a seat by the beginning of the match: the one who began it and the opponent
who was named. -/
def founders (m : MatchId) : Request × Handled → List UserId
  | (.create creator _ opponent, x) =>
    if x.answer = .created m then creator :: opponent.toList else []
  | _ => []

/-- The user who got a seat by joining the match. -/
def joiners (m : MatchId) : Request × Handled → List UserId
  | (.join id u, x) => if id = m ∧ x.answer = .done then [u] else []
  | _ => []

/-- The users who were promised a seat in the match. -/
def promised (m : MatchId) (x : Request × Handled) : List UserId := founders m x ++ joiners m x

variable {m : MatchId} {u : UserId} {x : Request × Handled} {past : List (Request × Handled)}
  {g g' : Game} {c : Color}

theorem founders_of_create {creator : UserId} {color : Color} {opponent : Option UserId}
    {y : Handled} (h : y.answer = .created m) :
    founders m (.create creator color opponent, y) = creator :: opponent.toList := if_pos h

theorem founders_eq_nil (h : x.2.answer ≠ .created m) : founders m x = [] := by
  obtain ⟨r, y⟩ := x
  cases r with
  | create creator color opponent => exact if_neg h
  | _ => rfl

theorem joiners_of_done {y : Handled} (h : y.answer = .done) :
    joiners m (.join m u, y) = [u] := if_pos ⟨rfl, h⟩

theorem joiners_of_refused {y : Handled} {e : Refusal} (h : y.answer = .refused e) :
    joiners m (.join m u, y) = [] := by
  refine if_neg ?_
  rw [h]
  rintro ⟨-, ⟨⟩⟩

theorem joiners_eq_nil (h : ∀ u, x.1 ≠ .join m u) : joiners m x = [] := by
  obtain ⟨r, y⟩ := x
  cases r with
  | join id u =>
      refine if_neg ?_
      rintro ⟨rfl, -⟩
      exact h u rfl
  | _ => rfl

/-- Every promise was made by a beginning or by a join. -/
theorem length_promised (m : MatchId) (past : List (Request × Handled)) :
    (past.flatMap (promised m)).length =
      (past.flatMap (founders m)).length + (past.flatMap (joiners m)).length := by
  induction past with
  | nil => rfl
  | cons x past ih =>
      simp only [List.flatMap_cons, List.length_append, promised] at ih ⊢
      omega

/-! ### Promises and seats -/

/-- The match was begun, and its seats are those that were promised, each to one user. -/
structure Booked (m : MatchId) (past : List (Request × Handled)) (g : Game) : Prop where
  mem_iff : ∀ u, u ∈ past.flatMap (promised m) ↔ (g.seats.seatOf u).isSome = true
  nodup : (past.flatMap (promised m)).Nodup
  begun : past.flatMap (founders m) ≠ []

theorem Booked.still (h : Booked m past g) (hf : founders m x = []) (hj : joiners m x = [])
    (hseats : g'.seats = g.seats) : Booked m (past ++ [x]) g' := by
  have hpromised : (past ++ [x]).flatMap (promised m) = past.flatMap (promised m) := by
    simp [promised, hf, hj]
  refine ⟨?_, ?_, ?_⟩
  · rw [hpromised, hseats]
    exact h.mem_iff
  · rw [hpromised]
    exact h.nodup
  · simpa [hf] using h.begun

/-- A join that succeeds promises a seat to a user who had none. -/
theorem Booked.join (h : Booked m past g) (hf : founders m x = []) (hj : joiners m x = [u])
    (step : g.join u = .ok (c, g')) : Booked m (past ++ [x]) g' := by
  have hpromised : (past ++ [x]).flatMap (promised m) = past.flatMap (promised m) ++ [u] := by
    simp [promised, hf, hj]
  have hnone : g.seats.seatOf u = none := (Game.join_eq_ok_iff.mp step).2.1
  refine ⟨?_, ?_, ?_⟩
  · intro v
    rw [hpromised, List.mem_append, List.mem_singleton, h.mem_iff, Game.seatOf_of_join step]
  · rw [hpromised]
    refine h.nodup.append (List.nodup_singleton u) ?_
    rw [List.disjoint_singleton, h.mem_iff, hnone]
    exact Bool.false_ne_true
  · simpa [hf] using h.begun

theorem Booked.length_le (h : Booked m past g) : (past.flatMap (promised m)).length ≤ 2 := by
  have hsub : past.flatMap (promised m) ⊆ g.seats.players := fun u hu =>
    Seats.mem_players.mpr ((h.mem_iff u).mp hu)
  exact (List.subperm_of_subset h.nodup hsub).length_le.trans g.seats.length_players_le

/-- Who began the match has one of the two seats, so one is left for a join. -/
theorem Booked.length_joiners_le (h : Booked m past g) :
    (past.flatMap (joiners m)).length ≤ 1 := by
  have hbegun := List.length_pos_iff.mpr h.begun
  have hsum := length_promised m past
  have hle := h.length_le
  omega

/-- No seat is left in a match that was begun with an opponent. -/
theorem Booked.joiners_eq_nil (h : Booked m past g) (hx : x ∈ past)
    (hpair : 2 ≤ (founders m x).length) : past.flatMap (joiners m) = [] := by
  obtain ⟨pre, post, rfl⟩ := List.append_of_mem hx
  have hsum := length_promised m (pre ++ x :: post)
  have hle := h.length_le
  rw [← List.length_eq_zero_iff]
  simp only [List.flatMap_append, List.flatMap_cons, List.length_append] at hsum hle ⊢
  omega

/-- Nobody is promised a seat twice. -/
theorem Booked.not_mem_of_join {pre post : List (Request × Handled)} {y : Handled}
    (h : Booked m (pre ++ (.join m u, y) :: post) g) (hy : y.answer = .done) :
    u ∉ pre.flatMap (promised m) := by
  have hnodup := h.nodup
  rw [List.flatMap_append, List.nodup_append'] at hnodup
  intro hu
  refine hnodup.2.2 hu (List.mem_flatMap.mpr ⟨_, List.mem_cons_self, ?_⟩)
  rw [promised, joiners_of_done hy]
  exact List.mem_append_right _ (List.mem_singleton_self u)

namespace Arbiter

variable {a : Arbiter} {t : Table} {e : Occasion}

/-! ### One request -/

theorem meet_of_join {opened : Connections} {o : Outage} :
    a.meet ⟨.join m u, opened, o⟩ = (a.under o).join opened m u := rfl

/-- A match that has not begun cannot be joined. -/
theorem Unborn.joiners_meet (h : Unborn a m) (e : Occasion) :
    joiners m (e.request, a.meet e) = [] := by
  obtain ⟨r, opened, o⟩ := e
  by_cases hr : ∃ u, r = .join m u
  · obtain ⟨u, rfl⟩ := hr
    obtain ⟨f, hf⟩ := (h.under o).attend (joinAct (opened.ofUser u) u)
    refine joiners_of_refused (e := f) ?_
    rw [meet_of_join, join_eq, hf]
  · exact joiners_eq_nil fun u hu => hr ⟨u, hu⟩

/-- A join takes a seat and is told so, or it changes no seat and is refused. -/
theorem Has.joiners_join (h : Has a m g) (hk : a.hall.Keyed) (opened : Connections) (u : UserId) :
    ∃ g', Has (a.join opened m u).state m g' ∧
      (joiners m (.join m u, a.join opened m u) = [] ∧ g'.seats = g.seats ∨
        ∃ seat, joiners m (.join m u, a.join opened m u) = [u] ∧ g.join u = .ok (seat, g')) := by
  rcases h with ⟨t, hs, rfl⟩ | ho
  · rcases hs.join hk opened u with ⟨e, he, -, hs'⟩ | ⟨seat, next, step, hdone, t', rfl, -, hs'⟩
    · exact ⟨t.game, .inl ⟨t, hs', rfl⟩, .inl ⟨joiners_of_refused he, rfl⟩⟩
    · have hgame := Table.connectAll_game { t with game := next } (opened.ofUser u)
      exact ⟨next, .inl ⟨_, hs', hgame⟩, .inr ⟨seat, joiners_of_done hdone, step⟩⟩
  · obtain ⟨⟨e, he⟩, -, ho'⟩ := ho.join opened u
    exact ⟨g, .inr ho', .inl ⟨joiners_of_refused he, rfl⟩⟩

/-- Nothing but a join changes the seats of a match that has begun. -/
theorem Has.seats_meet (h : Has a m g) (hk : a.hall.Keyed)
    (he : (a.meet e).answer ≠ .created m) (hr : ∀ u, e.request ≠ .join m u) :
    ∃ g', Has (a.meet e).state m g' ∧ g'.seats = g.seats := by
  rcases h.under e.outage with ⟨t, hs, rfl⟩ | ho
  · have hcourse : Course (a.under e.outage) e.opened m t e.request (a.meet e) :=
      hs.handle hk e.opened he
    cases hcourse with
    | still stands quiet refused =>
        exact ⟨t.game, .inl ⟨_, stands, Table.connectAll_game _ _⟩, rfl⟩
    | left c hleft stands quiet => exact ⟨t.game, .inl ⟨_, stands, rfl⟩, rfl⟩
    | joined u seat next hjoin step stands quiet => exact absurd hjoin (hr u)
    | moved c s s' q next hmove step sent goes =>
        have hseats := (Game.log_of_move step).2.2.1
        rcases goes with goes | goes
        · exact ⟨next, .inl ⟨_, goes, rfl⟩, hseats⟩
        · exact ⟨next, .inr goes, hseats⟩
  · exact ⟨g, .inr (ho.handle hk e.opened he).1, rfl⟩

/-- The seats of a match stay as they are, or somebody joins and is told so. -/
theorem Has.joiners_meet (h : Has a m g) (hk : a.hall.Keyed)
    (he : (a.meet e).answer ≠ .created m) :
    ∃ g', Has (a.meet e).state m g' ∧
      (joiners m (e.request, a.meet e) = [] ∧ g'.seats = g.seats ∨
        ∃ u seat, joiners m (e.request, a.meet e) = [u] ∧ g.join u = .ok (seat, g')) := by
  by_cases hr : ∃ u, e.request = .join m u
  · obtain ⟨r, opened, o⟩ := e
    obtain ⟨u, rfl⟩ := hr
    obtain ⟨g', hhas, hj | ⟨seat, hj, step⟩⟩ :=
      (h.under o).joiners_join (a := a.under o) hk opened u
    · exact ⟨g', hhas, .inl hj⟩
    · exact ⟨g', hhas, .inr ⟨u, seat, hj, step⟩⟩
  · have hr' : ∀ u, e.request ≠ .join m u := fun u hu => hr ⟨u, hu⟩
    obtain ⟨g', hhas, hseats⟩ := h.seats_meet hk he hr'
    exact ⟨g', hhas, .inl ⟨joiners_eq_nil hr', hseats⟩⟩

/-- A match that is created has the seats that were promised. -/
theorem booked_of_created (hk : a.hall.Keyed) (hnone : past.flatMap (promised m) = [])
    (h : (a.meet e).answer = .created m) :
    ∃ g, Has (a.meet e).state m g ∧ Booked m (past ++ [(e.request, a.meet e)]) g := by
  obtain ⟨-, creator, color, opponent, t, hr, distinct, stands, hgame⟩ := stands_of_created hk h
  have hf : founders m (e.request, a.meet e) = creator :: opponent.toList := by
    rw [hr]
    exact founders_of_create h
  have hj : joiners m (e.request, a.meet e) = [] := by
    rw [hr]
    rfl
  have hpromised : (past ++ [(e.request, a.meet e)]).flatMap (promised m) =
      creator :: opponent.toList := by
    simp [hnone, promised, hf, hj]
  refine ⟨t.game, .inl ⟨t, stands, rfl⟩, ?_, ?_, ?_⟩
  · intro u
    rw [hpromised, hgame, List.mem_cons, Option.mem_toList]
    show _ ↔ ((seatsOf creator color opponent).seatOf u).isSome = true
    rw [Seats.seatOf_isSome_iff]
    cases color with
    | white => simp [seatsOf, eq_comm]
    | black => simp [seatsOf, eq_comm, or_comm]
  · rw [hpromised, List.nodup_cons, Option.mem_toList]
    refine ⟨fun hopp => ?_, by cases opponent <;> simp⟩
    cases color with
    | white => exact distinct creator ⟨rfl, hopp⟩
    | black => exact distinct creator ⟨hopp, rfl⟩
  · simp [hf]

/-! ### Runs -/

/-- The match has not begun and nobody was promised a seat in it, or its seats are as promised. -/
def Accounted (a : Arbiter) (m : MatchId) (past : List (Request × Handled)) : Prop :=
  Unborn a m ∧ past.flatMap (promised m) = [] ∨ ∃ g, Has a m g ∧ Booked m past g

theorem Accounted.meet (h : Accounted a m past) (hk : a.hall.Keyed)
    (hfresh : e.request.creates = true → Unnamed a a.store.nextId) :
    Accounted (a.meet e).state m (past ++ [(e.request, a.meet e)]) := by
  by_cases he : (a.meet e).answer = .created m
  · rcases h with ⟨-, hnone⟩ | ⟨g, hhas, -⟩
    · exact .inr (booked_of_created hk hnone he)
    · -- the store would have named a match that has a record
      obtain ⟨rfl, creator, color, opponent, t, hr, -⟩ := stands_of_created hk he
      have hunnamed : a.store.records.get? a.store.nextId = none := hfresh (by rw [hr]; rfl)
      rw [hhas.record] at hunnamed
      cases hunnamed
  · have hf : founders m (e.request, a.meet e) = [] := founders_eq_nil he
    rcases h with ⟨hu, hnone⟩ | ⟨g, hhas, hbooked⟩
    · have hj := hu.joiners_meet e
      refine .inl ⟨(hu.under e.outage).handle hk e.opened he, ?_⟩
      simp [hnone, promised, hf, hj]
    · obtain ⟨g', hhas', ⟨hj, hseats⟩ | ⟨u, seat, hj, step⟩⟩ := hhas.joiners_meet hk he
      · exact .inr ⟨g', hhas', hbooked.still hf hj hseats⟩
      · exact .inr ⟨g', hhas', hbooked.join hf hj step⟩

theorem Accounted.after (h : Accounted a m past) (hk : a.hall.Keyed) {es : List Occasion}
    (hfresh : NamesAfresh a es) : Accounted (a.after es) m (past ++ a.trace es) := by
  induction es generalizing a past with
  | nil =>
      show Accounted a m (past ++ [])
      rw [List.append_nil]
      exact h
  | cons e es ih =>
      have hk' : (a.meet e).state.hall.Keyed :=
        keyed_handle (a := a.under e.outage) hk e.opened e.request
      have h' := ih (h.meet hk hfresh.1) hk' hfresh.2
      rw [List.append_assoc] at h'
      exact h'

theorem accounted_of_run {supply : List MatchId} {budget : Duration} {es : List Occasion}
    (hfresh : NamesAfresh (new (.new supply) budget) es) (m : MatchId) :
    Accounted ((new (.new supply) budget).after es) m ((new (.new supply) budget).trace es) := by
  have h₀ : Accounted (new (.new supply) budget) m [] := .inl ⟨⟨rfl, rfl, fun _ => rfl⟩, rfl⟩
  exact h₀.after (keyed_new _ _) hfresh

/-- The store lists the matches of a user in ascending order. -/
theorem pairwise_seated {s : Store} {budget : Duration} {ids : List MatchId}
    (h : s.seated u budget = .ok ids) :
    ids.Pairwise fun i j => Ranked.rank i < Ranked.rank j := by
  unfold Store.seated at h
  split at h
  · cases h
  · cases h
    rw [List.pairwise_map]
    exact s.records.ascending.filter _

/-- **A seat is held exactly if it was promised.**  Begin with no records, and handle any requests
with any connections open and any calls of the store failing, new matches getting fresh names.  The
matches that the store lists for a user, whenever it answers, are in ascending order, and they are
those that were created for the user, as the one who began them or as the opponent, or that the user
was told to have joined.  At most one join of a match succeeds, none if the match was begun with an
opponent, and never one of a user who was promised a seat before. -/
theorem seated_iff_promised (supply : List MatchId) (budget : Duration) {es : List Occasion}
    {a : Arbiter} {past : List (Request × Handled)} (ha : a = (new (.new supply) budget).after es)
    (hpast : past = (new (.new supply) budget).trace es)
    (hfresh : NamesAfresh (new (.new supply) budget) es) :
    (∀ o budget' u ids, (a.under o).store.seated u budget' = .ok ids →
      ids.Pairwise (fun i j => Ranked.rank i < Ranked.rank j) ∧
        ∀ m, m ∈ ids ↔ u ∈ past.flatMap (promised m)) ∧
    ∀ m, (past.flatMap (joiners m)).length ≤ 1 ∧
      (∀ creator color opponent x, (.create creator color (some opponent), x) ∈ past →
        x.answer = .created m → past.flatMap (joiners m) = []) ∧
      ∀ pre u x post, past = pre ++ (.join m u, x) :: post → x.answer = .done →
        u ∉ pre.flatMap (promised m) := by
  have haccounted : ∀ m, Accounted a m past := by
    rw [ha, hpast]
    exact accounted_of_run hfresh
  refine ⟨fun o budget' u ids hids => ⟨pairwise_seated hids, fun m => ?_⟩, fun m => ?_⟩
  · rw [mem_seated hids]
    show (∃ r, a.store.records.get? m = some r ∧ _) ↔ _
    rcases haccounted m with ⟨hu, hnone⟩ | ⟨g, hhas, hbooked⟩
    · simp [hu.record, hnone]
    · rw [hbooked.mem_iff, hhas.record]
      simp [Game.toRecord]
  · rcases haccounted m with ⟨hu, hnone⟩ | ⟨g, hhas, hbooked⟩
    · have hsum := length_promised m past
      rw [hnone, List.length_nil] at hsum
      have hjoiners : past.flatMap (joiners m) = [] := by
        rw [← List.length_eq_zero_iff]
        omega
      refine ⟨by rw [hjoiners]; exact Nat.zero_le 1, fun _ _ _ _ _ _ => hjoiners, ?_⟩
      rintro pre u x post rfl -
      rw [List.flatMap_append, List.append_eq_nil_iff] at hnone
      rw [hnone.1]
      exact List.not_mem_nil
    · refine ⟨hbooked.length_joiners_le, ?_, ?_⟩
      · intro creator color opponent x hx hcreated
        refine hbooked.joiners_eq_nil hx ?_
        rw [founders_of_create hcreated]
        exact le_refl 2
      · rintro pre u x post rfl hdone
        exact hbooked.not_mem_of_join hdone

/-- Bob's join fails in the store, so Carol gets the seat and Bob comes too late; but Alice names him
as her opponent in a second match. -/
theorem seated_iff_promised_of_latecomer :
    let first : MatchId := ⟨⟨7⟩⟩
    let second : MatchId := ⟨⟨5⟩⟩
    let alice : UserId := ⟨⟨1⟩⟩
    let bob : UserId := ⟨⟨2⟩⟩
    let carol : UserId := ⟨⟨3⟩⟩
    let down : Outage := { Outage.none with save := fun _ => some (.unavailable "down") }
    let es : List Occasion := [⟨.create alice .black none, .empty, .none⟩,
      ⟨.join first bob, .empty, down⟩, ⟨.join first carol, .empty, .none⟩,
      ⟨.join first bob, .empty, .none⟩, ⟨.create alice .white (some bob), .empty, .none⟩]
    let a := (new (.new [first, second]) ⟨1000⟩).after es
    let past := (new (.new [first, second]) ⟨1000⟩).trace es
    NamesAfresh (new (.new [first, second]) ⟨1000⟩) es ∧
      a.store.seated alice ⟨1000⟩ = .ok [second, first] ∧
      past.flatMap (promised first) = [alice, carol] ∧
      (∀ m, m ∈ [second, first] ↔ alice ∈ past.flatMap (promised m)) ∧
      ∀ m, (past.flatMap (joiners m)).length ≤ 1 := by
  intro first second alice bob carol down es a past
  have hfresh : NamesAfresh (new (.new [first, second]) ⟨1000⟩) es := by decide +kernel
  have hseated : a.store.seated alice ⟨1000⟩ = .ok [second, first] := by decide +kernel
  have hpromised : past.flatMap (promised first) = [alice, carol] := by decide +kernel
  have ha : a = (new (.new [first, second]) ⟨1000⟩).after es := rfl
  have hpast : past = (new (.new [first, second]) ⟨1000⟩).trace es := rfl
  clear_value a past
  obtain ⟨hlisted, hjoins⟩ := seated_iff_promised [first, second] ⟨1000⟩ ha hpast hfresh
  have hids : (a.under a.store.outage).store.seated alice ⟨1000⟩ = .ok [second, first] := hseated
  exact ⟨hfresh, hseated, hpromised, (hlisted _ _ _ _ hids).2, fun m => (hjoins m).1⟩

end Arbiter
end LiveChess
