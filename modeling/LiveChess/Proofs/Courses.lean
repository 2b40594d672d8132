import LiveChess.Proofs.Requests

/-! # The course of a match

A match comes into being with a request to create it (`create_founded`).  As long as it is not over,
each request takes one of four courses with it (`Course`): its game stays, a connection leaves it, a
player sits down, or a man is moved.  `Stands.handle` is this case distinction; everything that is
proved about runs follows it. -/

namespace LiveChess

/-- The players that have a seat. -/
def Seats.players (s : Seats) : List UserId := s.white.toList ++ s.black.toList

theorem Seats.mem_players {s : Seats} {u : UserId} :
    u ∈ s.players ↔ (s.seatOf u).isSome = true := by
  unfold players
  rw [seatOf_isSome_iff, List.mem_append, Option.mem_toList, Option.mem_toList]

theorem Seats.length_players_le (s : Seats) : s.players.length ≤ 2 := by
  have hw : s.white.toList.length ≤ 1 := by cases s.white <;> simp
  have hb : s.black.toList.length ≤ 1 := by cases s.black <;> simp
  rw [players, List.length_append]
  omega

namespace Arbiter

variable {a : Arbiter} {m : MatchId} {t : Table} {g : Game} {c : Connection} {u : UserId}
  {opened : Connections} {r : Request}

/-! ### Coming and going -/

theorem Stands.showAll (h : Stands a m t) (hk : a.hall.Keyed) (c : Connection)
    (ids : List MatchId) :
    Stands (Arbiter.showAll c ids a).2 m
      (t.connectAll ((ids.filter (· = m)).map fun _ => c)) := by
  induction ids generalizing a t with
  | nil => exact h
  | cons id ids ih =>
      have hoff := agreesOff_showOne hk c id
      show Stands (Arbiter.showAll c ids (Arbiter.showOne c a id).2).2 m _
      by_cases hid : id = m
      · subst hid
        have h' := ih (h.showOne hk c) hoff.keyed
        rw [List.filter_cons_of_pos (by simp)]
        exact h'
      · have h' := ih (h.of_agreesOff hoff (Ne.symm hid)) hoff.keyed
        rw [List.filter_cons_of_neg (by simpa using hid)]
        exact h'

theorem keyed_showAll (hk : a.hall.Keyed) (c : Connection) (ids : List MatchId) :
    (Arbiter.showAll c ids a).2.hall.Keyed :=
  showAll_keeps (P := fun a => a.hall.Keyed) (fun _ id hk => (agreesOff_showOne hk c id).keyed)
    ids hk

theorem Over.showAll (h : Over a m g) (hk : a.hall.Keyed) (c : Connection) (ids : List MatchId) :
    Over (Arbiter.showAll c ids a).2 m g := by
  have hone : ∀ a id, Over a m g ∧ a.hall.Keyed →
      Over (Arbiter.showOne c a id).2 m g ∧ (Arbiter.showOne c a id).2.hall.Keyed := by
    rintro a id ⟨h, hk⟩
    have hoff := agreesOff_showOne hk c id
    by_cases hid : id = m
    · subst hid
      exact ⟨h.showOne c, hoff.keyed⟩
    · exact ⟨h.of_agreesOff hoff (Ne.symm hid), hoff.keyed⟩
  exact (showAll_keeps (P := fun a => Over a m g ∧ a.hall.Keyed) hone ids ⟨h, hk⟩).1

/-- The matches that a connection is shown when it comes up; none if the store fails. -/
def shown (a : Arbiter) (c : Connection) : List MatchId :=
  match a.hall.seated c.user a.store with
  | .error _ => []
  | .ok ids => view ids (a.watched c.user)

theorem state_connect (a : Arbiter) (c : Connection) :
    (a.connect c).state = (Arbiter.showAll c (a.shown c) a).2 := by
  unfold connect shown
  cases a.hall.seated c.user a.store with
  | error e => rfl
  | ok ids => rfl

theorem get?_disconnect (a : Arbiter) (opened : Connections) (c : Connection) (m : MatchId) :
    (a.disconnect opened c).state.hall.tables.get? m =
      (a.hall.tables.get? m).map fun t => t.disconnect c :=
  SortedMap.get?_map _ _ _

theorem Stands.disconnect (h : Stands a m t) (opened : Connections) (c : Connection) :
    Stands (a.disconnect opened c).state m (t.disconnect c) := by
  refine ⟨?_, h.record, h.played, h.unfinished⟩
  rw [get?_disconnect, h.table]
  rfl

theorem Over.disconnect (h : Over a m g) (opened : Connections) (c : Connection) :
    Over (a.disconnect opened c).state m g := by
  refine ⟨?_, h.record, h.played, h.closed⟩
  rw [get?_disconnect, h.table]
  rfl

theorem keyed_disconnect (hk : a.hall.Keyed) (opened : Connections) (c : Connection) :
    (a.disconnect opened c).state.hall.Keyed := by
  intro j t' h
  rw [get?_disconnect] at h
  obtain ⟨t, ht, rfl⟩ := Option.map_eq_some_iff.mp h
  exact hk j t ht

/-! ### Beginning a match -/

/-- The table of a match that begins, with the open connections of its players following. -/
def newTable (a : Arbiter) (opened : Connections) (seats : Seats) : Table :=
  Table.connectAll ⟨a.store.nextId, a.hall.issued, a.hall.budget, .opening seats, .empty⟩
    (seats.players.flatMap opened.ofUser)

theorem newTable_id (a : Arbiter) (opened : Connections) (seats : Seats) :
    (a.newTable opened seats).id = a.store.nextId := Table.connectAll_id _ _

theorem newTable_game (a : Arbiter) (opened : Connections) (seats : Seats) :
    (a.newTable opened seats).game = .opening seats := Table.connectAll_game _ _

/-- How beginning a match may end. -/
inductive Founded (a : Arbiter) (opened : Connections) (seats : Seats) (x : Handled) : Prop where
  | refused (e : Refusal) (hx : x = ⟨.refused e, [], a⟩)
  | founded (answer : x.answer = .created a.store.nextId)
      (distinct : ∀ u, ¬ (seats.white = some u ∧ seats.black = some u))
      (stands : Stands x.state a.store.nextId (a.newTable opened seats))
      (off : AgreesOff a.store.nextId a x.state) (watching : x.state.watching = a.watching)
      (issued : x.state.hall.issued = a.hall.issued + 1)

theorem seatsOf_distinct {creator : UserId} {opponent : Option UserId} (color : Color)
    (h : opponent ≠ some creator) (u : UserId) :
    ¬ ((seatsOf creator color opponent).white = some u ∧
      (seatsOf creator color opponent).black = some u) := by
  rintro ⟨hw, hb⟩
  cases color with
  | white => exact h (hb.trans hw.symm)
  | black => exact h (hw.trans hb.symm)

theorem status_opening (seats : Seats) : (Game.opening seats).status ≠ .closed := by
  unfold Game.opening
  cases seats.full <;> simp

theorem create_founded (hk : a.hall.Keyed) (opened : Connections) (creator : UserId)
    (color : Color) (opponent : Option UserId) :
    Founded a opened (seatsOf creator color opponent)
      (a.create opened creator color opponent) := by
  unfold create
  split_ifs with hopp
  · exact .refused _ rfl
  · have hdistinct := seatsOf_distinct color hopp
    generalize seatsOf creator color opponent = seats at hdistinct
    unfold Hall.create Store.create
    cases Store.hindrance a.store.outage.create a.hall.budget with
    | some e => exact .refused _ rfl
    | none =>
        simp only [Hall.setUp, Table.setUp, Game.ofRecord_fresh]
        have hid := a.newTable_id opened seats
        have hgame := a.newTable_game opened seats
        have hget : ∀ j t₀, ((a.hall.tables.insert a.store.nextId t₀).insert
            (a.newTable opened seats).id (a.newTable opened seats)).get? j =
              if j = a.store.nextId then some (a.newTable opened seats)
              else a.hall.tables.get? j := by
          intro j t₀
          rw [hid]
          split_ifs with hj
          · rw [hj, SortedMap.get?_insert_self]
          · rw [SortedMap.get?_insert_of_ne _ _ hj, SortedMap.get?_insert_of_ne _ _ hj]
        refine .founded (congrArg Answer.created hid) hdistinct ⟨?_, ?_, ?_, ?_⟩ ⟨?_, ?_, ?_⟩ rfl
          rfl
        · exact (hget _ _).trans (if_pos rfl)
        · rw [hgame]
          exact SortedMap.get?_insert_self _ _ _
        · rw [hgame]
          exact Game.played_opening seats
        · rw [hgame]
          exact status_opening seats
        · intro j t ht
          have ht' := (hget j _).symm.trans ht
          split_ifs at ht' with hj
          · cases ht'
            exact hid.trans hj.symm
          · exact hk j t ht'
        · intro j hj
          exact (hget j _).trans (if_neg hj)
        · intro j hj
          exact SortedMap.get?_insert_of_ne _ _ hj

/-- Only a request to create a match is answered with a match. -/
theorem create_of_answer (h : (a.handle opened r).answer = .created m) :
    ∃ creator color opponent, r = .create creator color opponent := by
  cases r with
  | create creator color opponent => exact ⟨creator, color, opponent, rfl⟩
  | disconnect c => cases h
  | connect c =>
      replace h : (a.connect c).answer = .created m := h
      unfold connect at h
      split at h <;> cases h
  | showMoves c id source =>
      replace h : (a.showMoves c id source).answer = .created m := h
      unfold showMoves at h
      split at h
      · cases h
      · split at h <;> cases h
  | move c id source target =>
      replace h : (a.move c id source target).answer = .created m := h
      unfold move at h
      split at h
      · cases h
      · split at h
        · cases h
        · split at h
          · cases h
          · split at h <;> cases h
  | join id u =>
      replace h : (a.join opened id u).answer = .created m := h
      unfold join at h
      split at h
      · cases h
      · split at h <;> cases h
  | watch id u =>
      replace h : (a.watch opened id u).answer = .created m := h
      unfold watch at h
      split at h <;> cases h

/-! ### The courses -/

/-- The connections that a request lets follow a match without changing its game. -/
def welcomes (a : Arbiter) (opened : Connections) (m : MatchId) : Request → List Connection
  | .connect c => ((a.shown c).filter (· = m)).map fun _ => c
  | .watch id u => if id = m then opened.ofUser u else []
  | _ => []

/-- What becomes of a standing match when a request is handled. -/
inductive Course (a : Arbiter) (opened : Connections) (m : MatchId) (t : Table) (r : Request)
    (x : Handled) : Prop where
  | still (stands : Stands x.state m (t.connectAll (a.welcomes opened m r)))
      (quiet : Quiet m x.sent) (refused : r.movesIn m = true → x.refuses = true)
  | left (c : Connection) (hr : r = .disconnect c) (stands : Stands x.state m (t.disconnect c))
      (quiet : Quiet m x.sent)
  | joined (u : UserId) (seat : Color) (next : Game) (hr : r = .join m u)
      (step : t.game.join u = .ok (seat, next))
      (stands : Stands x.state m ({ t with game := next }.connectAll (opened.ofUser u)))
      (quiet : Quiet m x.sent)
  | moved (c : Connection) (s s' : Square) (o : MoveOutcome) (next : Game)
      (hr : r = .move c m s.text s'.text) (step : t.game.move c.user s s' = .ok (o, next))
      (sent : x.sent = (moveNotices m o ({ t with game := next }.connect c).snapshot).flatMap
        (broadcast ({ t with game := next }.connect c).followers.ids))
      (goes : Stands x.state m ({ t with game := next }.connect c) ∨ Over x.state m next)

theorem refuses_tellRefusal (c : Connection) (e : Refusal) {x : Handled}
    (h : x.sent = tellRefusal c e) : x.refuses = true := by
  unfold Handled.refuses
  rw [h]
  rfl

theorem Stands.handle (h : Stands a m t) (hk : a.hall.Keyed) (opened : Connections)
    (hr : (a.handle opened r).answer ≠ .created m) :
    Course a opened m t r (a.handle opened r) := by
  rcases about_cases r m with ⟨id, hid, hne⟩ | habout
  · -- requests on other matches
    have hoff := agreesOff_handle hk opened hid
    have hmoves : r.movesIn m = false := by
      cases r <;> cases hid <;> simp [Request.movesIn, hne]
    have hwelcomes : a.welcomes opened m r = [] := by
      cases r <;> cases hid <;> simp [welcomes, hne]
    refine .still ?_ (quiet_handle a opened hmoves) ?_
    · rw [hwelcomes]
      exact h.of_agreesOff hoff (Ne.symm hne)
    · rw [hmoves]
      exact fun hf => absurd hf (by simp)
  · cases r with
    | connect c =>
        refine .still ?_ (quiet_handle a opened rfl) ?_
        · show Stands (a.connect c).state m _
          rw [state_connect]
          exact h.showAll hk c _
        · exact fun hf => absurd hf (by simp [Request.movesIn])
    | disconnect c =>
        exact .left c rfl (h.disconnect opened c) (quiet_handle a opened rfl)
    | showMoves c id source =>
        obtain rfl := habout id rfl
        refine .still (h.showMoves hk c source) (quiet_handle a opened rfl) ?_
        exact fun hf => absurd hf (by simp [Request.movesIn])
    | move c id source target =>
        obtain rfl := habout id rfl
        rcases h.move hk c source target with
          ⟨e, hsent, hs⟩ | ⟨s, s', o, next, hs, hs', hstep, t', rfl, hsent, hgoes⟩
        · refine .still hs ?_ fun _ => refuses_tellRefusal c e hsent
          show Quiet id (a.move c id source target).sent
          rw [hsent]
          exact quiet_tellRefusal id c e
        · obtain ⟨-, rfl⟩ := Square.ofText?_eq_some_iff.mp hs
          obtain ⟨-, rfl⟩ := Square.ofText?_eq_some_iff.mp hs'
          exact .moved c s s' o next rfl hstep hsent hgoes
    | join id u =>
        obtain rfl := habout id rfl
        rcases h.join hk opened u with ⟨e, -, -, hs⟩ | ⟨seat, next, hstep, -, t', rfl, -, hs⟩
        · refine .still hs (quiet_handle a opened rfl) ?_
          exact fun hf => absurd hf (by simp [Request.movesIn])
        · exact .joined u seat next rfl hstep hs (quiet_handle a opened rfl)
    | watch id u =>
        obtain rfl := habout id rfl
        refine .still ?_ (quiet_handle a opened rfl) ?_
        · rw [show a.welcomes opened id (.watch id u) = opened.ofUser u from if_pos rfl]
          exact h.watch hk opened u
        · exact fun hf => absurd hf (by simp [Request.movesIn])
    | create creator color opponent =>
        refine .still ?_ (quiet_handle a opened rfl) ?_
        · show Stands (a.create opened creator color opponent).state m t
          cases create_founded hk opened creator color opponent with
          | refused e hx =>
              rw [hx]
              exact h
          | founded answer distinct stands off =>
              refine h.of_agreesOff off fun hm => hr ?_
              rw [hm]
              exact answer
        · exact fun hf => absurd hf (by simp [Request.movesIn])

/-- A match that is over stays over; moves in it are refused. -/
theorem Over.handle (h : Over a m g) (hk : a.hall.Keyed) (opened : Connections)
    (hr : (a.handle opened r).answer ≠ .created m) :
    Over (a.handle opened r).state m g ∧ Quiet m (a.handle opened r).sent ∧
      (r.movesIn m = true → (a.handle opened r).refuses = true) := by
  by_cases hmoves : r.movesIn m = true
  · cases r with
    | move c id source target =>
        obtain rfl : id = m := by simpa [Request.movesIn] using hmoves
        obtain ⟨⟨e, hsent⟩, h'⟩ := h.move hk c source target
        refine ⟨h', ?_, fun _ => refuses_tellRefusal c e hsent⟩
        show Quiet id (a.move c id source target).sent
        rw [hsent]
        exact quiet_tellRefusal id c e
    | _ => cases hmoves
  · have hquiet := quiet_handle a opened (Bool.eq_false_iff.mpr hmoves)
    refine ⟨?_, hquiet, fun hf => absurd hf hmoves⟩
    rcases about_cases r m with ⟨id, hid, hne⟩ | habout
    · exact h.of_agreesOff (agreesOff_handle hk opened hid) (Ne.symm hne)
    · cases r with
      | connect c =>
          show Over (a.connect c).state m g
          rw [state_connect]
          exact h.showAll hk c _
      | disconnect c => exact h.disconnect opened c
      | showMoves c id source =>
          obtain rfl := habout id rfl
          exact h.showMoves c source
      | move c id source target =>
          obtain rfl := habout id rfl
          exact (h.move hk c source target).2
      | join id u =>
          obtain rfl := habout id rfl
          exact (h.join opened u).2.2
      | watch id u =>
          obtain rfl := habout id rfl
          exact h.watch opened u
      | create creator color opponent =>
          show Over (a.create opened creator color opponent).state m g
          cases create_founded hk opened creator color opponent with
          | refused e hx =>
              rw [hx]
              exact h
          | founded answer distinct stands off =>
              refine h.of_agreesOff off fun hm => hr ?_
              rw [hm]
              exact answer

theorem keyed_handle (hk : a.hall.Keyed) (opened : Connections) (r : Request) :
    (a.handle opened r).state.hall.Keyed := by
  cases hid : r.about with
  | some id => exact (agreesOff_handle hk opened hid).keyed
  | none =>
      cases r with
      | connect c =>
          show (a.connect c).state.hall.Keyed
          rw [state_connect]
          exact keyed_showAll hk c _
      | disconnect c => exact keyed_disconnect hk opened c
      | create creator color opponent =>
          show (a.create opened creator color opponent).state.hall.Keyed
          cases create_founded hk opened creator color opponent with
          | refused e hx =>
              rw [hx]
              exact hk
          | founded answer distinct stands off => exact off.keyed
      | _ => cases hid

end Arbiter
end LiveChess
