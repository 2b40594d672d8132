import LiveChess.Proofs.Courses

/-! # The life of a match

An arbiter meets one request after another, each with the connections that are open then and with
an outage of the store.  From the moment a match is created, whatever is asked about it or about
other matches, its game is the one in the store, keeps `Game.LifeCycle`, and has in its log exactly
the moves that were made and not refused, in the order of the requests
(`lifeCycle_of_created`). -/

namespace LiveChess

/-- A request and the circumstances in which it is handled. -/
structure Occasion where
  request : Request
  opened : Connections
  outage : Outage

/-- A move as a user asks for it: the user and the two squares as text. -/
structure AskedMove where
  user : UserId
  source : String
  target : String
deriving DecidableEq, Repr

/-- The move that a request made in a match, if it was not refused. -/
def moveMade? (m : MatchId) : Request → Handled → Option AskedMove
  | .move c id source target, x =>
    if id = m ∧ x.refuses = false then some ⟨c.user, source, target⟩ else none
  | _, _ => none

/-- The moves that requests made in a match, in the order of the requests. -/
def movesMade (m : MatchId) (trace : List (Request × Handled)) : List AskedMove :=
  trace.filterMap fun x => moveMade? m x.1 x.2

namespace Arbiter

variable {a : Arbiter} {m : MatchId} {t : Table} {g : Game} {o : Outage} {made : List AskedMove}

/-- Change which calls of the store fail. -/
def under (a : Arbiter) (o : Outage) : Arbiter := { a with store := { a.store with outage := o } }

/-- Handle a request as the occasion has it. -/
def meet (a : Arbiter) (e : Occasion) : Handled := (a.under e.outage).handle e.opened e.request

/-- Meet occasions one after another; every request is listed with what came of it. -/
def trace (a : Arbiter) : List Occasion → List (Request × Handled)
  | [] => []
  | e :: es => (e.request, a.meet e) :: (a.meet e).state.trace es

/-- The state after some occasions. -/
def after (a : Arbiter) (es : List Occasion) : Arbiter := es.foldl (fun a e => (a.meet e).state) a

theorem Stands.under (h : Stands a m t) (o : Outage) : Stands (a.under o) m t :=
  ⟨h.table, h.record, h.played, h.unfinished⟩

theorem Over.under (h : Over a m g) (o : Outage) : Over (a.under o) m g :=
  ⟨h.table, h.record, h.played, h.closed⟩

theorem keyed_after (hk : a.hall.Keyed) (es : List Occasion) : (a.after es).hall.Keyed := by
  induction es generalizing a with
  | nil => exact hk
  | cons e es ih => exact ih (keyed_handle (a := a.under e.outage) hk e.opened e.request)

theorem keyed_new (store : Store) (budget : Duration) : (new store budget).hall.Keyed := by
  intro id t h
  cases h

end Arbiter

/-! ### Logs and requests -/

/-- The log of the game lists the moves, with the users who hold the seats. -/
def Game.Logs (g : Game) (made : List AskedMove) : Prop :=
  g.log.map (fun e => (g.seats.player e.player, e.source, e.target)) =
    made.map fun p => (some p.user, p.source, p.target)

namespace Game

variable {g g' : Game} {u : UserId} {c : Color} {s s' : Square} {o : MoveOutcome}
  {made : List AskedMove}

theorem Logs.join (h : g.Logs made) (hg : g.LifeCycle) (hj : g.join u = .ok (c, g')) :
    g'.Logs made := by
  obtain ⟨hw, -, -, rfl⟩ := join_eq_ok_iff.mp hj
  -- nobody has moved while a seat was free
  have hlog : g.log = [] := hg.log_of_waiting hw
  unfold Logs at h ⊢
  rw [hlog] at h
  show g.log.map _ = _
  rw [hlog]
  exact h

theorem Logs.move (h : g.Logs made) (hm : g.move u s s' = .ok (o, g')) :
    g'.Logs (made ++ [⟨u, s.text, s'.text⟩]) := by
  obtain ⟨-, -, hseats, c, hc, hlog⟩ := log_of_move hm
  unfold Logs at h ⊢
  rw [hlog, hseats, List.map_append, List.map_append, h]
  simp only [List.map_cons, List.map_nil, hc]

end Game

namespace Arbiter

variable {a : Arbiter} {m : MatchId} {t : Table} {g : Game} {made : List AskedMove}

/-- The match goes on or is over, and its game is this one. -/
def Has (a : Arbiter) (m : MatchId) (g : Game) : Prop :=
  (∃ t, Stands a m t ∧ t.game = g) ∨ Over a m g

theorem Has.record (h : Has a m g) : a.store.records.get? m = some g.toRecord := by
  rcases h with ⟨t, hs, rfl⟩ | ho
  · exact hs.record
  · exact ho.record

theorem Has.played (h : Has a m g) : g.Played := by
  rcases h with ⟨t, hs, rfl⟩ | ho
  · exact hs.played
  · exact ho.played

theorem Has.under (h : Has a m g) (o : Outage) : Has (a.under o) m g := by
  rcases h with ⟨t, hs, rfl⟩ | ho
  · exact .inl ⟨t, hs.under o, rfl⟩
  · exact .inr (ho.under o)

/-- A match of the arbiter whose game has lived through the given moves. -/
structure Lived (a : Arbiter) (m : MatchId) (made : List AskedMove) (g : Game) : Prop where
  has : Has a m g
  lifeCycle : g.LifeCycle
  logs : g.Logs made

theorem moveMade?_eq_none {r : Request} {x : Handled}
    (h : r.movesIn m = true → x.refuses = true) : moveMade? m r x = none := by
  cases r with
  | move c id source target =>
      refine if_neg ?_
      rintro ⟨hid, hx⟩
      rw [h (by simpa [Request.movesIn] using hid)] at hx
      cases hx
  | _ => rfl

theorem isRefusal_moveNotices {o : MoveOutcome} {picture : Snapshot} {n : Notice}
    (hn : n ∈ moveNotices m o picture) : n.isRefusal = false := by
  unfold moveNotices at hn
  rcases List.mem_cons.mp hn with rfl | hn
  · rfl
  · split_ifs at hn
    · rw [List.mem_singleton.mp hn]; rfl
    · rw [List.mem_singleton.mp hn]; rfl
    · exact absurd hn List.not_mem_nil

/-- What is sent about a move that was made tells no refusal. -/
theorem refuses_moveNotices {x : Handled} {o : MoveOutcome} {picture : Snapshot}
    {l : List ConnectionId} (h : x.sent = (moveNotices m o picture).flatMap (broadcast l)) :
    x.refuses = false := by
  unfold Handled.refuses
  rw [h, List.any_eq_false]
  intro d hd
  obtain ⟨n, hn, hd⟩ := List.mem_flatMap.mp hd
  obtain ⟨i, -, rfl⟩ := List.mem_map.mp hd
  rw [isRefusal_moveNotices hn]
  exact Bool.false_ne_true

/-- What one request adds to the life of a match. -/
theorem Lived.meet (h : Lived a m made g) (hk : a.hall.Keyed) (e : Occasion)
    (he : (a.meet e).answer ≠ .created m) :
    ∃ g', Lived (a.meet e).state m (made ++ (moveMade? m e.request (a.meet e)).toList) g' := by
  obtain ⟨hhas, hlife, hlogs⟩ := h
  rcases hhas with ⟨t, hs, rfl⟩ | ho
  · have hcourse : Course (a.under e.outage) e.opened m t e.request (a.meet e) :=
      (hs.under e.outage).handle hk e.opened he
    cases hcourse with
    | still stands quiet refused =>
        refine ⟨t.game, .inl ⟨_, stands, Table.connectAll_game _ _⟩, hlife, ?_⟩
        rw [moveMade?_eq_none refused]
        simpa using hlogs
    | left c hr stands quiet =>
        refine ⟨t.game, .inl ⟨_, stands, rfl⟩, hlife, ?_⟩
        rw [hr]
        simpa [moveMade?] using hlogs
    | joined u seat next hr step stands quiet =>
        refine ⟨next, .inl ⟨_, stands, Table.connectAll_game _ _⟩, hlife.join step, ?_⟩
        rw [hr]
        simpa [moveMade?] using hlogs.join hlife step
    | moved c s s' o next hr step sent goes =>
        refine ⟨next, ?_, hlife.move step, ?_⟩
        · rcases goes with goes | goes
          · exact .inl ⟨_, goes, rfl⟩
          · exact .inr goes
        · have hmade : moveMade? m e.request (a.meet e) = some ⟨c.user, s.text, s'.text⟩ := by
            rw [hr]
            exact if_pos ⟨rfl, refuses_moveNotices sent⟩
          rw [hmade]
          exact hlogs.move step
  · obtain ⟨ho', -, hrefused⟩ := (ho.under e.outage).handle hk e.opened he
    refine ⟨g, .inr ho', hlife, ?_⟩
    rw [moveMade?_eq_none (x := a.meet e) hrefused]
    simpa using hlogs

/-- What a run adds to the life of a match. -/
theorem Lived.after (h : Lived a m made g) (hk : a.hall.Keyed) (es : List Occasion)
    (hes : ∀ x ∈ a.trace es, x.2.answer ≠ .created m) :
    ∃ g', Lived (a.after es) m
      (made ++ movesMade m (a.trace es)) g' := by
  induction es generalizing a made g with
  | nil =>
      refine ⟨g, ?_⟩
      show Lived a m (made ++ []) g
      rw [List.append_nil]
      exact h
  | cons e es ih =>
      obtain ⟨g₁, h₁⟩ := h.meet hk e (hes _ List.mem_cons_self)
      have hk₁ : (a.meet e).state.hall.Keyed :=
        keyed_handle (a := a.under e.outage) hk e.opened e.request
      obtain ⟨g₂, h₂⟩ := ih h₁ hk₁ fun x hx => hes x (List.mem_cons_of_mem _ hx)
      refine ⟨g₂, ?_⟩
      have htrace : movesMade m (a.trace (e :: es)) =
          (moveMade? m e.request (a.meet e)).toList ++ movesMade m ((a.meet e).state.trace es) := by
        show List.filterMap _ (_ :: _) = _
        rw [List.filterMap_cons, movesMade]
        cases moveMade? m e.request (a.meet e) <;> rfl
      rw [htrace, ← List.append_assoc]
      exact h₂

/-- A match that was created has the name that the store had ready, and stands with the seats that
were asked for. -/
theorem stands_of_created (hk : a.hall.Keyed) {e : Occasion} (h : (a.meet e).answer = .created m) :
    m = a.store.nextId ∧ ∃ creator color opponent t,
      e.request = .create creator color opponent ∧
      (∀ u, ¬ ((seatsOf creator color opponent).white = some u ∧
        (seatsOf creator color opponent).black = some u)) ∧
      Stands (a.meet e).state m t ∧ t.game = .opening (seatsOf creator color opponent) := by
  obtain ⟨creator, color, opponent, hr⟩ := create_of_answer h
  have hfounded := create_founded (a := a.under e.outage) hk e.opened creator color opponent
  have hmeet : a.meet e = (a.under e.outage).create e.opened creator color opponent := by
    unfold Arbiter.meet
    rw [hr]
    rfl
  rw [hmeet] at h ⊢
  cases hfounded with
  | refused e hx =>
      rw [hx] at h
      cases h
  | founded answer distinct stands off =>
      rw [answer] at h
      cases h
      exact ⟨rfl, creator, color, opponent, _, hr, distinct, stands, newTable_game _ _ _⟩

/-- A match that has just been created has lived through no moves. -/
theorem lived_of_created (hk : a.hall.Keyed) {e : Occasion} (h : (a.meet e).answer = .created m) :
    ∃ g, Lived (a.meet e).state m [] g := by
  obtain ⟨-, creator, color, opponent, t, -, distinct, stands, hgame⟩ := stands_of_created hk h
  refine ⟨t.game, .inl ⟨t, stands, rfl⟩, ?_, ?_⟩
  · rw [hgame]
    exact Game.lifeCycle_opening distinct
  · rw [hgame]
    rfl

/-- **The life of a match.**  Take a match that was created at some point of a run, and whatever is
asked afterwards, of this match or of others, by anybody, with any connections open and any calls of
the store failing.  Then the game in the store, which is the one in memory if the match has a table,
is the same as the one rebuilt from its record; its fields agree as `Game.LifeCycle` says; and its
log is the list of the moves that were asked for in the match and not refused, in the order in which
they were handled. -/
theorem lifeCycle_of_created (store : Store) (budget : Duration) {before after : List Occasion}
    {birth : Occasion} (hbirth : (((new store budget).after before).meet birth).answer = .created m)
    (honce : ∀ x ∈ (((new store budget).after before).meet birth).state.trace after,
      x.2.answer ≠ .created m) :
    ∃ g, ((new store budget).after (before ++ birth :: after)).store.records.get? m =
        some g.toRecord ∧
      Game.ofRecord g.toRecord = .ok g ∧
      (∀ t, ((new store budget).after (before ++ birth :: after)).hall.tables.get? m = some t →
        t.game = g) ∧
      g.LifeCycle ∧
      g.log.map (fun e => (g.seats.player e.player, e.source, e.target)) =
        (movesMade m ((((new store budget).after before).meet birth).state.trace after)).map
          fun p => (some p.user, p.source, p.target) := by
  have hk := keyed_after (keyed_new store budget) before
  obtain ⟨g₀, h₀⟩ := lived_of_created hk hbirth
  have hk₀ := keyed_handle (a := ((new store budget).after before).under birth.outage) hk
    birth.opened birth.request
  obtain ⟨g, h⟩ := h₀.after hk₀ after honce
  have hafter : (new store budget).after (before ++ birth :: after) =
      (((new store budget).after before).meet birth).state.after after := by
    unfold Arbiter.after
    rw [List.foldl_append]
    rfl
  rw [hafter]
  refine ⟨g, h.has.record, h.has.played.ofRecord, ?_, h.lifeCycle, h.logs⟩
  intro t ht
  rcases h.has with ⟨t', hs, rfl⟩ | ho
  · rw [hs.table] at ht
    cases ht
    rfl
  · rw [ho.table] at ht
    cases ht

/-- Bob takes the free seat, Alice moves, and her second move in a row is refused. -/
theorem lifeCycle_of_firstMoves :
    let m : MatchId := ⟨⟨7⟩⟩
    let alice : Connection := ⟨⟨0⟩, ⟨⟨1⟩⟩⟩
    let bob : UserId := ⟨⟨2⟩⟩
    let birth : Occasion := ⟨.create alice.user .white none, .empty, .none⟩
    let down : Outage := { Outage.none with save := fun _ => some (.unavailable "down") }
    let later : List Occasion := [⟨.join m bob, .empty, .none⟩,
      ⟨.move alice m "e2" "e4", .empty, down⟩, ⟨.move alice m "e2" "e4", .empty, .none⟩,
      ⟨.move alice m "d2" "d4", .empty, .none⟩]
    let a := ((new (.new [m]) ⟨1000⟩).after []).meet birth
    a.answer = .created m ∧ (∀ x ∈ a.state.trace later, x.2.answer ≠ .created m) ∧
      movesMade m (a.state.trace later) = [⟨alice.user, "e2", "e4"⟩] ∧
      ∃ g : Game, ((new (.new [m]) ⟨1000⟩).after ([] ++ birth :: later)).store.records.get? m =
          some g.toRecord ∧ g.LifeCycle := by
  intro m alice bob birth down later a
  have hbirth : a.answer = .created m := by decide +kernel
  have honce : ∀ x ∈ a.state.trace later, x.2.answer ≠ .created m := by decide +kernel
  have hmade : movesMade m (a.state.trace later) = [⟨alice.user, "e2", "e4"⟩] := by decide +kernel
  obtain ⟨g, hg, -, -, hlife, -⟩ := lifeCycle_of_created (.new [m]) ⟨1000⟩ hbirth honce
  exact ⟨hbirth, honce, hmade, g, hg, hlife⟩

end Arbiter
end LiveChess
