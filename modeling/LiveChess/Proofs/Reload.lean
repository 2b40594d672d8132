import LiveChess.Proofs.LifeCycle
import LiveChess.Proofs.TableSteps

/-! # Clearing a table away and setting it up again

A sitting is a table together with the store behind it.  Users ask it to join, to move and to show
moves; each question meets a store with an outage of its own.  A question leaves the sitting as it
is or makes one step of its game, saved (`ask_asked`).  So whatever is asked, the store holds the
record of the game in memory and that record rebuilds the game (`Kept.run`), and the table that the
hall sets up after the old one was cleared away answers every later question as the old one would
have (`reload_answers_alike`). -/

namespace LiveChess

/-- A table and the store behind it. -/
structure Sitting where
  table : Table
  store : Store

/-- A played game visits no square more often than its log has entries. -/
theorem Game.Played.visits_le {g : Game} (h : g.Played) (u : Square) :
    g.board.visits u ≤ g.log.length := by
  obtain ⟨ms, hms, hlog⟩ := h
  have := Board.visits_playAll_le hms u
  rw [Board.visits_start] at this
  rw [hlog, List.length_map]
  omega

namespace Sitting

/-- What a user asks of a table. -/
inductive Question where
  | join (user : UserId)
  | move (user : UserId) (source target : Square)
  | moves (user : UserId) (source : Square)
deriving DecidableEq, Repr

/-- What a table says to a question. -/
inductive Response where
  | seat (r : Except Refusal Color)
  | outcome (r : Except Refusal MoveOutcome)
  | squares (r : Except Refusal (List Square))

/-- Change which calls of the store fail. -/
def under (d : Sitting) (o : Outage) : Sitting := { d with store := { d.store with outage := o } }

/-- Put a question while the store has a given outage. -/
def ask (d : Sitting) (o : Outage) : Question → Response × Sitting
  | .join u =>
    match d.table.join u (d.under o).store with
    | (r, t, s) => (.seat r, ⟨t, s⟩)
  | .move u source target =>
    match d.table.move u source target (d.under o).store with
    | (r, t, s) => (.outcome r, ⟨t, s⟩)
  | .moves u source => (.squares (d.table.game.movesFrom u source), d.under o)

/-- Put questions one after another. -/
def run (d : Sitting) : List (Outage × Question) → List Response × Sitting
  | [] => ([], d)
  | (o, q) :: rest =>
    let (r, d) := d.ask o q
    let (rs, d) := d.run rest
    (r :: rs, d)

variable {d e : Sitting}

/-! ### What a question keeps -/

/-- The sitting after its game has gone on to the next state and been saved. -/
def saved (d : Sitting) (next : Game) : Sitting :=
  ⟨{ d.table with game := next },
    { d.store with
      saves := d.store.saves + 1
      records := d.store.records.insert d.table.id next.toRecord }⟩

/-- What a question may make of a sitting: nothing but the count of saves changes, or the game
takes the step and is saved. -/
inductive Asked (d : Sitting) (o : Outage) : Question → Sitting → Prop where
  | kept (q : Question) (saves : Nat) :
      Asked d o q ⟨d.table, { (d.under o).store with saves := saves }⟩
  | joined (u : UserId) (seat : Color) (next : Game)
      (step : d.table.game.join u = .ok (seat, next)) : Asked d o (.join u) ((d.under o).saved next)
  | moved (u : UserId) (source target : Square) (outcome : MoveOutcome) (next : Game)
      (step : d.table.game.move u source target = .ok (outcome, next)) :
      Asked d o (.move u source target) ((d.under o).saved next)

theorem ask_asked (d : Sitting) (o : Outage) (q : Question) : Asked d o q (d.ask o q).2 := by
  cases q with
  | join u =>
      have h := d.table.join_steps u (d.under o).store
      simp only [ask]
      generalize d.table.join u (d.under o).store = x at h ⊢
      cases h with
      | refused e n => exact .kept _ n
      | done seat next step => exact .joined u seat next step
  | move u source target =>
      have h := d.table.move_steps u source target (d.under o).store
      simp only [ask]
      generalize d.table.move u source target (d.under o).store = x at h ⊢
      cases h with
      | refused e n => exact .kept _ n
      | done outcome next step => exact .moved u source target outcome next step
  | moves u source => exact .kept _ d.store.saves

/-- The store holds the record of the game in memory, which is a played one. -/
structure Kept (id : MatchId) (budget : Duration) (d : Sitting) : Prop where
  id_eq : d.table.id = id
  budget_eq : d.table.budget = budget
  record : d.store.records.get? id = some d.table.game.toRecord
  played : d.table.game.Played

variable {id : MatchId} {budget : Duration}

theorem Kept.ask (hd : Kept id budget d) (o : Outage) (q : Question) :
    Kept id budget (d.ask o q).2 := by
  obtain ⟨rfl, rfl, hr, hp⟩ := hd
  have h := d.ask_asked o q
  generalize (d.ask o q).2 = d' at h ⊢
  cases h with
  | kept _ n => exact ⟨rfl, rfl, hr, hp⟩
  | joined u seat next step => exact ⟨rfl, rfl, SortedMap.get?_insert_self _ _ _, hp.join step⟩
  | moved u source target outcome next step =>
      exact ⟨rfl, rfl, SortedMap.get?_insert_self _ _ _, hp.move step⟩

theorem Kept.run (hd : Kept id budget d) (l : List (Outage × Question)) :
    Kept id budget (d.run l).2 := by
  induction l generalizing d with
  | nil => exact hd
  | cons a l ih => exact ih (hd.ask a.1 a.2)

/-! ### Two tables of one match -/

/-- Sittings that answer alike. -/
def Alike (d e : Sitting) : Prop := Table.Alike d.table e.table d.store e.store

theorem Alike.ask (h : Alike d e) (o : Outage) (q : Question) :
    (d.ask o q).1 = (e.ask o q).1 ∧ Alike (d.ask o q).2 (e.ask o q).2 := by
  have hu : Alike (d.under o) (e.under o) := ⟨h.id, h.budget, h.game, h.records⟩
  cases q with
  | join u =>
      obtain ⟨h1, h2⟩ := Table.Alike.join hu rfl u
      exact ⟨congrArg Response.seat h1, h2⟩
  | move u source target =>
      obtain ⟨h1, h2⟩ := Table.Alike.move hu rfl u source target
      exact ⟨congrArg Response.outcome h1, h2⟩
  | moves u source =>
      refine ⟨?_, hu⟩
      simp only [Sitting.ask]
      rw [show d.table.game = e.table.game from h.game]

theorem Alike.run (h : Alike d e) (l : List (Outage × Question)) :
    (d.run l).1 = (e.run l).1 ∧ Alike (d.run l).2 (e.run l).2 := by
  induction l generalizing d e with
  | nil => exact ⟨rfl, h⟩
  | cons a l ih =>
      obtain ⟨h1, h2⟩ := h.ask a.1 a.2
      obtain ⟨h3, h4⟩ := ih h2
      exact ⟨by simp only [Sitting.run, h1, h3], h4⟩

/-! ### Setting up anew -/

/-- After clearing, a hall whose store answers sets up a table in the state of the old one. -/
theorem Kept.find (hd : Kept id budget d) (h : Hall) (o : Outage) (hb : h.budget = budget)
    (hn : budget.nanos ≠ 0) (ho : o.load id = none) :
    ∃ t h' s, (h.clear id).find id (d.under o).store = (.ok t, h', s) ∧ Alike ⟨t, s⟩ d := by
  obtain ⟨rfl, rfl, hr, hp⟩ := hd
  have hload : (d.under o).store.load d.table.id (h.clear d.table.id).budget =
      (.ok d.table.game.toRecord, { (d.under o).store with loads := d.store.loads + 1 }) := by
    have hfree : Store.hindrance ((d.under o).store.outage.load d.table.id)
        (h.clear d.table.id).budget = none := by
      show Store.hindrance (o.load d.table.id) h.budget = none
      rw [ho, Store.hindrance, if_neg (hb ▸ hn)]
    unfold Store.load
    rw [hfree]
    simp only [under, hr]
  have hnone : (h.clear d.table.id).tables.get? d.table.id = none := SortedMap.get?_erase_self _ _
  unfold Hall.find
  rw [hnone, hload]
  simp only [Hall.setUp, Table.setUp, hp.ofRecord]
  exact ⟨_, _, _, rfl, rfl, hb, rfl, rfl⟩

/-- **Clearing away and setting up again is invisible.**  Begin a match with any seats and ask
anything of its table, saves failing as they like.  The store then holds the record of the game in
memory, this record rebuilds the game in full, and a table that a hall sets up from it after
clearing gives the same answers as the old one to whatever is asked later and goes through the same
games and records.  No square is visited more often than there are moves, so visit counts of 32
bits hold every match of fewer than `2 ^ 32`. -/
theorem reload_answers_alike {store : Store} {seats : Seats}
    (hstored : store.records.get? id = some (.fresh seats)) (serial : Nat) (budget : Duration) :
    ∃ t₀, Table.setUp serial id (.fresh seats) budget = .ok t₀ ∧
      ∀ asked d, d = (Sitting.run ⟨t₀, store⟩ asked).2 →
        d.store.records.get? id = some d.table.game.toRecord ∧
        Game.ofRecord d.table.game.toRecord = .ok d.table.game ∧
        (∀ u, d.table.game.board.visits u ≤ d.table.game.log.length) ∧
        ∀ (h : Hall) (o : Outage), h.budget = budget → budget.nanos ≠ 0 → o.load id = none →
          ∃ t h' s, (h.clear id).find id (d.under o).store = (.ok t, h', s) ∧
            t.game = d.table.game ∧
            ∀ later, (Sitting.run ⟨t, s⟩ later).1 = (d.run later).1 ∧
              (Sitting.run ⟨t, s⟩ later).2.table.game = (d.run later).2.table.game ∧
              (Sitting.run ⟨t, s⟩ later).2.store.records = (d.run later).2.store.records := by
  refine ⟨⟨id, serial, budget, .opening seats, .empty⟩, ?_, ?_⟩
  · rw [Table.setUp, Game.ofRecord_fresh]
  · rintro asked d rfl
    have h₀ : Kept id budget ⟨⟨id, serial, budget, .opening seats, .empty⟩, store⟩ :=
      ⟨rfl, rfl, hstored, Game.played_opening seats⟩
    have hd := h₀.run asked
    refine ⟨hd.record, hd.played.ofRecord, hd.played.visits_le, ?_⟩
    intro h o hb hn ho
    obtain ⟨t, h', s, hfind, halike⟩ := hd.find h o hb hn ho
    refine ⟨t, h', s, hfind, halike.game, fun later => ?_⟩
    obtain ⟨h1, h2⟩ := halike.run later
    exact ⟨h1, h2.game, h2.records⟩

/-- Bob's reply is offered as before although the hall has set the table up anew. -/
theorem reload_after_first_move :
    let id : MatchId := ⟨⟨7⟩⟩
    let alice : UserId := ⟨⟨1⟩⟩
    let bob : UserId := ⟨⟨2⟩⟩
    let seats : Seats := ⟨some alice, some bob⟩
    let store := (Store.new []).seed id (.fresh seats)
    let down : Outage := { Outage.none with save := fun _ => some (.unavailable "down") }
    let opening : Question := .move alice ⟨6, 4⟩ ⟨4, 4⟩
    let reply : List (Outage × Question) := [(.none, .moves bob ⟨1, 4⟩)]
    store.records.get? id = some (.fresh seats) ∧
      ∃ t₀, Table.setUp 0 id (.fresh seats) ⟨1000⟩ = .ok t₀ ∧
        ∀ d, d = (run ⟨t₀, store⟩ [(down, opening), (.none, opening)]).2 →
          ∃ t h s, ((Hall.new ⟨1000⟩).clear id).find id (d.under .none).store = (.ok t, h, s) ∧
            (run ⟨t, s⟩ reply).1 = (d.run reply).1 := by
  intro id alice bob seats store down opening reply
  have hstored : store.records.get? id = some (.fresh seats) := SortedMap.get?_insert_self _ _ _
  obtain ⟨t₀, ht₀, hrun⟩ := reload_answers_alike hstored 0 ⟨1000⟩
  refine ⟨hstored, t₀, ht₀, ?_⟩
  intro d hd
  obtain ⟨-, -, -, hfind⟩ := hrun _ d hd
  obtain ⟨t, h, s, hf, -, hlater⟩ := hfind (.new ⟨1000⟩) .none rfl (by decide) rfl
  exact ⟨t, h, s, hf, (hlater reply).1⟩

end Sitting
end LiveChess
