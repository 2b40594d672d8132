import LiveChess.Proofs.Calls
import LiveChess.Proofs.Handling

/-! # The log replays to the board

`replay?` plays a log from a board entry by entry, reading nothing but the log: every entry must
name two squares, a man of its side must stand on the first, and the rules must allow the move.
`Game.Replays` says that the log of a game replays to its board and that no side was mated on the
way; joins, moves and every other call keep it.  So does setting the table up anew from the store,
which rebuilds the board from the record without replaying anything (`log_replays`). -/

namespace LiveChess

namespace Board

variable {b b' : Board} {e : MoveRecord} {l : List MoveRecord} {c : Color}

/-- Play an entry of a log: the man of its side on its first square goes to its second. -/
def replayOne? (b : Board) (e : MoveRecord) : Option Board := do
  let s ← Square.ofText? e.source
  let t ← Square.ofText? e.target
  let p ← b.pieceAt s
  guard (p.color = e.player)
  let (_, b) ← b.play? p t
  return b

/-- Play a log, if every entry of it may be played in its turn. -/
def replay? (b : Board) (l : List MoveRecord) : Option Board := l.foldlM replayOne? b

theorem replayOne?_eq_some_iff : b.replayOne? e = some b' ↔
    ∃ s t p, Square.ofText? e.source = some s ∧ Square.ofText? e.target = some t ∧
      b.pieceAt s = some p ∧ p.color = e.player ∧ t ∈ b.moves p ∧ b' = b.apply p t := by
  simp only [replayOne?, Option.bind_eq_bind, Option.bind_eq_some_iff, Option.pure_def,
    Option.some.injEq, guard]
  constructor
  · rintro ⟨s, hs, t, ht, p, hp, x, hc, ⟨r, c⟩, hr, rfl⟩
    have hcolor : p.color = e.player := by
      by_contra hne
      rw [if_neg hne] at hc
      cases hc
    obtain ⟨hm, -, he⟩ := play?_eq_some_iff.mp hr
    exact ⟨s, t, p, hs, ht, hp, hcolor, hm, he⟩
  · rintro ⟨s, t, p, hs, ht, hp, hcolor, hm, rfl⟩
    exact ⟨s, hs, t, ht, p, hp, (), if_pos hcolor, _, play?_eq_some_iff.mpr ⟨hm, rfl, rfl⟩, rfl⟩

theorem replay?_concat (b : Board) (l : List MoveRecord) (e : MoveRecord) :
    b.replay? (l ++ [e]) = (b.replay? l).bind (·.replayOne? e) := by
  unfold replay?
  rw [List.foldlM_append]
  simp

/-- A log that can be replayed names squares only. -/
theorem legible_of_replay? (h : b.replay? l = some b') (he : e ∈ l) :
    (∃ s, Square.ofText? e.source = some s) ∧ ∃ t, Square.ofText? e.target = some t := by
  induction l generalizing b with
  | nil => cases he
  | cons d l ih =>
      rw [replay?, List.foldlM_cons] at h
      obtain ⟨c, hd, hl⟩ := Option.bind_eq_some_iff.mp h
      rcases List.mem_cons.mp he with rfl | he
      · obtain ⟨s, t, p, hs, ht, -⟩ := replayOne?_eq_some_iff.mp hd
        exact ⟨⟨s, hs⟩, t, ht⟩
      · exact ih hl he

end Board

/-- The side next to move after a log. -/
def sideToMove (l : List MoveRecord) : Color :=
  match l.getLast? with
  | some e => e.player.opponent
  | none => .white

theorem sideToMove_concat (l : List MoveRecord) (e : MoveRecord) :
    sideToMove (l ++ [e]) = e.player.opponent := by
  rw [sideToMove, List.getLast?_concat]

namespace Game

variable {g g' : Game} {u : UserId} {c : Color} {s t : Square} {o : MoveOutcome}

/-- The log replays to the board, with the turn and the status that the game has, and before none of
its entries was a side mated: neither the one next to move nor the one that moved. -/
structure Replays (g : Game) : Prop where
  board : Board.start.replay? g.log = some g.board
  turn : g.turn = sideToMove g.log
  not_mate : g.status ≠ .closed → g.board.isCheckmate g.turn = false
  before : ∀ pre e post, g.log = pre ++ e :: post → ∃ b, Board.start.replay? pre = some b ∧
    b.isCheckmate (sideToMove pre) = false ∧ b.isCheckmate e.player = false

theorem replays_opening (seats : Seats) : (opening seats).Replays where
  board := rfl
  turn := rfl
  not_mate _ := isCheckmate_start .white
  before pre e post h := by simp [opening] at h

theorem Replays.join (hg : g.Replays) (h : g.join u = .ok (c, g')) : g'.Replays := by
  obtain ⟨hw, -, -, rfl⟩ := join_eq_ok_iff.mp h
  have hopen : g.status ≠ .closed := by
    rw [hw]
    exact Status.noConfusion
  exact ⟨hg.board, hg.turn, fun _ => hg.not_mate hopen, hg.before⟩

/-- The mover learns whether the other side is mated. -/
theorem checkmate_of_move (h : g.move u s t = .ok (o, g')) :
    o.checkmate = g'.board.isCheckmate g'.turn := by
  obtain ⟨p, -, -, -, -, -, -, e⟩ := move_eq_ok_iff.mp h
  cases e
  simp only [Board.isCheckmate, Bool.and_self_left]

/-- A move leads from the board to the next as its entry in the log says. -/
theorem replayOne?_of_move (h : g.move u s t = .ok (o, g')) :
    ∃ e, g'.log = g.log ++ [e] ∧ g'.turn = e.player.opponent ∧
      g.board.replayOne? e = some g'.board := by
  obtain ⟨p, -, -, -, -, hp, hm, e⟩ := move_eq_ok_iff.mp h
  cases e
  have hs : s.OnBoard := Board.onBoard_of_manAt (Board.pieceAt_eq_some_iff.mp hp).2
  have ht : t.OnBoard := (Board.admits_spec (Board.admits_of_mem_moves hm)).1
  exact ⟨_, rfl, rfl, Board.replayOne?_eq_some_iff.mpr
    ⟨s, t, p, Square.ofText?_text hs, Square.ofText?_text ht, hp, rfl, hm, rfl⟩⟩

/-- What holds before every entry of a log still does when the log grows, if it holds before the new
one. -/
theorem before_concat {P : List MoveRecord → MoveRecord → Prop} {l : List MoveRecord}
    {e : MoveRecord} (h : ∀ pre d post, l = pre ++ d :: post → P pre d) (he : P l e) :
    ∀ pre d post, l ++ [e] = pre ++ d :: post → P pre d := by
  intro pre d post hd
  rcases List.eq_nil_or_concat post with rfl | ⟨post, d', rfl⟩
  · obtain ⟨rfl, hde⟩ := List.append_inj' hd rfl
    cases hde
    exact he
  · rw [List.concat_eq_append, ← List.cons_append, ← List.append_assoc] at hd
    exact h pre d post (List.append_inj' hd rfl).1

theorem Replays.move (hg : g.Replays) (h : g.move u s t = .ok (o, g')) : g'.Replays := by
  obtain ⟨e, hlog, hturn, he⟩ := replayOne?_of_move h
  have hunderway : g.status = .underway := by
    obtain ⟨p, hst, -⟩ := move_eq_ok_iff.mp h
    exact hst
  have hopen : g.board.isCheckmate g.turn = false :=
    hg.not_mate (by rw [hunderway]; exact Status.noConfusion)
  -- the side that moved had a move, so it was not mated either
  have hmoved : g.board.isCheckmate e.player = false := by
    obtain ⟨s, t, p, -, -, hp, hc, hm, -⟩ := Board.replayOne?_eq_some_iff.mp he
    cases hmate : g.board.isCheckmate e.player with
    | false => rfl
    | true =>
        rw [Board.moves_of_isCheckmate (hc ▸ hmate)] at hm
        cases hm
  refine ⟨?_, ?_, ?_, ?_⟩
  · rw [hlog, Board.replay?_concat, hg.board]
    exact he
  · rw [hlog, sideToMove_concat, hturn]
  · intro hst
    rw [← checkmate_of_move h]
    exact Bool.eq_false_of_not_eq_true fun hc => hst ((status_of_move h).mpr hc)
  · rw [hlog]
    exact before_concat hg.before ⟨g.board, hg.board, hg.turn ▸ hopen, hmoved⟩

end Game

namespace Sitting

variable {d : Sitting} {id : MatchId} {budget : Duration}

theorem replays_call (hd : d.table.game.Replays) (c : Call) :
    (d.call c).table.game.Replays := by
  rcases d.game_call c with h | ⟨o, u, seat, -, h⟩ | ⟨o, u, s, t, outcome, -, h⟩
  · rw [h]
    exact hd
  · exact hd.join h
  · exact hd.move h

theorem Kept.call (hd : Kept id budget d) (c : Call) : Kept id budget (d.call c) := by
  cases c with
  | ask o q => exact hd.ask o q
  | connect c => exact ⟨hd.id_eq, hd.budget_eq, hd.record, hd.played⟩
  | disconnect c => exact ⟨hd.id_eq, hd.budget_eq, hd.record, hd.played⟩
  | picture => exact hd

/-! ### Calls and reloads -/

/-- Set the table up anew: a hall that has cleared it away looks for it in the store.  If that does
not work the old table stays in use. -/
def reload (d : Sitting) (h : Hall) (o : Outage) : Sitting :=
  match (h.clear d.table.id).find d.table.id (d.under o).store with
  | (.ok t, _, s) => ⟨t, s⟩
  | (.error _, _, s) => ⟨d.table, s⟩

/-- A call, or setting the table up anew. -/
inductive Event where
  | call (c : Call)
  | reload (h : Hall) (o : Outage)

/-- Let an event happen. -/
def event (d : Sitting) : Event → Sitting
  | .call c => d.call c
  | .reload h o => d.reload h o

/-- Let events happen one after another. -/
def events (d : Sitting) (es : List Event) : Sitting := es.foldl event d

theorem reload_eq_find (d : Sitting) (h : Hall) (o : Outage) : d.reload h o =
    match Arbiter.find ⟨h.clear d.table.id, (d.under o).store, .empty⟩ d.table.id with
    | (.ok t, a) => ⟨t, a.store⟩
    | (.error _, a) => ⟨d.table, a.store⟩ := by
  unfold reload Arbiter.find
  generalize (h.clear d.table.id).find d.table.id (d.under o).store = x
  obtain ⟨r, h', s⟩ := x
  cases r <;> rfl

/-- A table that is set up anew has the game of the old one. -/
theorem Kept.reload (hd : Kept id d.table.budget d) (h : Hall) (o : Outage) :
    (d.reload h o).table.game = d.table.game ∧
      Kept id (d.reload h o).table.budget (d.reload h o) := by
  obtain ⟨rfl, -, hr, hp⟩ := hd
  have hcleared : (h.clear d.table.id).tables.get? d.table.id = none :=
    SortedMap.get?_erase_self _ _
  have hfind := Arbiter.find_finds ⟨h.clear d.table.id, (d.under o).store, .empty⟩ d.table.id
  rw [reload_eq_find]
  generalize Arbiter.find ⟨h.clear d.table.id, (d.under o).store, .empty⟩ d.table.id = x at hfind ⊢
  cases hfind with
  | held t ht =>
      rw [hcleared] at ht
      cases ht
  | refused e ht => exact ⟨rfl, rfl, rfl, hr, hp⟩
  | loaded r g ht hr' hg =>
      have hrecord : r = d.table.game.toRecord := Option.some.inj (hr'.symm.trans hr)
      have hgame : g = d.table.game := by
        rw [hrecord, hp.ofRecord] at hg
        exact (Except.ok.inj hg).symm
      subst hgame
      exact ⟨rfl, rfl, rfl, hr, hp⟩

/-- What calls and reloads keep. -/
theorem kept_events (hd : Kept id d.table.budget d) (hr : d.table.game.Replays) (es : List Event) :
    Kept id (d.events es).table.budget (d.events es) ∧ (d.events es).table.game.Replays := by
  induction es generalizing d with
  | nil => exact ⟨hd, hr⟩
  | cons e es ih =>
      cases e with
      | call c =>
          have hc := hd.call c
          exact ih (hc.budget_eq ▸ hc) (replays_call hr c)
      | reload h o =>
          obtain ⟨hgame, hk⟩ := hd.reload h o
          exact ih hk (hgame ▸ hr)

/-- **The log is a sound and complete record.**  Begin a match with any seats and let anything
happen at its table: calls, with the saves failing as they like, and setting the table up anew from
the store.  The store always holds a record that rebuilds the game.  Every text in the log names a
square, and the log replays from the start to the board, the counts of visits included, which are no
greater than the log is long.  Before no entry of the log was the side next to move mated, nor the
side that then moved. -/
theorem log_replays {store : Store} {seats : Seats}
    (hstored : store.records.get? id = some (.fresh seats)) (serial : Nat) (budget : Duration) :
    ∃ t₀, Table.setUp serial id (.fresh seats) budget = .ok t₀ ∧
      ∀ es d, d = (⟨t₀, store⟩ : Sitting).events es →
        (∃ r, d.store.records.get? id = some r ∧ Game.ofRecord r = .ok d.table.game) ∧
        (∀ e ∈ d.table.game.log, (∃ s, Square.ofText? e.source = some s) ∧
          ∃ t, Square.ofText? e.target = some t) ∧
        Board.start.replay? d.table.game.log = some d.table.game.board ∧
        (∀ u, d.table.game.board.visits u ≤ d.table.game.log.length) ∧
        ∀ pre e post, d.table.game.log = pre ++ e :: post →
          ∃ b, Board.start.replay? pre = some b ∧
            b.isCheckmate (sideToMove pre) = false ∧ b.isCheckmate e.player = false := by
  refine ⟨⟨id, serial, budget, .opening seats, .empty⟩, ?_, ?_⟩
  · rw [Table.setUp, Game.ofRecord_fresh]
  · rintro es d rfl
    let d₀ : Sitting := ⟨⟨id, serial, budget, .opening seats, .empty⟩, store⟩
    have h₀ : Kept id d₀.table.budget d₀ := ⟨rfl, rfl, hstored, Game.played_opening seats⟩
    obtain ⟨hd, hr⟩ := kept_events h₀ (Game.replays_opening seats) es
    refine ⟨⟨_, hd.record, hd.played.ofRecord⟩, fun e he => ?_, hr.board, hd.played.visits_le,
      hr.before⟩
    exact Board.legible_of_replay? hr.board he

/-- Bob replies at a table that was set up anew after the move before it. -/
theorem log_replays_of_reply :
    let id : MatchId := ⟨⟨7⟩⟩
    let alice : UserId := ⟨⟨1⟩⟩
    let bob : UserId := ⟨⟨2⟩⟩
    let seats : Seats := ⟨some alice, some bob⟩
    let store := (Store.new []).seed id (.fresh seats)
    let down : Outage := { Outage.none with save := fun _ => some (.unavailable "down") }
    let es : List Event := [.call (.ask down (.move alice ⟨6, 3⟩ ⟨4, 3⟩)),
      .call (.ask .none (.move alice ⟨6, 4⟩ ⟨4, 4⟩)), .reload (.new ⟨1000⟩) .none,
      .call (.ask .none (.move bob ⟨1, 4⟩ ⟨3, 4⟩))]
    store.records.get? id = some (.fresh seats) ∧
      ∃ t₀, Table.setUp 0 id (.fresh seats) ⟨1000⟩ = .ok t₀ ∧
        ∀ d, d = (⟨t₀, store⟩ : Sitting).events es →
          d.table.game.log = [⟨.white, "e2", "e4"⟩, ⟨.black, "e7", "e5"⟩] ∧
            Board.start.replay? d.table.game.log = some d.table.game.board := by
  intro id alice bob seats store down es
  have hstored : store.records.get? id = some (.fresh seats) := SortedMap.get?_insert_self _ _ _
  obtain ⟨t₀, ht₀, hall⟩ := log_replays hstored 0 ⟨1000⟩
  have htable : t₀ = ⟨id, 0, ⟨1000⟩, .opening seats, .empty⟩ := by
    rw [Table.setUp, Game.ofRecord_fresh] at ht₀
    exact (Except.ok.inj ht₀).symm
  refine ⟨hstored, t₀, ht₀, fun d hd => ⟨?_, (hall es d hd).2.2.1⟩⟩
  rw [hd, htable]
  decide +kernel

end Sitting
end LiveChess
