import LiveChess.Proofs.Playable

/-! # Mate

Mate is looked for by trying every admitted move of every man on the board; what may be played is
asked of one piece at a time, which need not stand anywhere.  The two agree: a side is mated exactly
if it is in check and every piece of its color is refused every square
(`isCheckmate_iff_refused`).  In a match the verdict is passed on after each move, so that a side in
check has a move to make as long as the match is under way, and none once it is closed
(`mate_is_no_way_out`). -/

namespace LiveChess

namespace Board

variable {b : Board} {c : Color}

theorem play?_eq_none_iff {p : Piece} {t : Square} : b.play? p t = none ↔ t ∉ b.moves p := by
  unfold play?
  split_ifs with h <;> simp [h]

/-- A side is mated exactly if it is in check and may play no piece anywhere. -/
theorem isCheckmate_iff_refused : b.isCheckmate c = true ↔
    b.inCheck c = true ∧ ∀ p t, p.color = c → b.play? p t = none := by
  rw [isCheckmate_iff]
  refine and_congr_right fun hcheck => forall₂_congr fun p t => forall_congr' ?_
  rintro rfl
  rw [play?_eq_none_iff, mem_moves_iff, not_and]
  refine forall_congr' fun _ => ?_
  simp [hcheck]

/-- A side that is in check and not mated has a man with a move. -/
theorem exists_mem_moves (hcheck : b.inCheck c = true) (hmate : b.isCheckmate c = false) :
    ∃ p t, p.color = c ∧ b.pieceAt p.square = some p ∧ t ∈ b.moves p := by
  by_contra hnone
  have hrefused : ∀ p t, p.color = c → b.play? p t = none := by
    intro p t hp
    refine play?_eq_none_iff.mpr fun ht => hnone ⟨p, t, hp, ?_, ht⟩
    exact pieceAt_eq_some_iff.mpr ⟨rfl, (admits_spec (admits_of_mem_moves ht)).2.2.1⟩
  rw [isCheckmate_iff_refused.mpr ⟨hcheck, hrefused⟩] at hmate
  cases hmate

end Board

namespace Game

variable {g : Game}

/-- A match is under way with both seats taken. -/
theorem LifeCycle.full (hg : g.LifeCycle) (hunderway : g.status = .underway) :
    g.seats.full = true := by
  by_contra hfull
  have := hg.waiting_iff.mpr (Bool.not_eq_true _ ▸ hfull)
  rw [hunderway] at this
  cases this

/-- While a match is under way each side is played by a user, who holds no other seat. -/
theorem LifeCycle.exists_player (hg : g.LifeCycle) (hunderway : g.status = .underway) (c : Color) :
    ∃ u, g.seats.player c = some u ∧ g.seats.seatOf u = some c := by
  obtain ⟨hwhite, hblack⟩ := Bool.and_eq_true_iff.mp (hg.full hunderway)
  obtain ⟨u, hu⟩ := Option.isSome_iff_exists.mp hwhite
  obtain ⟨v, hv⟩ := Option.isSome_iff_exists.mp hblack
  cases c with
  | white => exact ⟨u, hu, if_pos hu⟩
  | black =>
      refine ⟨v, hv, ?_⟩
      rw [Seats.seatOf, if_neg fun h => hg.seats_ne v ⟨h, hv⟩, if_pos hv]

/-- While a match is under way, the side on turn has a way out of check. -/
theorem LifeCycle.exists_move (hg : g.LifeCycle) (hunderway : g.status = .underway)
    (hcheck : g.board.inCheck g.turn = true) :
    ∃ u s t, g.seats.player g.turn = some u ∧ ∃ o g', g.move u s t = .ok (o, g') := by
  have hmate : g.board.isCheckmate g.turn = false :=
    (hg.undecided (by rw [hunderway]; exact Status.noConfusion)).2
  obtain ⟨p, t, hcolor, hp, ht⟩ := Board.exists_mem_moves hcheck hmate
  obtain ⟨u, hturn, hseat⟩ := hg.exists_player hunderway g.turn
  have hchecked : g.checkPlayer u = .ok g.turn :=
    checkPlayer_eq_ok_iff.mpr ⟨hseat, hg.full hunderway, hturn⟩
  refine ⟨u, p.square, t, hturn, hg.move_iff_shown.mpr ⟨?_, p, hp, hcolor⟩⟩
  exact mem_shown.mpr ⟨⟨g.turn, hchecked⟩, p, hp, ht⟩

/-- Once a match is closed, the side on turn is that of the loser and may play nothing. -/
theorem LifeCycle.loser_stuck (hg : g.LifeCycle) (hclosed : g.status = .closed) :
    ∃ w, g.winner = some w ∧ g.seats.player g.turn.opponent = some w ∧
      g.seats.player g.turn ≠ some w ∧ g.board.inCheck g.turn = true ∧
      ∀ p t, p.color = g.turn → g.board.play? p t = none := by
  obtain ⟨w, hw⟩ := Option.isSome_iff_exists.mp (hg.closed_iff_winner.mp hclosed)
  obtain ⟨hcheck, hrefused⟩ := Board.isCheckmate_iff_refused.mp (hg.closed_iff_mate.mp hclosed)
  have hseat := hg.winner_seat w hw
  refine ⟨w, hw, hseat, fun hother => ?_, hcheck, hrefused⟩
  cases hturn : g.turn with
  | white =>
      rw [hturn] at hseat hother
      exact hg.seats_ne w ⟨hother, hseat⟩
  | black =>
      rw [hturn] at hseat hother
      exact hg.seats_ne w ⟨hseat, hother⟩

end Game

namespace Arbiter

/-- **Mate is having no way out.**  On every board a side is mated exactly if it is in check and
every piece of its color, standing on the board or not, is refused every square.  So take a match
that was created at some point of a run, whatever has been asked since and whichever calls of the
store failed, and its game, which is the one in the store and the one of every table of the match.
If the match is under way and the side on turn in check, its player has a move that is made at every
table with this game as long as saves succeed.  If the match is closed, it has a winner, and the
other seat is that of the side on turn, which is in check and may play nothing. -/
theorem mate_is_no_way_out :
    (∀ (b : Board) (c : Color), b.isCheckmate c = true ↔
      b.inCheck c = true ∧ ∀ p t, p.color = c → b.play? p t = none) ∧
    ∀ {store : Store} {budget : Duration} {m : MatchId} {before after : List Occasion}
      {birth : Occasion},
      (((new store budget).after before).meet birth).answer = .created m →
      (∀ x ∈ (((new store budget).after before).meet birth).state.trace after,
        x.2.answer ≠ .created m) →
      ∃ g : Game, ((new store budget).after (before ++ birth :: after)).store.records.get? m =
          some g.toRecord ∧
        Game.ofRecord g.toRecord = .ok g ∧
        (∀ t, ((new store budget).after (before ++ birth :: after)).hall.tables.get? m = some t →
          t.game = g) ∧
        (g.status = .underway → g.board.inCheck g.turn = true →
          ∃ u s s', g.seats.player g.turn = some u ∧ ∀ (t : Table) (st : Store), t.id = m →
            t.game = g → (∀ r, (st.save m r t.budget).1 = .ok ()) →
            ∃ outcome, (t.move u s s' st).1 = .ok outcome) ∧
        (g.status = .closed → ∃ w, g.winner = some w ∧
          g.seats.player g.turn.opponent = some w ∧ g.seats.player g.turn ≠ some w ∧
          g.board.inCheck g.turn = true ∧
          ∀ p t, p.color = g.turn → g.board.play? p t = none) := by
  refine ⟨fun b c => Board.isCheckmate_iff_refused, fun hbirth honce => ?_⟩
  obtain ⟨g, hrecord, hrebuilt, htable, hlife, -⟩ := lifeCycle_of_created _ _ hbirth honce
  refine ⟨g, hrecord, hrebuilt, htable, fun hunderway hcheck => ?_, hlife.loser_stuck⟩
  obtain ⟨u, s, s', hturn, hmoves⟩ := hlife.exists_move hunderway hcheck
  refine ⟨u, s, s', hturn, ?_⟩
  rintro t st rfl rfl hsave
  exact (Table.move_accepted hsave).mpr hmoves

/-- Bob, checked by a bishop, has a way out, and the store as it is lets him take it; Alice, mated
in two moves in a second run, has none. -/
theorem mate_in_two :
    let m : MatchId := ⟨⟨7⟩⟩
    let alice : Connection := ⟨⟨0⟩, ⟨⟨1⟩⟩⟩
    let bob : Connection := ⟨⟨1⟩, ⟨⟨2⟩⟩⟩
    let birth : Occasion := ⟨.create alice.user .white (some bob.user), .empty, .none⟩
    let check : List Occasion := [⟨.move alice m "e2" "e4", .empty, .none⟩,
      ⟨.move bob m "d7" "d5", .empty, .none⟩, ⟨.move alice m "f1" "b5", .empty, .none⟩]
    let mate : List Occasion := [⟨.move alice m "f2" "f3", .empty, .none⟩,
      ⟨.move bob m "e7" "e5", .empty, .none⟩, ⟨.move alice m "g2" "g4", .empty, .none⟩,
      ⟨.move bob m "d8" "h4", .empty, .none⟩]
    let a := (new (.new [m]) ⟨1000⟩).after ([] ++ birth :: check)
    let a' := (new (.new [m]) ⟨1000⟩).after ([] ++ birth :: mate)
    (∃ t u s s' outcome, a.hall.tables.get? m = some t ∧ t.game.board.inCheck .black = true ∧
      t.game.seats.player .black = some u ∧ (t.move u s s' a.store).1 = .ok outcome) ∧
    ∃ g : Game, a'.store.records.get? m = some g.toRecord ∧ g.winner = some bob.user ∧
      g.board.isCheckmate .white = true ∧
      ∀ p t, p.color = .white → g.board.play? p t = none := by
  intro m alice bob birth check mate a a'
  have hbirth : (((new (.new [m]) ⟨1000⟩).after []).meet birth).answer = .created m := by
    decide +kernel
  have honce : ∀ x ∈ (((new (.new [m]) ⟨1000⟩).after []).meet birth).state.trace check,
      x.2.answer ≠ .created m := by decide +kernel
  have honce' : ∀ x ∈ (((new (.new [m]) ⟨1000⟩).after []).meet birth).state.trace mate,
      x.2.answer ≠ .created m := by decide +kernel
  -- what is read off the two runs is computed before they get their names
  have ha : a = (new (.new [m]) ⟨1000⟩).after ([] ++ birth :: check) := rfl
  have ha' : a' = (new (.new [m]) ⟨1000⟩).after ([] ++ birth :: mate) := rfl
  have hstore : ((new (.new [m]) ⟨1000⟩).after ([] ++ birth :: check)).store.records.contains m =
      true ∧ ((new (.new [m]) ⟨1000⟩).after ([] ++ birth :: check)).store.outage.save m = none := by
    decide +kernel
  have hheld : (((new (.new [m]) ⟨1000⟩).after ([] ++ birth :: check)).hall.tables.get? m).map
      (fun t => (t.id, t.budget, t.game.status, t.game.turn, t.game.board.inCheck .black)) =
        some (m, ⟨1000⟩, .underway, .black, true) := by decide +kernel
  have hfinal : (((new (.new [m]) ⟨1000⟩).after ([] ++ birth :: mate)).store.records.get? m).map
      (fun r => (r.status, r.turn, r.winner)) = some (.closed, .white, some bob.user) := by
    decide +kernel
  obtain ⟨hmated, hmatch⟩ := mate_is_no_way_out
  have hrun := hmatch hbirth honce
  have hrun' := hmatch hbirth honce'
  rw [← ha] at hstore hheld hrun
  rw [← ha'] at hfinal hrun'
  clear_value a a'
  obtain ⟨g, -, -, htable, hescape, -⟩ := hrun
  obtain ⟨g', hrecord, -, -, -, hlost⟩ := hrun'
  obtain ⟨t, ht, hheld⟩ := Option.map_eq_some_iff.mp hheld
  simp only [Prod.mk.injEq] at hheld
  obtain ⟨hid, hbudget, hstatus, hturn, hcheck⟩ := hheld
  obtain rfl : t.game = g := htable t ht
  rw [hrecord] at hfinal
  simp only [Option.map_some, Option.some.injEq, Prod.mk.injEq] at hfinal
  obtain ⟨hclosed, hturn', hwinner⟩ := hfinal
  replace hturn' : g'.turn = .white := hturn'
  refine ⟨?_, g', hrecord, hwinner, ?_⟩
  · rw [hturn] at hescape
    obtain ⟨u, s, s', hu, haccepted⟩ := hescape hstatus hcheck
    have hsave : ∀ r, (a.store.save m r t.budget).1 = .ok () := by
      refine Store.save_ok hstore.1 hstore.2 ?_
      rw [hbudget]
      decide
    obtain ⟨outcome, hmove⟩ := haccepted t a.store hid rfl hsave
    exact ⟨t, u, s, s', outcome, ht, hcheck, hu, hmove⟩
  · obtain ⟨w, -, -, -, hcheck', hrefused⟩ := hlost hclosed
    rw [hturn'] at hcheck' hrefused
    exact ⟨(hmated _ _).mpr ⟨hcheck', hrefused⟩, hrefused⟩

end Arbiter
end LiveChess
