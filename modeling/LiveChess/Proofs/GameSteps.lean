import LiveChess.Match.Game
import LiveChess.Proofs.Rebuild

/-! # The two steps of a game

A game changes by a join or by a move.  `join_eq_ok_iff` and `move_eq_ok_iff` say when each
succeeds and what the game is afterwards; nothing else about the two functions is needed to prove
an invariant.  `Played` is the first of them: the log is the record of a line of play from the
start to the board.  A game that is played is rebuilt from its record (`Played.ofRecord`). -/

namespace LiveChess

namespace Seats

variable {s : Seats} {u : UserId} {c : Color}

theorem player_of_seatOf (h : s.seatOf u = some c) : s.player c = some u := by
  unfold seatOf at h
  split_ifs at h with hw hb
  · cases h; exact hw
  · cases h; exact hb

theorem seatOf_isSome_iff : (s.seatOf u).isSome ↔ s.white = some u ∨ s.black = some u := by
  unfold seatOf
  split_ifs <;> simp_all

theorem player_firstFree (h : s.firstFree = some c) : s.player c = none := by
  unfold firstFree at h
  split_ifs at h with hw hb
  · cases h; simpa [player] using hw
  · cases h; simpa [player] using hb

theorem player_seat (s : Seats) (c d : Color) (u : UserId) :
    (s.seat c u).player d = if d = c then some u else s.player d := by
  cases c <;> cases d <;> rfl

end Seats

namespace Game

variable {g g' : Game} {u : UserId} {c : Color} {s t : Square} {o : MoveOutcome}

theorem checkPlayer_eq_ok_iff : g.checkPlayer u = .ok c ↔
    g.seats.seatOf u = some c ∧ g.seats.full = true ∧ g.seats.player g.turn = some u := by
  unfold checkPlayer
  cases hs : g.seats.seatOf u with
  | none => simp
  | some d =>
      simp only [Bool.not_eq_eq_eq_not, Bool.not_true, Option.some.injEq]
      split_ifs with h1 h2
      · simp [h1]
      · simp [h1, h2]
      · simp [h2]

theorem checkMover_eq_ok_iff : g.checkMover u = .ok c ↔
    g.status = .underway ∧ g.checkPlayer u = .ok c := by
  unfold checkMover
  cases hp : g.checkPlayer u with
  | error e =>
      split_ifs <;> simp
  | ok d =>
      have hs : g.seats.seatOf u = some d := (checkPlayer_eq_ok_iff.mp hp).1
      rw [hs]
      simp only [Option.isNone_some, Bool.false_eq_true, if_false, ne_eq, ite_not]
      split_ifs with h1 h2
      · simp [h1]
      · simp [h2]
      · simp [h2]

/-- The game after a user took a seat. -/
def seated (g : Game) (c : Color) (u : UserId) : Game :=
  { g with
    seats := g.seats.seat c u
    status := if (g.seats.seat c u).full then g.status.advance .underway else g.status }

theorem join_eq_ok_iff : g.join u = .ok (c, g') ↔
    g.status = .waiting ∧ g.seats.seatOf u = none ∧ g.seats.firstFree = some c ∧
      g' = g.seated c u := by
  unfold join
  split_ifs with h1 h2
  · simp [h1]
  · simp [Option.ne_none_iff_isSome.mpr h2]
  · rw [Option.not_isSome_iff_eq_none] at h2
    cases hf : g.seats.firstFree with
    | none => simp
    | some d =>
        simp only [Except.ok.injEq, Prod.mk.injEq, Option.some.injEq]
        constructor
        · rintro ⟨rfl, rfl⟩
          exact ⟨not_not.mp h1, h2, rfl, rfl⟩
        · rintro ⟨-, -, rfl, rfl⟩
          exact ⟨rfl, rfl⟩

theorem move_eq_ok_iff : g.move u s t = .ok (o, g') ↔
    ∃ p, g.status = .underway ∧ g.seats.full = true ∧ g.seats.player g.turn = some u ∧
      g.seats.seatOf u = some p.color ∧ g.board.pieceAt s = some p ∧ t ∈ g.board.moves p ∧
      (o, g') = g.afterMove u p.color s t (g.board.apply p t) := by
  unfold move
  cases hm : g.checkMover u with
  | error e =>
      simp only [reduceCtorEq, false_iff]
      rintro ⟨p, h1, h2, h3, h4, -⟩
      have := checkMover_eq_ok_iff.mpr ⟨h1, checkPlayer_eq_ok_iff.mpr ⟨h4, h2, h3⟩⟩
      rw [hm] at this
      cases this
  | ok d =>
      obtain ⟨h1, hp⟩ := checkMover_eq_ok_iff.mp hm
      obtain ⟨h4, h2, h3⟩ := checkPlayer_eq_ok_iff.mp hp
      cases hs : g.board.pieceAt s with
      | none => simp
      | some p =>
          simp only [h1, h2, h3, h4, Option.some.injEq, true_and]
          by_cases hc : p.color = d
          · subst hc
            rw [if_neg (not_not.mpr rfl)]
            by_cases ht : t ∈ g.board.moves p
            · rw [Board.play?, if_pos ht]
              constructor
              · intro h
                exact ⟨p, rfl, rfl, ht, (Except.ok.inj h).symm⟩
              · rintro ⟨q, -, rfl, -, h⟩
                exact congrArg Except.ok h.symm
            · rw [Board.play?, if_neg ht]
              simp only [reduceCtorEq, false_iff]
              rintro ⟨q, -, rfl, h, -⟩
              exact ht h
          · rw [if_pos hc]
            simp only [reduceCtorEq, false_iff]
            rintro ⟨q, hq, rfl, -⟩
            exact hc hq.symm

theorem status_of_join (h : g.join u = .ok (c, g')) : g'.status ≠ .closed := by
  obtain ⟨hw, -, -, rfl⟩ := join_eq_ok_iff.mp h
  simp only [seated, hw]
  split_ifs <;> simp [Status.advance, Status.canAdvanceTo]

theorem status_of_move (h : g.move u s t = .ok (o, g')) :
    g'.status = .closed ↔ o.checkmate = true := by
  obtain ⟨p, hst, -, -, -, -, -, e⟩ := move_eq_ok_iff.mp h
  cases e
  simp only [hst]
  split_ifs with hm
  · simp [Status.advance, Status.canAdvanceTo, hm]
  · simp [hm]

/-- A move adds itself to the log, under the side that the user has, and leaves the seats. -/
theorem log_of_move (h : g.move u s t = .ok (o, g')) :
    o.source = s ∧ o.target = t ∧ g'.seats = g.seats ∧
      ∃ c, g.seats.player c = some u ∧ g'.log = g.log ++ [⟨c, s.text, t.text⟩] := by
  obtain ⟨p, -, -, -, hseat, -, -, e⟩ := move_eq_ok_iff.mp h
  cases e
  exact ⟨rfl, rfl, rfl, p.color, Seats.player_of_seatOf hseat, rfl⟩

/-- After a join exactly the former players and the one who joined have seats. -/
theorem seatOf_of_join {v : UserId} (h : g.join u = .ok (c, g')) :
    (g'.seats.seatOf v).isSome ↔ (g.seats.seatOf v).isSome ∨ v = u := by
  obtain ⟨-, -, hc, rfl⟩ := join_eq_ok_iff.mp h
  have hfree := Seats.player_firstFree hc
  show ((g.seats.seat c u).seatOf v).isSome ↔ _
  rw [Seats.seatOf_isSome_iff, Seats.seatOf_isSome_iff]
  cases c with
  | white =>
      have hw : g.seats.white = none := hfree
      simp [Seats.seat, hw, or_comm, eq_comm]
  | black =>
      have hb : g.seats.black = none := hfree
      simp [Seats.seat, hb, eq_comm]

/-! ### Games and their records -/

/-- The log is the record of a line of play from the start to the board. -/
def Played (g : Game) : Prop :=
  ∃ ms, Board.start.playAll? ms = some g.board ∧ g.log = ms.map Ply.record

theorem Played.join (hg : g.Played) (h : g.join u = .ok (c, g')) : g'.Played := by
  obtain ⟨-, -, -, rfl⟩ := join_eq_ok_iff.mp h
  exact hg

theorem Played.move (hg : g.Played) (h : g.move u s t = .ok (o, g')) : g'.Played := by
  obtain ⟨p, -, -, -, -, hp, ht, e⟩ := move_eq_ok_iff.mp h
  obtain ⟨ms, hms, hlog⟩ := hg
  cases e
  refine ⟨ms ++ [⟨p, t⟩], ?_, ?_⟩
  · rw [Board.playAll?_append, hms]
    simp only [Option.bind_some, Board.playAll?, Board.play?, if_pos ht]
  · obtain ⟨rfl, -⟩ := Board.pieceAt_eq_some_iff.mp hp
    rw [List.map_append, ← hlog]
    rfl

/-- A played game is rebuilt from its record. -/
theorem Played.ofRecord (hg : g.Played) : Game.ofRecord g.toRecord = .ok g := by
  obtain ⟨ms, hms, hlog⟩ := hg
  have hboard : (if g.toRecord.pieces.isEmpty && g.toRecord.log.isEmpty then .ok Board.start
      else Board.ofRecords g.toRecord.pieces g.toRecord.log) = .ok g.board := by
    split_ifs with h
    · -- no log entry, so the line is empty and the board is still the start
      have hnil : g.log = [] := List.isEmpty_iff.mp (Bool.and_eq_true_iff.mp h).2
      rw [hnil, eq_comm, List.map_eq_nil_iff] at hlog
      subst hlog
      exact congrArg Except.ok (Option.some.inj hms)
    · show Board.ofRecords g.board.toRecords g.log = _
      rw [hlog]
      exact Board.ofRecords_toRecords Board.visits_start Board.kingsHome_start hms
  unfold Game.ofRecord
  rw [hboard]
  rfl

end Game
end LiveChess
