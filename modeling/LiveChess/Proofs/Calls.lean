import LiveChess.Proofs.Reload

/-! # Matches only move forward

At a table users ask, connections come and go, and pictures are taken.  `game_call` says what one
such call may do to the game: nothing, a join or a move.  Hence a call takes a game only forward
(`Game.Forward`), whatever record the table was set up from, and a game that is closed or rejected
stays as it is in every run (`calls_go_forward`). -/

namespace LiveChess

theorem Status.canAdvanceTo_iff {s next : Status} : s.canAdvanceTo next = true ↔
    s = .waiting ∧ next = .underway ∨ s = .underway ∧ next = .closed := by
  cases s <;> cases next <;> simp [canAdvanceTo]

theorem Status.advance_cases (s next : Status) :
    s.advance next = s ∨ s.canAdvanceTo (s.advance next) = true := by
  unfold advance
  split_ifs with h
  · exact .inr h
  · exact .inl rfl

namespace Game

variable {g g' : Game} {u : UserId} {c : Color} {s t : Square} {o : MoveOutcome}

/-- What a call may make of a game: seats are filled and never emptied, the status takes a step or
none, and the log is longer by the entry of the side that was on turn or nothing of the play has
changed. -/
structure Forward (g g' : Game) : Prop where
  player : ∀ c u, g.seats.player c = some u → g'.seats.player c = some u
  status : g'.status = g.status ∨ g.status = .waiting ∧ g'.status = .underway ∨
    g.status = .underway ∧ g'.status = .closed
  log : (∃ e, g'.log = g.log ++ [e] ∧ g'.turn = e.player.opponent) ∨
    g'.log = g.log ∧ g'.turn = g.turn ∧ g'.board = g.board

theorem Forward.refl (g : Game) : g.Forward g :=
  ⟨fun _ _ h => h, .inl rfl, .inr ⟨rfl, rfl, rfl⟩⟩

theorem forward_of_join (h : g.join u = .ok (c, g')) : g.Forward g' ∧ g'.log = g.log := by
  obtain ⟨-, -, hc, rfl⟩ := join_eq_ok_iff.mp h
  refine ⟨⟨fun d v hv => ?_, ?_, .inr ⟨rfl, rfl, rfl⟩⟩, rfl⟩
  · -- the seat that was taken was free, so it is not the one of `v`
    have hne : d ≠ c := by
      rintro rfl
      rw [Seats.player_firstFree hc] at hv
      cases hv
    exact (Seats.player_seat g.seats c d u).trans ((if_neg hne).trans hv)
  · rw [← Status.canAdvanceTo_iff]
    simp only [seated]
    split_ifs
    · exact g.status.advance_cases .underway
    · exact .inl rfl

theorem forward_of_move (h : g.move u s t = .ok (o, g')) :
    g.Forward g' ∧ g'.seats = g.seats := by
  obtain ⟨p, -, -, -, -, -, -, e⟩ := move_eq_ok_iff.mp h
  cases e
  refine ⟨⟨fun d v hv => hv, ?_, .inl ⟨_, rfl, rfl⟩⟩, rfl⟩
  rw [← Status.canAdvanceTo_iff]
  simp only
  split_ifs
  · exact g.status.advance_cases .closed
  · exact .inl rfl

/-- No step leads away from here. -/
def Frozen (g : Game) : Prop := g.status = .closed ∨ g.status = .rejected

theorem Frozen.join_ne_ok (hg : g.Frozen) : g.join u ≠ .ok (c, g') := by
  intro h
  have hst := (join_eq_ok_iff.mp h).1
  rcases hg with hc | hc <;> rw [hst] at hc <;> cases hc

theorem Frozen.move_ne_ok (hg : g.Frozen) : g.move u s t ≠ .ok (o, g') := by
  intro h
  obtain ⟨p, hst, -⟩ := move_eq_ok_iff.mp h
  rcases hg with hc | hc <;> rw [hst] at hc <;> cases hc

end Game

namespace Sitting

/-- What may happen at a table. -/
inductive Call where
  | ask (outage : Outage) (question : Question)
  | connect (c : Connection)
  | disconnect (c : Connection)
  | picture

/-- Let a call happen. -/
def call (d : Sitting) : Call → Sitting
  | .ask o q => (d.ask o q).2
  | .connect c => { d with table := d.table.connect c }
  | .disconnect c => { d with table := d.table.disconnect c }
  | .picture => d

/-- Let calls happen one after another. -/
def calls (d : Sitting) (cs : List Call) : Sitting := cs.foldl call d

/-- A call leaves the game, or it is a join or a move that the game allows. -/
theorem game_call (d : Sitting) (c : Call) :
    (d.call c).table.game = d.table.game ∨
      (∃ o u seat, c = .ask o (.join u) ∧
        d.table.game.join u = .ok (seat, (d.call c).table.game)) ∨
      ∃ o u s t outcome, c = .ask o (.move u s t) ∧
        d.table.game.move u s t = .ok (outcome, (d.call c).table.game) := by
  cases c with
  | ask o q =>
      have h := d.ask_asked o q
      simp only [call]
      generalize (d.ask o q).2 = d' at h ⊢
      cases h with
      | kept q n => exact .inl rfl
      | joined u seat next step => exact .inr (.inl ⟨o, u, seat, rfl, step⟩)
      | moved u s t outcome next step => exact .inr (.inr ⟨o, u, s, t, outcome, rfl, step⟩)
  | connect c => exact .inl rfl
  | disconnect c => exact .inl rfl
  | picture => exact .inl rfl

theorem game_call_of_frozen {d : Sitting} (hd : d.table.game.Frozen) (c : Call) :
    (d.call c).table.game = d.table.game := by
  rcases d.game_call c with h | ⟨o, u, seat, -, h⟩ | ⟨o, u, s, t, outcome, -, h⟩
  · exact h
  · exact absurd h hd.join_ne_ok
  · exact absurd h hd.move_ne_ok

theorem game_calls_of_frozen {d : Sitting} (hd : d.table.game.Frozen) (cs : List Call) :
    (d.calls cs).table.game = d.table.game := by
  induction cs generalizing d with
  | nil => rfl
  | cons c cs ih =>
      have h := game_call_of_frozen hd c
      exact (ih (h ▸ hd)).trans h

/-- **Matches only move forward.**  Take any table, consistent or not, with any store behind it, and
let anybody call with the saves failing as they like.  A filled seat keeps its user; the status
stays or takes one of its two steps; the log stays, and with it turn and board, or it grows by one
entry, and then the turn is with the opponent of that entry's side.  A join leaves the log, a move
the seats.  A game that is closed or rejected is never changed again. -/
theorem calls_go_forward (d : Sitting) :
    (∀ c, d.table.game.Forward (d.call c).table.game) ∧
      (∀ o u, (d.call (.ask o (.join u))).table.game.log = d.table.game.log) ∧
      (∀ o u s t, (d.call (.ask o (.move u s t))).table.game.seats = d.table.game.seats) ∧
      (d.table.game.status = .closed ∨ d.table.game.status = .rejected →
        ∀ cs, (d.calls cs).table.game = d.table.game) := by
  refine ⟨fun c => ?_, fun o u => ?_, fun o u s t => ?_, game_calls_of_frozen⟩
  · rcases d.game_call c with h | ⟨o, u, seat, -, h⟩ | ⟨o, u, s, t, outcome, -, h⟩
    · rw [h]
      exact .refl _
    · exact (Game.forward_of_join h).1
    · exact (Game.forward_of_move h).1
  · rcases d.game_call (.ask o (.join u)) with h | ⟨o, u, seat, -, h⟩ | ⟨o, v, s, t, _, hc, -⟩
    · rw [h]
    · exact (Game.forward_of_join h).2
    · cases hc
  · rcases d.game_call (.ask o (.move u s t)) with h | ⟨o, v, seat, hc, -⟩ | ⟨o, v, s, t, _, -, h⟩
    · rw [h]
    · cases hc
    · exact (Game.forward_of_move h).2

/-- Nobody can do anything at a table that was set up from a rejected record. -/
theorem calls_keep_rejected :
    let id : MatchId := ⟨⟨7⟩⟩
    let r : MatchRecord := ⟨⟨some ⟨⟨1⟩⟩, none⟩, .black, [], [], .rejected, none⟩
    let store := (Store.new []).seed id r
    ∃ t, Table.setUp 0 id r ⟨1000⟩ = .ok t ∧ t.game.status = .rejected ∧
      ∀ cs, (calls ⟨t, store⟩ cs).table.game = t.game := by
  intro id r store
  let t : Table := ⟨id, 0, ⟨1000⟩, ⟨r.seats, .black, .rejected, none, [], .start⟩, .empty⟩
  exact ⟨t, rfl, rfl, (calls_go_forward ⟨t, store⟩).2.2.2 (.inr rfl)⟩

end Sitting
end LiveChess
