import LiveChess.Proofs.GameSteps

/-! # The life of a game

`LifeCycle` says how seats, turn, log, status, winner and board of a game hang together.  It holds
of a new game whose seats are not both held by one user, and joins and moves keep it. -/

namespace LiveChess.Game

/-- The fields of a game agree on how far it has come. -/
structure LifeCycle (g : Game) : Prop where
  seats_ne : ∀ u, ¬ (g.seats.white = some u ∧ g.seats.black = some u)
  waiting_iff : g.status = .waiting ↔ g.seats.full = false
  log_of_waiting : g.status = .waiting → g.log = []
  not_rejected : g.status ≠ .rejected
  turn_iff : g.turn = .white ↔ g.log.length % 2 = 0
  player_iff : ∀ i m, g.log[i]? = some m → (m.player = .white ↔ i % 2 = 0)
  closed_iff_winner : g.status = .closed ↔ g.winner.isSome = true
  closed_iff_mate : g.status = .closed ↔ g.board.isCheckmate g.turn = true
  winner_seat : ∀ u, g.winner = some u → g.seats.player g.turn.opponent = some u

/-- The game of a fresh record. -/
def opening (seats : Seats) : Game :=
  ⟨seats, .white, if seats.full then .underway else .waiting, none, [], .start⟩

theorem played_opening (seats : Seats) : (opening seats).Played := ⟨[], rfl, rfl⟩

theorem ofRecord_fresh (seats : Seats) : ofRecord (.fresh seats) = .ok (opening seats) :=
  (played_opening seats).ofRecord

variable {g g' : Game} {u : UserId} {c : Color} {s t : Square} {o : MoveOutcome} {seats : Seats}

theorem isCheckmate_start (c : Color) : Board.start.isCheckmate c = false := by
  cases c <;> decide +kernel

theorem lifeCycle_opening (hs : ∀ u, ¬ (seats.white = some u ∧ seats.black = some u)) :
    (opening seats).LifeCycle where
  seats_ne := hs
  waiting_iff := by
    unfold opening
    cases seats.full <;> simp
  log_of_waiting _ := rfl
  not_rejected := by
    unfold opening
    cases seats.full <;> simp
  turn_iff := by simp [opening]
  player_iff i m h := by simp [opening] at h
  closed_iff_winner := by
    unfold opening
    cases seats.full <;> simp
  closed_iff_mate := by
    show (if seats.full then Status.underway else .waiting) = .closed ↔
      Board.start.isCheckmate .white = true
    rw [isCheckmate_start]
    cases seats.full <;> simp
  winner_seat u h := by cases h

/-- A match that is not over has no winner, and nobody is mated. -/
theorem LifeCycle.undecided (hg : g.LifeCycle) (h : g.status ≠ .closed) :
    g.winner = none ∧ g.board.isCheckmate g.turn = false := by
  constructor
  · rw [← Option.not_isSome_iff_eq_none]
    exact fun hw => h (hg.closed_iff_winner.mpr hw)
  · exact Bool.eq_false_iff.mpr fun hm => h (hg.closed_iff_mate.mpr hm)

theorem LifeCycle.join (hg : g.LifeCycle) (h : g.join u = .ok (c, g')) : g'.LifeCycle := by
  obtain ⟨hw, hu, hc, rfl⟩ := join_eq_ok_iff.mp h
  have hfree := Seats.player_firstFree hc
  obtain ⟨hnowinner, hnotmate⟩ := hg.undecided (by rw [hw]; simp)
  have hout : ∀ d, g.seats.player d ≠ some u := by
    intro d hd
    have : (g.seats.seatOf u).isSome = true := by
      rw [Seats.seatOf_isSome_iff]
      cases d with
      | white => exact .inl hd
      | black => exact .inr hd
    rw [hu] at this
    cases this
  -- a game that waits is under way as soon as its second seat is taken
  have hstatus : (g.seated c u).status =
      if (g.seats.seat c u).full then .underway else .waiting := by
    simp only [seated, hw]
    rfl
  refine ⟨?_, ?_, ?_, ?_, hg.turn_iff, hg.player_iff, ?_, ?_, ?_⟩
  · rintro v ⟨h1, h2⟩
    have h1' : (g.seats.seat c u).player .white = some v := h1
    have h2' : (g.seats.seat c u).player .black = some v := h2
    rw [Seats.player_seat] at h1' h2'
    split_ifs at h1' h2' with e1 e2 e3
    · rw [← e1] at e2; cases e2
    · cases h1'; exact hout .black h2'
    · cases h2'; exact hout .white h1'
    · exact hg.seats_ne v ⟨h1', h2'⟩
  · rw [hstatus]
    show _ ↔ (g.seats.seat c u).full = false
    cases (g.seats.seat c u).full <;> simp
  · intro _
    exact hg.log_of_waiting hw
  · rw [hstatus]
    split_ifs <;> simp
  · rw [hstatus]
    show _ ↔ g.winner.isSome = true
    rw [hnowinner]
    split_ifs <;> simp
  · rw [hstatus]
    show _ ↔ g.board.isCheckmate g.turn = true
    rw [hnotmate]
    split_ifs <;> simp
  · intro v hv
    rw [show g.winner = some v from hv] at hnowinner
    cases hnowinner

theorem LifeCycle.turn_eq (hg : g.LifeCycle) (hturn : g.seats.player g.turn = some u)
    (hseat : g.seats.seatOf u = some c) : g.turn = c := by
  have hc := Seats.player_of_seatOf hseat
  by_contra hne
  cases ht : g.turn with
  | white =>
      rw [ht] at hturn hne
      cases c with
      | white => exact hne rfl
      | black => exact hg.seats_ne u ⟨hturn, hc⟩
  | black =>
      rw [ht] at hturn hne
      cases c with
      | white => exact hg.seats_ne u ⟨hc, hturn⟩
      | black => exact hne rfl

theorem LifeCycle.move (hg : g.LifeCycle) (h : g.move u s t = .ok (o, g')) : g'.LifeCycle := by
  obtain ⟨p, hst, hfull, hturn, hseat, -, -, e⟩ := move_eq_ok_iff.mp h
  have hp := hg.turn_eq hturn hseat
  rw [← hp] at e
  cases e
  have hopen : g.status = .underway := hst
  obtain ⟨hnowinner, -⟩ := hg.undecided (by rw [hopen]; simp)
  generalize hmate : ((g.board.apply p t).inCheck g.turn.opponent &&
    (g.board.apply p t).isCheckmate g.turn.opponent) = mate
  have hmate' : (g.board.apply p t).isCheckmate g.turn.opponent = mate := by
    rw [← hmate, Board.isCheckmate]
    simp
  simp only [hopen]
  refine ⟨hg.seats_ne, ?_, ?_, ?_, ?_, ?_, ?_, ?_, ?_⟩
  · simp only [hfull]
    cases mate <;> simp [Status.advance, Status.canAdvanceTo]
  · cases mate <;> simp [Status.advance, Status.canAdvanceTo]
  · cases mate <;> simp [Status.advance, Status.canAdvanceTo]
  · have := hg.turn_iff
    simp only [List.length_append, List.length_singleton]
    cases ht : g.turn <;> simp [ht, Color.opponent] at this ⊢ <;> omega
  · intro i m hi
    rw [List.getElem?_append] at hi
    split_ifs at hi with hlt
    · exact hg.player_iff i m hi
    · have hlen : i = g.log.length := by
        have := (List.getElem?_eq_some_iff.mp hi).1
        simp only [List.length_singleton] at this
        omega
      subst hlen
      simp only [Nat.sub_self, List.getElem?_cons_zero, Option.some.injEq] at hi
      rw [← hi]
      exact hg.turn_iff
  · rw [hnowinner]
    cases mate <;> simp [Status.advance, Status.canAdvanceTo]
  · rw [hmate']
    cases mate <;> simp [Status.advance, Status.canAdvanceTo]
  · intro v hv
    rw [hnowinner] at hv
    cases mate with
    | false => cases hv
    | true =>
        cases hv
        rw [Color.opponent_opponent]
        exact hturn

end LiveChess.Game
