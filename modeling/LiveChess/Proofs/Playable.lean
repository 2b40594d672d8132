import LiveChess.Proofs.MatchRun

/-! # What is shown and what may be played

A player who asks where a man may go is shown squares; moving the man there is a question of its
own, with checks of its own.  Everything that may be played is shown, in every state of a match that
has been begun.  The converse holds for a player's own men only: whoever is on turn is also shown
where the opponent's men could go, and no such move is accepted
(`playable_iff_shown_of_own`). -/

namespace LiveChess

namespace Store

variable {s : Store} {id : MatchId} {budget : Duration}

/-- With a record to replace, with time and without an outage a save succeeds. -/
theorem save_ok (hr : s.records.contains id = true) (ho : s.outage.save id = none)
    (hb : budget.nanos ≠ 0) (r : MatchRecord) : (s.save id r budget).1 = .ok () := by
  unfold save
  rw [ho, hindrance, if_neg hb]
  simp only [hr, if_true]

end Store

namespace Game

variable {g g' : Game} {u : UserId} {s t : Square} {p : Piece}

/-- The squares that a user is shown for a square; none if the question is refused. -/
def shown (g : Game) (u : UserId) (s : Square) : List Square :=
  match g.movesFrom u s with
  | .ok squares => squares
  | .error _ => []

theorem mem_shown : t ∈ g.shown u s ↔
    (∃ c, g.checkPlayer u = .ok c) ∧ ∃ p, g.board.pieceAt s = some p ∧ t ∈ g.board.moves p := by
  unfold shown movesFrom Board.movesFrom
  cases g.checkPlayer u with
  | error e => simp
  | ok c =>
      cases g.board.pieceAt s with
      | none => simp
      | some p => simp

/-- A move is made exactly if its target is shown and its man is of the side on turn. -/
theorem LifeCycle.move_iff_shown (hg : g.LifeCycle) :
    (∃ o g', g.move u s t = .ok (o, g')) ↔
      t ∈ g.shown u s ∧ ∃ p, g.board.pieceAt s = some p ∧ p.color = g.turn := by
  constructor
  · rintro ⟨o, g', h⟩
    obtain ⟨p, -, hfull, hturn, hseat, hp, ht, -⟩ := move_eq_ok_iff.mp h
    refine ⟨mem_shown.mpr ⟨⟨p.color, ?_⟩, p, hp, ht⟩, p, hp, (hg.turn_eq hturn hseat).symm⟩
    exact checkPlayer_eq_ok_iff.mpr ⟨hseat, hfull, hturn⟩
  · rintro ⟨hshown, p, hp, hcolor⟩
    obtain ⟨⟨c, hc⟩, p', hp', ht⟩ := mem_shown.mp hshown
    rw [hp] at hp'
    cases hp'
    obtain ⟨hseat, hfull, hturn⟩ := checkPlayer_eq_ok_iff.mp hc
    have hc : p.color = c := hcolor.trans (hg.turn_eq hturn hseat)
    -- both seats are taken and the side on turn has a move, so the match is under way
    have hunderway : g.status = .underway := by
      cases hs : g.status with
      | underway => rfl
      | waiting =>
          rw [hg.waiting_iff.mp hs] at hfull
          cases hfull
      | rejected => exact absurd hs hg.not_rejected
      | closed =>
          have hmate := hg.closed_iff_mate.mp hs
          rw [← hcolor] at hmate
          rw [Board.moves_of_isCheckmate hmate] at ht
          cases ht
    refine ⟨_, _, move_eq_ok_iff.mpr ⟨p, hunderway, hfull, hturn, ?_, hp, ht, rfl⟩⟩
    rw [hc]
    exact hseat

end Game

/-- A table whose saves succeed makes a move exactly if its game does. -/
theorem Table.move_accepted {t : Table} {st : Store} {u : UserId} {s s' : Square}
    (hsave : ∀ r, (st.save t.id r t.budget).1 = .ok ()) :
    (∃ o, (t.move u s s' st).1 = .ok o) ↔ ∃ o g', t.game.move u s s' = .ok (o, g') := by
  unfold Table.move Table.commit
  cases t.game.move u s s' with
  | error e => simp
  | ok x =>
      obtain ⟨o, next⟩ := x
      have h := hsave next.toRecord
      simp only
      generalize st.save t.id next.toRecord t.budget = y at h ⊢
      obtain ⟨r, st'⟩ := y
      obtain rfl : r = .ok () := h
      simp

namespace Arbiter

variable {a a' : Arbiter} {m : MatchId} {t : Table} {g : Game} {store : Store} {budget : Duration}
  {before after : List Occasion} {birth : Occasion}

/-- The table that is found for a match, held or set up anew, has the game of the match. -/
theorem Has.game_of_find (h : Has a m g) (hk : a.hall.Keyed) (hf : a.find m = (.ok t, a')) :
    t.id = m ∧ t.game = g := by
  have hfind := a.find_finds m
  rw [hf] at hfind
  refine ⟨hfind.id_eq hk rfl, ?_⟩
  have hrecord := h.record
  have hplayed := h.played
  cases hfind with
  | held t ht =>
      rcases h with ⟨t', hs, rfl⟩ | ho
      · rw [hs.table] at ht
        cases ht
        rfl
      · rw [ho.table] at ht
        cases ht
  | loaded r g' ht hr hg =>
      rw [hrecord] at hr
      cases hr
      rw [hplayed.ofRecord] at hg
      cases hg
      rfl

/-- A match that was created in a run lives on in it. -/
theorem lived_of_run (hbirth : (((new store budget).after before).meet birth).answer = .created m)
    (honce : ∀ x ∈ (((new store budget).after before).meet birth).state.trace after,
      x.2.answer ≠ .created m) :
    ∃ made g, Lived ((new store budget).after (before ++ birth :: after)) m made g := by
  have hafter : (new store budget).after (before ++ birth :: after) =
      (((new store budget).after before).meet birth).state.after after := List.foldl_append
  have hk := keyed_after (keyed_new store budget) before
  obtain ⟨g₀, h₀⟩ := lived_of_created hk hbirth
  have hk₀ := keyed_handle (a := ((new store budget).after before).under birth.outage) hk
    birth.opened birth.request
  obtain ⟨g, h⟩ := h₀.after hk₀ after honce
  rw [hafter]
  exact ⟨_, g, h⟩

/-- **What may be played is shown, and what is shown of a player's own men may be played.**  Take a
match that was created at some point of a run, whatever has been asked since and whichever calls of
the store failed, and a table that is found for it then, be it the one in use or one that is set up
anew.  If saves of the table succeed, then a user may move from one square to another exactly if the
other is among the squares that the user is shown for the one, and the man there is of the side on
turn. -/
theorem playable_iff_shown_of_own
    (hbirth : (((new store budget).after before).meet birth).answer = .created m)
    (honce : ∀ x ∈ (((new store budget).after before).meet birth).state.trace after,
      x.2.answer ≠ .created m) {o : Outage}
    (hfind : (((new store budget).after (before ++ birth :: after)).under o).find m = (.ok t, a'))
    {st : Store} (hsave : ∀ r, (st.save m r t.budget).1 = .ok ()) (u : UserId) (s s' : Square) :
    (∃ outcome, (t.move u s s' st).1 = .ok outcome) ↔
      s' ∈ t.game.shown u s ∧ ∃ p, t.game.board.pieceAt s = some p ∧ p.color = t.game.turn := by
  obtain ⟨made, g, hhas, hlife, -⟩ := lived_of_run hbirth honce
  have hk : (((new store budget).after (before ++ birth :: after)).under o).hall.Keyed :=
    keyed_after (keyed_new store budget) _
  obtain ⟨rfl, rfl⟩ := (hhas.under o).game_of_find hk hfind
  rw [Table.move_accepted hsave]
  exact hlife.move_iff_shown

/-- Bob, who has taken the free seat and is on turn after the first move, may answer with what he is
shown for his king's pawn. -/
theorem playable_iff_shown_of_reply :
    let m : MatchId := ⟨⟨7⟩⟩
    let alice : Connection := ⟨⟨0⟩, ⟨⟨1⟩⟩⟩
    let bob : UserId := ⟨⟨2⟩⟩
    let birth : Occasion := ⟨.create alice.user .white none, .empty, .none⟩
    let later : List Occasion := [⟨.join m bob, .empty, .none⟩,
      ⟨.move alice m "e2" "e4", .empty, .none⟩]
    let a := ((new (.new [m]) ⟨1000⟩).after ([] ++ birth :: later)).under .none
    ∃ t, a.find m = (.ok t, a) ∧ (⟨3, 4⟩ : Square) ∈ t.game.shown bob ⟨1, 4⟩ ∧
      ∃ outcome, (t.move bob ⟨1, 4⟩ ⟨3, 4⟩ a.store).1 = .ok outcome := by
  intro m alice bob birth later a
  have hbirth : (((new (.new [m]) ⟨1000⟩).after []).meet birth).answer = .created m := by
    decide +kernel
  have honce : ∀ x ∈ (((new (.new [m]) ⟨1000⟩).after []).meet birth).state.trace later,
      x.2.answer ≠ .created m := by decide +kernel
  have hrecord : a.store.records.contains m = true := by decide +kernel
  have hfacts : (a.hall.tables.get? m).map (fun t => (t.budget, t.game.shown bob ⟨1, 4⟩,
      t.game.turn, t.game.board.pieceAt ⟨1, 4⟩)) =
        some (⟨1000⟩, [⟨2, 4⟩, ⟨3, 4⟩], .black, some ⟨.pawn, .black, ⟨1, 4⟩⟩) := by decide +kernel
  have houtage : a.store.outage = .none := rfl
  have ha : a = ((new (.new [m]) ⟨1000⟩).after ([] ++ birth :: later)).under .none := rfl
  clear_value a
  obtain ⟨t, ht, hfacts⟩ := Option.map_eq_some_iff.mp hfacts
  simp only [Prod.mk.injEq] at hfacts
  obtain ⟨hbudget, hshown, hturn, hpiece⟩ := hfacts
  have hfind := find_of_held ht
  have hsave : ∀ r, (a.store.save m r t.budget).1 = .ok () :=
    Store.save_ok hrecord (by rw [houtage]; rfl) (by rw [hbudget]; decide)
  have hin : (⟨3, 4⟩ : Square) ∈ t.game.shown bob ⟨1, 4⟩ := by
    rw [hshown]
    decide
  refine ⟨t, hfind, hin, ?_⟩
  exact (playable_iff_shown_of_own hbirth honce (ha ▸ hfind) hsave bob ⟨1, 4⟩ ⟨3, 4⟩).mpr
    ⟨hin, _, hpiece, hturn.symm⟩

/-- Alice, on turn in the opening, is shown where Bob's king's pawn could go, but the move is
refused although it could be saved. -/
theorem shown_not_playable :
    let m : MatchId := ⟨⟨7⟩⟩
    let alice : UserId := ⟨⟨1⟩⟩
    let bob : UserId := ⟨⟨2⟩⟩
    let birth : Occasion := ⟨.create alice .white (some bob), .empty, .none⟩
    let a := (new (.new [m]) ⟨1000⟩).after [birth]
    ∃ t, a.find m = (.ok t, a) ∧ (∀ r, (a.store.save m r t.budget).1 = .ok ()) ∧
      (⟨3, 4⟩ : Square) ∈ t.game.shown alice ⟨1, 4⟩ ∧
      (t.move alice ⟨1, 4⟩ ⟨3, 4⟩ a.store).1 = .error (.illegalMove ⟨1, 4⟩ ⟨3, 4⟩) := by
  intro m alice bob birth a
  have hrecord : a.store.records.contains m = true := by decide +kernel
  have hfacts : (a.hall.tables.get? m).map (fun t => (t.budget, t.game.shown alice ⟨1, 4⟩,
      (t.move alice ⟨1, 4⟩ ⟨3, 4⟩ a.store).1)) =
        some (⟨1000⟩, [⟨2, 4⟩, ⟨3, 4⟩], .error (.illegalMove ⟨1, 4⟩ ⟨3, 4⟩)) := by decide +kernel
  have houtage : a.store.outage.save m = none := rfl
  clear_value a
  obtain ⟨t, ht, hfacts⟩ := Option.map_eq_some_iff.mp hfacts
  simp only [Prod.mk.injEq] at hfacts
  obtain ⟨hbudget, hshown, hmove⟩ := hfacts
  refine ⟨t, find_of_held ht, Store.save_ok hrecord houtage (by rw [hbudget]; decide), ?_, hmove⟩
  rw [hshown]
  decide

end Arbiter
end LiveChess
