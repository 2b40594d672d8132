import LiveChess.Proofs.Threats

/-! # The king after a move

A side that is in check may only play moves that end the check; one that is not may also step into
check.  Castling never does: the rules look at the squares of the king's way before king and rook
have moved, and the rook comes to stand in every line that the king has opened by leaving its home
square (`isBlocked_castled`).  `check_after_move` says when a side can be in check after a move of its
own. -/

namespace LiveChess.Board

variable {b : Board} {p : Piece} {s t u : Square} {c : Color} {w : Wing}

/-- A king's move of two files. -/
def IsCastling (p : Piece) (t : Square) : Prop := p.kind = .king ∧ TwoFiles p.square t

/-! ### The home row -/

/-- The squares of castling lie on the home row of the side. -/
theorem row_of_wing (c : Color) (w : Wing) :
    (c.rookHome w).row = (c.castlesTo w).row ∧ (c.crosses w).row = (c.castlesTo w).row ∧
      c.kingHome.row = (c.castlesTo w).row := by
  cases w <;> exact ⟨rfl, rfl, rfl⟩

/-- On the home row the crossed square is next to the king's and the rook's is the last one. -/
theorem col_of_wing (c : Color) (w : Wing) :
    ((c.rookHome w).col.toNat = 7 ∧ (c.castlesTo w).col.toNat = 6 ∧ (c.crosses w).col.toNat = 5 ∨
      (c.rookHome w).col.toNat = 0 ∧ (c.castlesTo w).col.toNat = 2 ∧
        (c.crosses w).col.toNat = 3) ∧ c.kingHome.col.toNat = 4 := by
  cases w
  · exact ⟨.inl ⟨rfl, rfl, rfl⟩, rfl⟩
  · exact ⟨.inr ⟨rfl, rfl, rfl⟩, rfl⟩

/-- From no square of the board is the rook's corner before the square that the king lands on. -/
theorem rookHome_not_mem_between (hs : s.OnBoard) (hne : s ≠ c.castlesTo w)
    (hline : s.OnLine (c.castlesTo w)) : c.rookHome w ∉ Square.between s (c.castlesTo w) := by
  obtain ⟨m, n, k, hd, hk, hst⟩ := hline.exists_steps hs (c.onBoard_castlesTo w) hne
  rw [Square.mem_between_row hd hs (c.onBoard_castlesTo w) hk hst (row_of_wing c w).1]
  have hcol := (col_of_wing c w).1
  have := Square.toNat_lt hs
  rintro ⟨-, h⟩
  omega

/-- Where the king's home square is in the way of an attack on the square that it lands on, so is the
square that it crosses, and conversely. -/
theorem kingHome_mem_between_iff (hs : s.OnBoard) (hne : s ≠ c.castlesTo w)
    (hking : s ≠ c.kingHome) (hline : s.OnLine (c.castlesTo w)) :
    c.kingHome ∈ Square.between s (c.castlesTo w) ↔
      c.crosses w ∈ Square.between s (c.castlesTo w) := by
  obtain ⟨m, n, k, hd, hk, hst⟩ := hline.exists_steps hs (c.onBoard_castlesTo w) hne
  obtain ⟨-, hcross, hhome⟩ := row_of_wing c w
  have ht := c.onBoard_castlesTo w
  rw [Square.mem_between_row hd hs ht hk hst hcross, Square.mem_between_row hd hs ht hk hst hhome]
  refine and_congr_right fun hrow => ?_
  have hcol := col_of_wing c w
  have hking : s.col.toNat ≠ c.kingHome.col.toNat := by
    intro h
    exact hking (Square.eq_iff_toNat.mpr ⟨congrArg UInt8.toNat (hrow.trans hhome.symm), h⟩)
  omega

/-! ### Castling into safety -/

/-- Castling neither opens nor closes a line to the square that the king lands on. -/
theorem isBlocked_castled (h : b.admits c.king (c.castlesTo w) = true) (hs : s.OnBoard)
    (hne : s ≠ c.castlesTo w) (hking : s ≠ c.kingHome) (hline : s.OnLine (c.castlesTo w)) :
    (b.apply c.king (c.castlesTo w)).isBlocked s (c.castlesTo w) =
      b.isBlocked s (c.castlesTo w) := by
  have hcastled (u : Square) := manAt_apply_castlesTo (u := u) h
  by_cases hway : c.kingHome ∈ Square.between s (c.castlesTo w)
  · -- before, the king stands in the way, and afterwards the rook
    have hcross := (kingHome_mem_between_iff hs hne hking hline).mp hway
    have hman : b.manAt c.kingHome = some ⟨.king, c⟩ := (admits_spec h).2.2.1
    have hbefore : b.isBlocked s (c.castlesTo w) = true :=
      List.any_eq_true.mpr ⟨_, hway, by rw [hman]; rfl⟩
    have hafter : (b.apply c.king (c.castlesTo w)).isBlocked s (c.castlesTo w) = true :=
      List.any_eq_true.mpr ⟨_, hcross, by rw [hcastled, if_pos rfl]; rfl⟩
    rw [hbefore, hafter]
  · refine isBlocked_congr fun u hu => ?_
    rw [hcastled, if_neg, if_neg, if_neg]
    · rintro (rfl | rfl)
      · exact hway hu
      · exact rookHome_not_mem_between hs hne hline hu
    · rintro rfl
      exact not_mem_between _ _ hu
    · rintro rfl
      exact hway ((kingHome_mem_between_iff hs hne hking hline).mpr hu)

/-- A king that has castled is not attacked. -/
theorem isAttacked_castled (h : b.admits c.king (c.castlesTo w) = true)
    (hsafe : b.isAttacked (c.castlesTo w) c.opponent = false) :
    (b.apply c.king (c.castlesTo w)).isAttacked (c.castlesTo w) c.opponent = false := by
  rw [Bool.eq_false_iff]
  intro hattacked
  obtain ⟨q, hq, hman, ha⟩ := isAttacked_iff.mp hattacked
  have hother : ∀ k : Kind, q.man ≠ ⟨k, c⟩ := by
    rintro k e
    exact Color.opponent_ne c (hq.symm.trans (congrArg Man.color e))
  -- the attacker stood on its square before and attacked from there
  rw [manAt_apply_castlesTo h] at hman
  split_ifs at hman with h1 h2 h3
  · exact hother _ (Option.some.inj hman).symm
  · exact hother _ (Option.some.inj hman).symm
  · have hs := onBoard_of_manAt hman
    rw [attacks_congr fun hline =>
      isBlocked_castled h hs h2 (fun e => h3 (.inl e)) hline] at ha
    rw [Bool.eq_false_iff] at hsafe
    exact hsafe (isAttacked_iff.mpr ⟨q, hq, hman, ha⟩)

theorem inCheck_of_king (hone : b.OneKing c) (hs : b.manAt s = some ⟨.king, c⟩) :
    b.inCheck c = b.isAttacked s c.opponent := by
  unfold inCheck
  rw [(findKing_eq_some_iff hone).mpr hs]

/-! ### Moves and checks -/

/-- A side that castles is not in check before, nor is the square that its king crosses attacked, nor
is the side in check afterwards. -/
theorem check_of_castling (hone : b.OneKing p.color) (h : b.admits p t = true)
    (hc : IsCastling p t) :
    p.square = p.color.kingHome ∧ b.inCheck p.color = false ∧
      (b.apply p t).inCheck p.color = false ∧ ∃ w, t = p.color.castlesTo w ∧
        b.isAttacked (p.color.crosses w) p.color.opponent = false := by
  obtain ⟨hk, h2⟩ := hc
  have hsome := castling?_isSome h hk h2
  obtain ⟨c, w, rfl, rfl⟩ := exists_castling_of_twoFiles h hk h2
  have hsafe := (castling?_king_iff.mp hsome).2
  have hlanded : (b.apply c.king (c.castlesTo w)).manAt (c.castlesTo w) = some ⟨.king, c⟩ := by
    rw [manAt_apply_castlesTo h, if_neg, if_pos rfl]
    cases c <;> cases w <;> decide
  refine ⟨rfl, ?_, ?_, w, rfl, hsafe _ (by simp [Color.king])⟩
  · rw [inCheck_of_king hone (admits_spec h).2.2.1]
    exact hsafe _ (by simp [Color.king])
  · rw [inCheck_of_king (hone.apply h) hlanded]
    exact isAttacked_castled h (hsafe _ (by simp))

/-- **When a side may end in check.**  Take any board on which the side of a piece has at most one
king, and a move of the piece that is played.  If the side was in check, it is not any more.  If the
move is a castling, the side was not in check, is not in check, and no piece of the other side
attacked the square that its king crossed.  So a side in check after its own move was not in check
before, and has not castled.  Conversely a side in check may play every admitted move that leaves a
board on which it is not in check. -/
theorem check_after_move (hone : b.OneKing p.color) :
    (∀ r b', b.play? p t = some (r, b') →
      (b.inCheck p.color = true → b'.inCheck p.color = false) ∧
      (IsCastling p t → b.inCheck p.color = false ∧ b'.inCheck p.color = false ∧
        p.square = p.color.kingHome ∧ ∃ w, t = p.color.castlesTo w ∧
          b.isAttacked (p.color.crosses w) p.color.opponent = false) ∧
      (b'.inCheck p.color = true → b.inCheck p.color = false ∧ ¬ IsCastling p t)) ∧
    (b.inCheck p.color = true → b.admits p t = true → (b.apply p t).inCheck p.color = false →
      b.play? p t = some (b.placement p t, b.apply p t)) := by
  refine ⟨fun r b' hplay => ?_, fun hcheck hadmits hafter => ?_⟩
  · obtain ⟨hmem, -, rfl⟩ := play?_eq_some_iff.mp hplay
    have hadmits := admits_of_mem_moves hmem
    have hends : b.inCheck p.color = true → (b.apply p t).inCheck p.color = false := by
      intro hcheck
      rw [moves, if_pos hcheck] at hmem
      simpa [leavesInCheck] using (List.mem_filter.mp hmem).2
    refine ⟨hends, fun hc => ?_, fun hafter => ⟨?_, fun hc => ?_⟩⟩
    · obtain ⟨hhome, hbefore, hsafe, hcross⟩ := check_of_castling hone hadmits hc
      exact ⟨hbefore, hsafe, hhome, hcross⟩
    · by_contra hcheck
      rw [hends (Bool.not_eq_false _ ▸ hcheck)] at hafter
      cases hafter
    · rw [(check_of_castling hone hadmits hc).2.2.1] at hafter
      cases hafter
  · refine play?_eq_some_iff.mpr ⟨?_, rfl, rfl⟩
    rw [moves, if_pos hcheck, List.mem_filter, admitted, List.mem_filter, Square.mem_all]
    exact ⟨⟨(admits_spec hadmits).1, hadmits⟩, by simp [leavesInCheck, hafter]⟩

/-- Black, checked by a bishop, puts a pawn in between; leaving the check alone is admitted by the rule
of the single move, but cannot be played. -/
theorem check_after_interposing :
    let line : List Ply := [⟨⟨.pawn, .white, ⟨6, 4⟩⟩, ⟨4, 4⟩⟩, ⟨⟨.pawn, .black, ⟨1, 3⟩⟩, ⟨3, 3⟩⟩,
      ⟨⟨.bishop, .white, ⟨7, 5⟩⟩, ⟨3, 1⟩⟩]
    let pawn : Piece := ⟨.pawn, .black, ⟨1, 2⟩⟩
    ∃ b r b', start.playAll? line = some b ∧ b.OneKing .black ∧ b.inCheck .black = true ∧
      b.play? pawn ⟨2, 2⟩ = some (r, b') ∧ b'.inCheck .black = false ∧
      b.admits pawn ⟨3, 2⟩ = true ∧ b.play? pawn ⟨3, 2⟩ = none := by
  intro line pawn
  have hfacts : (start.playAll? line).map (fun b => (b.inCheck .black, b.admits pawn ⟨2, 2⟩,
      (b.apply pawn ⟨2, 2⟩).inCheck .black, b.admits pawn ⟨3, 2⟩,
      (b.play? pawn ⟨3, 2⟩).isNone)) = some (true, true, false, true, true) := by decide +kernel
  obtain ⟨b, hb, hfacts⟩ := Option.map_eq_some_iff.mp hfacts
  simp only [Prod.mk.injEq, Option.isNone_iff_eq_none] at hfacts
  obtain ⟨hcheck, hadmits, hafter, hleft, hrefused⟩ := hfacts
  have hone : b.OneKing pawn.color := (oneKing_start .black).playAll hb
  obtain ⟨hplayed, hplayable⟩ := check_after_move (t := ⟨2, 2⟩) hone
  have hplay := hplayable hcheck hadmits hafter
  exact ⟨b, _, _, hb, hone, hcheck, hplay, (hplayed _ _ hplay).1 hcheck, hleft, hrefused⟩

end LiveChess.Board
