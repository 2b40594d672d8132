import LiveChess.Proofs.KingSafety

/-! # What visit counts decide

Two boards of the same men may differ in how often their squares were visited, say because one was
rebuilt from a damaged log.  Attacks and checks are read off the men alone (`SameMen.isAttacked`,
`SameMen.inCheck`), and carrying out a move leaves boards of the same men again (`SameMen.apply`).
A move is admitted on both or on neither unless it is a castling (`SameMen.admits`), and nobody in
check castles (`SameMen.admits_of_inCheck`).  So the counts open and close castlings and decide
nothing else (`visits_only_castle`). -/

namespace LiveChess.Board

variable {b b' : Board} {p : Piece} {s t u : Square} {c : Color} {w : Wing}

/-- Boards with the same man on every square. -/
def SameMen (b b' : Board) : Prop := ∀ s, b.manAt s = b'.manAt s

/-- Boards on which the same home squares of a side's king and rooks are unvisited. -/
def SameHomes (b b' : Board) (c : Color) : Prop :=
  (b.visits c.kingHome = 0 ↔ b'.visits c.kingHome = 0) ∧
    ∀ w, b.visits (c.rookHome w) = 0 ↔ b'.visits (c.rookHome w) = 0

/-- A king on its home square and a square that its side castles onto. -/
def OntoWing (p : Piece) (t : Square) : Prop :=
  ∃ (c : Color) (w : Wing), p = c.king ∧ t = c.castlesTo w

/-! ### Castlings and other moves -/

theorem castling?_eq_none (h : ¬ OntoWing p t) : b.castling? p t = none := by
  cases hc : b.castling? p t with
  | none => rfl
  | some leg =>
      obtain ⟨hp, w, ht, -⟩ := exists_wing_of_castling? hc
      exact absurd ⟨p.color, w, hp, ht⟩ h

/-- A side that is in check does not castle. -/
theorem not_admits_of_isCastling (hone : b.OneKing p.color) (hcheck : b.inCheck p.color = true)
    (hc : IsCastling p t) : b.admits p t = false := by
  rw [Bool.eq_false_iff]
  intro h
  have hnocheck := (check_of_castling hone h hc).2.1
  rw [hcheck] at hnocheck
  cases hnocheck

/-- What may be played, picked from all squares at once. -/
theorem moves_eq_filter (b : Board) (p : Piece) : b.moves p =
    Square.all.filter fun t => b.admits p t && !(b.inCheck p.color && b.leavesInCheck p t) := by
  unfold moves admitted
  cases b.inCheck p.color with
  | false => simp
  | true => simp [List.filter_filter, Bool.and_comm]

namespace SameMen

/-! ### Attacks and checks -/

theorem isBlocked (h : b.SameMen b') (s t : Square) : b.isBlocked s t = b'.isBlocked s t :=
  isBlocked_congr fun u _ => h u

theorem pieceAt (h : b.SameMen b') (s : Square) : b.pieceAt s = b'.pieceAt s :=
  congrArg (Option.map _) (h s)

theorem isAttacked (h : b.SameMen b') (t : Square) (c : Color) :
    b.isAttacked t c = b'.isAttacked t c := by
  rw [Bool.eq_iff_iff, isAttacked_iff, isAttacked_iff]
  refine exists_congr fun p => and_congr_right fun _ => ?_
  rw [h p.square, attacks_congr fun _ => h.isBlocked p.square t]

theorem findKing (h : b.SameMen b') (c : Color) : b.findKing c = b'.findKing c := by
  unfold Board.findKing pieces
  rw [funext h.pieceAt]

theorem inCheck (h : b.SameMen b') (c : Color) : b.inCheck c = b'.inCheck c := by
  unfold Board.inCheck
  rw [h.findKing c]
  simp only [h.isAttacked]

theorem oneKing (h : b.SameMen b') (hone : b.OneKing c) : b'.OneKing c := by
  intro s t hs ht
  exact hone s t ((h s).trans hs) ((h t).trans ht)

/-! ### Carrying a move out -/

theorem relocate (h : b.SameMen b') (s t : Square) :
    (b.relocate s t).SameMen (b'.relocate s t) := by
  intro u
  simp only [Board.relocate, manAt_visit, manAt_setMan, h _]

theorem apply (h : b.SameMen b') (p : Piece) (t : Square) :
    (b.apply p t).SameMen (b'.apply p t) := by
  unfold Board.apply
  cases carriedRook p t with
  | none => exact h.relocate p.square t
  | some leg => exact (h.relocate p.square t).relocate leg.source leg.target

theorem leavesInCheck (h : b.SameMen b') (p : Piece) (t : Square) :
    b.leavesInCheck p t = b'.leavesInCheck p t := (h.apply p t).inCheck p.color

/-! ### The rule of one move -/

theorem reaches (h : b.SameMen b') (p : Piece) (t : Square) : b.reaches p t = b'.reaches p t := by
  unfold Board.reaches
  rw [h.isBlocked]

theorem admitsPawn (h : b.SameMen b') (p : Piece) (t : Square) :
    b.admitsPawn p t = b'.admitsPawn p t := by
  unfold Board.admitsPawn
  simp only [h _]

/-- A move is admitted on both boards or on neither, as long as castling is. -/
theorem admits (h : b.SameMen b')
    (hc : (b.castling? p t).isSome = (b'.castling? p t).isSome) : b.admits p t = b'.admits p t := by
  unfold Board.admits
  rw [h.pieceAt, h t, h.admitsPawn, h.reaches, hc]

theorem admits_of_not_ontoWing (h : b.SameMen b') (hw : ¬ OntoWing p t) :
    b.admits p t = b'.admits p t :=
  h.admits (by rw [castling?_eq_none hw, castling?_eq_none hw])

theorem admits_of_inCheck (h : b.SameMen b') (hone : b.OneKing p.color)
    (hcheck : b.inCheck p.color = true) : b.admits p t = b'.admits p t := by
  by_cases hc : IsCastling p t
  · have hcheck' : b'.inCheck p.color = true := (h.inCheck p.color).symm.trans hcheck
    rw [not_admits_of_isCastling hone hcheck hc,
      not_admits_of_isCastling (h.oneKing hone) hcheck' hc]
  · refine h.admits_of_not_ontoWing ?_
    rintro ⟨c, w, rfl, rfl⟩
    exact hc ⟨rfl, twoFiles_king c w⟩

/-- Castling is open on both boards or on neither, if the same home squares are unvisited. -/
theorem isSome_castling? (h : b.SameMen b') (hv : b.SameHomes b' p.color) :
    (b.castling? p t).isSome = (b'.castling? p t).isSome := by
  by_cases hw : OntoWing p t
  · obtain ⟨c, w, rfl, rfl⟩ := hw
    obtain ⟨hking, hrook⟩ : b.SameHomes b' c := hv
    rw [Bool.eq_iff_iff, castling?_king_iff, castling?_king_iff, castlingReady_iff,
      castlingReady_iff, h, hking, h.isBlocked, Color.rookLeg, hrook]
    simp only [h.isAttacked]
  · rw [castling?_eq_none hw, castling?_eq_none hw]

/-! ### What may be played -/

/-- Of the squares on which the rule of one move agrees, the same ones may be played to. -/
theorem filter_moves (h : b.SameMen b') {keep : Square → Bool}
    (hadmits : ∀ t, keep t = true → b.admits p t = b'.admits p t) :
    (b.moves p).filter keep = (b'.moves p).filter keep := by
  rw [moves_eq_filter, moves_eq_filter, List.filter_filter, List.filter_filter]
  refine List.filter_congr fun t _ => ?_
  cases hk : keep t with
  | false => rfl
  | true => rw [hadmits t hk, h.inCheck, h.leavesInCheck]

theorem moves (h : b.SameMen b') (hadmits : ∀ t, b.admits p t = b'.admits p t) :
    b.moves p = b'.moves p := by
  have hall : (b.moves p).filter (fun _ => true) = (b'.moves p).filter fun _ => true :=
    h.filter_moves fun t _ => hadmits t
  rwa [List.filter_true, List.filter_true] at hall

theorem isCheckmate (h : b.SameMen b') (hone : b.OneKing c) :
    b.isCheckmate c = b'.isCheckmate c := by
  rw [Bool.eq_iff_iff, isCheckmate_iff, isCheckmate_iff, h.inCheck]
  refine and_congr_right fun hcheck => forall₂_congr fun p t => ?_
  rw [← h.inCheck] at hcheck
  refine imp_congr_right ?_
  rintro rfl
  rw [h.admits_of_inCheck hone hcheck, h.leavesInCheck]

end SameMen

/-- **Visit counts decide castlings and nothing else.**  Take any two boards of the same men on
which each side has at most one king.  Whatever their counts, the same squares are attacked, the
same sides in check and mated, and every piece may be played to the same squares, in the same
order, unless it is a king on its home square; then the lists agree but for the two squares that it
castles onto.  They agree on these too if the same of the home squares of that king and its rooks
are unvisited. -/
theorem visits_only_castle (h : b.SameMen b') (hone : ∀ c, b.OneKing c) :
    (∀ t c, b.isAttacked t c = b'.isAttacked t c) ∧ (∀ c, b.inCheck c = b'.inCheck c) ∧
      (∀ c, b.isCheckmate c = b'.isCheckmate c) ∧
      (∀ p, (∀ c, p ≠ Color.king c) → b.moves p = b'.moves p) ∧
      (∀ c, (b.moves (Color.king c)).filter (· ∉ [c.castlesTo .king, c.castlesTo .queen]) =
        (b'.moves c.king).filter (· ∉ [c.castlesTo .king, c.castlesTo .queen])) ∧
      ∀ c, b.SameHomes b' c → b.moves c.king = b'.moves c.king := by
  refine ⟨h.isAttacked, h.inCheck, fun c => h.isCheckmate (hone c), fun p hp => ?_, fun c => ?_,
    fun c hv => ?_⟩
  · refine h.moves fun t => h.admits_of_not_ontoWing ?_
    rintro ⟨c, w, rfl, -⟩
    exact hp c rfl
  · refine h.filter_moves fun t ht => h.admits_of_not_ontoWing ?_
    rintro ⟨d, w, hking, rfl⟩
    obtain rfl : c = d := congrArg Piece.color hking
    refine of_decide_eq_true ht ?_
    cases w <;> simp
  · exact h.moves fun t => h.admits (h.isSome_castling? hv)

/-- White's rook goes one square off and comes back.  The men stand as before, white's king has lost
its castling to that wing and no other move, and black's king has what it had. -/
theorem visits_only_castle_stirred :
    let trip : List Ply :=
      [⟨⟨.rook, .white, ⟨7, 7⟩⟩, ⟨7, 6⟩⟩, ⟨⟨.rook, .white, ⟨7, 6⟩⟩, ⟨7, 7⟩⟩]
    ∃ b b', start.playAll? (castlingLine.take 5) = some b ∧ b.playAll? trip = some b' ∧
      b.SameMen b' ∧ (∀ c, b.OneKing c) ∧ ¬ b.SameHomes b' .white ∧
      b.moves Color.white.king = [⟨7, 5⟩, ⟨7, 6⟩] ∧ b'.moves Color.white.king = [⟨7, 5⟩] ∧
      b.moves Color.black.king = b'.moves Color.black.king ∧
      ∀ c, b.isCheckmate c = b'.isCheckmate c := by
  intro trip
  have hfacts : ((start.playAll? (castlingLine.take 5)).bind fun b =>
      (b.playAll? trip).map fun b' => (decide (b.men = b'.men), b.moves Color.white.king,
        b'.moves Color.white.king, [⟨0, 4⟩, ⟨0, 7⟩, ⟨0, 0⟩].all fun s =>
          decide (b.visits s = b'.visits s))) = some (true, [⟨7, 5⟩, ⟨7, 6⟩], [⟨7, 5⟩], true) := by
    decide +kernel
  obtain ⟨b, hb, hfacts⟩ := Option.bind_eq_some_iff.mp hfacts
  obtain ⟨b', hb', hfacts⟩ := Option.map_eq_some_iff.mp hfacts
  simp only [Prod.mk.injEq, decide_eq_true_eq, List.all_cons, List.all_nil,
    Bool.and_eq_true] at hfacts
  obtain ⟨hmen, hbefore, hafter, hking, hrook, hrook', -⟩ := hfacts
  have hsame : b.SameMen b' := by
    intro s
    unfold manAt
    rw [hmen]
  have hone : ∀ c, b.OneKing c := fun c => (oneKing_start c).playAll hb
  obtain ⟨-, -, hmate, -, -, hhomes⟩ := visits_only_castle hsame hone
  have hstirred : ¬ b.SameHomes b' .white := by
    intro hv
    have := hhomes .white hv
    rw [hbefore, hafter] at this
    cases this
  have hunstirred : b.SameHomes b' .black := by
    refine ⟨by rw [Color.kingHome, Color.homeRow, hking], fun w => ?_⟩
    cases w
    · rw [Color.rookHome, Color.homeRow, hrook]
    · rw [Color.rookHome, Color.homeRow, hrook']
  exact ⟨b, b', hb, hb', hsame, hone, hstirred, hbefore, hafter, hhomes .black hunstirred, hmate⟩

end LiveChess.Board
