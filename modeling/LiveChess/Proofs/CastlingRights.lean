import LiveChess.Proofs.Kings

/-! # The right to castle

The board keeps no right to castle; it counts visits.  On every board that is played to from the
start, unvisited squares are those that no ply has emptied or filled (`visits_eq_zero_iff`), and
they still hold what stood there at the start (`manAt_of_unvisited`).  So a side may castle to a
wing exactly if no ply has touched the home squares of its king and of that rook, nothing stands
between the two, and the opponent attacks no square of the king's way (`castling_of_history`). -/

namespace LiveChess

/-- The two wings of the board, named for the royals that start nearer to them. -/
inductive Wing where
  | king
  | queen
deriving DecidableEq, Repr

namespace Color

variable (c : Color)

/-- The square that the rook of a wing starts on. -/
def rookHome : Wing → Square
  | .king => ⟨c.homeRow, 7⟩
  | .queen => ⟨c.homeRow, 0⟩

/-- The square that a king lands on in castling to a wing. -/
def castlesTo : Wing → Square
  | .king => ⟨c.homeRow, 6⟩
  | .queen => ⟨c.homeRow, 2⟩

/-- The square that a king crosses in castling to a wing. -/
def crosses : Wing → Square
  | .king => ⟨c.homeRow, 5⟩
  | .queen => ⟨c.homeRow, 3⟩

/-- The squares strictly between king and rook, as the king sees them. -/
def pathway : Wing → List Square
  | .king => [⟨c.homeRow, 5⟩, ⟨c.homeRow, 6⟩]
  | .queen => [⟨c.homeRow, 3⟩, ⟨c.homeRow, 2⟩, ⟨c.homeRow, 1⟩]

/-- The way of the rook of a wing. -/
def rookLeg (w : Wing) : RookLeg := ⟨c.rookHome w, c.crosses w⟩

/-- The king of a side on its home square. -/
def king : Piece := ⟨.king, c, c.kingHome⟩

theorem onBoard_kingHome : c.kingHome.OnBoard := by
  cases c <;> decide

theorem onBoard_rookHome (w : Wing) : (c.rookHome w).OnBoard := by
  cases c <;> cases w <;> decide

theorem onBoard_castlesTo (w : Wing) : (c.castlesTo w).OnBoard := by
  cases c <;> cases w <;> decide

theorem kingHome_inj {d : Color} (h : c.kingHome = d.kingHome) : c = d := by
  cases c <;> cases d <;> first | rfl | exact absurd h (by decide)

theorem castlesTo_mem_pathway (w : Wing) : c.castlesTo w ∈ c.pathway w := by
  cases c <;> cases w <;> decide

theorem between_kingHome (w : Wing) : Square.between c.kingHome (c.rookHome w) = c.pathway w := by
  cases c <;> cases w <;> decide +kernel

end Color

theorem RookLeg.ofKing?_castlesTo (c : Color) (w : Wing) :
    RookLeg.ofKing? c.homeRow (c.castlesTo w).col = some (c.rookLeg w) := by
  cases w <;> rfl

/-- Only the two castlings carry a rook along. -/
theorem RookLeg.exists_wing {c : Color} {col : UInt8} {leg : RookLeg}
    (h : RookLeg.ofKing? c.homeRow col = some leg) :
    ∃ w, col = (c.castlesTo w).col ∧ leg = c.rookLeg w := by
  rcases RookLeg.ofKing?_eq_some h with ⟨rfl, rfl⟩ | ⟨rfl, rfl⟩
  · exact ⟨.king, rfl, rfl⟩
  · exact ⟨.queen, rfl, rfl⟩

namespace Board

variable {b b' : Board} {p : Piece} {s t u : Square} {c : Color} {w : Wing} {ms : List Ply}

/-! ### What the visits tell of a line -/

theorem visits_eq_zero_iff (h : start.playAll? ms = some b) (hu : u.OnBoard) :
    b.visits u = 0 ↔ ∀ m ∈ ms, u ∉ m.squares := by
  refine playAll?_induction (P := fun ms d => d.visits u = 0 ↔ ∀ m ∈ ms, u ∉ m.squares)
    ?_ ?_ ms h
  · simp [visits_start]
  · intro ms d m hd _
    rw [visits_apply_eq_zero_iff hu, hd]
    simp [or_imp, forall_and]

theorem manAt_of_unvisited (h : start.playAll? ms = some b) (hu : b.visits u = 0) :
    b.manAt u = start.manAt u := by
  refine playAll?_induction (P := fun _ d => d.visits u = 0 → d.manAt u = start.manAt u)
    (fun _ => rfl) ?_ ms h hu
  intro ms d m hd hm hv
  obtain ⟨hv', e⟩ := manAt_apply_of_unvisited (admits_of_mem_moves hm) hv
  rw [e, hd hv']

theorem manAt_rookHome_start (c : Color) (w : Wing) :
    start.manAt (c.rookHome w) = some ⟨.rook, c⟩ := by
  cases c <;> cases w <;> rfl

/-! ### When castling is open -/

theorem isBlocked_kingHome :
    b.isBlocked c.kingHome (c.rookHome w) = false ↔ ∀ s ∈ c.pathway w, b.manAt s = none := by
  unfold isBlocked
  rw [Color.between_kingHome, List.any_eq_false]
  simp

theorem castling?_king_iff :
    (b.castling? c.king (c.castlesTo w)).isSome = true ↔
      b.castlingReady c (c.rookLeg w) = true ∧
        ∀ s ∈ [c.kingHome, c.crosses w, c.castlesTo w], b.isAttacked s c.opponent = false := by
  have hrow : (c.castlesTo w).row = c.homeRow := by
    cases w <;> rfl
  unfold castling?
  rw [if_pos ⟨rfl, rfl, hrow⟩, hrow]
  show ((RookLeg.ofKing? c.homeRow (c.castlesTo w).col).filter _).isSome = true ↔ _
  rw [RookLeg.ofKing?_castlesTo]
  simp [Option.filter, Color.rookLeg, Color.king]

theorem twoFiles_king (c : Color) (w : Wing) : TwoFiles c.king.square (c.castlesTo w) := by
  cases c <;> cases w <;> decide

theorem carriedRook_king (c : Color) (w : Wing) :
    carriedRook c.king (c.castlesTo w) = some (c.rookLeg w) := by
  cases c <;> cases w <;> rfl

theorem admits_of_castling (hman : b.manAt p.square = some p.man) (ht : b.manAt t = none)
    (hon : t.OnBoard) (hc : (b.castling? p t).isSome = true) : b.admits p t = true := by
  obtain ⟨leg, hleg⟩ := Option.isSome_iff_exists.mp hc
  obtain ⟨hk, -⟩ := castling?_eq_some hleg
  have hp : b.pieceAt p.square = some p := pieceAt_eq_some_iff.mpr ⟨rfl, hman⟩
  simp [admits, hk, hp, hon, ht, hc]

/-- What castles is a side's king on its home square, and it goes to a castling square. -/
theorem exists_wing_of_castling? {leg : RookLeg} (h : b.castling? p t = some leg) :
    p = p.color.king ∧ ∃ w, t = p.color.castlesTo w ∧ leg = p.color.rookLeg w := by
  obtain ⟨hk, hhome, hrow, hway, -⟩ := castling?_eq_some h
  rw [hrow] at hway
  obtain ⟨w, hcol, hleg⟩ := RookLeg.exists_wing hway
  refine ⟨?_, w, ?_, hleg⟩
  · obtain ⟨k, d, q⟩ := p
    simp only at hk hhome
    rw [hk, hhome]
    rfl
  · obtain ⟨r, col⟩ := t
    simp only at hrow hcol
    rw [hrow, hcol]
    cases w <;> rfl

/-- A king that goes two files goes from its home square to a castling square. -/
theorem exists_castling_of_twoFiles (h : b.admits p t = true) (hk : p.kind = .king)
    (h2 : TwoFiles p.square t) : ∃ (c : Color) (w : Wing), p = c.king ∧ t = c.castlesTo w := by
  obtain ⟨leg, hleg⟩ := Option.isSome_iff_exists.mp (castling?_isSome h hk h2)
  obtain ⟨hp, w, ht, -⟩ := exists_wing_of_castling? hleg
  exact ⟨p.color, w, hp, ht⟩

/-- What stands where after a castling. -/
theorem manAt_apply_castlesTo (h : b.admits c.king (c.castlesTo w) = true) :
    (b.apply c.king (c.castlesTo w)).manAt u =
      if u = c.crosses w then some ⟨.rook, c⟩
      else if u = c.castlesTo w then some ⟨.king, c⟩
      else if u = c.kingHome ∨ u = c.rookHome w then none
      else b.manAt u := by
  have hapart : c.castlesTo w ≠ c.rookHome w := by
    cases c <;> cases w <;> decide
  rw [manAt_apply_of_castling h (carriedRook_king c w)]
  show (if u = c.crosses w then some ⟨.rook, c⟩ else if u = c.rookHome w then none
    else if u = c.castlesTo w then some ⟨.king, c⟩ else if u = c.kingHome then none
    else b.manAt u) = _
  by_cases hrook : u = c.rookHome w
  · simp [hrook, Ne.symm hapart]
  · simp [hrook]

/-- A side whose king and rook are ready and whose king's way is not attacked may castle. -/
theorem castlesTo_mem_moves (hone : b.OneKing c) (hking : b.manAt c.kingHome = some ⟨.king, c⟩)
    (hpath : ∀ s ∈ c.pathway w, b.manAt s = none)
    (hready : b.castlingReady c (c.rookLeg w) = true)
    (hsafe : ∀ s ∈ [c.kingHome, c.crosses w, c.castlesTo w],
      b.isAttacked s c.opponent = false) : c.castlesTo w ∈ b.moves c.king := by
  have hadmits : b.admits c.king (c.castlesTo w) = true :=
    admits_of_castling hking (hpath _ (c.castlesTo_mem_pathway w)) (c.onBoard_castlesTo w)
      (castling?_king_iff.mpr ⟨hready, hsafe⟩)
  have hnocheck : b.inCheck c = false := by
    unfold inCheck
    rw [(findKing_eq_some_iff hone).mpr hking]
    exact hsafe _ List.mem_cons_self
  unfold moves
  rw [show b.inCheck c.king.color = false from hnocheck, if_neg Bool.false_ne_true]
  exact List.mem_filter.mpr ⟨Square.mem_all.mpr (c.onBoard_castlesTo w), hadmits⟩

/-- On every board that is played to from the start the counts of visits decide, with what stands on
the king's way and who attacks it. -/
theorem castlesTo_mem_movesFrom_iff (h : start.playAll? ms = some b) :
    (c.castlesTo w ∈ b.movesFrom c.kingHome ∧ ∃ d, b.manAt c.kingHome = some ⟨.king, d⟩) ↔
      (b.visits c.kingHome = 0 ∧ b.visits (c.rookHome w) = 0) ∧
        (∀ s ∈ c.pathway w, b.manAt s = none) ∧
        ∀ s ∈ [c.kingHome, c.crosses w, c.castlesTo w], b.isAttacked s c.opponent = false := by
  constructor
  · rintro ⟨hmem, d, hking⟩
    have hpiece : b.pieceAt c.kingHome = some ⟨.king, d, c.kingHome⟩ :=
      pieceAt_eq_some_iff.mpr ⟨rfl, hking⟩
    rw [movesFrom, hpiece] at hmem
    have hadmits := admits_of_mem_moves hmem
    have h2 : TwoFiles c.kingHome (c.castlesTo w) := twoFiles_king c w
    -- a king that leaves its home square by two files stands on the home square of its own side
    obtain ⟨e, -, hp, -⟩ := exists_castling_of_twoFiles hadmits rfl h2
    obtain rfl : d = e := congrArg Piece.color hp
    obtain rfl : c = d := c.kingHome_inj (congrArg Piece.square hp)
    obtain ⟨hready, hsafe⟩ := castling?_king_iff.mp (castling?_isSome hadmits rfl h2)
    obtain ⟨-, hv, hv', hway⟩ := castlingReady_iff.mp hready
    exact ⟨⟨hv, hv'⟩, isBlocked_kingHome.mp hway, hsafe⟩
  · rintro ⟨⟨hv, hv'⟩, hpath, hsafe⟩
    have hking := (manAt_of_unvisited h hv).trans (manAt_kingHome_start c)
    have hrook := (manAt_of_unvisited h hv').trans (manAt_rookHome_start c w)
    have hready : b.castlingReady c (c.rookLeg w) = true :=
      castlingReady_iff.mpr ⟨hrook, hv, hv', isBlocked_kingHome.mpr hpath⟩
    refine ⟨?_, c, hking⟩
    have hpiece : b.pieceAt c.kingHome = some c.king := pieceAt_eq_some_iff.mpr ⟨rfl, hking⟩
    rw [movesFrom, hpiece]
    exact castlesTo_mem_moves ((oneKing_start c).playAll h) hking hpath hready hsafe

/-- **The right to castle is the history's.**  On every board that is played to from the start, a
king may go from its side's home square to the castling square of a wing exactly if no ply of the
line, the rook of a castling included, has emptied or filled that home square or the one of the
wing's rook, nothing stands between the two, and the opponent attacks neither the home square nor
the one that the king crosses nor the one that it lands on.  Every king's move of two files that is
played is such a castling, and it puts the rook of that wing on the square that the king crosses.
No square is visited more often than the line has plies, so visit counts of 32 bits hold every line
of fewer than `2 ^ 32`. -/
theorem castling_of_history (h : start.playAll? ms = some b) :
    (∀ (c : Color) (w : Wing), (c.castlesTo w ∈ b.movesFrom c.kingHome ∧
        ∃ d, b.manAt c.kingHome = some ⟨.king, d⟩) ↔
      (∀ m ∈ ms, c.kingHome ∉ m.squares ∧ c.rookHome w ∉ m.squares) ∧
        (∀ s ∈ c.pathway w, b.manAt s = none) ∧
        ∀ s ∈ [c.kingHome, c.crosses w, c.castlesTo w], b.isAttacked s c.opponent = false) ∧
      (∀ p t r b', p.kind = .king → TwoFiles p.square t → b.play? p t = some (r, b') →
        ∃ w, p.square = p.color.kingHome ∧ t = p.color.castlesTo w ∧
          r.rookLeg = some ⟨p.color.rookHome w, p.color.crosses w⟩ ∧
          b.manAt (p.color.rookHome w) = some ⟨.rook, p.color⟩ ∧
          ∀ u, b'.manAt u =
            if u = p.color.crosses w then some ⟨.rook, p.color⟩
            else if u = p.color.castlesTo w then some ⟨.king, p.color⟩
            else if u = p.color.kingHome ∨ u = p.color.rookHome w then none
            else b.manAt u) ∧
      ∀ u, b.visits u ≤ ms.length := by
  refine ⟨fun c w => ?_, fun p t r b' hk h2 hplay => ?_, fun u => ?_⟩
  · have huntouched : (b.visits c.kingHome = 0 ∧ b.visits (c.rookHome w) = 0) ↔
        ∀ m ∈ ms, c.kingHome ∉ m.squares ∧ c.rookHome w ∉ m.squares := by
      rw [visits_eq_zero_iff h c.onBoard_kingHome, visits_eq_zero_iff h (c.onBoard_rookHome w)]
      exact (forall₂_and).symm
    rw [← huntouched]
    exact castlesTo_mem_movesFrom_iff h
  · obtain ⟨hmem, rfl, rfl⟩ := play?_eq_some_iff.mp hplay
    have hadmits := admits_of_mem_moves hmem
    obtain ⟨c, w, rfl, rfl⟩ := exists_castling_of_twoFiles hadmits hk h2
    have hready := (castling?_king_iff.mp (castling?_isSome hadmits hk h2)).1
    refine ⟨w, rfl, rfl, carriedRook_king c w, (castlingReady_iff.mp hready).1, fun u => ?_⟩
    exact manAt_apply_castlesTo hadmits
  · have := visits_playAll_le h u
    rw [visits_start] at this
    omega

/-- White's king may castle once knight and bishop have made way, and may not any more when the rook
has been one square off and back, although all men stand as before. -/
theorem castling_until_rook_stirs :
    let line := castlingLine.take 5
    let trip : List Ply :=
      [⟨⟨.rook, .white, ⟨7, 7⟩⟩, ⟨7, 6⟩⟩, ⟨⟨.rook, .white, ⟨7, 6⟩⟩, ⟨7, 7⟩⟩]
    ∃ b b', start.playAll? line = some b ∧ start.playAll? (line ++ trip) = some b' ∧
      b'.men = b.men ∧ ⟨7, 6⟩ ∈ b.movesFrom ⟨7, 4⟩ ∧ ⟨7, 6⟩ ∉ b'.movesFrom ⟨7, 4⟩ := by
  intro line trip
  let facts (b : Board) := (b.men, b.manAt ⟨7, 4⟩,
    ((Color.white.pathway .king).all fun s => (b.manAt s).isNone) &&
      [Color.white.kingHome, Color.white.crosses .king, Color.white.castlesTo .king].all
        fun s => !b.isAttacked s .black)
  have hfacts : (start.playAll? line).map facts = (start.playAll? (line ++ trip)).map facts ∧
      (start.playAll? line).map (fun b => (facts b).2) = some (some ⟨.king, .white⟩, true) := by
    decide +kernel
  obtain ⟨hsame, hready⟩ := hfacts
  obtain ⟨b, hb, hready⟩ := Option.map_eq_some_iff.mp hready
  rw [hb] at hsame
  obtain ⟨b', hb', hsame⟩ := Option.map_eq_some_iff.mp hsame.symm
  simp only [facts, Prod.mk.injEq, Bool.and_eq_true, List.all_eq_true, Option.isNone_iff_eq_none,
    Bool.not_eq_true'] at hready hsame
  obtain ⟨hking, hpath, hsafe⟩ := hready
  have huntouched : ∀ m ∈ line, Color.white.kingHome ∉ m.squares ∧
      Color.white.rookHome .king ∉ m.squares := by decide +kernel
  refine ⟨b, b', hb, hb', hsame.1, ?_, fun hmem => ?_⟩
  · exact (((castling_of_history hb).1 .white .king).mpr ⟨huntouched, hpath, hsafe⟩).1
  · have htouched := (((castling_of_history hb').1 .white .king).mp
      ⟨hmem, .white, hsame.2.1.trans hking⟩).1
    exact absurd htouched (by decide +kernel)

end Board
end LiveChess
