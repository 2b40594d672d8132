import LiveChess.Proofs.CastlingRights
import LiveChess.Proofs.Checks

/-! # The rules on arrays

The rules once more, for a board that is kept as two arrays, one of pieces that name their squares
and one of counts of 32 bits.  Every access to an array and every sum may fail.  `Board.arrays`
gives the arrays of a board.  On them no rule fails, whatever piece and square it is asked about, as
long as no count is about to run over (`Fits`), and each comes to what it comes to on the board:
`validMoves_arrays`, `placePiece_arrays` and `isCheckmate_arrays` are the last of these lemmas. -/

namespace LiveChess

/-- The cells row by row. -/
def Grid.toList {α : Type} (g : Grid α) : List α := g.rows.toList.flatMap (·.toList)

/-- A board as arrays: the pieces, and how often a man has left or entered a square. -/
structure Arrays where
  squares : Grid (Option Piece)
  counts : Grid UInt32

namespace Arrays

/-! ### Reading and writing -/

/-- The piece on a square. -/
def pieceAt (a : Arrays) (s : Square) : Checked (Option Piece) :=
  if s.OnBoard then a.squares.get s else pure none

/-- How often a man has left or entered a square. -/
def moveCount (a : Arrays) (s : Square) : Checked UInt32 :=
  if s.OnBoard then a.counts.get s else pure 0

/-- All pieces, row by row. -/
def pieces (a : Arrays) : List Piece := a.squares.toList.filterMap id

/-- Rows of squares, row 0 first. -/
def grid (a : Arrays) : List (List (Option Piece)) := a.squares.rows.toList.map (·.toList)

/-- The square of a side's king, the first one row by row. -/
def findKing (a : Arrays) (c : Color) : Option Square :=
  (a.pieces.find? fun p => decide (p.kind = .king) && decide (p.color = c)).map (·.square)

/-- Put a piece into the cell that it names. -/
def put (a : Arrays) (p : Piece) : Checked Arrays := do
  let squares ← a.squares.put p
  pure { a with squares := squares }

/-- Count one more visit of a square. -/
def bump (a : Arrays) (s : Square) : Checked Arrays := do
  let n ← a.counts.get s
  let n ← Checked.u32 (n.toNat + 1)
  let counts ← a.counts.set s n
  pure { a with counts := counts }

/-- Carry what stands on one square to another, counting a visit of both. -/
def relocate (a : Arrays) (s t : Square) : Checked (Option Piece × Arrays) := do
  let (captured, squares) ← a.squares.relocate s t
  let moved : Arrays := { a with squares := squares }
  let left ← moved.bump s
  let entered ← left.bump t
  pure (captured, entered)

/-! ### Attacks -/

/-- Walk a line from square to square, at most so many, and see whether a man stands before `t`. -/
def blockedFrom (a : Arrays) (t : Square) (dr dc : Int8) : Nat → Option Square → Checked Bool
  | _, none => pure false
  | 0, some _ => .error .endless
  | n + 1, some u =>
    if u = t then pure false
    else do
      let standing ← a.pieceAt u
      if standing.isSome then pure true
      else do
        let next ← Checked.offset u dr dc
        a.blockedFrom t dr dc n next

/-- Some man stands strictly between two squares of a line. -/
def isBlocked (a : Arrays) (s t : Square) : Checked Bool := do
  let rows ← Checked.rowDelta s t
  let cols ← Checked.colDelta s t
  let first ← Checked.offset s (Square.step rows) (Square.step cols)
  a.blockedFrom t (Square.step rows) (Square.step cols) 8 first

/-- The squares a piece other than a pawn or a king can go to, but for the men on them. -/
def reaches (a : Arrays) (p : Piece) (t : Square) : Checked Bool :=
  match p.kind with
  | .knight => Checked.isKnightJump p.square t
  | .rook =>
    if Square.isStraight p.square t then do
      let blocked ← a.isBlocked p.square t
      pure !blocked
    else
      pure false
  | .bishop => do
    let onLine ← Checked.isDiagonal p.square t
    if onLine then do
      let blocked ← a.isBlocked p.square t
      pure !blocked
    else
      pure false
  | .queen => do
    let onLine ←
      if Square.isStraight p.square t then pure true else Checked.isDiagonal p.square t
    if onLine then do
      let blocked ← a.isBlocked p.square t
      pure !blocked
    else
      pure false
  | .pawn => pure false
  | .king => pure false

/-- The squares a piece could capture on. -/
def attacks (a : Arrays) (p : Piece) (t : Square) : Checked Bool :=
  if p.square = t then pure false
  else
    match p.kind with
    | .pawn => do
      let rows ← Checked.rowDelta p.square t
      if rows = p.color.forward then do
        let cols ← Checked.colDelta p.square t
        let files ← Checked.abs cols
        pure (decide (files = 1))
      else
        pure false
    | .king => Checked.isKingStep p.square t
    | _ => a.reaches p t

/-- Some piece of a side attacks a square. -/
def isAttacked (a : Arrays) (t : Square) (side : Color) : Checked Bool :=
  (a.pieces.filter fun p => p.color = side).anyM fun p => a.attacks p t

/-- A side's king stands on an attacked square. -/
def inCheck (a : Arrays) (c : Color) : Checked Bool :=
  match a.findKing c with
  | some s => a.isAttacked s c.opponent
  | none => pure false

/-! ### Castling -/

/-- The columns between that of a rook and that of the king. -/
def columnsBetween (rook king : UInt8) : Checked (List UInt8) := do
  let (low, high) ←
    if rook < king then do
      let low ← Checked.u8 (rook.toNat + 1)
      pure (low, king)
    else do
      let low ← Checked.u8 (king.toNat + 1)
      pure (low, rook)
  pure ((List.range' low.toNat (high.toNat - low.toNat)).map Nat.toUInt8)

/-- King and rook have not moved, and no man stands between them. -/
def castlingReady (a : Arrays) (c : Color) (leg : RookLeg) : Checked Bool := do
  let rook ← a.pieceAt leg.source
  if rook.any fun q => decide (q.kind = .rook) && decide (q.color = c) then do
    let kingCount ← a.moveCount c.kingHome
    let rookCount ← if kingCount > 0 then pure kingCount else a.moveCount leg.source
    if rookCount > 0 then pure false
    else do
      let cols ← columnsBetween leg.source.col c.kingHome.col
      let blocked ← cols.anyM fun col => do
        let standing ← a.pieceAt ⟨c.homeRow, col⟩
        pure standing.isSome
      pure !blocked
  else
    pure false

/-- The way of the rook if the piece is a king that may castle onto `t`. -/
def castling? (a : Arrays) (p : Piece) (t : Square) : Checked (Option RookLeg) :=
  if p.kind = .king ∧ p.square = p.color.kingHome ∧ t.row = p.color.homeRow then
    match RookLeg.ofKing? p.color.homeRow t.col with
    | none => pure none
    | some leg => do
      let ready ← a.castlingReady p.color leg
      if ready then do
        let attacked ← [p.color.kingHome, leg.target, t].anyM fun s =>
          a.isAttacked s p.color.opponent
        pure (if attacked then none else some leg)
      else
        pure none
  else
    pure none

/-! ### Moves -/

/-- The move of a pawn: a step, a double step from its start, or a capture. -/
def admitsPawn (a : Arrays) (p : Piece) (t : Square) : Checked Bool := do
  let target ← a.pieceAt t
  let rows ← Checked.rowDelta p.square t
  let cols ← Checked.colDelta p.square t
  let files ← Checked.abs cols
  if files = 0 then
    if rows = p.color.forward then pure target.isNone
    else do
      let twice ← Checked.double p.color.forward
      if rows = twice ∧ p.square.row = p.color.pawnRow ∧ target.isNone then do
        let middle ← Checked.offset p.square p.color.forward 0
        match middle with
        | none => pure false
        | some u => do
          let standing ← a.pieceAt u
          pure standing.isNone
      else
        pure false
  else
    pure (decide (files = 1 ∧ rows = p.color.forward) &&
      target.any fun q => decide (q.color ≠ p.color))

/-- A piece may move to a square. -/
def admits (a : Arrays) (p : Piece) (t : Square) : Checked Bool :=
  if t.OnBoard then do
    let standing ← a.pieceAt p.square
    if standing = some p then do
      let target ← a.pieceAt t
      if target.any fun q => decide (q.color = p.color) then pure false
      else
        match p.kind with
        | .pawn => a.admitsPawn p t
        | .king => do
          let step ← Checked.isKingStep p.square t
          if step then pure true
          else do
            let leg ← a.castling? p t
            pure leg.isSome
        | _ => a.reaches p t
    else
      pure false
  else
    pure false

/-- The squares a piece may move to, row by row. -/
def admitted (a : Arrays) (p : Piece) : Checked (List Square) := Square.all.filterM (a.admits p)

/-- Carry out a move without asking whether it is admitted. -/
def apply (a : Arrays) (p : Piece) (t : Square) : Checked (Placement × Arrays) := do
  let (captured, moved) ← a.relocate p.square t
  match Board.carriedRook p t with
  | some leg => do
    let (_, castled) ← moved.relocate leg.source leg.target
    pure (⟨{ p with square := t }, p.square, t, captured, some leg⟩, castled)
  | none => pure (⟨{ p with square := t }, p.square, t, captured, none⟩, moved)

/-- A move after which the mover's own king is in check. -/
def leavesInCheck (a : Arrays) (p : Piece) (t : Square) : Checked Bool := do
  let (_, moved) ← a.apply p t
  moved.inCheck p.color

/-- The squares a piece may be played to. -/
def validMoves (a : Arrays) (p : Piece) : Checked (List Square) := do
  let squares ← a.admitted p
  let check ← a.inCheck p.color
  if check then
    squares.filterM fun t => do
      let leaves ← a.leavesInCheck p t
      pure !leaves
  else
    pure squares

/-- The squares that whatever stands on a square may be played to. -/
def validMovesFrom (a : Arrays) (s : Square) : Checked (List Square) := do
  let standing ← a.pieceAt s
  match standing with
  | some p => a.validMoves p
  | none => pure []

/-- Play a piece to one of its squares. -/
def placePiece (a : Arrays) (p : Piece) (t : Square) : Checked (Option (Placement × Arrays)) := do
  let squares ← a.validMoves p
  if t ∈ squares then do
    let placed ← a.apply p t
    pure (some placed)
  else
    pure none

/-- A side is in check and none of its moves ends the check. -/
def isCheckmate (a : Arrays) (c : Color) : Checked Bool := do
  let check ← a.inCheck c
  if check then
    (a.pieces.filter fun p => p.color = c).allM fun p => do
      let squares ← a.admitted p
      squares.allM (a.leavesInCheck p)
  else
    pure false

end Arrays

theorem Color.onBoard_crosses (c : Color) (w : Wing) : (c.crosses w).OnBoard := by
  cases c <;> cases w <;> decide

/-! ### The cells of a board -/

namespace Grid

variable {α : Type}

theorem rows_tabulate (f : Square → α) : (tabulate f).rows.toList.map (·.toList) =
    (List.range 8).map fun r => (List.range 8).map fun c => f ⟨r.toUInt8, c.toUInt8⟩ := by
  simp [tabulate, Vector.toList_ofFn, List.ofFn_succ, List.range_succ]

theorem toList_tabulate (f : Square → α) : (tabulate f).toList = Square.all.map f := by
  unfold toList Square.all
  rw [List.flatMap_def, rows_tabulate, List.map_flatMap]
  simp only [List.map_map, List.flatMap_def]
  rfl

end Grid

namespace Board

variable {b : Board} {s t u : Square} {p : Piece} {c : Color}

/-- The visits of a board as an array of counts. -/
def counts (b : Board) : Grid UInt32 := .tabulate fun s => .ofNat (b.visits s)

/-- The board as arrays. -/
def arrays (b : Board) : Arrays := ⟨b.squares, b.counts⟩

/-- Every visit so far is counted in the arrays. -/
def Fits (b : Board) : Prop := ∀ u, b.visits u < 2 ^ 32

/-- One more visit of every square could be counted as well. -/
def Roomy (b : Board) : Prop := ∀ u, b.visits u + 1 < 2 ^ 32

theorem get_counts (b : Board) (hs : s.OnBoard) :
    b.counts.get s = .ok (.ofNat (b.visits s)) := by
  unfold counts
  rw [Grid.get_tabulate _ hs]

theorem pieceAt_arrays (b : Board) (s : Square) : b.arrays.pieceAt s = .ok (b.pieceAt s) := by
  unfold Arrays.pieceAt
  split_ifs with h
  · exact get_squares b h
  · rw [pieceAt, manAt_of_not_onBoard h]
    rfl

theorem moveCount_arrays (b : Board) (s : Square) :
    b.arrays.moveCount s = .ok (.ofNat (b.visits s)) := by
  unfold Arrays.moveCount
  split_ifs with h
  · exact get_counts b h
  · rw [visits, dif_neg h]
    rfl

theorem pieces_arrays (b : Board) : b.arrays.pieces = b.pieces := by
  unfold Arrays.pieces pieces
  show b.squares.toList.filterMap id = _
  rw [squares, Grid.toList_tabulate, List.filterMap_map]
  rfl

theorem grid_arrays (b : Board) : b.arrays.grid = b.grid := Grid.rows_tabulate b.pieceAt

theorem findKing_arrays (b : Board) (c : Color) : b.arrays.findKing c = b.findKing c := by
  unfold Arrays.findKing findKing
  rw [pieces_arrays]

theorem put_arrays (b : Board) (hp : p.square.OnBoard) :
    b.arrays.put p = .ok (b.put p).arrays := by
  have hcounts : b.counts = (b.put p).counts :=
    Grid.tabulate_congr fun u _ => by rw [put, visits_setMan]
  simp only [Arrays.put, arrays, put_squares b hp, Checked.ok_bind, Checked.pure_eq_ok, ← hcounts]

/-- Counting one more visit, as long as the count does not run over. -/
theorem bump_arrays (b : Board) (hs : s.OnBoard) (h : (b.visit s).Fits) :
    b.arrays.bump s = .ok (b.visit s).arrays := by
  have hroom : b.visits s + 1 < 2 ^ 32 := by
    have := h s
    rwa [visits_visit, if_pos ⟨rfl, hs⟩] at this
  have hnat : (UInt32.ofNat (b.visits s)).toNat = b.visits s :=
    UInt32.toNat_ofNat_of_lt' (by show _ < 2 ^ 32; omega)
  have hsum : Checked.u32 (b.visits s + 1) = .ok (.ofNat (b.visits s + 1)) := if_pos hroom
  have hsquares : b.squares = (b.visit s).squares := squares_congr fun u _ => by rw [manAt_visit]
  have hcounts : (b.visit s).counts =
      .tabulate fun u => if u = s then .ofNat (b.visits s + 1) else .ofNat (b.visits u) := by
    refine Grid.tabulate_congr fun u _ => ?_
    rw [visits_visit]
    by_cases hu : u = s
    · rw [hu, if_pos ⟨rfl, hs⟩, if_pos rfl]
    · rw [if_neg fun e => hu e.1, if_neg hu]
  simp only [Arrays.bump, arrays, get_counts b hs, Checked.ok_bind, Checked.pure_eq_ok, hnat, hsum]
  rw [counts, Grid.set_tabulate _ hs, ← hcounts, ← hsquares]
  rfl

/-- A full count cannot be raised. -/
example : Arrays.bump ⟨.tabulate fun _ => none, .tabulate fun _ => 0xFFFFFFFF⟩ ⟨0, 0⟩ =
    .error .overflow := rfl

/-- No count is kept off the board. -/
example : Arrays.bump ⟨.tabulate fun _ => none, .tabulate fun _ => 0⟩ ⟨8, 0⟩ =
    .error .index := rfl

theorem Fits.mono {d : Board} (h : d.Fits) (hle : ∀ u, b.visits u ≤ d.visits u) : b.Fits :=
  fun u => (hle u).trans_lt (h u)

theorem visits_le_visit (b : Board) (s u : Square) : b.visits u ≤ (b.visit s).visits u := by
  rw [visits_visit]
  split_ifs <;> omega

theorem relocate_arrays (b : Board) (hs : s.OnBoard) (ht : t.OnBoard) (h : (b.relocate s t).Fits) :
    b.arrays.relocate s t =
      .ok (if t = s then none else b.pieceAt t, (b.relocate s t).arrays) := by
  set moved := (b.setMan s none).setMan t (b.manAt s) with hmoved
  have hmid : (moved.visit s).Fits := h.mono (visits_le_visit _ t)
  have hsquares : (b.relocate s t).squares = moved.squares :=
    squares_congr fun u _ => by simp only [relocate, manAt_visit, ← hmoved]
  have hcounts : b.counts = moved.counts :=
    Grid.tabulate_congr fun u _ => by rw [hmoved, visits_setMan, visits_setMan]
  have hstart : ({ b.arrays with squares := (b.relocate s t).squares } : Arrays) =
      moved.arrays := by
    simp only [arrays, hsquares, hcounts]
  simp only [Arrays.relocate]
  rw [show b.arrays.squares = b.squares from rfl, relocate_squares b hs ht, Checked.ok_bind]
  simp only [hstart, bump_arrays moved hs hmid, Checked.ok_bind, Checked.pure_eq_ok]
  rw [bump_arrays _ ht h, Checked.ok_bind]
  rfl

/-! ### Lines -/

theorem step_mem (d : Int8) : Square.step d ∈ [-1, 0, 1] := by
  unfold Square.step
  split_ifs <;> simp

theorem step_eq_zero {d : Int8} (h : Square.step d = 0) : d = 0 := by
  unfold Square.step at h
  split_ifs at h with hneg hzero
  exacts [absurd h (by decide), hzero, absurd h (by decide)]

/-- A walk over the board ends within eight steps, or else it does not move. -/
theorem length_ray_lt : ∀ s ∈ Square.all, ∀ dr ∈ [-1, 0, 1], ∀ dc ∈ [-1, 0, 1],
    dr = 0 ∧ dc = 0 ∧ s.offset 0 0 = some s ∨ (Square.ray s dr dc 8).length < 8 := by
  decide +kernel

/-- Walking a line meets what stands on it before `t`, if there is an end to it. -/
theorem blockedFrom_arrays (b : Board) {dr dc : Int8} {n : Nat}
    (h : t ∈ Square.ray s dr dc n ∨ (Square.ray s dr dc n).length < n) :
    b.arrays.blockedFrom t dr dc n (s.offset dr dc) =
      .ok (((Square.ray s dr dc n).takeWhile fun u => decide (u ≠ t)).any
        fun u => (b.manAt u).isSome) := by
  induction n generalizing s with
  | zero => simp [Square.ray] at h
  | succ n ih =>
      unfold Square.ray at h ⊢
      cases hv : s.offset dr dc with
      | none => rfl
      | some v =>
          simp only [hv, List.mem_cons, List.length_cons] at h
          rw [Arrays.blockedFrom]
          by_cases hvt : v = t
          · simp [hvt]
          · rw [if_neg hvt, pieceAt_arrays, Checked.ok_bind, List.takeWhile_cons_of_pos (by simpa),
              List.any_cons, pieceAt, Option.isSome_map]
            cases (b.manAt v).isSome with
            | true => rfl
            | false =>
                rw [if_neg Bool.false_ne_true, Checked.offset_ok, Checked.ok_bind]
                refine ih (h.imp (fun h => h.resolve_left fun e => hvt e.symm) fun h => ?_)
                omega

theorem isBlocked_arrays (b : Board) (hs : s.OnBoard) (ht : t.OnBoard) :
    b.arrays.isBlocked s t = .ok (b.isBlocked s t) := by
  simp only [Arrays.isBlocked, Checked.rowDelta_ok hs ht, Checked.colDelta_ok hs ht,
    Checked.offset_ok, Checked.ok_bind]
  refine blockedFrom_arrays b ?_
  rcases length_ray_lt s (Square.mem_all.mpr hs) _ (step_mem (Square.rowDelta s t)) _
    (step_mem (Square.colDelta s t)) with ⟨hr, hc, hstay⟩ | hlt
  · -- no step at all: the walk is at its end at once
    have hrow := Square.toInt_rowDelta hs ht
    have hcol := Square.toInt_colDelta hs ht
    rw [step_eq_zero hr] at hrow
    rw [step_eq_zero hc] at hcol
    have h0 : (0 : Int8).toInt = 0 := rfl
    have hst : s = t := by
      obtain ⟨r, c⟩ := s
      obtain ⟨r', c'⟩ := t
      simp only [Square.mk.injEq, ← UInt8.toNat_inj] at hrow hcol ⊢
      omega
    left
    rw [hr, hc, Square.ray, hstay, hst]
    exact List.mem_cons_self
  · exact .inr hlt

theorem reaches_arrays (b : Board) (hs : p.square.OnBoard) (ht : t.OnBoard) :
    b.arrays.reaches p t = .ok (b.reaches p t) := by
  have hblocked := isBlocked_arrays b hs ht
  have hdiagonal := Checked.isDiagonal_ok hs ht
  unfold Arrays.reaches reaches
  cases p.kind with
  | pawn => rfl
  | king => rfl
  | knight => exact Checked.isKnightJump_ok _ _
  | rook =>
      simp only [hblocked, Checked.ok_bind, Checked.pure_eq_ok]
      cases Square.isStraight p.square t <;> rfl
  | bishop =>
      simp only [hdiagonal, hblocked, Checked.ok_bind, Checked.pure_eq_ok]
      cases Square.isDiagonal p.square t <;> rfl
  | queen =>
      simp only [hdiagonal, hblocked, Checked.ok_bind, Checked.pure_eq_ok]
      cases Square.isStraight p.square t <;> cases Square.isDiagonal p.square t <;> rfl

/-! ### Attacks -/

theorem attacks_arrays (b : Board) (hs : p.square.OnBoard) (ht : t.OnBoard) :
    b.arrays.attacks p t = .ok (b.attacks p t) := by
  unfold Arrays.attacks attacks
  by_cases hst : p.square = t
  · simp [hst]
  · rw [if_neg hst, decide_eq_true hst, Bool.true_and]
    cases p.kind with
    | pawn =>
        simp only [Checked.rowDelta_ok hs ht, Checked.colDelta_ok hs ht,
          Checked.abs_colDelta hs ht, Checked.ok_bind, Checked.pure_eq_ok]
        split_ifs with h <;> simp [h]
    | king => exact Checked.isKingStep_ok hs ht
    | rook => exact reaches_arrays b hs ht
    | knight => exact reaches_arrays b hs ht
    | bishop => exact reaches_arrays b hs ht
    | queen => exact reaches_arrays b hs ht

theorem onBoard_of_mem_pieces (h : p ∈ b.pieces) : p.square.OnBoard :=
  onBoard_of_manAt (mem_pieces.mp h)

theorem isAttacked_arrays (b : Board) (ht : t.OnBoard) (c : Color) :
    b.arrays.isAttacked t c = .ok (b.isAttacked t c) := by
  unfold Arrays.isAttacked isAttacked
  rw [pieces_arrays, ← List.any_filter]
  exact Checked.anyM_ok fun p hp =>
    attacks_arrays b (onBoard_of_mem_pieces (List.mem_filter.mp hp).1) ht

theorem inCheck_arrays (b : Board) (c : Color) : b.arrays.inCheck c = .ok (b.inCheck c) := by
  unfold Arrays.inCheck inCheck
  rw [findKing_arrays]
  cases hk : b.findKing c with
  | none => rfl
  | some s => exact isAttacked_arrays b (onBoard_of_manAt (manAt_of_findKing hk)) c.opponent

/-! ### Castling -/

theorem count_pos_iff (h : b.Fits) (s : Square) :
    UInt32.ofNat (b.visits s) > 0 ↔ b.visits s ≠ 0 := by
  have hnat : (UInt32.ofNat (b.visits s)).toNat = b.visits s := UInt32.toNat_ofNat_of_lt' (h s)
  rw [gt_iff_lt, UInt32.lt_iff_toNat_lt, hnat]
  exact Nat.pos_iff_ne_zero

/-- The columns between king and rook are those of the squares between them. -/
theorem columnsBetween_rookHome (c : Color) (w : Wing) :
    ∃ cols, Arrays.columnsBetween (c.rookHome w).col c.kingHome.col = .ok cols ∧
      ∀ s : Square, s ∈ cols.map (Square.mk c.homeRow) ↔ s ∈ c.pathway w := by
  cases w with
  | king => exact ⟨[5, 6], show Arrays.columnsBetween 7 4 = _ by decide +kernel, fun s => Iff.rfl⟩
  | queen =>
      refine ⟨[1, 2, 3], show Arrays.columnsBetween 0 4 = _ by decide +kernel, fun s => ?_⟩
      simp only [List.map_cons, List.map_nil, Color.pathway, List.mem_cons, List.not_mem_nil,
        or_false]
      tauto

theorem castlingReady_arrays (h : b.Fits) (c : Color) (w : Wing) :
    b.arrays.castlingReady c (c.rookLeg w) = .ok (b.castlingReady c (c.rookLeg w)) := by
  have hrook : ((b.pieceAt (c.rookHome w)).any fun q =>
      decide (q.kind = .rook) && decide (q.color = c)) =
      decide (b.manAt (c.rookHome w) = some ⟨.rook, c⟩) := by
    unfold pieceAt
    cases b.manAt (c.rookHome w) with
    | none => rfl
    | some m => cases m; simp [Man.on]
  obtain ⟨cols, hcols, hway⟩ := columnsBetween_rookHome c w
  have hblocked : (cols.anyM fun col => (.ok (b.pieceAt ⟨c.homeRow, col⟩).isSome : Checked Bool)) =
      .ok (b.isBlocked c.kingHome (c.rookHome w)) := by
    rw [Checked.anyM_ok fun col _ => rfl]
    congr 1
    rw [Bool.eq_iff_iff, ← not_iff_not, Bool.not_eq_true, Bool.not_eq_true, isBlocked_kingHome,
      List.any_eq_false]
    simp only [← hway, List.forall_mem_map, pieceAt, Option.isSome_map]
    simp
  simp only [Arrays.castlingReady, castlingReady, Color.rookLeg, pieceAt_arrays, moveCount_arrays,
    hcols, hblocked, hrook, Checked.ok_bind, Checked.pure_eq_ok, count_pos_iff h, decide_eq_true_eq]
  by_cases h1 : b.manAt (c.rookHome w) = some ⟨.rook, c⟩
  · by_cases h2 : b.visits c.kingHome = 0
    · by_cases h3 : b.visits (c.rookHome w) = 0
      · simp [h1, h2, h3]
      · simp [h1, h2, h3]
    · simp [h1, h2]
  · simp [h1]

theorem castling?_arrays (h : b.Fits) (p : Piece) (t : Square) :
    b.arrays.castling? p t = .ok (b.castling? p t) := by
  unfold Arrays.castling? castling?
  split_ifs with hk
  · obtain ⟨-, hhome, hrow⟩ := hk
    rw [hrow]
    cases hleg : RookLeg.ofKing? p.color.homeRow t.col with
    | none => rfl
    | some leg =>
        obtain ⟨w, hcol, rfl⟩ := RookLeg.exists_wing hleg
        have ht : t = p.color.castlesTo w := by
          obtain ⟨r, col⟩ := t
          simp only at hrow hcol
          rw [hrow, hcol]
          cases w <;> rfl
        have hattacked : ([p.color.kingHome, (p.color.rookLeg w).target, t].anyM fun s =>
            b.arrays.isAttacked s p.color.opponent) =
            .ok ([p.square, (p.color.rookLeg w).target, t].any fun s =>
              b.isAttacked s p.color.opponent) := by
          rw [hhome]
          refine Checked.anyM_ok fun s hs => isAttacked_arrays b ?_ _
          simp only [List.mem_cons, List.not_mem_nil, or_false] at hs
          rcases hs with rfl | rfl | rfl
          · exact p.color.onBoard_kingHome
          · exact p.color.onBoard_crosses w
          · exact ht ▸ p.color.onBoard_castlesTo w
        simp only [castlingReady_arrays h, hattacked, Checked.ok_bind, Checked.pure_eq_ok,
          Option.filter, ← List.not_any_eq_all_not]
        by_cases hready : b.castlingReady p.color (p.color.rookLeg w) = true
        · rw [if_pos hready, hready, Bool.true_and]
          split_ifs with h1 h2 h2
          · simp [h1] at h2
          · rfl
          · rfl
          · simp [h1] at h2
        · rw [if_neg hready, Bool.eq_false_iff.mpr hready]
          rfl
  · rfl

/-! ### Moves -/

/-- A question about the man of a piece found on the board. -/
theorem any_pieceAt (b : Board) (s : Square) (f : Man → Bool) :
    ((b.pieceAt s).any fun q => f q.man) = (b.manAt s).any f := by
  unfold pieceAt
  cases b.manAt s <;> rfl

theorem isNone_pieceAt (b : Board) (s : Square) : (b.pieceAt s).isNone = (b.manAt s).isNone :=
  Option.isNone_map

theorem admitsPawn_arrays (b : Board) (hs : p.square.OnBoard) (ht : t.OnBoard) :
    b.arrays.admitsPawn p t = .ok (b.admitsPawn p t) := by
  have hcolor : ((b.pieceAt t).any fun q => decide (q.color ≠ p.color)) =
      (b.manAt t).any fun m => decide (m.color ≠ p.color) :=
    any_pieceAt b t fun m => decide (m.color ≠ p.color)
  simp only [Arrays.admitsPawn, admitsPawn, pieceAt_arrays, Checked.rowDelta_ok hs ht,
    Checked.colDelta_ok hs ht, Checked.abs_colDelta hs ht, Checked.double_forward,
    Checked.offset_ok, Checked.ok_bind, Checked.pure_eq_ok, isNone_pieceAt, hcolor]
  by_cases hfile : (Square.colDelta p.square t).abs = 0
  · have hone : (Square.colDelta p.square t).abs ≠ 1 := by rw [hfile]; decide
    simp only [hfile, if_true, true_and]
    by_cases hstep : Square.rowDelta p.square t = p.color.forward
    · rw [if_pos hstep, if_pos hstep]
    · rw [if_neg hstep, if_neg hstep]
      by_cases htwo : Square.rowDelta p.square t = 2 * p.color.forward
      · by_cases hrow : p.square.row = p.color.pawnRow
        · cases hfree : (b.manAt t).isNone with
          | true =>
              rw [if_pos ⟨htwo, hrow, rfl⟩, if_pos htwo, decide_eq_true hrow]
              cases p.square.offset p.color.forward 0 <;> rfl
          | false => simp [htwo]
        · simp [htwo, hrow]
      · simp [htwo, hstep]
  · simp only [hfile, if_false, false_and]
    by_cases hpawn : (Square.colDelta p.square t).abs = 1 ∧
        Square.rowDelta p.square t = p.color.forward
    · rw [if_pos hpawn, decide_eq_true hpawn, Bool.true_and]
    · rw [if_neg hpawn, decide_eq_false hpawn, Bool.false_and]

theorem admits_arrays (h : b.Fits) (p : Piece) (t : Square) :
    b.arrays.admits p t = .ok (b.admits p t) := by
  unfold Arrays.admits admits
  by_cases ht : t.OnBoard
  · rw [if_pos ht, pieceAt_arrays, Checked.ok_bind, decide_eq_true ht, Bool.true_and]
    by_cases hp : b.pieceAt p.square = some p
    · have hs : p.square.OnBoard := onBoard_of_manAt (pieceAt_eq_some_iff.mp hp).2
      have hown : ((b.pieceAt t).any fun q => decide (q.color = p.color)) =
          (b.manAt t).any fun m => decide (m.color = p.color) :=
        any_pieceAt b t fun m => decide (m.color = p.color)
      rw [if_pos hp, decide_eq_true hp, Bool.true_and, pieceAt_arrays, Checked.ok_bind, hown]
      cases (b.manAt t).any fun m => decide (m.color = p.color) with
      | true => rfl
      | false =>
          rw [if_neg Bool.false_ne_true, Bool.not_false, Bool.true_and]
          cases p.kind with
          | pawn => exact admitsPawn_arrays b hs ht
          | king =>
              simp only [Checked.isKingStep_ok hs ht, castling?_arrays h, Checked.ok_bind,
                Checked.pure_eq_ok]
              cases Square.isKingStep p.square t <;> rfl
          | rook => exact reaches_arrays b hs ht
          | knight => exact reaches_arrays b hs ht
          | bishop => exact reaches_arrays b hs ht
          | queen => exact reaches_arrays b hs ht
    · rw [if_neg hp, decide_eq_false hp]
      rfl
  · rw [if_neg ht, decide_eq_false ht]
    rfl

theorem admitted_arrays (h : b.Fits) (p : Piece) : b.arrays.admitted p = .ok (b.admitted p) :=
  Checked.filterM_ok fun t _ => admits_arrays h p t

/-! ### Carrying a move out -/

theorem apply_arrays (h : b.admits p t = true) (hfits : (b.apply p t).Fits) :
    b.arrays.apply p t = .ok (b.placement p t, (b.apply p t).arrays) := by
  obtain ⟨ht, hs, -⟩ := admits_spec h
  unfold Arrays.apply placement
  cases hc : carriedRook p t with
  | none =>
      unfold apply at hfits ⊢
      rw [hc] at hfits ⊢
      rw [relocate_arrays b hs ht hfits]
      rfl
  | some leg =>
      obtain ⟨hsource, htarget⟩ := onBoard_of_carriedRook h hc
      unfold apply at hfits ⊢
      rw [hc] at hfits ⊢
      have hking : (b.relocate p.square t).Fits := hfits.mono fun u => by
        rw [visits_relocate _ leg.source, visits_visit_add, visits_visit_add]
        omega
      rw [relocate_arrays b hs ht hking, Checked.ok_bind]
      simp only [relocate_arrays _ hsource htarget hfits, Checked.ok_bind, Checked.pure_eq_ok]

theorem Roomy.fits (h : b.Roomy) : b.Fits := fun u => by
  have := h u
  omega

theorem Roomy.fits_apply (h : b.Roomy) (ha : b.admits p t = true) : (b.apply p t).Fits :=
  fun u => (visits_apply_le ha u).trans_lt (h u)

theorem leavesInCheck_arrays (h : b.Roomy) (ha : b.admits p t = true) :
    b.arrays.leavesInCheck p t = .ok (b.leavesInCheck p t) := by
  rw [Arrays.leavesInCheck, apply_arrays ha (h.fits_apply ha), Checked.ok_bind]
  exact inCheck_arrays _ _

/-! ### What may be played -/

theorem validMoves_arrays (h : b.Roomy) (p : Piece) :
    b.arrays.validMoves p = .ok (b.moves p) := by
  unfold Arrays.validMoves moves
  rw [admitted_arrays h.fits, Checked.ok_bind, inCheck_arrays, Checked.ok_bind]
  split_ifs with hcheck
  · refine Checked.filterM_ok fun t ht => ?_
    rw [leavesInCheck_arrays h (List.mem_filter.mp ht).2]
    rfl
  · rfl

theorem validMovesFrom_arrays (h : b.Roomy) (s : Square) :
    b.arrays.validMovesFrom s = .ok (b.movesFrom s) := by
  unfold Arrays.validMovesFrom movesFrom
  rw [pieceAt_arrays, Checked.ok_bind]
  cases b.pieceAt s with
  | none => rfl
  | some p => exact validMoves_arrays h p

theorem placePiece_arrays (h : b.Roomy) (p : Piece) (t : Square) :
    b.arrays.placePiece p t = .ok ((b.play? p t).map fun r => (r.1, r.2.arrays)) := by
  unfold Arrays.placePiece play?
  rw [validMoves_arrays h, Checked.ok_bind]
  split_ifs with ht
  · have ha := admits_of_mem_moves ht
    rw [apply_arrays ha (h.fits_apply ha)]
    rfl
  · rfl

theorem isCheckmate_arrays (h : b.Roomy) (c : Color) :
    b.arrays.isCheckmate c = .ok (b.isCheckmate c) := by
  have hmated : ((b.arrays.pieces.filter fun p => p.color = c).allM fun p => do
      let squares ← b.arrays.admitted p
      squares.allM (b.arrays.leavesInCheck p)) =
      .ok (b.pieces.all fun p => decide (p.color ≠ c) ||
        (b.admitted p).all fun t => b.leavesInCheck p t) := by
    rw [pieces_arrays, Checked.allM_ok fun p _ => by
      rw [admitted_arrays h.fits, Checked.ok_bind]
      exact Checked.allM_ok fun t ht => leavesInCheck_arrays h (List.mem_filter.mp ht).2]
    rw [List.all_filter]
    simp
  unfold Arrays.isCheckmate isCheckmate
  rw [inCheck_arrays, Checked.ok_bind, hmated]
  cases b.inCheck c <;> rfl

end Board
end LiveChess
