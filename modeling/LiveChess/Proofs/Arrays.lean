import LiveChess.Proofs.Play

/-! # The board as an array

Kept as an array, a board is eight rows of eight cells, and a cell that is not empty holds a piece
that names a square itself.  Reading or writing an array is a computation that fails if an index is
out of range (`Checked`); nothing in the array keeps a piece from naming a square other than that of
its cell.  `Board.squares` is the array of a board.  Reading, putting and carrying on it never fail
and do what they do on the board, for squares of the board (`get_squares`, `set_squares`,
`relocate_squares`), and so does carrying out an admitted move (`carry_squares`). -/

namespace LiveChess

/-- Why a computation cannot go on: an index out of range, a number out of range, or no end. -/
inductive Trap where
  | index
  | overflow
  | endless
deriving DecidableEq, Repr

/-- A computation that may fail. -/
abbrev Checked (α : Type) := Except Trap α

/-- Eight rows of eight cells. -/
structure Grid (α : Type) where
  rows : Vector (Vector α 8) 8

namespace Grid

variable {α : Type} {f g : Square → α} {s t : Square}

/-- Read a cell. -/
def get (g : Grid α) (s : Square) : Checked α :=
  if h : s.row.toNat < 8 then
    if h' : s.col.toNat < 8 then .ok (g.rows[s.row.toNat])[s.col.toNat] else .error .index
  else
    .error .index

/-- Write a cell. -/
def set (g : Grid α) (s : Square) (x : α) : Checked (Grid α) :=
  if h : s.row.toNat < 8 then
    if h' : s.col.toNat < 8 then
      .ok ⟨g.rows.set s.row.toNat (g.rows[s.row.toNat].set s.col.toNat x)⟩
    else
      .error .index
  else
    .error .index

/-- The grid whose cells are computed from their squares. -/
def tabulate (f : Square → α) : Grid α :=
  ⟨.ofFn fun r => .ofFn fun c => f ⟨r.val.toUInt8, c.val.toUInt8⟩⟩

theorem onBoard_cell {r c : Nat} (hr : r < 8) (hc : c < 8) :
    Square.OnBoard ⟨r.toUInt8, c.toUInt8⟩ := by
  simp only [Square.OnBoard, UInt8.lt_iff_toNat_lt, UInt8.toNat_ofNat']
  show r % 256 < 8 ∧ c % 256 < 8
  omega

theorem tabulate_congr (h : ∀ s : Square, s.OnBoard → f s = g s) : tabulate f = tabulate g := by
  unfold tabulate
  congr 1
  ext r hr c hc
  simp only [Vector.getElem_ofFn]
  exact h _ (onBoard_cell hr hc)

theorem get_tabulate (f : Square → α) (hs : s.OnBoard) : (tabulate f).get s = .ok (f s) := by
  have h1 : s.row.toNat < 8 := hs.1
  have h2 : s.col.toNat < 8 := hs.2
  simp [get, tabulate, h1, h2]

theorem set_tabulate (f : Square → α) (hs : s.OnBoard) (x : α) :
    (tabulate f).set s x = .ok (tabulate fun u => if u = s then x else f u) := by
  have h1 : s.row.toNat < 8 := hs.1
  have h2 : s.col.toNat < 8 := hs.2
  simp only [set, tabulate, h1, h2, dif_pos]
  congr 2
  ext r hr c hc
  obtain ⟨row, col⟩ := s
  have hr' : (Nat.toUInt8 r).toNat = r := by simp; omega
  have hc' : (Nat.toUInt8 c).toNat = c := by simp; omega
  have hrow : row.toNat = r ↔ Nat.toUInt8 r = row := by
    rw [← UInt8.toNat_inj, hr', eq_comm]
  have hcol : col.toNat = c ↔ Nat.toUInt8 c = col := by
    rw [← UInt8.toNat_inj, hc', eq_comm]
  by_cases h : row.toNat = r
  · subst h
    simp [Vector.getElem_set, hcol]
  · simp [h, mt hrow.mpr h]

/-- Grids with the same cells are equal. -/
theorem ext_get {g g' : Grid α} (h : ∀ s : Square, s.OnBoard → g.get s = g'.get s) : g = g' := by
  obtain ⟨rows⟩ := g
  obtain ⟨rows'⟩ := g'
  congr 1
  ext r hr c hc
  have hrow : (Nat.toUInt8 r).toNat = r := by simp; omega
  have hcol : (Nat.toUInt8 c).toNat = c := by simp; omega
  simpa [get, hrow, hcol, hr, hc] using h _ (onBoard_cell hr hc)

/-- A cell of the board can be read. -/
theorem exists_get (g : Grid α) (hs : s.OnBoard) : ∃ x, g.get s = .ok x := by
  have h1 : s.row.toNat < 8 := hs.1
  have h2 : s.col.toNat < 8 := hs.2
  simp [get, h1, h2]

/-! ### Pieces in cells -/

/-- Put a piece into the cell of the square that it names. -/
def put (g : Grid (Option Piece)) (p : Piece) : Checked (Grid (Option Piece)) :=
  g.set p.square (some p)

/-- Take what is in one cell out and put it into another, naming that one from then on; what was
there before is given back. -/
def relocate (g : Grid (Option Piece)) (s t : Square) :
    Checked (Option Piece × Grid (Option Piece)) := do
  let moving ← g.get s
  let g ← g.set s none
  let captured ← g.get t
  let g ← g.set t (moving.map fun p => { p with square := t })
  pure (captured, g)

/-- Carry out a ply; what stood where the piece goes is given back. -/
def carry (g : Grid (Option Piece)) (m : Ply) : Checked (Option Piece × Grid (Option Piece)) := do
  let (captured, g) ← g.relocate m.piece.square m.target
  match Board.carriedRook m.piece m.target with
  | some leg => do
    let (_, g) ← g.relocate leg.source leg.target
    pure (captured, g)
  | none => pure (captured, g)

/-- Carry out a line. -/
def carryAll (g : Grid (Option Piece)) :
    List Ply → Checked (List (Option Piece) × Grid (Option Piece))
  | [] => pure ([], g)
  | m :: ms => do
    let (captured, g) ← g.carry m
    let (rest, g) ← g.carryAll ms
    pure (captured :: rest, g)

end Grid

/-- The square of a number. -/
def Square.ofIndex (i : Fin 64) : Square := ⟨(i.val / 8).toUInt8, (i.val % 8).toUInt8⟩

theorem Square.ofIndex_index {s : Square} (hs : s.OnBoard) : ofIndex (s.index hs) = s := by
  have h1 : s.row.toNat < 8 := hs.1
  have h2 : s.col.toNat < 8 := hs.2
  obtain ⟨r, c⟩ := s
  simp only [ofIndex, index, mk.injEq, ← UInt8.toNat_inj, UInt8.toNat_ofNat'] at h1 h2 ⊢
  omega

namespace Board

variable {b : Board} {s t u : Square} {p : Piece}

/-- The board whose men and visits are computed from their squares. -/
def tabulate (man : Square → Option Man) (visits : Square → Nat) : Board where
  men := .ofFn fun i => man (.ofIndex i)
  visitCounts := .ofFn fun i => visits (.ofIndex i)

theorem manAt_tabulate (man : Square → Option Man) (visits : Square → Nat) (s : Square) :
    (tabulate man visits).manAt s = if s.OnBoard then man s else none := by
  unfold manAt tabulate
  split_ifs with hs
  · simp [Square.ofIndex_index hs]
  · rfl

theorem visits_tabulate (man : Square → Option Man) (visits : Square → Nat) (s : Square) :
    (tabulate man visits).visits s = if s.OnBoard then visits s else 0 := by
  unfold Board.visits tabulate
  split_ifs with hs
  · simp [Square.ofIndex_index hs]
  · rfl

/-- The board as an array of pieces. -/
def squares (b : Board) : Grid (Option Piece) := .tabulate b.pieceAt

theorem get_squares (b : Board) (hs : s.OnBoard) : b.squares.get s = .ok (b.pieceAt s) :=
  Grid.get_tabulate _ hs

theorem squares_congr {c : Board} (h : ∀ u : Square, u.OnBoard → b.manAt u = c.manAt u) :
    b.squares = c.squares := by
  refine Grid.tabulate_congr fun u hu => ?_
  unfold pieceAt
  rw [h u hu]

/-- Writing a piece that names the square of its cell, or none. -/
theorem set_squares (b : Board) (hs : s.OnBoard) (m : Option Man) :
    b.squares.set s (m.map (·.on s)) = .ok (b.setMan s m).squares := by
  unfold squares
  rw [Grid.set_tabulate _ hs]
  congr 1
  refine Grid.tabulate_congr fun u _ => ?_
  unfold pieceAt
  rw [manAt_setMan]
  by_cases hu : u = s
  · subst hu
    rw [if_pos rfl, if_pos ⟨rfl, hs⟩]
  · rw [if_neg hu, if_neg fun h => hu h.1]

theorem put_squares (b : Board) (hp : p.square.OnBoard) :
    b.squares.put p = .ok (b.put p).squares := set_squares b hp (some p.man)

/-- Carrying a man reports what stood on the square it is carried to, unless it stays. -/
theorem relocate_squares (b : Board) (hs : s.OnBoard) (ht : t.OnBoard) :
    b.squares.relocate s t =
      .ok (if t = s then none else b.pieceAt t, (b.relocate s t).squares) := by
  have hmoving : (b.pieceAt s).map (fun p => { p with square := t }) = (b.manAt s).map (·.on t) := by
    unfold pieceAt
    cases b.manAt s <;> rfl
  have hcaptured : (b.setMan s none).pieceAt t = if t = s then none else b.pieceAt t := by
    unfold pieceAt
    rw [manAt_setMan]
    by_cases h : t = s
    · rw [if_pos ⟨h, hs⟩, if_pos h]
      rfl
    · rw [if_neg fun e => h e.1, if_neg h]
  have hsame : ((b.setMan s none).setMan t (b.manAt s)).squares = (b.relocate s t).squares := by
    refine squares_congr fun u _ => ?_
    simp only [relocate, manAt_visit]
  have htake : b.squares.set s none = .ok (b.setMan s none).squares := set_squares b hs none
  simp only [Grid.relocate, bind, Except.bind, pure, Except.pure, get_squares _ hs, htake,
    get_squares _ ht, hcaptured, hmoving, set_squares _ ht, hsame]

/-- The squares of a rook that an admitted move carries along are on the board. -/
theorem onBoard_of_carriedRook {leg : RookLeg} (h : b.admits p t = true)
    (hc : carriedRook p t = some leg) : leg.source.OnBoard ∧ leg.target.OnBoard := by
  obtain ⟨-, -, -, hleg, -⟩ := castling?_eq_some (carriedRook_spec h hc)
  exact RookLeg.onBoard_of_ofKing? (admits_spec h).1.1 hleg

theorem carry_squares {m : Ply} (h : b.admits m.piece m.target = true) :
    b.squares.carry m =
      .ok ((b.placement m.piece m.target).captured, (b.apply m.piece m.target).squares) := by
  obtain ⟨ht, hs, -⟩ := admits_spec h
  unfold Grid.carry apply
  rw [relocate_squares b hs ht]
  simp only [bind, Except.bind, pure, Except.pure]
  cases hc : carriedRook m.piece m.target with
  | none => rfl
  | some leg =>
      obtain ⟨hsource, htarget⟩ := onBoard_of_carriedRook h hc
      simp only [relocate_squares _ hsource htarget]
      rfl

theorem square_of_get_squares (hs : s.OnBoard) (h : b.squares.get s = .ok (some p)) :
    p.square = s := by
  rw [get_squares b hs] at h
  exact (pieceAt_eq_some_iff.mp (Except.ok.inj h)).1

end Board
end LiveChess
