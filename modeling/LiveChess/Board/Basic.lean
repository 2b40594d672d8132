import LiveChess.Piece

/-! # The board

A board keeps at most one man per square and, per square, how often a man has left it or landed
on it. These visit counts feed nothing but the right to castle.

Reading a square off the board finds no man and no visits, and writing there changes nothing, so
every operation is total; `manAt_setMan` and `visits_visit` say what writing does, and `ext_manAt`
that a board is determined by what its squares read. -/

namespace LiveChess

/-- Men and visit counts, square by square. -/
structure Board where
  men : Vector (Option Man) 64
  visitCounts : Vector Nat 64
deriving DecidableEq

namespace Board

/-- The board without men. -/
def empty : Board := ⟨Vector.replicate 64 none, Vector.replicate 64 0⟩

/-! ### Reading and writing one square -/

/-- The man on a square. -/
def manAt (b : Board) (s : Square) : Option Man :=
  if h : s.OnBoard then b.men[s.index h] else none

/-- The piece on a square. -/
def pieceAt (b : Board) (s : Square) : Option Piece := (b.manAt s).map (·.on s)

/-- How often a man has left or entered a square. -/
def visits (b : Board) (s : Square) : Nat :=
  if h : s.OnBoard then b.visitCounts[s.index h] else 0

/-- Set what stands on a square. -/
def setMan (b : Board) (s : Square) (m : Option Man) : Board :=
  if h : s.OnBoard then { b with men := b.men.set (s.index h) m } else b

/-- Count one more visit of a square. -/
def visit (b : Board) (s : Square) : Board :=
  if h : s.OnBoard then
    { b with visitCounts := b.visitCounts.set (s.index h) (b.visits s + 1) }
  else
    b

/-- Put a piece on its square, in place of what stands there. -/
def put (b : Board) (p : Piece) : Board := b.setMan p.square (some p.man)

/-! ### All squares at once -/

/-- The pieces on the board, row by row. -/
def pieces (b : Board) : List Piece := Square.all.filterMap b.pieceAt

/-- Rows of squares, row 0 first. -/
def grid (b : Board) : List (List (Option Piece)) :=
  (List.range 8).map fun r => (List.range 8).map fun c => b.pieceAt ⟨r.toUInt8, c.toUInt8⟩

/-- The square of a side's king, the first one row by row. -/
def findKing (b : Board) (c : Color) : Option Square :=
  (b.pieces.find? fun p => decide (p.kind = .king) && decide (p.color = c)).map (·.square)

/-- A board of nothing but the given pieces; of two on one square the later one stays. -/
def ofPieces (ps : List Piece) : Board := ps.foldl put empty

/-- The kinds on a home row, from file a to file h. -/
def backRank : List Kind :=
  [.rook, .knight, .bishop, .queen, .king, .bishop, .knight, .rook]

/-- The sixteen pieces a side starts with. -/
def army (c : Color) : List Piece :=
  (backRank.zipIdx.map fun k => ⟨k.1, c, ⟨c.homeRow, k.2.toUInt8⟩⟩) ++
    (List.range 8).map fun f => ⟨.pawn, c, ⟨c.pawnRow, f.toUInt8⟩⟩

/-- The starting position. -/
def start : Board := ofPieces (army .white ++ army .black)

/-! ### Moving one man -/

/-- Carry the man of one square to another, counting a visit of both. -/
def relocate (b : Board) (s t : Square) : Board :=
  (((b.setMan s none).setMan t (b.manAt s)).visit s).visit t

/-! ### What writing does to reading -/

theorem index_inj {s t : Square} (hs : s.OnBoard) (ht : t.OnBoard)
    (h : s.index hs = t.index ht) : s = t := by
  have h1 : s.row.toNat < 8 := hs.1
  have h2 : s.col.toNat < 8 := hs.2
  have h3 : t.row.toNat < 8 := ht.1
  have h4 : t.col.toNat < 8 := ht.2
  have h5 : 8 * s.row.toNat + s.col.toNat = 8 * t.row.toNat + t.col.toNat := congrArg Fin.val h
  obtain ⟨r, c⟩ := s
  obtain ⟨r', c'⟩ := t
  simp only [Square.mk.injEq, ← UInt8.toNat_inj]
  constructor <;> simp only at * <;> omega

theorem index_eq_iff {s t : Square} (hs : s.OnBoard) (ht : t.OnBoard) :
    (s.index hs).val = (t.index ht).val ↔ s = t :=
  ⟨fun h => index_inj hs ht (Fin.ext h), fun h => by subst h; rfl⟩

theorem manAt_setMan (b : Board) (s t : Square) (m : Option Man) :
    (b.setMan s m).manAt t = if t = s ∧ s.OnBoard then m else b.manAt t := by
  by_cases hs : s.OnBoard <;> by_cases ht : t.OnBoard
  · have hst := index_eq_iff hs ht
    simp [manAt, setMan, hs, ht, Vector.getElem_set, hst, eq_comm]
  · have : t ≠ s := fun h => ht (h ▸ hs)
    simp [manAt, hs, ht, this]
  · simp [setMan, hs]
  · simp [setMan, hs]

@[simp] theorem visits_setMan (b : Board) (s t : Square) (m : Option Man) :
    (b.setMan s m).visits t = b.visits t := by
  unfold setMan
  split <;> rfl

theorem visits_visit (b : Board) (s t : Square) :
    (b.visit s).visits t = if t = s ∧ s.OnBoard then b.visits t + 1 else b.visits t := by
  by_cases hs : s.OnBoard <;> by_cases ht : t.OnBoard
  · have hst := index_eq_iff hs ht
    by_cases e : t = s
    · subst e
      simp [visits, visit, hs]
    · simp [visits, visit, hs, ht, hst, e, Ne.symm e]
  · have : t ≠ s := fun h => ht (h ▸ hs)
    simp [visits, hs, ht, this]
  · simp [visit, hs]
  · simp [visit, hs]

@[simp] theorem manAt_visit (b : Board) (s t : Square) : (b.visit s).manAt t = b.manAt t := by
  unfold visit
  split <;> rfl

/-- Boards that read alike are equal. -/
theorem ext_manAt {b c : Board} (hm : ∀ s, b.manAt s = c.manAt s)
    (hv : ∀ s, b.visits s = c.visits s) : b = c := by
  obtain ⟨bm, bv⟩ := b
  obtain ⟨cm, cv⟩ := c
  have key : ∀ i (hi : i < 64), ∃ s : Square, ∃ h : s.OnBoard, (s.index h).val = i := by
    intro i hi
    refine ⟨⟨(i / 8).toUInt8, (i % 8).toUInt8⟩, ⟨?_, ?_⟩, ?_⟩ <;>
      simp [Square.index, UInt8.lt_iff_toNat_lt] <;> omega
  simp only [mk.injEq]
  constructor <;> ext i hi <;> obtain ⟨s, h, rfl⟩ := key i hi
  · have := hm s
    simp_all [manAt]
  · have := hv s
    simp_all [visits]

end Board
end LiveChess
