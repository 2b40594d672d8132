/-! # Squares

A square is a pair of bytes, row and column. Row 0 is rank 8 and column 0 is file a; only the
rows and columns below 8 lie on the board, but a square off the board is a value too, since
callers may ask about one. Differences of rows and columns are taken between the bytes read as
signed numbers, so that a square past the far edge and one before the near edge both have a
direction. -/

namespace LiveChess

/-- A pair of a row and a column. -/
structure Square where
  row : UInt8
  col : UInt8
deriving DecidableEq, Repr

namespace Square

/-- Lying on the eight by eight board. -/
def OnBoard (s : Square) : Prop := s.row < 8 ∧ s.col < 8

instance (s : Square) : Decidable s.OnBoard := inferInstanceAs (Decidable (_ ∧ _))

/-- The square of a row and a column that lie on the board. -/
def ofRowCol? (row col : UInt8) : Option Square :=
  if OnBoard ⟨row, col⟩ then some ⟨row, col⟩ else none

/-- The number of a square of the board, row by row. -/
def index (s : Square) (h : s.OnBoard) : Fin 64 :=
  ⟨8 * s.row.toNat + s.col.toNat, by
    have h1 : s.row.toNat < 8 := h.1
    have h2 : s.col.toNat < 8 := h.2
    omega⟩

/-- The squares of the board, row by row. -/
def all : List Square :=
  (List.range 8).flatMap fun r => (List.range 8).map fun c => ⟨r.toUInt8, c.toUInt8⟩

/-! ### Directions and distances -/

/-- Rows from `s` to `t`. -/
def rowDelta (s t : Square) : Int8 := t.row.toInt8 - s.row.toInt8

/-- Columns from `s` to `t`. -/
def colDelta (s t : Square) : Int8 := t.col.toInt8 - s.col.toInt8

/-- The square `dr` rows and `dc` columns away, if that is on the board. -/
def offset (s : Square) (dr dc : Int8) : Option Square :=
  let row : Int := s.row.toNat + dr.toInt
  let col : Int := s.col.toNat + dc.toInt
  if 0 ≤ row ∧ row < 8 ∧ 0 ≤ col ∧ col < 8 then
    some ⟨row.toNat.toUInt8, col.toNat.toUInt8⟩
  else
    none

/-- The sign of a difference: the step that shortens it. -/
def step (d : Int8) : Int8 := if d < 0 then -1 else if d = 0 then 0 else 1

/-- The first `n` squares met from `s` in steps of `(dr, dc)`, fewer if the board ends. -/
def ray (s : Square) (dr dc : Int8) : Nat → List Square
  | 0 => []
  | n + 1 =>
    match s.offset dr dc with
    | none => []
    | some t => t :: ray t dr dc n

/-- The squares strictly between `s` and `t` on the line from `s` towards `t`; if the line misses
`t`, all squares of the line up to the edge. -/
def between (s t : Square) : List Square :=
  (ray s (step (rowDelta s t)) (step (colDelta s t)) 8).takeWhile fun u => decide (u ≠ t)

/-- On one row or one column. -/
def isStraight (s t : Square) : Bool := decide (s.row = t.row) || decide (s.col = t.col)

/-- On one diagonal. -/
def isDiagonal (s t : Square) : Bool := decide ((rowDelta s t).abs = (colDelta s t).abs)

/-- The eight jumps of a knight. -/
def knightJumps : List (Int8 × Int8) :=
  [(-2, -1), (-2, 1), (-1, -2), (-1, 2), (1, -2), (1, 2), (2, -1), (2, 1)]

/-- One knight jump apart. -/
def isKnightJump (s t : Square) : Bool :=
  knightJumps.any fun d => decide (s.offset d.1 d.2 = some t)

/-- At most one row and one column apart. -/
def isKingStep (s t : Square) : Bool :=
  decide ((rowDelta s t).abs ≤ 1) && decide ((colDelta s t).abs ≤ 1)

/-! ### Text -/

/-- The file letter and the rank digit of a square of the board. -/
def text (s : Square) : String :=
  String.ofList [Char.ofNat (97 + s.col.toNat), Char.ofNat (56 - s.row.toNat)]

/-- The square of a file letter `a` to `h` and a rank digit `1` to `8`, and of nothing else. -/
def ofText? (text : String) : Option Square :=
  match text.toList with
  | [file, rank] =>
    if 'a' ≤ file ∧ file ≤ 'h' ∧ '1' ≤ rank ∧ rank ≤ '8' then
      some ⟨(56 - rank.toNat).toUInt8, (file.toNat - 97).toUInt8⟩
    else
      none
  | _ => none

end Square
end LiveChess
