import LiveChess.Color
import LiveChess.Square

/-! # Pieces

A man is a kind and a side; a piece is a man together with the square it stands on. The board
keeps men by square, so a piece taken from the board always names the square it was found on. -/

namespace LiveChess

/-- The six kinds of chessmen. -/
inductive Kind where
  | pawn
  | rook
  | knight
  | bishop
  | queen
  | king
deriving DecidableEq, Repr

namespace Kind

/-- The letter of a kind. -/
def letter : Kind → String
  | pawn => "P"
  | rook => "R"
  | knight => "N"
  | bishop => "B"
  | queen => "Q"
  | king => "K"

/-- The kind of a letter. -/
def ofLetter? : String → Option Kind
  | "P" => some pawn
  | "R" => some rook
  | "N" => some knight
  | "B" => some bishop
  | "Q" => some queen
  | "K" => some king
  | _ => none

theorem ofLetter?_letter (k : Kind) : ofLetter? k.letter = some k := by
  cases k <;> rfl

end Kind

/-- A chessman. -/
structure Man where
  kind : Kind
  color : Color
deriving DecidableEq, Repr

/-- A chessman and the square it stands on. -/
structure Piece where
  kind : Kind
  color : Color
  square : Square
deriving DecidableEq, Repr

/-- The chessman of a piece. -/
def Piece.man (p : Piece) : Man := ⟨p.kind, p.color⟩

/-- A chessman put on a square. -/
def Man.on (m : Man) (s : Square) : Piece := ⟨m.kind, m.color, s⟩

end LiveChess
