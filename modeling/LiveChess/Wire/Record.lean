import LiveChess.Json.Printer
import LiveChess.Json.Reader
import LiveChess.Match.Record

/-! # Match records as JSON

The text under which a match is stored, and reading it back. Reading skips fields it does not know
and takes a missing or null seat or winner as empty. -/

namespace LiveChess

/-- A user name. -/
def UserId.toJson (u : UserId) : Json := .str u.text

/-- Read a user name. -/
def UserId.ofJson? (j : Json) : Option UserId := j.asString?.bind ofText?

/-- A match name. -/
def MatchId.toJson (m : MatchId) : Json := .str m.text

/-- Read a match name. -/
def MatchId.ofJson? (j : Json) : Option MatchId := j.asString?.bind ofText?

/-- A side. -/
def Color.toJson (c : Color) : Json := .str c.name

/-- Read a side. -/
def Color.ofJson? (j : Json) : Option Color := j.asChoice? ofName?

/-- A kind. -/
def Kind.toJson (k : Kind) : Json := .str k.letter

/-- Read a kind. -/
def Kind.ofJson? (j : Json) : Option Kind := j.asChoice? ofLetter?

/-- A status. -/
def Status.toJson (s : Status) : Json := .str s.name

/-- Read a status. -/
def Status.ofJson? (j : Json) : Option Status := j.asChoice? ofName?

namespace MoveRecord

/-- A logged move. -/
def toJson (m : MoveRecord) : Json :=
  .obj [("player", m.player.toJson), ("from", .str m.source), ("to", .str m.target)]

/-- Read a logged move. -/
def ofJson? (j : Json) : Option MoveRecord :=
  match j.fields? ["player", "from", "to"] with
  | some [player, source, target] => do
    let player ← Json.required? Color.ofJson? player
    let source ← Json.required? Json.asString? source
    let target ← Json.required? Json.asString? target
    some ⟨player, source, target⟩
  | _ => none

end MoveRecord

namespace PieceRecord

/-- A recorded piece. -/
def toJson (p : PieceRecord) : Json :=
  .obj [("player", p.player.toJson), ("piece", p.kind.toJson), ("row", .ofNat p.row.toNat),
    ("col", .ofNat p.col.toNat)]

/-- Read a recorded piece. -/
def ofJson? (j : Json) : Option PieceRecord :=
  match j.fields? ["player", "piece", "row", "col"] with
  | some [player, kind, row, col] => do
    let player ← Json.required? Color.ofJson? player
    let kind ← Json.required? Kind.ofJson? kind
    let row ← Json.required? Json.asByte? row
    let col ← Json.required? Json.asByte? col
    some ⟨player, kind, row, col⟩
  | _ => none

end PieceRecord

namespace MatchRecord

/-- A match record. -/
def toJson (r : MatchRecord) : Json :=
  .obj [("whitePlayerId", .ofOption UserId.toJson r.seats.white),
    ("blackPlayerId", .ofOption UserId.toJson r.seats.black),
    ("turn", r.turn.toJson),
    ("moves", .arr (r.log.map MoveRecord.toJson)),
    ("pieces", .arr (r.pieces.map PieceRecord.toJson)),
    ("status", r.status.toJson),
    ("winner", .ofOption UserId.toJson r.winner)]

/-- The names of the fields of a match record, in their order. -/
def fieldNames : List String :=
  ["whitePlayerId", "blackPlayerId", "turn", "moves", "pieces", "status", "winner"]

/-- Read a match record. -/
def ofJson? (j : Json) : Option MatchRecord :=
  match j.fields? fieldNames with
  | some [white, black, turn, log, pieces, status, winner] => do
    let white ← Json.optional? UserId.ofJson? white
    let black ← Json.optional? UserId.ofJson? black
    let turn ← Json.required? Color.ofJson? turn
    let log ← Json.required? (Json.asList? MoveRecord.ofJson?) log
    let pieces ← Json.required? (Json.asList? PieceRecord.ofJson?) pieces
    let status ← Json.required? Status.ofJson? status
    let winner ← Json.optional? UserId.ofJson? winner
    some ⟨⟨white, black⟩, turn, log, pieces, status, winner⟩
  | _ => none

/-- The text a match is stored under. -/
def text (r : MatchRecord) : String := r.toJson.text

/-- Read the text a match is stored under. -/
def ofText? (text : String) : Option MatchRecord := (Json.parse text).bind ofJson?

end MatchRecord
end LiveChess
