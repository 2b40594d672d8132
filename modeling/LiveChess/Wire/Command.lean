import LiveChess.Message
import LiveChess.Wire.Record

/-! # Commands as JSON

A command is an object with a type, the match and one or two squares in any order, unknown fields
ignored; or an array of the type and those values in their order, and nothing more. -/

namespace LiveChess.Command

/-- Read the fields of a command whose type is known. -/
def ofFields? (type : String) (fields : Json) : Option Command :=
  match type with
  | "chess-valid-moves" =>
    match fields.fields? ["matchId", "position"] with
    | some [id, source] => do
      let id ← Json.required? MatchId.ofJson? id
      let source ← Json.required? Json.asString? source
      some (.showMoves id source)
    | _ => none
  | "chess-move-piece" =>
    match fields.fields? ["matchId", "position", "to"] with
    | some [id, source, target] => do
      let id ← Json.required? MatchId.ofJson? id
      let source ← Json.required? Json.asString? source
      let target ← Json.required? Json.asString? target
      some (.move id source target)
    | _ => none
  | _ => none

/-- Read a command: its type first, wherever it stands, then the fields of that type. -/
def ofJson? : Json → Option Command
  | .obj members => do
    let type ← Json.member? "type" members
    let type ← Json.required? Json.asString? type
    ofFields? type (.obj members)
  | .arr (type :: fields) => do
    let type ← type.asString?
    ofFields? type (.arr fields)
  | _ => none

/-- Read the text of a command. -/
def ofText? (text : String) : Option Command := (Json.read text).bind ofJson?

end LiveChess.Command
