import Mathlib.Tactic
import LiveChess.Proofs.JsonText
import LiveChess.Proofs.Respelling
import LiveChess.Proofs.Uuids
import LiveChess.Wire.Record

/-! # Records are read back

A match record is read back from the text it is stored under, and from the text of any other
spelling of that record: members in another order, unknown members among them, empty seats and
winners left out (`MatchRecord.ofText?_of_respells`).  Each part of a record has a lemma that its
reader finds it in every spelling; texts come in only at the end. -/

namespace LiveChess

open Json (Reads)

/-! ### Parts of a record -/

theorem UserId.reads (u : UserId) : Reads ofJson? u.toJson u := by
  rintro w h
  rw [ofJson?, Json.reads_string u.text w h, Option.bind_some, ofText?_text]

theorem Color.reads (c : Color) : Reads ofJson? c.toJson c := Json.reads_choice (ofName?_name c)

theorem Kind.reads (k : Kind) : Reads ofJson? k.toJson k := Json.reads_choice (ofLetter?_letter k)

theorem Status.reads (s : Status) : Reads ofJson? s.toJson s := Json.reads_choice (ofName?_name s)

theorem MoveRecord.reads (m : MoveRecord) : Reads ofJson? m.toJson m := by
  rintro w h
  obtain ⟨fields, hfields, hfound⟩ :=
    Json.exists_fields ["player", "from", "to"] h rfl (by decide)
  obtain _ | ⟨hplayer, _ | ⟨hsource, _ | ⟨htarget, _ | _⟩⟩⟩ := hfound
  simp only [ofJson?, hfields, Json.required?_found hplayer Json.noConfusion m.player.reads,
    Json.required?_found hsource Json.noConfusion (Json.reads_string m.source),
    Json.required?_found htarget Json.noConfusion (Json.reads_string m.target)]
  rfl

theorem PieceRecord.reads (p : PieceRecord) : Reads ofJson? p.toJson p := by
  rintro w h
  obtain ⟨fields, hfields, hfound⟩ :=
    Json.exists_fields ["player", "piece", "row", "col"] h rfl (by decide)
  obtain _ | ⟨hplayer, _ | ⟨hkind, _ | ⟨hrow, _ | ⟨hcol, _ | _⟩⟩⟩⟩ := hfound
  simp only [ofJson?, hfields, Json.required?_found hplayer Json.noConfusion p.player.reads,
    Json.required?_found hkind Json.noConfusion p.kind.reads,
    Json.required?_found hrow Json.noConfusion (Json.reads_byte p.row),
    Json.required?_found hcol Json.noConfusion (Json.reads_byte p.col)]
  rfl

/-- A user in a seat, or nobody. -/
theorem optional?_user {o : Option UserId} {field : Option Json}
    (h : Json.Found (.ofOption UserId.toJson o) field) :
    Json.optional? UserId.ofJson? field = some o :=
  Json.optional?_found UserId.reads (fun _ => Json.noConfusion) h

theorem MatchRecord.reads (r : MatchRecord) : Reads ofJson? r.toJson r := by
  rintro w h
  obtain ⟨fields, hfields, hfound⟩ := Json.exists_fields fieldNames h rfl (by decide)
  obtain _ | ⟨hwhite, _ | ⟨hblack, _ | ⟨hturn, _ | ⟨hlog, _ | ⟨hpieces, _ | ⟨hstatus,
    _ | ⟨hwinner, _ | _⟩⟩⟩⟩⟩⟩⟩ := hfound
  simp only [ofJson?, hfields, optional?_user hwhite, optional?_user hblack,
    Json.required?_found hturn Json.noConfusion r.turn.reads,
    Json.required?_found hlog Json.noConfusion (Json.reads_list MoveRecord.reads r.log),
    Json.required?_found hpieces Json.noConfusion (Json.reads_list PieceRecord.reads r.pieces),
    Json.required?_found hstatus Json.noConfusion r.status.reads, optional?_user hwinner]
  rfl

/-! ### Texts of records -/

theorem UserId.isWritable_ofOption (o : Option UserId) :
    (Json.ofOption UserId.toJson o).isWritable = true := by
  cases o <;> rfl

theorem MoveRecord.isWritable (m : MoveRecord) : m.toJson.isWritable = true := rfl

theorem PieceRecord.isWritable (p : PieceRecord) : p.toJson.isWritable = true := by
  have hrow := Json.isWritable_ofNat (p.row.toNat_lt.trans (by decide))
  have hcol := Json.isWritable_ofNat (p.col.toNat_lt.trans (by decide))
  simp only [toJson, Json.isWritable, Json.membersWritable, hrow, hcol, Color.toJson, Kind.toJson,
    Bool.and_true]

theorem MatchRecord.isWritable (r : MatchRecord) : r.toJson.isWritable = true := by
  simp only [toJson, Json.isWritable, Json.membersWritable, UserId.isWritable_ofOption,
    Json.areWritable_map MoveRecord.isWritable, Json.areWritable_map PieceRecord.isWritable,
    Color.toJson, Status.toJson, Bool.and_true]

/-- **A record is read back** from the text it is stored under, and from every text of another
spelling of it: the members of each of its objects may stand in any order, members of other names with
any values may stand among them, and those that are null may be missing.  Such a text is any that
parses to the spelling, however it is laid out, and so the one that is written for it if its numbers
are in range. -/
theorem MatchRecord.ofText?_of_respells (r : MatchRecord) :
    ofText? r.text = some r ∧ ∀ j, Json.Respells r.toJson j →
      (∀ text, Json.parse text = some j → ofText? text = some r) ∧
      (j.isWritable = true → ofText? j.text = some r) := by
  have hread (j : Json) (hj : Json.Respells r.toJson j) (text : String)
      (htext : Json.parse text = some j) : ofText? text = some r := by
    rw [ofText?, htext, Option.bind_some, r.reads j hj]
  refine ⟨hread _ (.same _) _ (Json.parse_text r.isWritable), fun j hj => ⟨hread j hj, ?_⟩⟩
  intro hwritable
  exact hread j hj j.text (Json.parse_text hwritable)

/-- A rejected match with one empty seat, a piece off the board and a move between no squares. -/
def MatchRecord.odd : MatchRecord where
  seats := ⟨some ⟨⟨0xFEDCBA98⟩⟩, none⟩
  turn := .black
  log := [⟨.white, "\"𝄞\\", "\n"⟩]
  pieces := [⟨.black, .queen, 200, 255⟩]
  status := .rejected
  winner := none

/-- The odd record with the members of its objects backwards, a number, a list and an object under
names of their own, and without what is empty. -/
def MatchRecord.oddSpelling : Json :=
  .obj <| List.reverse
    [("whitePlayerId", UserId.toJson ⟨⟨0xFEDCBA98⟩⟩),
      ("turn", .str "black"),
      ("moves", .arr [.obj <| List.reverse [("player", .str "white"), ("from", .str "\"𝄞\\"),
        ("to", .str "\n"), ("winner", .obj [])]]),
      ("pieces", .arr [.obj <| List.reverse [("player", .str "black"), ("piece", .str "Q"),
        ("row", .ofNat 200), ("col", .ofNat 255)]]),
      ("status", .str "rejected"),
      ("note", .arr [.num ⟨true, 1, [2, 5], some (-3)⟩, .null, .obj [("turn", .bool true)]])]

theorem MatchRecord.odd_respells : Json.Respells odd.toJson oddSpelling := by
  refine .obj [("note", _)] (.keep _ (.same _) <| .drop _ <| .keep _ (.same _) <|
    .keep _ (.arr (.cons ?_ .nil)) <| .keep _ (.arr (.cons ?_ .nil)) <|
    .keep _ (.same _) <| .drop _ .nil) ?_ (List.reverse_perm _)
  · exact .obj [("winner", _)] (.refl _) (by simp) (List.reverse_perm _)
  · exact .obj [] (.refl _) (by simp) (List.reverse_perm _)
  · simp

theorem MatchRecord.oddSpelling_isWritable : oddSpelling.isWritable = true := by
  decide +kernel

theorem MatchRecord.ofText?_oddSpelling :
    Json.Respells odd.toJson oddSpelling ∧ oddSpelling.isWritable = true ∧
      Json.parse oddSpelling.text = some oddSpelling ∧
      ofText? oddSpelling.text = some odd := by
  have hparse := Json.parse_text oddSpelling_isWritable
  exact ⟨odd_respells, oddSpelling_isWritable, hparse,
    ((ofText?_of_respells odd).2 oddSpelling odd_respells).1 oddSpelling.text hparse⟩

end LiveChess
