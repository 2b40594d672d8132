import LiveChess.Ident
import LiveChess.Web.Percent

/-! # Targets and routes

The target of a request is a path and a query; neither a scheme and an authority before them nor a
fragment after them counts. Paths lead to the socket, to the matches, or to one match that a user
joins or watches. -/

namespace LiveChess.Web

/-- The sign before the query. -/
def queryMark : UInt8 := 63

/-- The sign before the fragment. -/
def fragmentMark : UInt8 := 35

/-- The sign after the scheme. -/
@[match_pattern] def colon : UInt8 := 58

/-- The sign between two fields of a query. -/
def ampersand : UInt8 := 38

/-- The sign between the name and the value of a field. -/
def equalSign : UInt8 := 61

/-- The path and the query of a request, still encoded. -/
structure Target where
  path : List UInt8
  query : List UInt8
deriving DecidableEq, Repr

/-- What a path leads to; the name of a match is still encoded. -/
inductive Route where
  | socket
  | newMatch
  | join (name : List UInt8)
  | watch (name : List UInt8)
deriving DecidableEq, Repr

/-- The parts of a list of bytes between separators. -/
def split (separator : UInt8) : List UInt8 → List (List UInt8)
  | [] => [[]]
  | b :: r =>
    if b = separator then [] :: split separator r
    else
      match split separator r with
      | [] => [[b]]
      | part :: parts => (b :: part) :: parts

/-- The bytes of a text. -/
def bytes (text : String) : List UInt8 := text.toUTF8.data.toList

/-- The text of bytes, if they are UTF-8. -/
def text? (bytes : List UInt8) : Option String := String.fromUTF8? ⟨bytes.toArray⟩

namespace Target

/-- A byte that may stand in a scheme: letters, digits and four signs. -/
def isSchemeByte (b : UInt8) : Bool :=
  let c := Char.ofNat b.toNat
  c.isAlphanum || c = '+' || c = '-' || c = '.' || c = '~'

/-- A target from its path on, without the scheme and the authority that it may start with. -/
def dropOrigin (whole : List UInt8) : List UInt8 :=
  match whole.dropWhile isSchemeByte with
  | colon :: Percent.slash :: Percent.slash :: r =>
    r.dropWhile fun b => b ≠ Percent.slash && b ≠ queryMark
  | _ => whole

/-- The target of a text: what comes before the path and the fragment after the query are cut off,
and the first query mark ends the path. -/
def ofText (text : String) : Target :=
  let whole := dropOrigin ((bytes text).takeWhile (· ≠ fragmentMark))
  ⟨whole.takeWhile (· ≠ queryMark), (whole.dropWhile (· ≠ queryMark)).tail⟩

/-- The fields of the query: names and values, decoded. -/
def fields (t : Target) : List (List UInt8 × List UInt8) :=
  ((split ampersand t.query).filter (· ≠ [])).map fun part =>
    (Percent.decodeQuery (part.takeWhile (· ≠ equalSign)),
      Percent.decodeQuery (part.dropWhile (· ≠ equalSign)).tail)

/-- The user that the query names, just once. -/
def user? (t : Target) : Option UserId :=
  match t.fields.filter fun field => decide (field.1 = bytes "userId") with
  | [(_, value)] => (text? value).bind UserId.ofText?
  | _ => none

end Target

namespace Route

/-- What a target leads to. -/
def ofTarget? (t : Target) : Option Route :=
  match (split Percent.slash (Percent.decodePath t.path)).map (fun part => (part, text? part)) with
  | [([], _), (_, some "ws")] => some socket
  | [([], _), (_, some "matches")] => some newMatch
  | [([], _), (_, some "matches"), (name, _), (_, some "join")] =>
    if name = [] then none else some (join name)
  | [([], _), (_, some "matches"), (name, _), (_, some "watch")] =>
    if name = [] then none else some (watch name)
  | _ => none

/-- The one method that a route takes. -/
def method : Route → String
  | socket => "GET"
  | _ => "POST"

/-- The match that a part of a path names. -/
def match? (name : List UInt8) : Option MatchId :=
  (text? (Percent.decodeAll name)).bind MatchId.ofText?

end Route
end LiveChess.Web
