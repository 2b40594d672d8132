import LiveChess.Server.Sockets
import LiveChess.Web.Target
import LiveChess.Wire.Notice

/-! # Requests over HTTP

A request is checked in a fixed order: its path, its method, the match that the path names, its
body. Only then is it passed on, and its answer becomes the response. -/

namespace LiveChess

namespace Web

/-- A request: the body is left out if there is none, and of the headers only names count. -/
structure Ask where
  method : String
  target : String
  headers : List String
  body : Option String
deriving DecidableEq, Repr

/-- A response; the body is left out if there is none, or if it is not JSON. -/
structure Response where
  status : Nat
  body : Option Json

/-- A response of a status alone. -/
def Response.bare (status : Nat) : Response := ⟨status, none⟩

/-- The headers that ask for a socket. -/
def handshake : List String :=
  ["connection", "upgrade", "sec-websocket-version", "sec-websocket-key"]

/-- Read the request for a new match. -/
def newMatch? (body : Json) : Option (UserId × Color × Option UserId) :=
  match body.fields? ["creatorId", "color", "opponentId"] with
  | some [creator, color, opponent] => do
    let creator ← Json.required? UserId.ofJson? creator
    let color ← Json.required? Color.ofJson? color
    let opponent ← Json.optional? UserId.ofJson? opponent
    some (creator, color, opponent)
  | _ => none

/-- Read the request of a user who joins or watches. -/
def seatTaker? (body : Json) : Option UserId :=
  match body.fields? ["userId"] with
  | some [user] => Json.required? UserId.ofJson? user
  | _ => none

/-- Read a body. -/
def read? {α : Type} (f : Json → Option α) (body : Option String) : Option α :=
  body.bind fun text => (Json.parse text).bind f

/-- What a request that passes all checks comes to: a new socket or a request to the arbiter. -/
inductive Passed where
  | socket (user : UserId)
  | request (r : Request)
deriving DecidableEq, Repr

/-- Check a request; one that fails a check gets the status of the first check it fails. -/
def check (a : Ask) : Except Nat Passed :=
  let target := Target.ofText a.target
  match Route.ofTarget? target with
  | none => .error 404
  | some route =>
    if a.method ≠ route.method then
      .error 405
    else
      match route with
      | .socket =>
        match target.user? with
        | none => .error 400
        | some user => if handshake.all a.headers.contains then .ok (.socket user) else .error 400
      | .newMatch =>
        match read? newMatch? a.body with
        | none => .error 400
        | some (creator, color, opponent) => .ok (.request (.create creator color opponent))
      | .join name =>
        match Route.match? name with
        | none => .error 404
        | some id =>
          match read? seatTaker? a.body with
          | none => .error 400
          | some user => .ok (.request (.join id user))
      | .watch name =>
        match Route.match? name with
        | none => .error 404
        | some id =>
          match read? seatTaker? a.body with
          | none => .error 400
          | some user => .ok (.request (.watch id user))

/-- The response to a request that was handled. -/
def Response.ofAnswer : Answer → Response
  | .done => .bare 204
  | .created id => ⟨201, some (.obj [("matchId", id.toJson)])⟩
  | .refused e => ⟨e.httpStatus, some (messageToJson e.message)⟩

end Web

namespace Server

open Web (Ask Response Passed)

/-- What a request over HTTP comes to. -/
structure Exchange where
  response : Response
  sent : List Sent
  state : Server

/-- Queue a request, handle all that is queued, and respond with the last answer, which is the one
to the request. -/
def ask (s : Server) (r : Request) : Exchange :=
  let (replies, s) := (s.post r).drain
  let response :=
    match replies.getLast? with
    | some reply => Response.ofAnswer reply.answer
    | none => .bare 503
  ⟨response, signals replies, s⟩

/-- Serve a request. -/
def serve (s : Server) (a : Ask) : Exchange :=
  match Web.check a with
  | .error status => ⟨.bare status, [], s⟩
  | .ok (.socket user) =>
    let (sent, s) := s.openSocket user
    ⟨.bare 101, sent, s⟩
  | .ok (.request r) => s.ask r

end Server
end LiveChess
