import LiveChess.Server.Basic
import LiveChess.Web.Frame
import LiveChess.Wire.Command

/-! # Sockets of the server

Text that reads as a command is queued and all other text is ignored; a ping is echoed in a pong.
A sound close frame is echoed and ends the stream; a frame that breaks the rules just ends it. -/

namespace LiveChess.Server

open Web (Frame Signal)

/-- A signal and the socket it goes over. -/
structure Sent where
  recipient : ConnectionId
  signal : Signal
deriving DecidableEq, Repr

/-- End the stream of a socket. -/
def hangUp (s : Server) (c : ConnectionId) : Server := (s.leave c).depart c

/-- The frames get through: all do while the stream lasts, and a client whose stream has ended can
still hang up. -/
def reaches (s : Server) (c : ConnectionId) (fs : List Frame) : Bool :=
  s.isLive c || decide (fs = [.hangUp])

/-- Take one frame from a socket, and give what is sent back at once. -/
def take (s : Server) (c : ConnectionId) (f : Frame) : List Signal × Server :=
  if !s.isLive c then
    ([], s)
  else if !f.isSound then
    ([.ended], s.hangUp c)
  else
    match f with
    | .text payload =>
      match Command.ofText? payload with
      | some command => ([], s.submit c command)
      | none => ([], s)
    | .binary _ => ([], s)
    | .ping payload => ([.pong payload], s)
    | .pong _ => ([], s)
    | .close code => ([.close code, .ended], s.hangUp c)
    | .fragment => ([.ended], s.hangUp c)
    | .garbled => ([.ended], s.hangUp c)
    | .hangUp => ([.ended], s.hangUp c)

/-- Take frames from a socket, one after another. -/
def takeAll (c : ConnectionId) : List Frame → Server → List Signal × Server
  | [], s => ([], s)
  | f :: fs, s =>
    let (first, s) := s.take c f
    let (rest, s) := takeAll c fs s
    (first ++ rest, s)

/-- The notices of replies, as signals. -/
def signals (replies : List Reply) : List Sent :=
  replies.flatMap fun r => r.sent.map fun d => ⟨d.recipient, .notice d.notice⟩

/-- Take frames that arrive together, and handle all they ask. -/
def receive (s : Server) (c : ConnectionId) (fs : List Frame) : List Sent × Server :=
  let (echoes, s) := takeAll c fs s
  let (replies, s) := s.drain
  (echoes.map (⟨c, ·⟩) ++ signals replies, s)

/-- Open a socket for a user, and show the user's matches. -/
def openSocket (s : Server) (u : UserId) : List Sent × Server :=
  let (c, s) := s.arrive u
  let (replies, s) := (s.announce c).drain
  (signals replies, s)

end LiveChess.Server
