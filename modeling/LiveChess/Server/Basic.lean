import LiveChess.Arbiter

/-! # The server

Sockets, the lobby of open connections, and the arbiter with its mailbox. Requests are queued and
handled one at a time in the order of queueing; notices reach only connections that are in the
lobby when they are sent.

A socket comes into the lobby first and queues its connecting after that; it leaves the lobby
first and queues its disconnecting after that, and then nothing more. Each of these is a step of
its own, so that steps of other sockets and the handling of requests may come between them. -/

namespace LiveChess

/-- How far a socket has come: in the lobby, its connecting queued, or out of the lobby again. A
socket that has queued its disconnecting is forgotten. -/
inductive Phase where
  | arriving
  | live
  | leaving
deriving DecidableEq, Repr

/-- A socket that is not yet forgotten. -/
structure Socket where
  user : UserId
  phase : Phase
deriving DecidableEq, Repr

/-- The state of the server. -/
structure Server where
  arbiter : Arbiter
  lobby : Connections
  mailbox : List Request
  sockets : SortedMap ConnectionId Socket
  issued : Nat

/-- A request that has been handled: its answer and the notices that reached somebody. -/
structure Reply where
  answer : Answer
  sent : List Delivery
deriving DecidableEq, Repr

namespace Server

/-- A server before its first request. -/
def new (store : Store) (budget : Duration) : Server := ⟨.new store budget, .empty, [], .empty, 0⟩

/-! ### The mailbox -/

/-- Queue a request. -/
def post (s : Server) (r : Request) : Server := { s with mailbox := s.mailbox ++ [r] }

/-- The connection is in the lobby. -/
def isOpen (s : Server) (c : ConnectionId) : Bool := s.lobby.ids.contains c

/-- Handle the next request. -/
def handleNext (s : Server) : Option (Reply × Server) :=
  match s.mailbox with
  | [] => none
  | r :: rest =>
    let h := s.arbiter.handle s.lobby r
    some (⟨h.answer, h.sent.filter fun d => s.isOpen d.recipient⟩,
      { s with arbiter := h.state, mailbox := rest })

/-- Handle up to a number of requests. -/
def handleUpTo : Nat → Server → List Reply × Server
  | 0, s => ([], s)
  | n + 1, s =>
    match s.handleNext with
    | none => ([], s)
    | some (reply, s) =>
      let (replies, s) := handleUpTo n s
      (reply :: replies, s)

/-- Handle all queued requests; handling queues nothing. -/
def drain (s : Server) : List Reply × Server := handleUpTo s.mailbox.length s

/-! ### Sockets -/

/-- A new socket comes into the lobby. -/
def arrive (s : Server) (u : UserId) : ConnectionId × Server :=
  let c : ConnectionId := ⟨s.issued⟩
  (c, { s with
    lobby := s.lobby.insert ⟨c, u⟩
    sockets := s.sockets.insert c ⟨u, .arriving⟩
    issued := s.issued + 1 })

/-- A socket that has arrived queues its connecting. -/
def announce (s : Server) (c : ConnectionId) : Server :=
  match s.sockets.get? c with
  | some ⟨u, .arriving⟩ =>
    { s with sockets := s.sockets.insert c ⟨u, .live⟩ }.post (.connect ⟨c, u⟩)
  | _ => s

/-- The request that a command makes. -/
def requestOf (c : Connection) : Command → Request
  | .showMoves id source => .showMoves c id source
  | .move id source target => .move c id source target

/-- A live socket queues the request of a command. -/
def submit (s : Server) (c : ConnectionId) (command : Command) : Server :=
  match s.sockets.get? c with
  | some ⟨u, .live⟩ => s.post (requestOf ⟨c, u⟩ command)
  | _ => s

/-- A live socket leaves the lobby. -/
def leave (s : Server) (c : ConnectionId) : Server :=
  match s.sockets.get? c with
  | some ⟨u, .live⟩ =>
    { s with lobby := s.lobby.erase ⟨c, u⟩, sockets := s.sockets.insert c ⟨u, .leaving⟩ }
  | _ => s

/-- A socket that has left queues its disconnecting and is forgotten. -/
def depart (s : Server) (c : ConnectionId) : Server :=
  match s.sockets.get? c with
  | some ⟨u, .leaving⟩ =>
    { s with sockets := s.sockets.erase c }.post (.disconnect ⟨c, u⟩)
  | _ => s

/-- The socket takes frames. -/
def isLive (s : Server) (c : ConnectionId) : Bool :=
  match s.sockets.get? c with
  | some ⟨_, .live⟩ => true
  | _ => false

end Server
end LiveChess
