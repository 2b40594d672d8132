import LiveChess.Hall
import LiveChess.Message

/-! # The arbiter

The arbiter handles one request at a time. It owns the hall and the store, and remembers which
matches a user watches without playing in them, so that a user who comes back sees them again. It
only reads who is connected; what it has to say it hands back as a list of notices with their
recipients, in the order of sending.

A finished match is set up to answer a request and cleared away at the end of that request,
whether it was refused or not. -/

namespace LiveChess

/-- What the arbiter is asked. -/
inductive Request where
  | connect (c : Connection)
  | disconnect (c : Connection)
  | showMoves (c : Connection) (id : MatchId) (source : String)
  | move (c : Connection) (id : MatchId) (source target : String)
  | join (id : MatchId) (user : UserId)
  | watch (id : MatchId) (user : UserId)
  | create (creator : UserId) (color : Color) (opponent : Option UserId)
deriving DecidableEq, Repr

/-- What the asker gets back, apart from notices. -/
inductive Answer where
  | done
  | created (id : MatchId)
  | refused (reason : Refusal)
deriving DecidableEq, Repr

/-- A notice and the connection it goes to. -/
structure Delivery where
  recipient : ConnectionId
  notice : Notice
deriving DecidableEq, Repr

/-- The hall, the store behind it and the matches each user watches. -/
structure Arbiter where
  hall : Hall
  store : Store
  watching : SortedMap UserId (SortedSet MatchId)

/-- What handling a request comes to. -/
structure Handled where
  answer : Answer
  sent : List Delivery
  state : Arbiter

namespace Arbiter

/-- An arbiter with nothing going on. -/
def new (store : Store) (budget : Duration) : Arbiter := ⟨.new budget, store, .empty⟩

/-- The matches a user watches. -/
def watched (a : Arbiter) (u : UserId) : SortedSet MatchId := (a.watching.get? u).getD .empty

/-- Send one notice to many. -/
def broadcast (recipients : List ConnectionId) (n : Notice) : List Delivery :=
  recipients.map fun c => ⟨c, n⟩

/-- Tell a connection why its request was refused. -/
def tellRefusal (c : Connection) (e : Refusal) : List Delivery := [⟨c.id, .refused e⟩]

/-- Find the table of a match. -/
def find (a : Arbiter) (id : MatchId) : Except Refusal Table × Arbiter :=
  match a.hall.find id a.store with
  | (r, hall, store) => (r, { a with hall := hall, store := store })

/-- Make a table's new state the one in use and clear it away if its match is over. -/
def settle (a : Arbiter) (t : Table) : Arbiter := { a with hall := (a.hall.update t).release t }

/-! ### Coming and going -/

/-- The matches a user sees on connecting: those with a seat and those watched, ascending. -/
def view (seated : List MatchId) (watched : SortedSet MatchId) : List MatchId :=
  (seated.foldl SortedMap.add watched).keys

/-- Show one match to a connection. -/
def showOne (c : Connection) (a : Arbiter) (id : MatchId) : List Delivery × Arbiter :=
  match a.find id with
  | (.error e, a) => (tellRefusal c e, a)
  | (.ok t, a) =>
    let t := t.connect c
    ([⟨c.id, .newBoard id t.snapshot⟩], a.settle t)

/-- Show matches to a connection, one after another. -/
def showAll (c : Connection) : List MatchId → Arbiter → List Delivery × Arbiter
  | [], a => ([], a)
  | id :: ids, a =>
    let (first, a) := showOne c a id
    let (rest, a) := showAll c ids a
    (first ++ rest, a)

/-- A connection came up. -/
def connect (a : Arbiter) (c : Connection) : Handled :=
  match a.hall.seated c.user a.store with
  | .error e => ⟨.done, tellRefusal c e, a⟩
  | .ok seated =>
    let (sent, a) := showAll c (view seated (a.watched c.user)) a
    ⟨.done, sent, a⟩

/-- A connection went away; with the user's last open one, what the user watches is forgotten. -/
def disconnect (a : Arbiter) (opened : Connections) (c : Connection) : Handled :=
  let tables := a.hall.tables.map fun _ t => t.disconnect c
  let watching :=
    if (opened.ofUser c.user).isEmpty then a.watching.erase c.user else a.watching
  ⟨.done, [], { a with hall := { a.hall with tables := tables }, watching := watching }⟩

/-! ### Requests on one match -/

/-- List the squares a man may go to. -/
def showMoves (a : Arbiter) (c : Connection) (id : MatchId) (source : String) : Handled :=
  match Square.parse source with
  | .error e => ⟨.done, tellRefusal c e, a⟩
  | .ok s =>
    match a.find id with
    | (.error e, a) => ⟨.done, tellRefusal c e, a⟩
    | (.ok t, a) =>
      let sent :=
        match t.game.movesFrom c.user s with
        | .ok squares => [⟨c.id, .validMoves id squares⟩]
        | .error e => tellRefusal c e
      ⟨.done, sent, a.settle t⟩

/-- The notices of a move: the move itself, then mate or check. -/
def moveNotices (id : MatchId) (o : MoveOutcome) (picture : Snapshot) : List Notice :=
  .pieceMoved id o.source o.target ::
    if o.checkmate then [.checkmate id picture]
    else if o.inCheck then [.inCheck id picture]
    else []

/-- Move a man. -/
def move (a : Arbiter) (c : Connection) (id : MatchId) (source target : String) : Handled :=
  match Square.parse source with
  | .error e => ⟨.done, tellRefusal c e, a⟩
  | .ok s =>
    match Square.parse target with
    | .error e => ⟨.done, tellRefusal c e, a⟩
    | .ok t =>
      match a.find id with
      | (.error e, a) => ⟨.done, tellRefusal c e, a⟩
      | (.ok table, a) =>
        match table.move c.user s t a.store with
        | (.error e, table, store) =>
          ⟨.done, tellRefusal c e, { a with store := store }.settle table⟩
        | (.ok o, table, store) =>
          let table := table.connect c
          let sent := (moveNotices id o table.snapshot).flatMap (broadcast table.followers.ids)
          let hall := a.hall.update table
          ⟨.done, sent,
            { a with store := store, hall := if o.checkmate then hall.clear id else hall }⟩

/-- Take a seat. -/
def join (a : Arbiter) (opened : Connections) (id : MatchId) (u : UserId) : Handled :=
  match a.find id with
  | (.error e, a) => ⟨.refused e, [], a⟩
  | (.ok t, a) =>
    match t.join u a.store with
    | (.error e, t, store) => ⟨.refused e, [], { a with store := store }.settle t⟩
    | (.ok _, t, store) =>
      let t := t.connectAll (opened.ofUser u)
      ⟨.done, broadcast t.followers.ids (.playerJoined id t.snapshot),
        { a with store := store, hall := a.hall.update t }⟩

/-- Watch a match: the watcher's own connections get the board, all others hear who came. -/
def watch (a : Arbiter) (opened : Connections) (id : MatchId) (u : UserId) : Handled :=
  match a.find id with
  | (.error e, a) => ⟨.refused e, [], a⟩
  | (.ok t, a) =>
    let own := opened.ofUser u
    let t := t.connectAll own
    let watching :=
      if own.isEmpty then a.watching else a.watching.insert u ((a.watched u).add id)
    let sent := t.followers.ids.map fun c =>
      if c ∈ own.map (·.id) then ⟨c, .newBoard id t.snapshot⟩ else ⟨c, .newWatcher id u⟩
    ⟨.done, sent, { a with watching := watching }.settle t⟩

/-- The seats of a new match. -/
def seatsOf (creator : UserId) (color : Color) (opponent : Option UserId) : Seats :=
  match color with
  | .white => ⟨some creator, opponent⟩
  | .black => ⟨opponent, some creator⟩

/-- Begin a match. -/
def create (a : Arbiter) (opened : Connections) (creator : UserId) (color : Color)
    (opponent : Option UserId) : Handled :=
  if opponent = some creator then
    ⟨.refused .alreadySeated, [], a⟩
  else
    let seats := seatsOf creator color opponent
    match a.hall.create (.fresh seats) a.store with
    | (.error e, hall, store) => ⟨.refused e, [], { a with hall := hall, store := store }⟩
    | (.ok t, hall, store) =>
      let players := seats.white.toList ++ seats.black.toList
      let t := t.connectAll (players.flatMap opened.ofUser)
      ⟨.created t.id, broadcast t.followers.ids (.newBoard t.id t.snapshot),
        { a with hall := hall.update t, store := store }⟩

/-- Handle one request while the given connections are open. -/
def handle (opened : Connections) (a : Arbiter) : Request → Handled
  | .connect c => a.connect c
  | .disconnect c => a.disconnect opened c
  | .showMoves c id source => a.showMoves c id source
  | .move c id source target => a.move c id source target
  | .join id u => a.join opened id u
  | .watch id u => a.watch opened id u
  | .create creator color opponent => a.create opened creator color opponent

end Arbiter
end LiveChess
