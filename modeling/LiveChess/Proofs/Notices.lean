import LiveChess.Proofs.Handling

/-! # What requests are answered with

The notices that a request sends are of few kinds, and the squares they name are squares of the
board: those a man may go to, those of an accepted move, and those of a move that was refused.
`Request.MaySay` lists the notices that a request may send, and `says_handle` is the one case
distinction by which everything about the notices of a single request is proved. -/

namespace LiveChess

/-- The squares in the wording of a refusal are on the board. -/
def Refusal.Legible : Refusal → Prop
  | .illegalMove s t => s.OnBoard ∧ t.OnBoard
  | _ => True

/-- The notices that a request may send. -/
inductive Request.MaySay (r : Request) : Notice → Prop where
  | newBoard (id : MatchId) (picture : Snapshot) : MaySay r (.newBoard id picture)
  | playerJoined (id : MatchId) (picture : Snapshot) : MaySay r (.playerJoined id picture)
  | newWatcher (id : MatchId) (u : UserId) : MaySay r (.newWatcher id u)
  | inCheck (id : MatchId) (picture : Snapshot) : MaySay r (.inCheck id picture)
  | checkmate (id : MatchId) (picture : Snapshot) : MaySay r (.checkmate id picture)
  | refused (e : Refusal) (he : e.Legible) : MaySay r (.refused e)
  | validMoves (id : MatchId) (squares : List Square) (hs : ∀ s ∈ squares, s.OnBoard) :
      MaySay r (.validMoves id squares)
  | pieceMoved (c : Connection) (id : MatchId) (source target : String) (s t : Square)
      (hr : r = .move c id source target) (hs : s.OnBoard) (ht : t.OnBoard) :
      MaySay r (.pieceMoved id s t)

/-! ### Refusals -/

theorem Square.onBoard_of_parse {text : String} {s : Square} (h : Square.parse text = .ok s) :
    s.OnBoard := by
  unfold parse at h
  cases hs : ofText? text with
  | none => rw [hs] at h; cases h
  | some s' =>
      rw [hs] at h
      cases h
      exact (ofText?_eq_some_iff.mp hs).1

theorem Square.legible_of_parse {text : String} {e : Refusal} (h : Square.parse text = .error e) :
    e.Legible := by
  unfold parse at h
  cases hs : ofText? text with
  | none => rw [hs] at h; cases h; trivial
  | some s => rw [hs] at h; cases h

namespace Game

variable {g : Game} {u : UserId} {s t : Square} {e : Refusal}

theorem legible_of_ofRecord {r : MatchRecord} (h : ofRecord r = .error e) : e.Legible := by
  unfold ofRecord at h
  simp only at h
  split at h
  · cases h
  · cases h
    trivial

theorem legible_of_checkPlayer (h : g.checkPlayer u = .error e) : e.Legible := by
  unfold checkPlayer at h
  cases hs : g.seats.seatOf u with
  | none => rw [hs] at h; cases h; trivial
  | some c =>
      rw [hs] at h
      simp only at h
      split_ifs at h <;> (cases h; trivial)

theorem legible_of_checkMover (h : g.checkMover u = .error e) : e.Legible := by
  unfold checkMover at h
  cases hp : g.checkPlayer u with
  | error e' =>
      rw [hp] at h
      simp only at h
      split_ifs at h
      · cases h; trivial
      · cases h; trivial
      · cases h; exact legible_of_checkPlayer hp
  | ok c =>
      rw [hp] at h
      simp only at h
      split_ifs at h <;> (cases h; trivial)

theorem legible_of_movesFrom (h : g.movesFrom u s = .error e) : e.Legible := by
  unfold movesFrom at h
  cases hp : g.checkPlayer u with
  | error e' =>
      rw [hp] at h
      cases h
      exact legible_of_checkPlayer hp
  | ok c => rw [hp] at h; cases h

theorem onBoard_of_movesFrom {squares : List Square} (h : g.movesFrom u s = .ok squares) :
    ∀ t ∈ squares, t.OnBoard := by
  unfold movesFrom at h
  cases hp : g.checkPlayer u with
  | error e' => rw [hp] at h; cases h
  | ok c =>
      rw [hp] at h
      cases h
      intro t ht
      unfold Board.movesFrom at ht
      cases hq : g.board.pieceAt s with
      | none => rw [hq] at ht; cases ht
      | some p =>
          rw [hq] at ht
          exact (Board.admits_spec (Board.admits_of_mem_moves ht)).1

/-- A refused move names no squares but its own. -/
theorem legible_of_move (hs : s.OnBoard) (ht : t.OnBoard) (h : g.move u s t = .error e) :
    e.Legible := by
  unfold move at h
  cases hm : g.checkMover u with
  | error e' =>
      rw [hm] at h
      cases h
      exact legible_of_checkMover hm
  | ok c =>
      rw [hm] at h
      simp only at h
      cases hp : g.board.pieceAt s with
      | none => rw [hp] at h; cases h; exact ⟨hs, ht⟩
      | some p =>
          rw [hp] at h
          simp only at h
          split_ifs at h
          · cases h
            exact ⟨hs, ht⟩
          · cases hq : g.board.play? p t with
            | none => rw [hq] at h; cases h; exact ⟨hs, ht⟩
            | some r => rw [hq] at h; cases h

end Game

namespace Arbiter

variable {a : Arbiter} {id : MatchId} {e : Refusal} {c : Connection} {u : UserId}
  {opened : Connections} {r : Request}

theorem legible_of_find (h : (a.find id).1 = .error e) : e.Legible := by
  unfold find Hall.find at h
  cases ht : a.hall.tables.get? id with
  | some t => rw [ht] at h; cases h
  | none =>
      rw [ht] at h
      simp only at h
      generalize a.store.load id a.hall.budget = x at h
      obtain ⟨e' | r, s⟩ := x
      · cases h
        cases e' <;> trivial
      · simp only [Hall.setUp, Table.setUp] at h
        cases hg : Game.ofRecord r with
        | error e' =>
            simp only [hg] at h
            cases h
            exact Game.legible_of_ofRecord hg
        | ok g => simp only [hg] at h; cases h

/-- A refused move at a table is refused by the game, or by the store. -/
theorem legible_of_tableMove {t : Table} {s s' : Square} {store : Store} (hs : s.OnBoard)
    (hs' : s'.OnBoard) (h : (t.move u s s' store).1 = .error e) : e.Legible := by
  unfold Table.move at h
  cases hm : t.game.move u s s' with
  | error e' =>
      rw [hm] at h
      cases h
      exact Game.legible_of_move hs hs' hm
  | ok r =>
      obtain ⟨o, next⟩ := r
      rw [hm] at h
      simp only [Table.commit] at h
      generalize store.save t.id next.toRecord t.budget = y at h
      obtain ⟨e' | v, store'⟩ := y
      · cases h
        trivial
      · cases h

/-! ### Notices -/

/-- The request may send all of this. -/
def Says (r : Request) (sent : List Delivery) : Prop := ∀ d ∈ sent, r.MaySay d.notice

theorem says_nil (r : Request) : Says r [] := fun _ h => absurd h List.not_mem_nil

theorem says_singleton {i : ConnectionId} {n : Notice} (h : r.MaySay n) : Says r [⟨i, n⟩] := by
  intro d hd
  rw [List.mem_singleton.mp hd]
  exact h

theorem says_broadcast {n : Notice} (h : r.MaySay n) (l : List ConnectionId) :
    Says r (broadcast l n) := by
  intro d hd
  obtain ⟨i, -, rfl⟩ := List.mem_map.mp hd
  exact h

theorem says_showOne (r : Request) (c : Connection) (a : Arbiter) (id : MatchId) :
    Says r (showOne c a id).1 := by
  have hfind : ∀ e, (a.find id).1 = .error e → e.Legible := fun e => legible_of_find
  unfold showOne
  generalize a.find id = x at hfind ⊢
  obtain ⟨e | t, a'⟩ := x
  · exact says_singleton (.refused e (hfind e rfl))
  · exact says_singleton (.newBoard id _)

theorem says_showAll (r : Request) (c : Connection) (ids : List MatchId) (a : Arbiter) :
    Says r (showAll c ids a).1 := by
  induction ids generalizing a with
  | nil => exact says_nil r
  | cons id ids ih =>
      intro d hd
      have hd' : d ∈ (showOne c a id).1 ++ (showAll c ids (showOne c a id).2).1 := hd
      rcases List.mem_append.mp hd' with hd' | hd'
      · exact says_showOne r c a id d hd'
      · exact ih (showOne c a id).2 d hd'

theorem says_showMoves (r : Request) (a : Arbiter) (c : Connection) (id : MatchId)
    (source : String) : Says r (a.showMoves c id source).sent := by
  unfold showMoves
  cases hs : Square.parse source with
  | error e => exact says_singleton (.refused e (Square.legible_of_parse hs))
  | ok s =>
      have hfind : ∀ e, (a.find id).1 = .error e → e.Legible := fun e => legible_of_find
      simp only
      generalize a.find id = x at hfind ⊢
      obtain ⟨e | t, a'⟩ := x
      · exact says_singleton (.refused e (hfind e rfl))
      · simp only
        cases hm : t.game.movesFrom c.user s with
        | error e => exact says_singleton (.refused e (Game.legible_of_movesFrom hm))
        | ok squares => exact says_singleton (.validMoves id squares (Game.onBoard_of_movesFrom hm))

theorem says_move (a : Arbiter) (c : Connection) (id : MatchId) (source target : String) :
    Says (.move c id source target) (a.move c id source target).sent := by
  unfold move
  cases hs : Square.parse source with
  | error e => exact says_singleton (.refused e (Square.legible_of_parse hs))
  | ok s =>
      cases ht : Square.parse target with
      | error e => exact says_singleton (.refused e (Square.legible_of_parse ht))
      | ok s' =>
          have hs := Square.onBoard_of_parse hs
          have hs' := Square.onBoard_of_parse ht
          have hfind : ∀ e, (a.find id).1 = .error e → e.Legible := fun e => legible_of_find
          simp only
          generalize a.find id = x at hfind ⊢
          obtain ⟨e | t, a'⟩ := x
          · exact says_singleton (.refused e (hfind e rfl))
          · have hsteps := t.move_steps c.user s s' a'.store
            have hrefused : ∀ e, (t.move c.user s s' a'.store).1 = .error e → e.Legible :=
              fun e => legible_of_tableMove hs hs'
            simp only
            generalize t.move c.user s s' a'.store = y at hsteps hrefused ⊢
            cases hsteps with
            | refused e n => exact says_singleton (.refused e (hrefused e rfl))
            | done o next h =>
                obtain ⟨rfl, rfl, -⟩ := Game.log_of_move h
                intro d hd
                obtain ⟨n, hn, hd⟩ := List.mem_flatMap.mp hd
                refine says_broadcast ?_ _ d hd
                unfold moveNotices at hn
                rcases List.mem_cons.mp hn with rfl | hn
                · exact .pieceMoved c id source target _ _ rfl hs hs'
                · split_ifs at hn
                  · rw [List.mem_singleton.mp hn]
                    exact .checkmate id _
                  · rw [List.mem_singleton.mp hn]
                    exact .inCheck id _
                  · exact absurd hn List.not_mem_nil

/-- No request sends anything else. -/
theorem says_handle (a : Arbiter) (opened : Connections) (r : Request) :
    Says r (a.handle opened r).sent := by
  cases r with
  | connect c =>
      show Says _ (a.connect c).sent
      unfold connect Hall.seated
      cases a.store.seated c.user a.hall.budget with
      | error e => exact says_singleton (.refused _ trivial)
      | ok ids => exact says_showAll _ c _ a
  | disconnect c => exact says_nil _
  | showMoves c id source => exact says_showMoves _ a c id source
  | move c id source target => exact says_move a c id source target
  | join id u =>
      show Says _ (a.join opened id u).sent
      rw [join_eq]
      generalize a.attend id _ = x
      obtain ⟨e | e | t, x⟩ := x
      · exact says_nil _
      · exact says_nil _
      · exact says_broadcast (.playerJoined id _) _
  | watch id u =>
      show Says _ (a.watch opened id u).sent
      rw [watch_eq]
      generalize a.attend id _ = x
      obtain ⟨e | t, x⟩ := x
      · exact says_nil _
      · intro d hd
        obtain ⟨i, -, rfl⟩ := List.mem_map.mp hd
        split_ifs
        · exact .newBoard id _
        · exact .newWatcher id u
  | create creator color opponent =>
      show Says _ (a.create opened creator color opponent).sent
      unfold create
      split_ifs
      · exact says_nil _
      · simp only
        split
        · exact says_nil _
        · exact says_broadcast (.newBoard _ _) _

end Arbiter
end LiveChess
