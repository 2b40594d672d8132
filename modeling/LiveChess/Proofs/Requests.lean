import LiveChess.Proofs.Notices
import LiveChess.Proofs.Standing

/-! # What a request does to one match

Every request leaves a standing match standing, or ends it by mate; `Stands.handle` lists the ways
it may go, with the table afterwards and what is sent.  A match that is over stays over
(`Over.handle`).  Requests on other matches change nothing (`agreesOff_handle`) and tell nothing of
its moves (`quiet_handle`). -/

namespace LiveChess

/-- The move of a match that a notice tells, as text. -/
def Notice.moveOf? (m : MatchId) : Notice → Option (String × String)
  | .pieceMoved id source target => if id = m then some (source.text, target.text) else none
  | _ => none

/-- The notice tells of a refusal. -/
def Notice.isRefusal : Notice → Bool
  | .refused _ => true
  | _ => false

/-- The asker is told that the request was refused. -/
def Handled.refuses (x : Handled) : Bool := x.sent.any fun d => d.notice.isRefusal

/-- The match that a request is about. -/
def Request.about : Request → Option MatchId
  | .showMoves _ id _ => some id
  | .move _ id _ _ => some id
  | .join id _ => some id
  | .watch id _ => some id
  | _ => none

/-- The request asks for a new match. -/
def Request.creates : Request → Bool
  | .create _ _ _ => true
  | _ => false

/-- All squares that the request names can be read. -/
def Request.legible : Request → Bool
  | .showMoves _ _ source => (Square.ofText? source).isSome
  | .move _ _ source target => (Square.ofText? source).isSome && (Square.ofText? target).isSome
  | _ => true

/-- The connections that may come to follow a match by the request. -/
def Request.newcomers (opened : Connections) : Request → List Connection
  | .connect c => [c]
  | .disconnect _ => []
  | .showMoves _ _ _ => []
  | .move c _ _ _ => [c]
  | .join _ u => opened.ofUser u
  | .watch _ u => opened.ofUser u
  | .create creator _ opponent => (creator :: opponent.toList).flatMap opened.ofUser

/-- The request is a move in the match. -/
def Request.movesIn (m : MatchId) : Request → Bool
  | .move _ id _ _ => id = m
  | _ => false

namespace Arbiter

variable {a : Arbiter} {id m : MatchId} {t : Table} {g : Game} {c : Connection} {u : UserId}
  {opened : Connections} {r : Request}

/-! ### What is told -/

/-- Nothing that is sent tells a move of the match. -/
def Quiet (m : MatchId) (sent : List Delivery) : Prop := ∀ d ∈ sent, d.notice.moveOf? m = none

theorem quiet_nil (m : MatchId) : Quiet m [] := fun _ h => absurd h (List.not_mem_nil)

theorem quiet_tellRefusal (m : MatchId) (c : Connection) (e : Refusal) :
    Quiet m (tellRefusal c e) := by
  intro d hd
  rw [List.mem_singleton.mp hd]
  rfl

theorem quiet_broadcast {n : Notice} (hn : n.moveOf? m = none) (l : List ConnectionId) :
    Quiet m (broadcast l n) := by
  intro d hd
  obtain ⟨i, -, rfl⟩ := List.mem_map.mp hd
  exact hn

/-- Only a move in the match tells a move of the match. -/
theorem quiet_handle (a : Arbiter) (opened : Connections) (hr : r.movesIn m = false) :
    Quiet m (a.handle opened r).sent := by
  rintro ⟨i, n⟩ hd
  have hsays : r.MaySay n := says_handle a opened r ⟨i, n⟩ hd
  cases hsays with
  | pieceMoved c id source target s t hmove =>
      subst hmove
      have hid : id ≠ m := by simpa [Request.movesIn] using hr
      exact if_neg hid
  | _ => rfl

/-! ### Requests on one match leave the others alone -/

theorem AgreesOff.refl (hk : a.hall.Keyed) (id : MatchId) : AgreesOff id a a :=
  ⟨hk, fun _ _ => rfl, fun _ _ => rfl⟩

theorem agreesOff_showOne (hk : a.hall.Keyed) (c : Connection) (id : MatchId) :
    AgreesOff id a (showOne c a id).2 := by
  rw [state_showOne]
  exact attend_agreesOff hk id _ (followAct_acted [c])

/-- A request on a match attends to it, unless it names a square that cannot be read; it may change
what is watched besides. -/
theorem state_handle_about (hk : a.hall.Keyed) (opened : Connections) (hr : r.about = some id) :
    r.legible = false ∧ (a.handle opened r).state = a ∨
      r.legible = true ∧ ∃ (β : Type) (act : Table → Store → β × Table × Store)
        (watching : SortedMap UserId (SortedSet MatchId)),
        (∀ t s, Acted (r.newcomers opened) t s (act t s).2) ∧
        (a.handle opened r).state = { (a.attend id act).2 with watching := watching } := by
  have hself : ∀ {β : Type} (act : Table → Store → β × Table × Store),
      (a.attend id act).2 = { (a.attend id act).2 with watching := a.watching } := by
    intro β act
    rw [← a.attend_watching id act]
  cases r with
  | connect c => cases hr
  | disconnect c => cases hr
  | create creator color opponent => cases hr
  | showMoves c id' source =>
      cases hr
      cases hs : Square.ofText? source with
      | none =>
          refine .inl ⟨by simp [Request.legible, hs], ?_⟩
          show (a.showMoves c id source).state = a
          simp only [showMoves_eq, Square.parse, hs]
      | some s =>
          refine .inr ⟨by simp [Request.legible, hs], _, showAct c.user s, a.watching,
            showAct_acted c.user s, ?_⟩
          rw [← hself]
          show (a.showMoves c id source).state = _
          simp only [showMoves_eq, Square.parse, hs]
          generalize a.attend id (showAct c.user s) = x
          obtain ⟨e | e | squares, x⟩ := x <;> rfl
  | move c id' source target =>
      cases hr
      cases hs : Square.ofText? source with
      | none =>
          refine .inl ⟨by simp [Request.legible, hs], ?_⟩
          show (a.move c id source target).state = a
          simp only [move_eq hk, Square.parse, hs]
      | some s =>
          cases ht : Square.ofText? target with
          | none =>
              refine .inl ⟨by simp [Request.legible, ht], ?_⟩
              show (a.move c id source target).state = a
              simp only [move_eq hk, Square.parse, hs, ht]
          | some s' =>
              refine .inr ⟨by simp [Request.legible, hs, ht], _, moveAct c s s', a.watching,
                moveAct_acted c s s', ?_⟩
              rw [← hself]
              show (a.move c id source target).state = _
              simp only [move_eq hk, Square.parse, hs, ht]
              generalize a.attend id (moveAct c s s') = x
              obtain ⟨e | e | o, x⟩ := x <;> rfl
  | join id' u =>
      cases hr
      refine .inr ⟨rfl, _, joinAct (opened.ofUser u) u, a.watching,
        joinAct_acted (opened.ofUser u) u, ?_⟩
      rw [← hself]
      exact a.state_join opened id u
  | watch id' u =>
      cases hr
      obtain ⟨watching, hs⟩ := a.state_watch opened id u
      exact .inr ⟨rfl, _, followAct (opened.ofUser u), watching,
        followAct_acted (opened.ofUser u), hs⟩

theorem agreesOff_handle (hk : a.hall.Keyed) (opened : Connections) (hr : r.about = some id) :
    AgreesOff id a (a.handle opened r).state := by
  rcases state_handle_about hk opened hr with ⟨-, hs⟩ | ⟨-, β, act, watching, hact, hs⟩
  · rw [hs]
    exact .refl hk id
  · have h := attend_agreesOff hk id act hact
    rw [hs]
    exact ⟨h.keyed, h.tables, h.records⟩

/-- A request is about another match, or if it is about a match at all then about this one. -/
theorem about_cases (r : Request) (m : MatchId) :
    (∃ id, r.about = some id ∧ id ≠ m) ∨ ∀ id, r.about = some id → id = m := by
  by_cases h : ∃ id, r.about = some id ∧ id ≠ m
  · exact .inl h
  · refine .inr fun id hid => ?_
    by_contra hne
    exact h ⟨id, hid, hne⟩

/-- What is kept by showing one match to a connection is kept by showing several. -/
theorem showAll_keeps {P : Arbiter → Prop} {c : Connection}
    (hone : ∀ a id, P a → P (showOne c a id).2) (ids : List MatchId) (h : P a) :
    P (showAll c ids a).2 := by
  induction ids generalizing a with
  | nil => exact h
  | cons id ids ih => exact ih (hone a id h)

end Arbiter
end LiveChess
