import LiveChess.Arbiter
import LiveChess.Proofs.LifeCycle
import LiveChess.Proofs.TableSteps

/-! # How the arbiter handles requests

Every request on one match finds the table of the match, lets it act and settles it: `attend` is
this pattern, and `showMoves_eq`, `move_eq`, `join_eq`, `watch_eq` and `showOne_eq` bring the
requests into its form.  `attend_agreesOff` says that it leaves all other matches alone. -/

namespace LiveChess

/-- Every table stands under the name of its own match. -/
def Hall.Keyed (h : Hall) : Prop := ∀ id t, h.tables.get? id = some t → t.id = id

namespace Arbiter

variable {β : Type} {a : Arbiter} {id m : MatchId} {t : Table}

/-! ### Finding a table -/

/-- How the search for a table may end. -/
inductive Finds (a : Arbiter) (id : MatchId) : Except Refusal Table × Arbiter → Prop where
  | held (t : Table) (h : a.hall.tables.get? id = some t) : Finds a id (.ok t, a)
  | refused (e : Refusal) (h : a.hall.tables.get? id = none) :
      Finds a id (.error e, { a with store := { a.store with loads := a.store.loads + 1 } })
  | loaded (r : MatchRecord) (g : Game) (h : a.hall.tables.get? id = none)
      (hr : a.store.records.get? id = some r) (hg : Game.ofRecord r = .ok g) :
      Finds a id (.ok ⟨id, a.hall.issued, a.hall.budget, g, .empty⟩,
        { a with
          hall := { a.hall with
            tables := a.hall.tables.insert id ⟨id, a.hall.issued, a.hall.budget, g, .empty⟩
            issued := a.hall.issued + 1 }
          store := { a.store with loads := a.store.loads + 1 } })

theorem find_finds (a : Arbiter) (id : MatchId) : Finds a id (a.find id) := by
  unfold find Hall.find
  cases ht : a.hall.tables.get? id with
  | some t => exact .held t ht
  | none =>
      unfold Store.load
      simp only
      cases Store.hindrance (a.store.outage.load id) a.hall.budget with
      | some e => exact .refused _ ht
      | none =>
          simp only
          cases hr : a.store.records.get? id with
          | none => exact .refused _ ht
          | some r =>
              simp only [Hall.setUp, Table.setUp]
              cases hg : Game.ofRecord r with
              | error e => exact .refused _ ht
              | ok g => exact .loaded r g ht hr hg

theorem find_of_held (ht : a.hall.tables.get? id = some t) : a.find id = (.ok t, a) := by
  unfold find Hall.find
  rw [ht]

/-- A found table belongs to the match that was asked for. -/
theorem Finds.id_eq (hk : a.hall.Keyed) {x : Except Refusal Table × Arbiter} (h : Finds a id x)
    (ht : x.1 = .ok t) : t.id = id := by
  cases h with
  | held t' h => cases ht; exact hk id _ h
  | refused e h => cases ht
  | loaded r g h hr hg => cases ht; rfl

theorem settle_of_open (a : Arbiter) (h : t.game.status ≠ .closed) :
    a.settle t = { a with hall := a.hall.update t } := by
  rw [settle, Hall.release, if_neg h]

theorem settle_of_closed (a : Arbiter) (h : t.game.status = .closed) :
    a.settle t = { a with hall := (a.hall.update t).clear t.id } := by
  rw [settle, Hall.release, if_pos h]

/-! ### Attending to a match -/

/-- Find the table of a match, let it act and settle it. -/
def attend (a : Arbiter) (id : MatchId) (act : Table → Store → β × Table × Store) :
    Except Refusal β × Arbiter :=
  match a.find id with
  | (.error e, a) => (.error e, a)
  | (.ok t, a) =>
    match act t a.store with
    | (r, t, s) => (.ok r, { a with store := s }.settle t)

/-- What a table answers to a move, the mover following from then on if it is accepted. -/
def moveAct (c : Connection) (source target : Square) (t : Table) (s : Store) :
    Except Refusal (MoveOutcome × Table) × Table × Store :=
  match t.move c.user source target s with
  | (.error e, t, s) => (.error e, t, s)
  | (.ok o, t, s) => (.ok (o, t.connect c), t.connect c, s)

/-- What a table answers to a join, the player's connections following from then on. -/
def joinAct (own : List Connection) (u : UserId) (t : Table) (s : Store) :
    Except Refusal Table × Table × Store :=
  match t.join u s with
  | (.error e, t, s) => (.error e, t, s)
  | (.ok _, t, s) => (.ok (t.connectAll own), t.connectAll own, s)

/-- A table lists the squares a man may go to. -/
def showAct (u : UserId) (source : Square) (t : Table) (s : Store) :
    Except Refusal (List Square) × Table × Store := (t.game.movesFrom u source, t, s)

/-- A table takes on followers. -/
def followAct (own : List Connection) (t : Table) (s : Store) : Table × Table × Store :=
  (t.connectAll own, t.connectAll own, s)

theorem showMoves_eq (a : Arbiter) (c : Connection) (id : MatchId) (source : String) :
    a.showMoves c id source =
      match Square.parse source with
      | .error e => ⟨.done, tellRefusal c e, a⟩
      | .ok s =>
        match a.attend id (showAct c.user s) with
        | (.error e, a) => ⟨.done, tellRefusal c e, a⟩
        | (.ok (.error e), a) => ⟨.done, tellRefusal c e, a⟩
        | (.ok (.ok squares), a) => ⟨.done, [⟨c.id, .validMoves id squares⟩], a⟩ := by
  unfold showMoves attend showAct
  cases Square.parse source with
  | error e => rfl
  | ok s =>
      simp only
      generalize a.find id = x
      obtain ⟨r, a⟩ := x
      cases r with
      | error e => rfl
      | ok t =>
          simp only
          cases t.game.movesFrom c.user s <;> rfl

theorem watch_eq (a : Arbiter) (opened : Connections) (id : MatchId) (u : UserId) :
    a.watch opened id u =
      match a.attend id (followAct (opened.ofUser u)) with
      | (.error e, a) => ⟨.refused e, [], a⟩
      | (.ok t, a) =>
        ⟨.done, t.followers.ids.map fun c =>
            if c ∈ (opened.ofUser u).map (·.id) then ⟨c, .newBoard id t.snapshot⟩
            else ⟨c, .newWatcher id u⟩,
          { a with watching :=
              if (opened.ofUser u).isEmpty then a.watching
              else a.watching.insert u ((a.watched u).add id) }⟩ := by
  unfold watch attend
  generalize a.find id = x
  obtain ⟨r, a⟩ := x
  cases r <;> rfl

theorem showOne_eq (c : Connection) (a : Arbiter) (id : MatchId) :
    showOne c a id =
      match a.attend id (followAct [c]) with
      | (.error e, a) => (tellRefusal c e, a)
      | (.ok t, a) => ([⟨c.id, .newBoard id t.snapshot⟩], a) := by
  unfold showOne attend
  generalize a.find id = x
  obtain ⟨r, a⟩ := x
  cases r <;> rfl

/-- A match that was joined is not over, so settling its table only updates it. -/
theorem join_eq (a : Arbiter) (opened : Connections) (id : MatchId) (u : UserId) :
    a.join opened id u =
      match a.attend id (joinAct (opened.ofUser u) u) with
      | (.error e, a) => ⟨.refused e, [], a⟩
      | (.ok (.error e), a) => ⟨.refused e, [], a⟩
      | (.ok (.ok t), a) =>
        ⟨.done, broadcast t.followers.ids (.playerJoined id t.snapshot), a⟩ := by
  unfold join attend joinAct
  generalize a.find id = x
  obtain ⟨r, a⟩ := x
  cases r with
  | error e => rfl
  | ok t =>
      have h := t.join_steps u a.store
      simp only
      generalize t.join u a.store = y at h ⊢
      cases h with
      | refused e n => rfl
      | done c next h =>
          simp only
          rw [settle_of_open]
          rw [Table.connectAll_game]
          exact Game.status_of_join h

/-- A move ends the match exactly when it mates, so settling its table clears it away then. -/
theorem move_eq (hk : a.hall.Keyed) (c : Connection) (id : MatchId) (source target : String) :
    a.move c id source target =
      match Square.parse source with
      | .error e => ⟨.done, tellRefusal c e, a⟩
      | .ok s =>
        match Square.parse target with
        | .error e => ⟨.done, tellRefusal c e, a⟩
        | .ok t =>
          match a.attend id (moveAct c s t) with
          | (.error e, a) => ⟨.done, tellRefusal c e, a⟩
          | (.ok (.error e), a) => ⟨.done, tellRefusal c e, a⟩
          | (.ok (.ok (o, table)), a) =>
            ⟨.done, (moveNotices id o table.snapshot).flatMap
              (broadcast table.followers.ids), a⟩ := by
  unfold move attend moveAct
  cases Square.parse source with
  | error e => rfl
  | ok s =>
      cases Square.parse target with
      | error e => rfl
      | ok t =>
          have hid := fun t => (a.find_finds id).id_eq (t := t) hk
          simp only
          generalize a.find id = x at hid ⊢
          obtain ⟨r, a⟩ := x
          cases r with
          | error e => rfl
          | ok table =>
              have h := table.move_steps c.user s t a.store
              simp only
              generalize table.move c.user s t a.store = y at h ⊢
              cases h with
              | refused e n => rfl
              | done o next h =>
                  have hmate := Game.status_of_move h
                  have hid' : table.id = id := hid table rfl
                  simp only
                  cases ho : o.checkmate with
                  | true =>
                      rw [settle_of_closed _ (hmate.mpr ho)]
                      simp only [if_true, ← hid']
                      rfl
                  | false =>
                      rw [settle_of_open]
                      · rfl
                      · show ¬ next.status = .closed
                        rw [hmate, ho]
                        simp

/-! ### The state after a request -/

theorem state_showOne (c : Connection) (a : Arbiter) (id : MatchId) :
    (showOne c a id).2 = (a.attend id (followAct [c])).2 := by
  rw [showOne_eq]
  generalize a.attend id (followAct [c]) = x
  obtain ⟨e | t, x⟩ := x <;> rfl

theorem state_showMoves (a : Arbiter) (c : Connection) (id : MatchId) (source : String) :
    (a.showMoves c id source).state = a ∨
      ∃ s, (a.showMoves c id source).state = (a.attend id (showAct c.user s)).2 := by
  rw [showMoves_eq]
  cases Square.parse source with
  | error e => exact .inl rfl
  | ok s =>
      refine .inr ⟨s, ?_⟩
      simp only
      generalize a.attend id (showAct c.user s) = x
      obtain ⟨e | e | squares, x⟩ := x <;> rfl

theorem state_move (hk : a.hall.Keyed) (c : Connection) (id : MatchId) (source target : String) :
    (a.move c id source target).state = a ∨
      ∃ s s', (a.move c id source target).state = (a.attend id (moveAct c s s')).2 := by
  rw [move_eq hk]
  cases Square.parse source with
  | error e => exact .inl rfl
  | ok s =>
      cases Square.parse target with
      | error e => exact .inl rfl
      | ok s' =>
          refine .inr ⟨s, s', ?_⟩
          simp only
          generalize a.attend id (moveAct c s s') = x
          obtain ⟨e | e | o, x⟩ := x <;> rfl

theorem state_join (a : Arbiter) (opened : Connections) (id : MatchId) (u : UserId) :
    (a.join opened id u).state = (a.attend id (joinAct (opened.ofUser u) u)).2 := by
  rw [join_eq]
  generalize a.attend id (joinAct (opened.ofUser u) u) = x
  obtain ⟨e | e | t, x⟩ := x <;> rfl

/-- Watching attends to the match, and may change what is watched besides. -/
theorem state_watch (a : Arbiter) (opened : Connections) (id : MatchId) (u : UserId) :
    ∃ watching, (a.watch opened id u).state =
      { (a.attend id (followAct (opened.ofUser u))).2 with watching := watching } := by
  rw [watch_eq]
  generalize a.attend id (followAct (opened.ofUser u)) = x
  obtain ⟨e | t, x⟩ := x
  · exact ⟨x.watching, rfl⟩
  · exact ⟨_, rfl⟩

/-! ### What attending leaves alone -/

/-- What a table may do while it is attended to: take on some of the given connections as followers,
and step to a saved game unless its match is over. -/
inductive Acted (own : List Connection) (t : Table) (s : Store) : Table × Store → Prop where
  | still (cs : List Connection) (among : cs ⊆ own) (saves : Nat) :
      Acted own t s (t.connectAll cs, { s with saves := saves })
  | stepped (cs : List Connection) (among : cs ⊆ own) (next : Game)
      (unfinished : t.game.status ≠ .closed) : Acted own t s
      ({ t with game := next }.connectAll cs,
        { s with saves := s.saves + 1, records := s.records.insert t.id next.toRecord })

theorem moveAct_acted (c : Connection) (source target : Square) (t : Table) (s : Store) :
    Acted [c] t s (moveAct c source target t s).2 := by
  unfold moveAct
  have h := t.move_steps c.user source target s
  generalize t.move c.user source target s = x at h ⊢
  cases h with
  | refused e n => exact .still [] (List.nil_subset _) n
  | done o next h =>
      obtain ⟨p, hunderway, -⟩ := Game.move_eq_ok_iff.mp h
      exact .stepped [c] (List.Subset.refl _) next (by simp [hunderway])

theorem joinAct_acted (own : List Connection) (u : UserId) (t : Table) (s : Store) :
    Acted own t s (joinAct own u t s).2 := by
  unfold joinAct
  have h := t.join_steps u s
  generalize t.join u s = x at h ⊢
  cases h with
  | refused e n => exact .still [] (List.nil_subset _) n
  | done c next h =>
      obtain ⟨hwaiting, -⟩ := Game.join_eq_ok_iff.mp h
      exact .stepped own (List.Subset.refl _) next (by simp [hwaiting])

theorem showAct_acted (u : UserId) (source : Square) (t : Table) (s : Store) :
    Acted [] t s (showAct u source t s).2 := .still [] (List.Subset.refl _) s.saves

theorem followAct_acted (own : List Connection) (t : Table) (s : Store) :
    Acted own t s (followAct own t s).2 := .still own (List.Subset.refl _) s.saves

theorem Acted.id_eq {own : List Connection} {s s' : Store} {t' : Table}
    (h : Acted own t s (t', s')) : t'.id = t.id := by
  cases h with
  | still cs among n => rw [Table.connectAll_id]
  | stepped cs among next unfinished => rw [Table.connectAll_id]

/-- States whose halls and records differ at most at one match. -/
structure AgreesOff (id : MatchId) (a a' : Arbiter) : Prop where
  keyed : a'.hall.Keyed
  tables : ∀ j, j ≠ id → a'.hall.tables.get? j = a.hall.tables.get? j
  records : ∀ j, j ≠ id → a'.store.records.get? j = a.store.records.get? j

theorem get?_settle (a : Arbiter) (t : Table) (j : MatchId) :
    (a.settle t).hall.tables.get? j =
      if j = t.id then (if t.game.status = .closed then none else some t)
      else a.hall.tables.get? j := by
  by_cases hc : t.game.status = .closed
  · rw [settle_of_closed a hc, if_pos hc]
    simp only [Hall.clear, Hall.update]
    split_ifs with hj
    · rw [hj, SortedMap.get?_erase_self]
    · rw [SortedMap.get?_erase_of_ne _ hj, SortedMap.get?_insert_of_ne _ _ hj]
  · rw [settle_of_open a hc, if_neg hc]
    simp only [Hall.update]
    split_ifs with hj
    · rw [hj, SortedMap.get?_insert_self]
    · rw [SortedMap.get?_insert_of_ne _ _ hj]

theorem keyed_settle (hk : a.hall.Keyed) (t : Table) : (a.settle t).hall.Keyed := by
  intro j t' h
  rw [get?_settle] at h
  split_ifs at h with hj
  · cases h; exact hj.symm
  · exact hk j t' h

theorem Finds.agreesOff (hk : a.hall.Keyed) {x : Except Refusal Table × Arbiter}
    (h : Finds a id x) : AgreesOff id a x.2 := by
  cases h with
  | held t h => exact ⟨hk, fun _ _ => rfl, fun _ _ => rfl⟩
  | refused e h => exact ⟨hk, fun _ _ => rfl, fun _ _ => rfl⟩
  | loaded r g h hr hg =>
      refine ⟨?_, ?_, fun _ _ => rfl⟩
      · intro j t ht
        rcases SortedMap.get?_insert_eq_some ht with ⟨rfl, rfl⟩ | ⟨-, ht⟩
        · rfl
        · exact hk j t ht
      · intro j hj
        exact SortedMap.get?_insert_of_ne _ _ hj

theorem AgreesOff.settle {a' : Arbiter} (h : AgreesOff id a a') (ht : t.id = id)
    {own : List Connection} {s' : Store} {t' : Table} (hact : Acted own t a'.store (t', s')) :
    AgreesOff id a ({ a' with store := s' }.settle t') := by
  have hid : t'.id = id := hact.id_eq.trans ht
  refine ⟨keyed_settle h.keyed t', ?_, ?_⟩
  · intro j hj
    rw [get?_settle, if_neg (hid ▸ hj)]
    exact h.tables j hj
  · intro j hj
    rw [← h.records j hj]
    cases hact with
    | still cs hcs n => rfl
    | stepped cs hcs next hgoes => exact SortedMap.get?_insert_of_ne _ _ (ht ▸ hj)

theorem attend_agreesOff (hk : a.hall.Keyed) (id : MatchId) {own : List Connection}
    (act : Table → Store → β × Table × Store) (hact : ∀ t s, Acted own t s (act t s).2) :
    AgreesOff id a (a.attend id act).2 := by
  have hfind := a.find_finds id
  have hoff := hfind.agreesOff hk
  have hid := fun t => hfind.id_eq (t := t) hk
  unfold attend
  generalize a.find id = x at hoff hid ⊢
  obtain ⟨r, a'⟩ := x
  cases r with
  | error e => exact hoff
  | ok t => exact hoff.settle (hid t rfl) (hact t a'.store)

theorem attend_watching (a : Arbiter) (id : MatchId) (act : Table → Store → β × Table × Store) :
    (a.attend id act).2.watching = a.watching := by
  have hfind := a.find_finds id
  unfold attend
  generalize a.find id = x at hfind ⊢
  cases hfind with
  | held t h => rfl
  | refused e h => rfl
  | loaded r g h hr hg => rfl

end Arbiter
end LiveChess
