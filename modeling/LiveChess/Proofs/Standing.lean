import LiveChess.Proofs.Handling

/-! # Matches in the hall

A match that is not over stands in the hall (`Stands`): its table is there, and the store has the
record of the table's game.  A match that is over has left the hall and is only a record (`Over`).
For each request there is a lemma that says what becomes of the table of a standing match; a match
that is over stays as it is whatever is asked, and requests on other matches change neither. -/

namespace LiveChess.Arbiter

variable {β : Type} {a a' : Arbiter} {id m : MatchId} {t : Table} {g : Game} {c : Connection}
  {u : UserId} {opened : Connections}

/-- The match has a table in the hall, and its record is that of the table's game. -/
structure Stands (a : Arbiter) (m : MatchId) (t : Table) : Prop where
  table : a.hall.tables.get? m = some t
  record : a.store.records.get? m = some t.game.toRecord
  played : t.game.Played
  unfinished : t.game.status ≠ .closed

/-- The match has left the hall; its record is that of a finished game. -/
structure Over (a : Arbiter) (m : MatchId) (g : Game) : Prop where
  table : a.hall.tables.get? m = none
  record : a.store.records.get? m = some g.toRecord
  played : g.Played
  closed : g.status = .closed

theorem Stands.of_agreesOff (h : Stands a m t) (hoff : AgreesOff id a a') (hm : m ≠ id) :
    Stands a' m t :=
  ⟨(hoff.tables m hm).trans h.table, (hoff.records m hm).trans h.record, h.played, h.unfinished⟩

theorem Over.of_agreesOff (h : Over a m g) (hoff : AgreesOff id a a') (hm : m ≠ id) :
    Over a' m g :=
  ⟨(hoff.tables m hm).trans h.table, (hoff.records m hm).trans h.record, h.played, h.closed⟩

/-! ### Standing matches -/

theorem Stands.attend (h : Stands a m t) (act : Table → Store → β × Table × Store) :
    a.attend m act = (.ok (act t a.store).1,
      { a with store := (act t a.store).2.2 }.settle (act t a.store).2.1) := by
  unfold Arbiter.attend
  rw [find_of_held h.table]

/-- A table that goes on stands again once it is settled. -/
theorem stands_settle {t' : Table} (hid : t'.id = m)
    (hr : a.store.records.get? m = some t'.game.toRecord) (hp : t'.game.Played)
    (ho : t'.game.status ≠ .closed) : Stands (a.settle t') m t' := by
  refine ⟨?_, ?_, hp, ho⟩
  · rw [get?_settle, if_pos hid.symm, if_neg ho]
  · exact hr

theorem Stands.follow (h : Stands a m t) (hk : a.hall.Keyed) (cs : List Connection) (n : Nat) :
    Stands ({ a with store := { a.store with saves := n } }.settle (t.connectAll cs)) m
      (t.connectAll cs) := by
  refine stands_settle ?_ ?_ ?_ ?_
  · rw [Table.connectAll_id]; exact hk m t h.table
  · rw [Table.connectAll_game]; exact h.record
  · rw [Table.connectAll_game]; exact h.played
  · rw [Table.connectAll_game]; exact h.unfinished

theorem Stands.showMoves (h : Stands a m t) (hk : a.hall.Keyed) (c : Connection)
    (source : String) : Stands (a.showMoves c m source).state m t := by
  rcases a.state_showMoves c m source with hs | ⟨s, hs⟩
  · rw [hs]
    exact h
  · rw [hs, h.attend]
    exact h.follow hk [] a.store.saves

theorem Stands.watch (h : Stands a m t) (hk : a.hall.Keyed) (opened : Connections) (u : UserId) :
    Stands (a.watch opened m u).state m (t.connectAll (opened.ofUser u)) := by
  obtain ⟨watching, hs⟩ := a.state_watch opened m u
  rw [hs, h.attend]
  have h' := h.follow hk (opened.ofUser u) a.store.saves
  exact ⟨h'.table, h'.record, h'.played, h'.unfinished⟩

theorem Stands.showOne (h : Stands a m t) (hk : a.hall.Keyed) (c : Connection) :
    Stands (Arbiter.showOne c a m).2 m (t.connect c) := by
  rw [state_showOne, h.attend]
  exact h.follow hk [c] a.store.saves

/-- A join on a standing match is refused, or the player sits down and the player's connections
follow. -/
theorem Stands.join (h : Stands a m t) (hk : a.hall.Keyed) (opened : Connections) (u : UserId) :
    (∃ e, (a.join opened m u).answer = .refused e ∧ (a.join opened m u).sent = [] ∧
        Stands (a.join opened m u).state m t) ∨
      ∃ seat next, t.game.join u = .ok (seat, next) ∧ (a.join opened m u).answer = .done ∧
        ∃ t', t' = { t with game := next }.connectAll (opened.ofUser u) ∧
          (a.join opened m u).sent = broadcast t'.followers.ids (.playerJoined m t'.snapshot) ∧
          Stands (a.join opened m u).state m t' := by
  have hid := hk m t h.table
  rw [join_eq, h.attend]
  unfold joinAct
  have hj := t.join_steps u a.store
  generalize t.join u a.store = x at hj ⊢
  cases hj with
  | refused e n => exact .inl ⟨e, rfl, rfl, h.follow hk [] n⟩
  | done seat next hnext =>
      refine .inr ⟨seat, next, hnext, rfl, _, rfl, rfl, stands_settle ?_ ?_ ?_ ?_⟩
      · rw [Table.connectAll_id]; exact hid
      · rw [Table.connectAll_game, hid]; exact SortedMap.get?_insert_self _ _ _
      · rw [Table.connectAll_game]; exact h.played.join hnext
      · rw [Table.connectAll_game]; exact Game.status_of_join hnext

/-- A move on a standing match is refused, or it is made and the mover's connection follows; the
match then stands on, or it is over by mate. -/
theorem Stands.move (h : Stands a m t) (hk : a.hall.Keyed) (c : Connection)
    (source target : String) :
    (∃ e, (a.move c m source target).sent = tellRefusal c e ∧
        Stands (a.move c m source target).state m t) ∨
      ∃ s s' o next, Square.ofText? source = some s ∧ Square.ofText? target = some s' ∧
        t.game.move c.user s s' = .ok (o, next) ∧
        ∃ t', t' = { t with game := next }.connect c ∧
          (a.move c m source target).sent =
            (moveNotices m o t'.snapshot).flatMap (broadcast t'.followers.ids) ∧
          (Stands (a.move c m source target).state m t' ∨
            Over (a.move c m source target).state m next) := by
  have hid := hk m t h.table
  rw [move_eq hk]
  unfold Square.parse
  cases hs : Square.ofText? source with
  | none => exact .inl ⟨_, rfl, h⟩
  | some s =>
      cases ht : Square.ofText? target with
      | none => exact .inl ⟨_, rfl, h⟩
      | some s' =>
          simp only [h.attend]
          unfold moveAct
          have hm := t.move_steps c.user s s' a.store
          generalize t.move c.user s s' a.store = x at hm ⊢
          cases hm with
          | refused e n => exact .inl ⟨e, rfl, h.follow hk [] n⟩
          | done o next hnext =>
              refine .inr ⟨s, s', o, next, rfl, rfl, hnext, _, rfl, rfl, ?_⟩
              have hr : (a.store.records.insert t.id next.toRecord).get? m =
                  some next.toRecord := by
                rw [hid]; exact SortedMap.get?_insert_self _ _ _
              by_cases hc : next.status = .closed
              · refine .inr ⟨?_, ?_, h.played.move hnext, hc⟩
                · rw [get?_settle]
                  show (if m = t.id then (if next.status = .closed then none else _) else _) = none
                  rw [if_pos hid.symm, if_pos hc]
                · exact hr
              · exact .inl (stands_settle hid hr (h.played.move hnext) hc)

/-! ### Matches that are over -/

/-- Attending to a match that is over leaves it over, if all its table does is take on followers. -/
theorem Over.attend (h : Over a m g) (act : Table → Store → β × Table × Store) (P : β → Prop)
    (hact : ∀ t s, t.game = g →
      P (act t s).1 ∧ ∃ cs n, (act t s).2 = (t.connectAll cs, { s with saves := n })) :
    (∀ r, (a.attend m act).1 = .ok r → P r) ∧ Over (a.attend m act).2 m g := by
  have hf := a.find_finds m
  unfold Arbiter.attend
  generalize a.find m = x at hf ⊢
  cases hf with
  | held t h' => rw [h.table] at h'; cases h'
  | refused e h' =>
      refine ⟨?_, h.table, h.record, h.played, h.closed⟩
      rintro r ⟨⟩
  | loaded r g' h' hr hg =>
      have hg' : g' = g := by
        rw [h.record] at hr
        cases hr
        rw [h.played.ofRecord] at hg
        cases hg
        rfl
      subst hg'
      obtain ⟨hP, cs, n, e⟩ := hact ⟨m, a.hall.issued, a.hall.budget, g', .empty⟩
        { a.store with loads := a.store.loads + 1 } rfl
      simp only
      generalize act ⟨m, a.hall.issued, a.hall.budget, g', .empty⟩
        { a.store with loads := a.store.loads + 1 } = y at hP e ⊢
      obtain ⟨r, y⟩ := y
      simp only at e
      subst e
      refine ⟨?_, ?_, ?_, h.played, h.closed⟩
      · rintro r' ⟨⟩
        exact hP
      · rw [get?_settle, Table.connectAll_id, Table.connectAll_game, if_pos rfl, if_pos h.closed]
      · exact h.record

theorem Over.follow (h : Over a m g) (cs : List Connection) :
    Over (a.attend m (followAct cs)).2 m g :=
  (h.attend (followAct cs) (fun _ => True) fun _ s _ => ⟨trivial, cs, s.saves, rfl⟩).2

theorem Over.showMoves (h : Over a m g) (c : Connection) (source : String) :
    Over (a.showMoves c m source).state m g := by
  rcases a.state_showMoves c m source with hs | ⟨s, hs⟩
  · rw [hs]
    exact h
  · rw [hs]
    exact (h.attend (showAct c.user s) (fun _ => True) fun _ st _ => ⟨trivial, [], st.saves, rfl⟩).2

theorem Over.showOne (h : Over a m g) (c : Connection) : Over (Arbiter.showOne c a m).2 m g := by
  rw [state_showOne]
  exact h.follow [c]

theorem Over.watch (h : Over a m g) (opened : Connections) (u : UserId) :
    Over (a.watch opened m u).state m g := by
  obtain ⟨watching, hs⟩ := a.state_watch opened m u
  rw [hs]
  have h' := h.follow (opened.ofUser u)
  exact ⟨h'.table, h'.record, h'.played, h'.closed⟩

/-- A finished game has no seat to take, so its table refuses every join. -/
theorem joinAct_of_closed (ht : t.game.status = .closed) (own : List Connection) (u : UserId)
    (s : Store) : ∃ e n, joinAct own u t s = (.error e, t, { s with saves := n }) := by
  unfold joinAct
  have hj := t.join_steps u s
  generalize t.join u s = x at hj ⊢
  cases hj with
  | refused e n => exact ⟨e, n, rfl⟩
  | done seat next hnext =>
      have hw := (Game.join_eq_ok_iff.mp hnext).1
      rw [ht] at hw
      cases hw

/-- A finished game has no turn to make, so its table refuses every move. -/
theorem moveAct_of_closed (ht : t.game.status = .closed) (c : Connection) (source target : Square)
    (s : Store) : ∃ e n, moveAct c source target t s = (.error e, t, { s with saves := n }) := by
  unfold moveAct
  have hm := t.move_steps c.user source target s
  generalize t.move c.user source target s = x at hm ⊢
  cases hm with
  | refused e n => exact ⟨e, n, rfl⟩
  | done o next hnext =>
      obtain ⟨p, hw, -⟩ := Game.move_eq_ok_iff.mp hnext
      rw [ht] at hw
      cases hw

/-- A match that is over stays over under acts that a finished game refuses. -/
theorem Over.attend_refused {γ : Type} (h : Over a m g)
    {act : Table → Store → Except Refusal γ × Table × Store}
    (hact : ∀ t s, t.game.status = .closed →
      ∃ e n, act t s = (.error e, t, { s with saves := n })) :
    ((∃ e, (a.attend m act).1 = .error e) ∨ ∃ e, (a.attend m act).1 = .ok (.error e)) ∧
      Over (a.attend m act).2 m g := by
  obtain ⟨hr, h'⟩ := h.attend act (fun r => ∃ e, r = .error e) fun t s ht => by
    obtain ⟨e, n, he⟩ := hact t s (ht ▸ h.closed)
    exact ⟨⟨e, by rw [he]⟩, [], n, by rw [he]; rfl⟩
  refine ⟨?_, h'⟩
  cases hx : (a.attend m act).1 with
  | error e => exact .inl ⟨e, rfl⟩
  | ok r =>
      obtain ⟨e, rfl⟩ := hr r hx
      exact .inr ⟨e, rfl⟩

theorem Over.join (h : Over a m g) (opened : Connections) (u : UserId) :
    (∃ e, (a.join opened m u).answer = .refused e) ∧ (a.join opened m u).sent = [] ∧
      Over (a.join opened m u).state m g := by
  rw [join_eq]
  obtain ⟨he, h'⟩ := h.attend_refused fun _ s ht => joinAct_of_closed ht (opened.ofUser u) u s
  generalize a.attend m (joinAct (opened.ofUser u) u) = x at he h' ⊢
  obtain ⟨r, x⟩ := x
  rcases he with ⟨e, rfl⟩ | ⟨e, rfl⟩
  · exact ⟨⟨e, rfl⟩, rfl, h'⟩
  · exact ⟨⟨e, rfl⟩, rfl, h'⟩

theorem Over.move (h : Over a m g) (hk : a.hall.Keyed) (c : Connection) (source target : String) :
    (∃ e, (a.move c m source target).sent = tellRefusal c e) ∧
      Over (a.move c m source target).state m g := by
  rw [move_eq hk]
  cases Square.parse source with
  | error e => exact ⟨⟨e, rfl⟩, h⟩
  | ok s =>
      cases Square.parse target with
      | error e => exact ⟨⟨e, rfl⟩, h⟩
      | ok s' =>
          obtain ⟨he, h'⟩ := h.attend_refused fun _ st ht => moveAct_of_closed ht c s s' st
          simp only
          generalize a.attend m (moveAct c s s') = x at he h' ⊢
          obtain ⟨r, x⟩ := x
          rcases he with ⟨e, rfl⟩ | ⟨e, rfl⟩
          · exact ⟨⟨e, rfl⟩, h'⟩
          · exact ⟨⟨e, rfl⟩, h'⟩

end LiveChess.Arbiter
