import LiveChess.Proofs.Upkeep

/-! # A request depends on its own match only

Two states agree at a match if they have the same table for it, but for the serial number, the same
record of it, and stores that fail alike (`AgreesAt`).  From such states a request on the match gets
the same answer, sends the same notices and counts the same calls of the store, and the states
afterwards agree at the match again (`handled_abreast`).  What carries this through the parts of a
request is that no act of a table takes notice of its serial number or of the records of other
matches (`Blind`). -/

namespace LiveChess

/-- The table under another serial number. -/
def Table.numbered (t : Table) (n : Nat) : Table := { t with serial := n }

theorem Table.connectAll_numbered (t : Table) (n : Nat) (cs : List Connection) :
    (t.numbered n).connectAll cs = (t.connectAll cs).numbered n := by
  rw [connectAll_eq, connectAll_eq]
  rfl

theorem Table.eq_numbered {t t' : Table} (h : t'.numbered 0 = t.numbered 0) :
    t' = t.numbered t'.serial := by
  obtain ⟨id, serial, budget, game, followers⟩ := t
  obtain ⟨id', serial', budget', game', followers'⟩ := t'
  simp only [numbered, mk.injEq] at h ⊢
  exact ⟨h.1, trivial, h.2.2⟩

/-- The stores have the same record of the match and fail alike. -/
structure Store.AgreesAt (m : MatchId) (s s' : Store) : Prop where
  record : s'.records.get? m = s.records.get? m
  outage : s'.outage = s.outage

namespace Store

variable {s s' : Store} {m : MatchId}

theorem saves_save (s : Store) (m : MatchId) (r : MatchRecord) (budget : Duration) :
    (s.save m r budget).2.saves = s.saves + 1 := by
  rcases s.save_cases m r budget with ⟨e, h⟩ | h
  · rw [h]
  · rw [h]

theorem AgreesAt.save (h : AgreesAt m s s') (r : MatchRecord) (budget : Duration) :
    (s'.save m r budget).1 = (s.save m r budget).1 ∧
      AgreesAt m (s.save m r budget).2 (s'.save m r budget).2 := by
  have hc : s'.records.contains m = s.records.contains m := by
    unfold SortedMap.contains
    rw [h.record]
  unfold Store.save
  rw [h.outage, hc]
  cases hindrance (s.outage.save m) budget with
  | some e => exact ⟨rfl, h.record, rfl⟩
  | none =>
      simp only
      split_ifs
      · refine ⟨rfl, ?_, rfl⟩
        rw [SortedMap.get?_insert_self, SortedMap.get?_insert_self]
      · exact ⟨rfl, h.record, rfl⟩

end Store

namespace Arbiter

variable {α β γ : Type} {a a' b b' : Arbiter} {m : MatchId} {t : Table} {c : Connection}
  {u : UserId} {own : List Connection} {opened : Connections} {r : Request} {view : β → γ}
  {act : Table → Store → β × Table × Store}

/-! ### Acts of a table -/

/-- As far as `view` shows its result, the act takes no notice of the serial number of the table nor
of the records of other matches. -/
def Blind (view : β → γ) (act : Table → Store → β × Table × Store) : Prop :=
  ∀ t n s s', Store.AgreesAt t.id s s' →
    view (act (t.numbered n) s').1 = view (act t s).1 ∧
      (act (t.numbered n) s').2.1 = (act t s).2.1.numbered n ∧
      Store.AgreesAt t.id (act t s).2.2 (act (t.numbered n) s').2.2 ∧
      (act (t.numbered n) s').2.2.saves + s.saves = (act t s).2.2.saves + s'.saves

theorem blind_commit (next : Game) : Blind id fun t s => t.commit next s := by
  intro t n s s' h
  obtain ⟨hres, hagree⟩ := h.save next.toRecord t.budget
  have hcount := s.saves_save t.id next.toRecord t.budget
  have hcount' := s'.saves_save t.id next.toRecord t.budget
  simp only [Table.commit, Table.numbered, id_eq]
  generalize s.save t.id next.toRecord t.budget = x at hres hagree hcount ⊢
  generalize s'.save t.id next.toRecord t.budget = y at hres hagree hcount' ⊢
  obtain ⟨v, s₁⟩ := x
  obtain ⟨v', s₁'⟩ := y
  obtain rfl : v' = v := hres
  have hsaves : s₁'.saves + s.saves = s₁.saves + s'.saves := by
    simp only at hcount hcount'
    omega
  cases v' with
  | error e => exact ⟨rfl, rfl, hagree, hsaves⟩
  | ok v => exact ⟨rfl, rfl, hagree, hsaves⟩

theorem blind_attempt (step : Game → Except Refusal (α × Game)) :
    Blind id fun t s => t.attempt s (step t.game) := by
  intro t n s s' h
  show id ((t.numbered n).attempt s' (step t.game)).1 = _ ∧
    ((t.numbered n).attempt s' (step t.game)).2.1 = _ ∧
    Store.AgreesAt _ _ ((t.numbered n).attempt s' (step t.game)).2.2 ∧
    ((t.numbered n).attempt s' (step t.game)).2.2.saves + _ = _
  simp only [id_eq]
  unfold Table.attempt
  cases step t.game with
  | error e => exact ⟨rfl, rfl, h, Nat.add_comm _ _⟩
  | ok r =>
      obtain ⟨x, next⟩ := r
      obtain ⟨hres, htable, hagree, hcount⟩ := blind_commit next t n s s' h
      simp only [id_eq] at hres htable hagree hcount ⊢
      generalize t.commit next s = y at hres htable hagree hcount ⊢
      generalize (t.numbered n).commit next s' = z at hres htable hagree hcount ⊢
      obtain ⟨v, t₁, s₁⟩ := y
      obtain ⟨v', t₁', s₁'⟩ := z
      obtain rfl : v' = v := hres
      cases v' with
      | error e => exact ⟨rfl, htable, hagree, hcount⟩
      | ok v => exact ⟨rfl, htable, hagree, hcount⟩

theorem blind_showAct (u : UserId) (source : Square) : Blind id (showAct u source) :=
  fun _ _ _ _ h => ⟨rfl, rfl, h, Nat.add_comm _ _⟩

theorem blind_followAct (own : List Connection) : Blind (·.numbered 0) (followAct own) := by
  intro t n s s' h
  unfold followAct
  rw [Table.connectAll_numbered]
  exact ⟨rfl, rfl, h, Nat.add_comm _ _⟩

/-- An act that lets connections follow if it succeeds. -/
def welcoming (own : List Connection) (act : Table → Store → Except Refusal α × Table × Store)
    (result : α → Table → β) (t : Table) (s : Store) : Except Refusal β × Table × Store :=
  match act t s with
  | (.error e, t, s) => (.error e, t, s)
  | (.ok x, t, s) => (.ok (result x (t.connectAll own)), t.connectAll own, s)

theorem blind_welcoming {act : Table → Store → Except Refusal α × Table × Store}
    (hact : Blind id act) (own : List Connection) {result : α → Table → β}
    (hview : ∀ x t n, view (result x (t.numbered n)) = view (result x t)) :
    Blind (Except.map view) (welcoming own act result) := by
  intro t n s s' h
  obtain ⟨hres, htable, hagree, hcount⟩ := hact t n s s' h
  simp only [id_eq] at hres
  unfold welcoming
  generalize act t s = y at hres htable hagree hcount ⊢
  generalize act (t.numbered n) s' = z at hres htable hagree hcount ⊢
  obtain ⟨v, t₁, s₁⟩ := y
  obtain ⟨v', t₁', s₁'⟩ := z
  obtain rfl : v' = v := hres
  obtain rfl : t₁' = t₁.numbered n := htable
  cases v' with
  | error e => exact ⟨rfl, rfl, hagree, hcount⟩
  | ok x =>
      simp only [Table.connectAll_numbered, Except.map, hview]
      exact ⟨trivial, trivial, hagree, hcount⟩

theorem blind_moveAct (c : Connection) (source target : Square) :
    Blind (Except.map fun x => (x.1, x.2.numbered 0)) (moveAct c source target) := by
  have e : moveAct c source target = welcoming [c]
      (fun t s => t.attempt s (t.game.move c.user source target)) fun o t => (o, t) := by
    funext t s
    unfold moveAct welcoming
    rw [Table.move_eq_attempt]
    beta_reduce
    generalize t.attempt s _ = x
    obtain ⟨e | o, x⟩ := x <;> rfl
  rw [e]
  exact blind_welcoming (blind_attempt fun g => g.move c.user source target) [c] fun _ _ _ => rfl

theorem blind_joinAct (own : List Connection) (u : UserId) :
    Blind (Except.map (·.numbered 0)) (joinAct own u) := by
  have e : joinAct own u =
      welcoming own (fun t s => t.attempt s (t.game.join u)) fun _ t => t := by
    funext t s
    unfold joinAct welcoming
    rw [Table.join_eq_attempt]
    beta_reduce
    generalize t.attempt s _ = x
    obtain ⟨e | seat, x⟩ := x <;> rfl
  rw [e]
  exact blind_welcoming (blind_attempt fun g => g.join u) own fun _ _ _ => rfl

/-! ### Two states that agree at a match -/

/-- The states have the same for the match: table, but for its serial number, record and luck with
the store. -/
structure AgreesAt (m : MatchId) (a b : Arbiter) : Prop where
  table : (b.hall.tables.get? m).map (·.numbered 0) = (a.hall.tables.get? m).map (·.numbered 0)
  budget : b.hall.budget = a.hall.budget
  store : a.store.AgreesAt m b.store

/-- From `a` to `a'` the counts of calls and of tables went on as from `b` to `b'`. -/
structure CountsAlike (a a' b b' : Arbiter) : Prop where
  loads : b'.store.loads + a.store.loads = a'.store.loads + b.store.loads
  saves : b'.store.saves + a.store.saves = a'.store.saves + b.store.saves
  issued : b'.hall.issued + a.hall.issued = a'.hall.issued + b.hall.issued

/-- What happened from `a` to `a'` at the match happened from `b` to `b'` too. -/
structure Abreast (m : MatchId) (a a' b b' : Arbiter) : Prop where
  agrees : AgreesAt m a' b'
  counts : CountsAlike a a' b b'

theorem Abreast.refl (h : AgreesAt m a b) : Abreast m a a b b :=
  ⟨h, Nat.add_comm _ _, Nat.add_comm _ _, Nat.add_comm _ _⟩

/-- What is watched does not enter into it. -/
theorem Abreast.watching (h : Abreast m a a' b b') (w w' : SortedMap UserId (SortedSet MatchId)) :
    Abreast m a { a' with watching := w } b { b' with watching := w' } :=
  ⟨⟨h.agrees.table, h.agrees.budget, h.agrees.store⟩,
    h.counts.loads, h.counts.saves, h.counts.issued⟩

/-- How the searches for a match may end in two states. -/
inductive FindsAbreast (m : MatchId) (a b : Arbiter) :
    Except Refusal Table × Arbiter → Except Refusal Table × Arbiter → Prop where
  | refused (e : Refusal) (a' b' : Arbiter) (h : Abreast m a a' b b') :
      FindsAbreast m a b (.error e, a') (.error e, b')
  | found (t : Table) (n : Nat) (a' b' : Arbiter) (h : Abreast m a a' b b') :
      FindsAbreast m a b (.ok t, a') (.ok (t.numbered n), b')

/-- What is found of a match that has no table depends on what can be read of it. -/
theorem find_of_missing (ht : a.hall.tables.get? m = none) :
    a.find m =
      let read : Arbiter := { a with store := { a.store with loads := a.store.loads + 1 } }
      match (a.store.load m a.hall.budget).1 with
      | .error e => (.error (Hall.refusalOfLoad e), read)
      | .ok r =>
        match Game.ofRecord r with
        | .error e => (.error e, read)
        | .ok g =>
          let t : Table := ⟨m, a.hall.issued, a.hall.budget, g, .empty⟩
          (.ok t, { read with hall :=
            { a.hall with tables := a.hall.tables.insert m t, issued := a.hall.issued + 1 } }) := by
  unfold Arbiter.find Hall.find Store.load
  simp only [ht]
  cases Store.hindrance (a.store.outage.load m) a.hall.budget with
  | some e => rfl
  | none =>
      cases a.store.records.get? m with
      | none => rfl
      | some r =>
          simp only [Hall.setUp, Table.setUp]
          cases Game.ofRecord r <;> rfl

theorem AgreesAt.find (h : AgreesAt m a b) : FindsAbreast m a b (a.find m) (b.find m) := by
  obtain ⟨htable, hbudget, hrecord, houtage⟩ := h
  cases ht : a.hall.tables.get? m with
  | some t =>
      rw [ht] at htable
      obtain ⟨t', ht', e⟩ := Option.map_eq_some_iff.mp htable
      rw [find_of_held ht, find_of_held ht', Table.eq_numbered e]
      refine .found t _ a b (.refl ⟨?_, hbudget, hrecord, houtage⟩)
      rw [ht, ht', Option.map_some, Option.map_some, e]
  | none =>
      rw [ht, Option.map_none, Option.map_eq_none_iff] at htable
      have hread : Abreast m a { a with store := { a.store with loads := a.store.loads + 1 } }
          b { b with store := { b.store with loads := b.store.loads + 1 } } := by
        refine ⟨⟨?_, hbudget, hrecord, houtage⟩, ?_, Nat.add_comm _ _, Nat.add_comm _ _⟩
        · rw [htable, ht]
        · simp only
          omega
      have hload : (b.store.load m b.hall.budget).1 = (a.store.load m a.hall.budget).1 := by
        unfold Store.load
        rw [houtage, hrecord, hbudget]
        cases Store.hindrance (a.store.outage.load m) a.hall.budget with
        | some e => rfl
        | none => cases a.store.records.get? m <;> rfl
      rw [find_of_missing ht, find_of_missing htable, hload]
      cases (a.store.load m a.hall.budget).1 with
      | error e => exact .refused _ _ _ hread
      | ok r =>
          simp only
          cases Game.ofRecord r with
          | error e => exact .refused _ _ _ hread
          | ok g =>
              simp only [hbudget]
              refine .found ⟨m, a.hall.issued, a.hall.budget, g, .empty⟩ b.hall.issued _ _
                ⟨⟨?_, rfl, hrecord, houtage⟩, ?_, Nat.add_comm _ _, ?_⟩
              · simp only [SortedMap.get?_insert_self, Option.map_some, Table.numbered]
              · simp only
                omega
              · simp only
                omega

theorem budget_settle (a : Arbiter) (t : Table) : (a.settle t).hall.budget = a.hall.budget := by
  unfold Arbiter.settle Hall.release
  split_ifs <;> rfl

theorem Abreast.settle (h : Abreast m a a' b b') {s s' : Store} (n : Nat) (hid : t.id = m)
    (hs : s.AgreesAt m s') (hloads : s.loads = a'.store.loads) (hloads' : s'.loads = b'.store.loads)
    (hsaves : s'.saves + a'.store.saves = s.saves + b'.store.saves) :
    Abreast m a ({ a' with store := s }.settle t) b
      ({ b' with store := s' }.settle (t.numbered n)) := by
  obtain ⟨⟨htable, hbudget, hstore⟩, hcloads, hcsaves, hcissued⟩ := h
  refine ⟨⟨?_, ?_, hs⟩, ?_, ?_, ?_⟩
  · have hid' : m = (t.numbered n).id := hid.symm
    rw [get?_settle, get?_settle, if_pos hid.symm, if_pos hid']
    show Option.map _ (if t.game.status = .closed then none else some (t.numbered n)) = _
    split_ifs <;> rfl
  · rw [budget_settle, budget_settle]
    exact hbudget
  · show s'.loads + _ = s.loads + _
    omega
  · show s'.saves + _ = s.saves + _
    omega
  · rw [issued_settle, issued_settle]
    exact hcissued

/-- How attending to a match with an act of its table may end in two states. -/
inductive AttendsAbreast (view : β → γ) (m : MatchId) (a b : Arbiter) :
    Except Refusal β × Arbiter → Except Refusal β × Arbiter → Prop where
  | refused (e : Refusal) (a' b' : Arbiter) (h : Abreast m a a' b b')
      (watching : a'.watching = a.watching) (watching' : b'.watching = b.watching) :
      AttendsAbreast view m a b (.error e, a') (.error e, b')
  | attended (v v' : β) (a' b' : Arbiter) (hview : view v' = view v) (h : Abreast m a a' b b')
      (watching : a'.watching = a.watching) (watching' : b'.watching = b.watching) :
      AttendsAbreast view m a b (.ok v, a') (.ok v', b')

theorem AgreesAt.attend (h : AgreesAt m a b) (hk : a.hall.Keyed) (hblind : Blind view act)
    (hact : ∀ t s, Acted own t s (act t s).2) :
    AttendsAbreast view m a b (a.attend m act) (b.attend m act) := by
  have hfind := h.find
  have hid := fun t => (a.find_finds m).id_eq (t := t) hk
  have hw := a.attend_watching m act
  have hw' := b.attend_watching m act
  unfold Arbiter.attend at hw hw' ⊢
  generalize a.find m = x at hfind hid hw ⊢
  generalize b.find m = y at hfind hw' ⊢
  cases hfind with
  | refused e a' b' h' => exact .refused e a' b' h' hw hw'
  | found t n a' b' h' =>
      obtain rfl : t.id = m := hid t rfl
      obtain ⟨hres, htable, hagree, hcount⟩ := hblind t n a'.store b'.store h'.agrees.store
      have hdone := hact t a'.store
      have hdone' := hact (t.numbered n) b'.store
      simp only at hw hw' ⊢
      generalize act t a'.store = x at hres htable hagree hcount hdone hw ⊢
      generalize act (t.numbered n) b'.store = y at hres htable hagree hcount hdone' hw' ⊢
      obtain ⟨v, t₁, s₁⟩ := x
      obtain ⟨v', t₁', s₁'⟩ := y
      obtain rfl : t₁' = t₁.numbered n := htable
      refine .attended v v' _ _ hres ?_ hw hw'
      exact h'.settle n hdone.id_eq hagree hdone.loads hdone'.loads hcount

/-! ### Requests on the match -/

/-- What users watch once the match is noted for a user, if it is noted at all. -/
def noted (m : MatchId) (watching : SortedMap UserId (SortedSet MatchId)) :
    Option UserId → SortedMap UserId (SortedSet MatchId)
  | none => watching
  | some u => watching.insert u (((watching.get? u).getD .empty).add m)

/-- From `a` and from `b` a request on the match is answered alike, sends the same and does the
same. -/
structure HandledAbreast (m : MatchId) (a b : Arbiter) (x y : Handled) : Prop where
  answer : y.answer = x.answer
  sent : y.sent = x.sent
  state : Abreast m a x.state b y.state
  watching : ∃ watcher, x.state.watching = noted m a.watching watcher ∧
    y.state.watching = noted m b.watching watcher

theorem HandledAbreast.still (h : AgreesAt m a b) (sent : List Delivery) :
    HandledAbreast m a b ⟨.done, sent, a⟩ ⟨.done, sent, b⟩ :=
  ⟨rfl, rfl, .refl h, none, rfl, rfl⟩

theorem showMoves_abreast (h : AgreesAt m a b) (hk : a.hall.Keyed) (c : Connection)
    (source : String) :
    HandledAbreast m a b (a.showMoves c m source) (b.showMoves c m source) := by
  rw [showMoves_eq, showMoves_eq]
  cases Square.parse source with
  | error e => exact .still h _
  | ok s =>
      have hattend := h.attend hk (blind_showAct c.user s) (showAct_acted c.user s)
      simp only
      generalize a.attend m (showAct c.user s) = x at hattend ⊢
      generalize b.attend m (showAct c.user s) = y at hattend ⊢
      cases hattend with
      | refused e a' b' h' hw hw' => exact ⟨rfl, rfl, h', none, hw, hw'⟩
      | attended v v' a' b' hview h' hw hw' =>
          obtain rfl : v' = v := hview
          cases v' with
          | error e => exact ⟨rfl, rfl, h', none, hw, hw'⟩
          | ok squares => exact ⟨rfl, rfl, h', none, hw, hw'⟩

/-- The picture of a table does not show its serial number, nor do its followers depend on it. -/
theorem eq_of_numbered {t t' : Table} (h : t'.numbered 0 = t.numbered 0) :
    t'.snapshot = t.snapshot ∧ t'.followers = t.followers := by
  rw [Table.eq_numbered h]
  exact ⟨rfl, rfl⟩

theorem map_eq_map {v v' : Except Refusal β} (h : v'.map view = v.map view) :
    (∃ e, v = .error e ∧ v' = .error e) ∨
      ∃ x x', v = .ok x ∧ v' = .ok x' ∧ view x' = view x := by
  cases v with
  | error e =>
      cases v' with
      | error e' => exact .inl ⟨e, rfl, by rw [Except.error.inj h]⟩
      | ok x' => cases h
  | ok x =>
      cases v' with
      | error e' => cases h
      | ok x' => exact .inr ⟨x, x', rfl, rfl, Except.ok.inj h⟩

theorem move_abreast (h : AgreesAt m a b) (hk : a.hall.Keyed) (hk' : b.hall.Keyed) (c : Connection)
    (source target : String) :
    HandledAbreast m a b (a.move c m source target) (b.move c m source target) := by
  rw [move_eq hk, move_eq hk']
  cases Square.parse source with
  | error e => exact .still h _
  | ok s =>
      cases Square.parse target with
      | error e => exact .still h _
      | ok s' =>
          have hattend := h.attend hk (blind_moveAct c s s') (moveAct_acted c s s')
          simp only
          generalize a.attend m (moveAct c s s') = x at hattend ⊢
          generalize b.attend m (moveAct c s s') = y at hattend ⊢
          cases hattend with
          | refused e a' b' h' hw hw' => exact ⟨rfl, rfl, h', none, hw, hw'⟩
          | attended v v' a' b' hview h' hw hw' =>
              rcases map_eq_map hview with ⟨e, rfl, rfl⟩ | ⟨⟨o, t⟩, ⟨o', t'⟩, rfl, rfl, hsame⟩
              · exact ⟨rfl, rfl, h', none, hw, hw'⟩
              · obtain ⟨rfl, ht⟩ := Prod.mk.inj hsame
                obtain ⟨hpicture, hfollowers⟩ := eq_of_numbered ht
                refine ⟨rfl, ?_, h', none, hw, hw'⟩
                simp only
                rw [hpicture, hfollowers]

theorem join_abreast (h : AgreesAt m a b) (hk : a.hall.Keyed) (opened : Connections) (u : UserId) :
    HandledAbreast m a b (a.join opened m u) (b.join opened m u) := by
  rw [join_eq, join_eq]
  have hattend := h.attend hk (blind_joinAct (opened.ofUser u) u) (joinAct_acted (opened.ofUser u) u)
  generalize a.attend m (joinAct (opened.ofUser u) u) = x at hattend ⊢
  generalize b.attend m (joinAct (opened.ofUser u) u) = y at hattend ⊢
  cases hattend with
  | refused e a' b' h' hw hw' => exact ⟨rfl, rfl, h', none, hw, hw'⟩
  | attended v v' a' b' hview h' hw hw' =>
      rcases map_eq_map hview with ⟨e, rfl, rfl⟩ | ⟨t, t', rfl, rfl, hsame⟩
      · exact ⟨rfl, rfl, h', none, hw, hw'⟩
      · obtain ⟨hpicture, hfollowers⟩ := eq_of_numbered hsame
        refine ⟨rfl, ?_, h', none, hw, hw'⟩
        simp only
        rw [hpicture, hfollowers]

theorem watch_abreast (h : AgreesAt m a b) (hk : a.hall.Keyed) (opened : Connections) (u : UserId) :
    HandledAbreast m a b (a.watch opened m u) (b.watch opened m u) := by
  rw [watch_eq, watch_eq]
  have hattend := h.attend hk (blind_followAct (opened.ofUser u))
    (followAct_acted (opened.ofUser u))
  generalize a.attend m (followAct (opened.ofUser u)) = x at hattend ⊢
  generalize b.attend m (followAct (opened.ofUser u)) = y at hattend ⊢
  cases hattend with
  | refused e a' b' h' hw hw' => exact ⟨rfl, rfl, h', none, hw, hw'⟩
  | attended t t' a' b' hview h' hw hw' =>
      obtain ⟨hpicture, hfollowers⟩ := eq_of_numbered hview
      refine ⟨rfl, ?_, h'.watching _ _, if (opened.ofUser u).isEmpty then none else some u, ?_, ?_⟩
      · simp only
        rw [hpicture, hfollowers]
      · simp only [hw, watched]
        split_ifs <;> rfl
      · simp only [hw', watched]
        split_ifs <;> rfl

/-- A request on a match depends on no more than what two states agree on at the match. -/
theorem handled_abreast (h : AgreesAt m a b) (hk : a.hall.Keyed) (hk' : b.hall.Keyed)
    (opened : Connections) (hr : r.about = some m) :
    HandledAbreast m a b (a.handle opened r) (b.handle opened r) := by
  cases r with
  | showMoves c id source =>
      cases hr
      exact showMoves_abreast h hk c source
  | move c id source target =>
      cases hr
      exact move_abreast h hk hk' c source target
  | join id u =>
      cases hr
      exact join_abreast h hk opened u
  | watch id u =>
      cases hr
      exact watch_abreast h hk opened u
  | _ => cases hr

end Arbiter
end LiveChess
