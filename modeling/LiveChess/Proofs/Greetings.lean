import LiveChess.Proofs.FanOut
import LiveChess.Proofs.Independence
import LiveChess.Proofs.Watching

/-! # What a connection is shown when it comes up

A connection that comes up is shown one match after another, and showing one may set up a table,
clear one away or fail.  None of this is felt by the matches that come later: what each of them is
shown with (`greeting`) and what becomes of its table (`Welcomed`) depends on the state in which the
connection came up.  `greets_showOne` says so of one match, `greets_showAll` of a list, and
`ViewRestored` puts it in terms of who follows what.  Shown again, every match looks the same, for a
connection that follows does not come to follow anew (`Connections.insert_insert`). -/

namespace LiveChess

theorem Connections.insert_insert (cs : Connections) (c : Connection) :
    (cs.insert c).insert c = cs.insert c := by
  have hnumbers : (cs.insert c).numbersOf c.user = (cs.numbersOf c.user).add c.id := by
    unfold numbersOf insert
    rw [SortedMap.get?_insert_self]
    rfl
  have hadd : ((cs.numbersOf c.user).add c.id).add c.id = (cs.numbersOf c.user).add c.id :=
    SortedMap.insert_insert _ _ _ _
  rw [insert, hnumbers, hadd, insert, SortedMap.insert_insert]

theorem Table.connect_connect (t : Table) (c : Connection) :
    (t.connect c).connect c = t.connect c := by
  unfold connect
  rw [Connections.insert_insert]

namespace Arbiter

variable {a a' : Arbiter} {m : MatchId} {c d : Connection} {t t' : Table} {ids : List MatchId}

/-! ### What there is to show of a match -/

/-- The game of a match as a request finds it, at its table or else rebuilt from its record, or why
there is none. -/
def glimpse (a : Arbiter) (m : MatchId) : Except Refusal Game :=
  match a.hall.tables.get? m with
  | some t => .ok t.game
  | none =>
    match (a.store.load m a.hall.budget).1 with
    | .error e => .error (Hall.refusalOfLoad e)
    | .ok r => Game.ofRecord r

/-- The connections that follow a match. -/
def followersOf (a : Arbiter) (m : MatchId) : Connections :=
  match a.hall.tables.get? m with
  | some t => t.followers
  | none => .empty

/-- What a connection that comes up is told of a match. -/
def greeting (a : Arbiter) (c : Connection) (m : MatchId) : Notice :=
  match a.glimpse m with
  | .ok g => .newBoard m (g.snapshot m ((a.followersOf m).insert c).users)
  | .error e => .refused e

/-- What becomes of the table of a match that is shown to a connection: the connection comes to
follow it, and it stays unless the match is over. -/
inductive Welcomed (a : Arbiter) (c : Connection) (m : MatchId) : Option Table → Prop where
  | held (t : Table) (h : a.hall.tables.get? m = some t) : Welcomed a c m (some (t.connect c))
  | loaded (g : Game) (serial : Nat) (h : a.hall.tables.get? m = none) (read : a.glimpse m = .ok g)
      (unfinished : g.status ≠ .closed) :
      Welcomed a c m (some ⟨m, serial, a.hall.budget, g, Connections.empty.insert c⟩)
  | finished (g : Game) (h : a.hall.tables.get? m = none) (read : a.glimpse m = .ok g)
      (closed : g.status = .closed) : Welcomed a c m none
  | missing (e : Refusal) (h : a.hall.tables.get? m = none) (read : a.glimpse m = .error e) :
      Welcomed a c m none

/-- Records, names and luck of the store, the budget of its calls and what is watched are the
same. -/
structure Rests (a a' : Arbiter) : Prop where
  steady : Steady a a'
  records : a'.store.records = a.store.records
  watching : a'.watching = a.watching

theorem Rests.refl (a : Arbiter) : Rests a a := ⟨⟨rfl, rfl, rfl, rfl⟩, rfl, rfl⟩

theorem Rests.trans {a'' : Arbiter} (h : Rests a a') (h' : Rests a' a'') : Rests a a'' := by
  obtain ⟨⟨hbudget, houtage, hsupply, hcreated⟩, hrecords, hwatching⟩ := h
  obtain ⟨⟨hbudget', houtage', hsupply', hcreated'⟩, hrecords', hwatching'⟩ := h'
  exact ⟨⟨hbudget'.trans hbudget, houtage'.trans houtage, hsupply'.trans hsupply,
    hcreated'.trans hcreated⟩, hrecords'.trans hrecords, hwatching'.trans hwatching⟩

theorem Rests.nextId (h : Rests a a') : a'.store.nextId = a.store.nextId := by
  unfold Store.nextId
  rw [h.steady.supply, h.steady.created]

theorem rests_showOne (c : Connection) (a : Arbiter) (m : MatchId) : Rests a (showOne c a m).2 := by
  refine ⟨?_, ?_, watching_showOne c a m⟩
  · rw [state_showOne]
    exact (attend_attended a m _ (followAct_acted [c])).steady
  · have hfind := a.find_finds m
    unfold showOne
    generalize a.find m = x at hfind ⊢
    cases hfind with
    | held t ht => rfl
    | refused e ht => rfl
    | loaded r g ht hr hg => rfl

theorem load_congr (hrecords : a'.store.records = a.store.records)
    (houtage : a'.store.outage.load m = a.store.outage.load m)
    (hbudget : a'.hall.budget = a.hall.budget) :
    (a'.store.load m a'.hall.budget).1 = (a.store.load m a.hall.budget).1 := by
  unfold Store.load
  rw [hrecords, houtage, hbudget]
  cases Store.hindrance (a.store.outage.load m) a.hall.budget with
  | some e => rfl
  | none => cases a.store.records.get? m <;> rfl

/-- What there is to show of a match depends on its table and on what is read of it. -/
theorem glimpse_congr (htable : a'.hall.tables.get? m = a.hall.tables.get? m)
    (hload : (a'.store.load m a'.hall.budget).1 = (a.store.load m a.hall.budget).1) :
    a'.glimpse m = a.glimpse m := by
  unfold glimpse
  rw [htable, hload]

theorem Rests.glimpse (h : Rests a a')
    (htable : a'.hall.tables.get? m = a.hall.tables.get? m) : a'.glimpse m = a.glimpse m :=
  glimpse_congr htable
    (load_congr h.records (congrFun (congrArg Outage.load h.steady.outage) m) h.steady.budget)

theorem greeting_congr (htable : a'.hall.tables.get? m = a.hall.tables.get? m)
    (hglimpse : a'.glimpse m = a.glimpse m) : a'.greeting c m = a.greeting c m := by
  unfold greeting followersOf
  rw [htable, hglimpse]

theorem Welcomed.congr {x : Option Table} (h : Welcomed a' c m x)
    (htable : a'.hall.tables.get? m = a.hall.tables.get? m) (hglimpse : a'.glimpse m = a.glimpse m)
    (hbudget : a'.hall.budget = a.hall.budget) : Welcomed a c m x := by
  cases h with
  | held t ht => exact .held t (htable.symm.trans ht)
  | loaded g serial ht hg hopen =>
      rw [hbudget]
      exact .loaded g serial (htable.symm.trans ht) (hglimpse.symm.trans hg) hopen
  | finished g ht hg hclosed =>
      exact .finished g (htable.symm.trans ht) (hglimpse.symm.trans hg) hclosed
  | missing e ht hg => exact .missing e (htable.symm.trans ht) (hglimpse.symm.trans hg)

/-! ### Showing matches -/

/-- The connection was shown the matches, each as it was in the state before. -/
structure Greets (a : Arbiter) (c : Connection) (ids : List MatchId)
    (x : List Delivery × Arbiter) : Prop where
  sent : x.1 = ids.map fun m => ⟨c.id, a.greeting c m⟩
  welcomed : ∀ m ∈ ids, Welcomed a c m (x.2.hall.tables.get? m)
  others : ∀ m, m ∉ ids → x.2.hall.tables.get? m = a.hall.tables.get? m
  rests : Rests a x.2

/-- The table that is found has the game that there is to show. -/
theorem map_game_find (a : Arbiter) (m : MatchId) :
    (a.find m).1.map Table.game = a.glimpse m := by
  unfold glimpse
  cases ht : a.hall.tables.get? m with
  | some t =>
      rw [find_of_held ht]
      rfl
  | none =>
      rw [find_of_missing ht]
      simp only
      cases (a.store.load m a.hall.budget).1 with
      | error e => rfl
      | ok r =>
          simp only
          cases Game.ofRecord r <;> rfl

theorem greets_showOne (hk : Kempt a) (c : Connection) (m : MatchId) :
    Greets a c [m] (showOne c a m) := by
  have hothers : ∀ j, j ∉ [m] → (showOne c a m).2.hall.tables.get? j = a.hall.tables.get? j := by
    intro j hj
    exact (agreesOff_showOne hk.keyed c m).tables j (mt List.mem_singleton.mpr hj)
  have hfind := a.find_finds m
  have hread := a.map_game_find m
  have hrests := rests_showOne c a m
  unfold showOne at hothers hrests ⊢
  generalize a.find m = x at hfind hread hothers hrests ⊢
  cases hfind with
  | held t ht =>
      have hid : t.id = m := hk.keyed m t ht
      have htold : a.greeting c m = .newBoard m (t.connect c).snapshot := by
        unfold greeting followersOf
        rw [← hread, ht, ← hid]
        rfl
      have hkept : (a.settle (t.connect c)).hall.tables.get? m = some (t.connect c) := by
        rw [get?_settle_self a (t := t.connect c) hid]
        exact if_neg (hk.sound m t ht).unfinished
      refine ⟨?_, fun j hj => ?_, hothers, hrests⟩
      · rw [List.map_singleton, htold]
      · obtain rfl := List.mem_singleton.mp hj
        exact hkept ▸ .held t ht
  | refused e ht =>
      have htold : a.greeting c m = .refused e := by
        unfold greeting
        rw [← hread]
        rfl
      refine ⟨?_, fun j hj => ?_, hothers, hrests⟩
      · rw [List.map_singleton, htold]
        rfl
      · obtain rfl := List.mem_singleton.mp hj
        exact ht ▸ .missing e ht hread.symm
  | loaded r g ht hr hg =>
      have htold : a.greeting c m =
          .newBoard m (g.snapshot m (Connections.empty.insert c).users) := by
        unfold greeting followersOf
        rw [← hread, ht]
        rfl
      refine ⟨?_, fun j hj => ?_, hothers, hrests⟩
      · rw [List.map_singleton, htold]
        rfl
      · obtain rfl := List.mem_singleton.mp hj
        have hkept := fun b =>
          get?_settle_self b (t := Table.connect ⟨j, a.hall.issued, a.hall.budget, g, .empty⟩ c) rfl
        refine (hkept _).symm ▸ ?_
        split_ifs with hclosed
        · exact .finished g ht hread.symm hclosed
        · exact .loaded g a.hall.issued ht hread.symm hclosed

theorem kempt_showOne (hk : Kempt a) (c : Connection) (m : MatchId) : Kempt (showOne c a m).2 :=
  (kempt_showAll hk c [m]).1

/-- Showing a list of matches is showing each as it was before the first of them. -/
theorem greets_showAll (hk : Kempt a) (c : Connection) (hids : ids.Nodup) :
    Greets a c ids (showAll c ids a) := by
  induction ids generalizing a with
  | nil => exact ⟨rfl, fun m hm => absurd hm List.not_mem_nil, fun _ _ => rfl, .refl a⟩
  | cons m ids ih =>
      obtain ⟨hm, hids⟩ := List.nodup_cons.mp hids
      obtain ⟨hsent, hwelcomed, hothers, hrests⟩ := greets_showOne hk c m
      obtain ⟨hsent', hwelcomed', hothers', hrests'⟩ := ih (kempt_showOne hk c m) hids
      have htable : ∀ j, j ∈ ids →
          (showOne c a m).2.hall.tables.get? j = a.hall.tables.get? j := by
        intro j hj
        refine hothers j fun e => hm ?_
        rwa [← List.mem_singleton.mp e]
      refine ⟨?_, fun j hj => ?_, fun j hj => ?_, hrests.trans hrests'⟩
      · show (showOne c a m).1 ++ (showAll c ids (showOne c a m).2).1 = _
        rw [hsent, hsent', List.map_singleton, List.singleton_append, List.map_cons]
        congr 1
        refine List.map_congr_left fun j hj => ?_
        rw [greeting_congr (htable j hj) (hrests.glimpse (htable j hj))]
      · show Welcomed a c j ((showAll c ids (showOne c a m).2).2.hall.tables.get? j)
        rcases List.mem_cons.mp hj with rfl | hj
        · rw [hothers' j hm]
          exact hwelcomed j (List.mem_singleton_self j)
        · exact (hwelcomed' j hj).congr (htable j hj) (hrests.glimpse (htable j hj))
            hrests.steady.budget
      · obtain ⟨hjm, hj⟩ := not_or.mp (mt List.mem_cons.mpr hj)
        show (showAll c ids (showOne c a m).2).2.hall.tables.get? j = _
        rw [hothers' j hj]
        exact hothers j fun e => hjm (List.mem_singleton.mp e)

/-! ### The view of a connection -/

theorem pairwise_view (seated : List MatchId) (watched : SortedSet MatchId) :
    (view seated watched).Pairwise fun m m' => Ranked.rank m < Ranked.rank m' :=
  List.pairwise_map.mpr (seated.foldl SortedMap.add watched).ascending

theorem nodup_view (seated : List MatchId) (watched : SortedSet MatchId) :
    (view seated watched).Nodup := SortedMap.nodup_keys _

/-- Whom a connection sees when it comes up and looks at a match. -/
theorem mem_users_greeting (ht : Tight a) (c : Connection) (m : MatchId) (u : UserId) :
    u ∈ ((a.followersOf m).insert c).users ↔ u = c.user ∨ ∃ i, Follows a m ⟨i, u⟩ := by
  have htight : (a.followersOf m).Tight := by
    unfold followersOf
    cases h : a.hall.tables.get? m with
    | some t => exact ht m t h
    | none => exact Connections.tight_empty
  have hfollows : ∀ d, (a.followersOf m).contains d = true ↔ Follows a m d := by
    intro d
    unfold followersOf Follows
    cases h : a.hall.tables.get? m with
    | some t => simp
    | none => simp [Connections.contains, Connections.numbersOf, Connections.empty,
        SortedMap.contains]
  rw [Connections.mem_users (htight.insert c)]
  simp only [Connections.contains_insert, hfollows, exists_or]
  refine or_congr_left ⟨?_, ?_⟩
  · rintro ⟨i, hi⟩
    exact congrArg Connection.user hi
  · rintro rfl
    exact ⟨c.id, rfl⟩

/-- What became of a connection that came up in a state: it has been told of its matches, one after
another, and follows those that are not over; nothing else has changed. -/
structure ViewRestored (a : Arbiter) (c : Connection) (ids : List MatchId) (x : Handled) :
    Prop where
  entitled : ∀ m, m ∈ ids ↔ Entitled a m c.user
  ascending : ids.Pairwise fun m m' => Ranked.rank m < Ranked.rank m'
  sent : x.sent = ids.map fun m => ⟨c.id, a.greeting c m⟩
  boards : ∀ m g, a.glimpse m = .ok g → ∃ viewers,
    a.greeting c m = .newBoard m (g.snapshot m viewers) ∧
      (∀ u, u ∈ viewers ↔ u = c.user ∨ ∃ i, Follows a m ⟨i, u⟩) ∧
      viewers.Pairwise fun u v => Ranked.rank u < Ranked.rank v
  refusals : ∀ m e, a.glimpse m = .error e → a.greeting c m = .refused e
  follows : ∀ m d, Follows x.state m d ↔
    Follows a m d ∨ d = c ∧ m ∈ ids ∧ ∃ g, a.glimpse m = .ok g ∧ g.status ≠ .closed
  unfinished : ∀ m t, x.state.hall.tables.get? m = some t → t.game.status ≠ .closed
  kept : ∀ m t, a.hall.tables.get? m = some t →
    ∃ t', x.state.hall.tables.get? m = some t' ∧ t'.serial = t.serial ∧ t'.game = t.game
  origin : ∀ m t', x.state.hall.tables.get? m = some t' → a.glimpse m = .ok t'.game ∧
    (m ∈ ids ∨ (a.hall.tables.get? m).isSome = true)
  records : x.state.store.records = a.store.records
  names : x.state.store.nextId = a.store.nextId
  watching : x.state.watching = a.watching

theorem glimpse_of_held (ht : a.hall.tables.get? m = some t) : a.glimpse m = .ok t.game := by
  unfold glimpse
  rw [ht]

/-- Who follows a match that was shown. -/
theorem Welcomed.follows {x : Option Table} (h : Welcomed a c m x) (hk : Kempt a) :
    (∃ t', x = some t' ∧ t'.followers.contains d = true) ↔
      Follows a m d ∨ d = c ∧ ∃ g, a.glimpse m = .ok g ∧ g.status ≠ .closed := by
  unfold Follows
  cases h with
  | held t ht =>
      have hopen := (hk.sound m t ht).unfinished
      simp only [Option.some.injEq, exists_eq_left', ht, glimpse_of_held ht, Except.ok.injEq, hopen,
        not_false_eq_true, and_true, ne_eq]
      exact Connections.contains_insert.trans or_comm
  | loaded g serial ht hg hopen =>
      simp only [Option.some.injEq, exists_eq_left', ht, hg, Except.ok.injEq, hopen, reduceCtorEq,
        false_and, exists_false, false_or, not_false_eq_true, and_true, ne_eq]
      rw [Connections.contains_insert]
      simp [Connections.contains, Connections.numbersOf, Connections.empty, SortedMap.contains]
  | finished g ht hg hclosed => simp [ht, hg, hclosed]
  | missing e ht hg => simp [ht, hg]

/-- A table that a shown match has got shows what there was to show. -/
theorem Welcomed.glimpse_eq (h : Welcomed a c m (some t')) : a.glimpse m = .ok t'.game := by
  cases h with
  | held t ht =>
      show a.glimpse m = .ok t.game
      exact glimpse_of_held ht
  | loaded g serial ht hg hopen => exact hg

theorem Greets.viewRestored {ids₀ : List MatchId} (hk : Kempt a) (htight : Tight a)
    (hseated : a.hall.seated c.user a.store = .ok ids₀) {x : List Delivery × Arbiter}
    (hkempt : Kempt x.2) (h : Greets a c (a.shown c) x) :
    ViewRestored a c (a.shown c) ⟨.done, x.1, x.2⟩ := by
  obtain ⟨hsent, hwelcomed, hothers, hrests⟩ := h
  have hview : a.shown c = view ids₀ (a.watched c.user) := by
    unfold shown
    rw [hseated]
  exact {
    entitled := fun m => mem_shown (by rw [hseated]; rfl)
    ascending := hview ▸ pairwise_view _ _
    sent := hsent
    boards := fun m g hg => ⟨_, by unfold greeting; rw [hg], mem_users_greeting htight c m,
      Connections.ascending_users _⟩
    refusals := fun m e he => by unfold greeting; rw [he]
    follows := fun m d => by
      by_cases hm : m ∈ a.shown c
      · refine ((hwelcomed m hm).follows hk).trans (or_congr_right ?_)
        simp [hm]
      · unfold Follows
        rw [hothers m hm]
        simp [hm]
    unfinished := fun m t ht => (hkempt.sound m t ht).unfinished
    kept := fun m t ht => by
      by_cases hm : m ∈ a.shown c
      · have hw := hwelcomed m hm
        show ∃ t', x.2.hall.tables.get? m = some t' ∧ _
        generalize x.2.hall.tables.get? m = y at hw ⊢
        cases hw with
        | held t' ht' =>
            obtain rfl : t' = t := Option.some.inj (ht'.symm.trans ht)
            exact ⟨_, rfl, rfl, rfl⟩
        | loaded g serial hnone => exact nomatch hnone.symm.trans ht
        | finished g hnone => exact nomatch hnone.symm.trans ht
        | missing e hnone => exact nomatch hnone.symm.trans ht
      · exact ⟨t, (hothers m hm).trans ht, rfl, rfl⟩
    origin := fun m t' ht' => by
      by_cases hm : m ∈ a.shown c
      · exact ⟨Welcomed.glimpse_eq (ht' ▸ hwelcomed m hm), .inl hm⟩
      · have ht : a.hall.tables.get? m = some t' := (hothers m hm).symm.trans ht'
        exact ⟨glimpse_of_held ht, .inr (by rw [ht]; rfl)⟩
    records := hrests.records
    names := hrests.nextId
    watching := hrests.watching }

theorem connect_of_seated {ids₀ : List MatchId}
    (h : a.hall.seated c.user a.store = .ok ids₀) :
    a.connect c = ⟨.done, (showAll c (a.shown c) a).1, (showAll c (a.shown c) a).2⟩ := by
  unfold connect shown
  rw [h]

theorem connect_of_not_seated {e : Refusal} (h : a.hall.seated c.user a.store = .error e) :
    a.connect c = ⟨.done, tellRefusal c e, a⟩ := by
  unfold connect
  rw [h]

/-! ### Coming up again -/

theorem seated_congr (a a' : Arbiter) {u : UserId}
    (hrecords : a'.store.records = a.store.records)
    (houtage : a'.store.outage.seated u = a.store.outage.seated u)
    (hbudget : a'.hall.budget = a.hall.budget) :
    a'.hall.seated u a'.store = a.hall.seated u a.store := by
  unfold Hall.seated Store.seated
  rw [hrecords, houtage, hbudget]

/-- A table that the connection follows already is shown as it was and stays as it is. -/
theorem welcomed_of_followed (ht : a.hall.tables.get? m = some t)
    (hsame : t.connect c = t) {x : Option Table} (h : Welcomed a c m x) : x = some t := by
  cases h with
  | held t' ht' =>
      obtain rfl : t' = t := Option.some.inj (ht'.symm.trans ht)
      rw [hsame]
  | loaded g serial hnone => exact nomatch hnone.symm.trans ht
  | finished g hnone => exact nomatch hnone.symm.trans ht
  | missing e hnone => exact nomatch hnone.symm.trans ht

/-- A match without a table is not set up for a connection if it is over or cannot be read. -/
theorem welcomed_of_not_open (hnone : a.hall.tables.get? m = none)
    (hclosed : ∀ g, a.glimpse m = .ok g → g.status = .closed) {x : Option Table}
    (h : Welcomed a c m x) : x = none := by
  cases h with
  | held t ht => exact nomatch hnone.symm.trans ht
  | loaded g serial ht hg hopen => exact absurd (hclosed g hg) hopen
  | finished g => rfl
  | missing e => rfl

/-- A match that was shown is shown alike the next time, and its table stays as it is. -/
theorem Welcomed.again (h : Welcomed a c m (a'.hall.tables.get? m))
    (hload : (a'.store.load m a'.hall.budget).1 = (a.store.load m a.hall.budget).1) :
    a'.greeting c m = a.greeting c m ∧
      ∀ x, Welcomed a' c m x → x = a'.hall.tables.get? m := by
  have hmissing : a.hall.tables.get? m = none → a'.hall.tables.get? m = none →
      a'.glimpse m = a.glimpse m ∧ a'.greeting c m = a.greeting c m := by
    intro hnone hnone'
    have htable := hnone'.trans hnone.symm
    have hread := glimpse_congr htable hload
    exact ⟨hread, greeting_congr htable hread⟩
  generalize hz : a'.hall.tables.get? m = z at h
  cases h with
  | held t ht =>
      refine ⟨?_, fun x => welcomed_of_followed hz (t.connect_connect c)⟩
      unfold greeting followersOf
      rw [glimpse_of_held hz, glimpse_of_held ht, hz, ht]
      show Notice.newBoard m (t.game.snapshot m ((t.followers.insert c).insert c).users) = _
      rw [Connections.insert_insert]
  | loaded g serial ht hg hopen =>
      refine ⟨?_, fun x => welcomed_of_followed hz (Table.connect_connect ⟨_, _, _, _, .empty⟩ c)⟩
      unfold greeting followersOf
      rw [glimpse_of_held hz, hg, hz, ht]
      show Notice.newBoard m (g.snapshot m ((Connections.empty.insert c).insert c).users) = _
      rw [Connections.insert_insert]
  | finished g ht hg hclosed =>
      obtain ⟨hread, htold⟩ := hmissing ht hz
      refine ⟨htold, fun x => welcomed_of_not_open hz fun g' hg' => ?_⟩
      obtain rfl : g' = g := Except.ok.inj (hg'.symm.trans (hread.trans hg))
      exact hclosed
  | missing e ht he =>
      obtain ⟨hread, htold⟩ := hmissing ht hz
      exact ⟨htold, fun x => welcomed_of_not_open hz fun g hg =>
        nomatch hg.symm.trans (hread.trans he)⟩

/-- Coming up again, a connection is told the same and nothing changes. -/
theorem connect_again (hk : Kempt a) (o : Outage)
    (hseated : o.seated c.user = a.store.outage.seated c.user)
    (hload : ∀ m, o.load m = a.store.outage.load m) :
    let x := a.connect c
    let y := (x.state.under o).connect c
    y.answer = x.answer ∧ y.sent = x.sent ∧ Untouched none x.state y.state := by
  intro x y
  cases hs : a.hall.seated c.user a.store with
  | error e =>
      have hx : x = ⟨.done, tellRefusal c e, a⟩ := connect_of_not_seated hs
      have hs' : (a.under o).hall.seated c.user (a.under o).store = .error e :=
        (seated_congr a (a.under o) rfl hseated rfl).trans hs
      have hy : y = ⟨.done, tellRefusal c e, a.under o⟩ := by
        show (x.state.under o).connect c = _
        rw [hx]
        exact connect_of_not_seated hs'
      rw [hx, hy]
      exact ⟨rfl, rfl, rfl, rfl, rfl, fun _ _ h => h, fun _ _ h => .inl h⟩
  | ok ids₀ =>
      have hnodup : (a.shown c).Nodup := by
        unfold shown
        rw [hs]
        exact nodup_view _ _
      obtain ⟨hsent, hwelcomed, hothers, hrests⟩ := greets_showAll hk c hnodup
      have hkempt := (kempt_showAll hk c (a.shown c)).1
      have hx : x = ⟨.done, (showAll c (a.shown c) a).1, (showAll c (a.shown c) a).2⟩ :=
        connect_of_seated hs
      clear_value x
      generalize showAll c (a.shown c) a = z at hsent hwelcomed hothers hrests hkempt hx
      obtain ⟨told, b⟩ := z
      subst hx
      -- the state in which the connection comes up again, and what it is shown then
      have hs' : (b.under o).hall.seated c.user (b.under o).store = .ok ids₀ :=
        (seated_congr a (b.under o) hrests.records hseated hrests.steady.budget).trans hs
      have hwatched : (b.under o).watched c.user = a.watched c.user := by
        unfold watched
        rw [show (b.under o).watching = a.watching from hrests.watching]
      have hshown : (b.under o).shown c = a.shown c := by
        unfold shown
        rw [hs', hs, hwatched]
      have hagain : ∀ m ∈ a.shown c, (b.under o).greeting c m = a.greeting c m ∧
          ∀ x, Welcomed (b.under o) c m x → x = b.hall.tables.get? m := by
        intro m hm
        have hw : Welcomed a c m ((b.under o).hall.tables.get? m) := hwelcomed m hm
        exact hw.again (load_congr hrests.records (hload m) hrests.steady.budget)
      obtain ⟨hsent', hwelcomed', hothers', hrests'⟩ :=
        greets_showAll (hkempt.under o) c (hshown.symm ▸ hnodup)
      have hy : y = ⟨.done, (showAll c (a.shown c) (b.under o)).1,
          (showAll c (a.shown c) (b.under o)).2⟩ := hshown ▸ connect_of_seated hs'
      rw [hshown] at hsent' hwelcomed' hothers' hrests'
      have htables : ∀ m, (showAll c (a.shown c) (b.under o)).2.hall.tables.get? m =
          b.hall.tables.get? m := by
        intro m
        by_cases hm : m ∈ a.shown c
        · exact (hagain m hm).2 _ (hwelcomed' m hm)
        · exact hothers' m hm
      rw [hy]
      refine ⟨rfl, ?_, hrests'.records, hrests'.nextId, hrests'.watching,
        fun m t ht => (htables m).trans ht, fun m t ht => .inl ((htables m).symm.trans ht)⟩
      show (showAll c (a.shown c) (b.under o)).1 = told
      rw [hsent', show told = _ from hsent]
      exact List.map_congr_left fun m hm => by rw [(hagain m hm).1]

/-- **Coming up restores a connection's whole view.**  Start from a store with any records, and
handle any requests with any connections open and any calls of the store failing; then let a
connection come up, calls failing or not.  If the store does not list the matches of its user, the
connection is told why, and nothing else happens.  Otherwise it is told, and nobody else is, of
every match that its user has a seat in or watches, of each once and in ascending order: the board
with the user among the viewers, if the match has a table or its record makes a board, and else the
reason.  Afterwards it follows the matches that it followed before and those it was shown that are
not over, and no others; no table of a finished match is kept; records, games, what others follow
and what is watched are as before.  If it comes up again and the store answers alike, it is told
the same again and nothing changes. -/
theorem connect_restores_view (store : Store) (budget : Duration) {es : List Occasion}
    {a : Arbiter} (ha : a = (new store budget).after es) (c : Connection) (opened : Connections)
    (o : Outage) :
    let x := a.meet ⟨.connect c, opened, o⟩
    (∀ e, a.hall.seated c.user (a.under o).store = .error e →
      x = ⟨.done, [⟨c.id, .refused e⟩], a.under o⟩) ∧
    (∀ seated, a.hall.seated c.user (a.under o).store = .ok seated →
      x.answer = .done ∧ ∃ ids, ViewRestored (a.under o) c ids x) ∧
    ∀ (opened' : Connections) (o' : Outage), o'.seated c.user = o.seated c.user →
      (∀ m, o'.load m = o.load m) →
      let y := x.state.meet ⟨.connect c, opened', o'⟩
      y.answer = x.answer ∧ y.sent = x.sent ∧ Untouched none x.state y.state := by
  intro x
  have hk : Kempt (a.under o) :=
    (ha ▸ (kempt_after (kempt_new store budget) es).1 : Kempt a).under o
  have htight : Tight (a.under o) :=
    (ha ▸ tight_after (keyed_new store budget) (tight_new store budget) es : Tight a)
  have hx : x = (a.under o).connect c := rfl
  refine ⟨fun e he => ?_, fun seated hs => ?_, fun opened' o' hs hload => ?_⟩
  · rw [hx]
    exact connect_of_not_seated he
  · have hnodup : ((a.under o).shown c).Nodup := by
      unfold shown
      rw [show (a.under o).hall.seated c.user (a.under o).store = .ok seated from hs]
      exact nodup_view _ _
    rw [hx, connect_of_seated hs]
    exact ⟨rfl, _, (greets_showAll hk c hnodup).viewRestored hk htight hs
      (kempt_showAll hk c _).1⟩
  · exact connect_again hk o' hs hload

/-- Alice has seats in three matches, one of them corrupt and one over, and watches the first of
them and a match of Bob's.  Her second connection is shown all four, each once, and follows the two
that are in play; if it comes up again, it is told the same. -/
theorem connect_restores_view_of_alice :
    let alice : Connection := ⟨⟨1⟩, ⟨⟨1⟩⟩⟩
    let c : Connection := ⟨⟨2⟩, alice.user⟩
    let bob : UserId := ⟨⟨2⟩⟩
    let first : MatchId := ⟨⟨5⟩⟩
    let corrupt : MatchId := ⟨⟨6⟩⟩
    let finished : MatchId := ⟨⟨7⟩⟩
    let bobs : MatchId := ⟨⟨8⟩⟩
    let record := MatchRecord.fresh ⟨some alice.user, some bob⟩
    let store := ((((Store.new []).seed first record).seed corrupt
      { record with pieces := [⟨.white, .king, 8, 4⟩] }).seed finished
      { record with status := .closed, winner := some bob }).seed bobs
      (MatchRecord.fresh ⟨some bob, none⟩)
    let opened := Connections.empty.insert alice
    let es : List Occasion :=
      [⟨.watch first alice.user, opened, .none⟩, ⟨.watch bobs alice.user, opened, .none⟩]
    let a := (new store ⟨1000⟩).after es
    let x := a.meet ⟨.connect c, opened.insert c, .none⟩
    let y := x.state.meet ⟨.connect c, opened.insert c, .none⟩
    a.hall.seated c.user (a.under .none).store = .ok [first, corrupt, finished] ∧
      x.sent.map (fun d => (d.recipient, d.notice.isRefusal)) =
        [(c.id, false), (c.id, true), (c.id, false), (c.id, false)] ∧
      (∃ ids, ViewRestored (a.under .none) c ids x ∧ finished ∈ ids ∧ bobs ∈ ids) ∧
      Follows x.state first c ∧ ¬ Follows x.state finished c ∧ Follows x.state bobs c ∧
      y.sent = x.sent ∧ Untouched none x.state y.state := by
  intro alice c bob first corrupt finished bobs record store opened es a x y
  have hseated : a.hall.seated c.user (a.under .none).store = .ok [first, corrupt, finished] := by
    decide +kernel
  have hsent : x.sent.map (fun d => (d.recipient, d.notice.isRefusal)) =
      [(c.id, false), (c.id, true), (c.id, false), (c.id, false)] := by decide +kernel
  have hwatched : ∀ m ∈ [first, bobs], (a.watched c.user).contains m = true := by decide +kernel
  have hrecord : a.store.records.get? finished =
      some { record with status := .closed, winner := some bob } := by decide +kernel
  have hstatus : ∀ m ∈ [(first, Status.underway), (finished, .closed), (bobs, .waiting)],
      ((a.under .none).glimpse m.1).toOption.map (·.status) = some m.2 := by decide +kernel
  have ha : a = (new store ⟨1000⟩).after es := rfl
  have hx : x = a.meet ⟨.connect c, opened.insert c, .none⟩ := rfl
  have hy : y = x.state.meet ⟨.connect c, opened.insert c, .none⟩ := rfl
  clear_value a x y
  obtain ⟨-, hview, hagain⟩ := connect_restores_view store ⟨1000⟩ ha c (opened.insert c) .none
  rw [← hx] at hview hagain
  obtain ⟨-, ids, hv⟩ := hview _ hseated
  obtain ⟨-, htold, hsame⟩ := hagain (opened.insert c) .none rfl fun _ => rfl
  rw [← hy] at htold hsame
  have hread : ∀ m ∈ [(first, Status.underway), (finished, .closed), (bobs, .waiting)],
      ∃ g, (a.under .none).glimpse m.1 = .ok g ∧ g.status = m.2 := by
    intro m hm
    have h := hstatus m hm
    cases hg : (a.under .none).glimpse m.1 with
    | error e => rw [hg] at h; cases h
    | ok g =>
        rw [hg] at h
        exact ⟨g, rfl, Option.some.inj h⟩
  have hfinished : finished ∈ ids := (hv.entitled finished).mpr (.inl ⟨_, hrecord, rfl⟩)
  have hwatches : ∀ m ∈ [first, bobs], m ∈ ids := fun m hm =>
    (hv.entitled m).mpr (.inr (hwatched m hm))
  refine ⟨hseated, hsent, ⟨ids, hv, hfinished, hwatches bobs (by simp)⟩, ?_, ?_, ?_, htold, hsame⟩
  · obtain ⟨g, hg, hunderway⟩ := hread (first, .underway) (by simp)
    exact (hv.follows first c).mpr
      (.inr ⟨rfl, hwatches first (by simp), g, hg, by simp [hunderway]⟩)
  · rintro ⟨t, ht, -⟩
    obtain ⟨g, hg, hclosed⟩ := hread (finished, .closed) (by simp)
    obtain rfl : t.game = g := Except.ok.inj ((hv.origin finished t ht).1.symm.trans hg)
    exact hv.unfinished finished t ht hclosed
  · obtain ⟨g, hg, hwaiting⟩ := hread (bobs, .waiting) (by simp)
    exact (hv.follows bobs c).mpr
      (.inr ⟨rfl, hwatches bobs (by simp), g, hg, by simp [hwaiting]⟩)

end Arbiter
end LiveChess
