import LiveChess.Proofs.Departures
import LiveChess.Proofs.Refusals

/-! # Who is told of a granted request, and what

A granted request to begin, join or watch a match or to move in it attaches connections to the
table of the match, and then tells of itself to exactly the connections that follow the table, each
of them once (`fan_out_exact`).  The list of recipients names each connection once because no number
belongs to two users (`OneOwner`), and the onlookers of a picture are the users of the connections
because the hall keeps no user without one (`Tight`). -/

namespace LiveChess

/-- The notices a connection gets, in the order of sending. -/
def noticesTo (i : ConnectionId) (sent : List Delivery) : List Notice :=
  sent.filterMap fun d => if d.recipient = i then some d.notice else none

theorem noticesTo_append (i : ConnectionId) (l l' : List Delivery) :
    noticesTo i (l ++ l') = noticesTo i l ++ noticesTo i l' := List.filterMap_append

/-- Of a list that names nobody twice, everybody gets the one notice meant for them. -/
theorem noticesTo_map (i : ConnectionId) (f : ConnectionId → Notice) {l : List ConnectionId}
    (hl : l.Nodup) : noticesTo i (l.map fun j => ⟨j, f j⟩) = if i ∈ l then [f i] else [] := by
  induction l with
  | nil => rfl
  | cons j l ih =>
      obtain ⟨hj, hl⟩ := List.nodup_cons.mp hl
      have hcons : noticesTo i ((j :: l).map fun j => ⟨j, f j⟩) =
          (if j = i then [f j] else []) ++ noticesTo i (l.map fun j => ⟨j, f j⟩) := by
        unfold noticesTo
        rw [List.map_cons, List.filterMap_cons]
        split_ifs <;> rfl
      rw [hcons, ih hl]
      by_cases hi : j = i
      · subst hi
        simp [hj]
      · simp [hi, Ne.symm hi]

theorem noticesTo_broadcast (i : ConnectionId) (ns : List Notice) {l : List ConnectionId}
    (hl : l.Nodup) :
    noticesTo i (ns.flatMap (Arbiter.broadcast l)) = if i ∈ l then ns else [] := by
  induction ns with
  | nil => simp [noticesTo]
  | cons n ns ih =>
      rw [List.flatMap_cons, noticesTo_append, ih]
      have hone : noticesTo i (Arbiter.broadcast l n) = if i ∈ l then [n] else [] :=
        noticesTo_map i (fun _ => n) hl
      rw [hone]
      split_ifs <;> rfl

namespace Arbiter

variable {a a' : Arbiter} {id m : MatchId} {t t' : Table} {s s' : Store} {c : Connection}
  {u : UserId} {own : List Connection} {opened : Connections} {r : Request}

/-! ### No user without a connection -/

/-- No table keeps a following user without a connection. -/
def Tight (a : Arbiter) : Prop :=
  ∀ m t, a.hall.tables.get? m = some t → t.followers.Tight

theorem tight_connectAll (h : t.followers.Tight) (cs : List Connection) :
    (t.connectAll cs).followers.Tight := by
  rw [Table.connectAll_eq]
  exact h.insertAll cs

theorem Acted.tight (hact : Acted own t s (t', s')) (h : t.followers.Tight) :
    t'.followers.Tight := by
  cases hact with
  | still cs among n => exact tight_connectAll h cs
  | stepped cs among next unfinished => exact tight_connectAll (t := { t with game := next }) h cs

theorem Finds.tight (hfind : Finds a id (.ok t, a')) (h : Tight a) :
    t.followers.Tight ∧ Tight a' := by
  cases hfind with
  | held t ht => exact ⟨h id t ht, h⟩
  | loaded r g ht hr hg =>
      refine ⟨Connections.tight_empty, fun m t ht => ?_⟩
      rcases SortedMap.get?_insert_eq_some ht with ⟨-, rfl⟩ | ⟨-, ht⟩
      · exact Connections.tight_empty
      · exact h m t ht

theorem Attended.tight (hatt : Attended own a id a') (h : Tight a) : Tight a' := by
  cases hatt with
  | missing hnone => exact h
  | served t a₁ hfind t' s' hact =>
      obtain ⟨ht, ha⟩ := hfind.tight h
      intro m t'' ht''
      rw [get?_settle] at ht''
      split_ifs at ht''
      · cases ht''
        exact hact.tight ht
      · exact ha m t'' ht''

theorem tight_handle (hk : a.hall.Keyed) (h : Tight a) (opened : Connections) (r : Request) :
    Tight (a.handle opened r).state := by
  cases hid : r.about with
  | some id =>
      rcases state_handle_about hk opened hid with ⟨-, hs⟩ | ⟨-, β, act, watching, hact, hs⟩
      · rw [hs]
        exact h
      · rw [hs]
        exact (attend_attended a id act hact).tight h
  | none =>
      cases r with
      | connect c =>
          show Tight (a.connect c).state
          rw [state_connect]
          refine showAll_keeps (P := Tight) (fun a id ha => ?_) _ h
          rw [state_showOne]
          exact (attend_attended a id _ (followAct_acted [c])).tight ha
      | disconnect c =>
          intro m t' ht'
          have ht' : (a.disconnect opened c).state.hall.tables.get? m = some t' := ht'
          rw [get?_disconnect] at ht'
          obtain ⟨t, ht, rfl⟩ := Option.map_eq_some_iff.mp ht'
          exact (h m t ht).erase c
      | create creator color opponent =>
          show Tight (a.create opened creator color opponent).state
          cases create_founded hk opened creator color opponent with
          | refused e hx =>
              rw [hx]
              exact h
          | founded answer distinct stands off watching issued =>
              intro m t ht
              by_cases hm : m = a.store.nextId
              · rw [hm, stands.table] at ht
                cases ht
                exact tight_connectAll Connections.tight_empty _
              · rw [off.tables m hm] at ht
                exact h m t ht
      | _ => cases hid

theorem tight_after (hk : a.hall.Keyed) (h : Tight a) (es : List Occasion) : Tight (a.after es) := by
  induction es generalizing a with
  | nil => exact h
  | cons e es ih =>
      exact ih (keyed_handle (a := a.under e.outage) hk e.opened e.request)
        (tight_handle (a := a.under e.outage) hk h e.opened e.request)

theorem tight_new (store : Store) (budget : Duration) : Tight (new store budget) := by
  intro m t h
  cases h

/-! ### The table and its followers after the attaching -/

/-- A table that is taken for a request on a match. -/
structure Takes (a : Arbiter) (m : MatchId) (t : Table) : Prop where
  id_eq : t.id = m
  follows : ∀ c, t.followers.contains c = true ↔ Follows a m c
  tight : t.followers.Tight

theorem Finds.takes (hfind : Finds a m (.ok t, a')) (hk : a.hall.Keyed) (h : Tight a) :
    Takes a m t := by
  refine ⟨hfind.id_eq hk rfl, fun c => ?_, (hfind.tight h).1⟩
  unfold Follows
  cases hfind with
  | held t ht => simp [ht]
  | loaded r g ht hr hg => simp [ht, Connections.contains, Connections.numbersOf,
      Connections.empty, SortedMap.contains]

/-- The table of a request on a match: it is followed by those who followed before and by those whom
the request attaches, and keeps no user without a connection. -/
structure Gathers (a : Arbiter) (opened : Connections) (r : Request) (m : MatchId) (t : Table) :
    Prop where
  id_eq : t.id = m
  attached : ∀ c, t.followers.contains c = true ↔ c ∈ r.newcomers opened ∨ Follows a m c
  tight : t.followers.Tight

theorem Takes.gathers (h : Takes a m t) {cs : List Connection}
    (hcs : ∀ c, c ∈ cs ↔ c ∈ r.newcomers opened) (g : Game) :
    Gathers a opened r m ({ t with game := g }.connectAll cs) := by
  refine ⟨(Table.connectAll_id _ _).trans h.id_eq, fun c => ?_,
    tight_connectAll (t := { t with game := g }) h.tight cs⟩
  rw [Table.contains_connectAll, hcs]
  exact or_congr_right (h.follows c)

/-- No number of a connection belongs to two users, among the open connections, those that follow a
match and the one that asks. -/
def OneOwner (a : Arbiter) (opened : Connections) (r : Request) : Prop :=
  ∀ c d, Known c → Known d → c.id = d.id → c.user = d.user
where
  /-- The connection is open, follows a match or asks. -/
  Known (c : Connection) : Prop :=
    opened.contains c = true ∨ (∃ m, Follows a m c) ∨ r.asker? = some c

/-- The connections that `OneOwner` is about. -/
def known (a : Arbiter) (opened : Connections) (r : Request) : List Connection :=
  opened.toList ++ a.hall.tables.values.flatMap (·.followers.toList) ++ r.asker?.toList

theorem mem_known : c ∈ a.known opened r ↔ OneOwner.Known a opened r c := by
  unfold known OneOwner.Known Follows SortedMap.values
  simp only [List.mem_append, List.mem_flatMap, List.mem_map, Connections.mem_toList,
    Option.mem_toList, or_assoc]
  refine or_congr_right (or_congr_left ⟨?_, ?_⟩)
  · rintro ⟨t, ⟨⟨m, t'⟩, he, rfl⟩, hc⟩
    exact ⟨m, t', SortedMap.mem_entries_iff.mp he, hc⟩
  · rintro ⟨m, t, ht, hc⟩
    exact ⟨t, ⟨(m, t), SortedMap.mem_entries_iff.mpr ht, rfl⟩, hc⟩

instance (a : Arbiter) (opened : Connections) (r : Request) : Decidable (OneOwner a opened r) :=
  decidable_of_iff (∀ c ∈ a.known opened r, ∀ d ∈ a.known opened r, c.id = d.id → c.user = d.user)
    ⟨fun h c d hc hd => h c (mem_known.mpr hc) d (mem_known.mpr hd),
      fun h c hc d hd => h c d (mem_known.mp hc) (mem_known.mp hd)⟩

theorem Gathers.nodup_ids (h : Gathers a opened r m t) (howner : OneOwner a opened r) :
    t.followers.ids.Nodup := by
  have hknown : ∀ c, t.followers.contains c = true → OneOwner.Known a opened r c := by
    intro c hc
    rcases (h.attached c).mp hc with hnew | hf
    · rcases Request.asker_of_newcomer hnew with hask | hopen
      · exact .inr (.inr hask)
      · exact .inl hopen
    · exact .inr (.inl ⟨m, hf⟩)
  refine Connections.nodup_ids fun i u v hu hv => ?_
  exact howner ⟨i, u⟩ ⟨i, v⟩ (hknown _ hu) (hknown _ hv) rfl

/-! ### What is told -/

/-- The match that a request begins, joins, watches or moves in. -/
def subject (a : Arbiter) : Request → Option MatchId
  | .create _ _ _ => some a.store.nextId
  | .join id _ => some id
  | .watch id _ => some id
  | .move _ id _ _ => some id
  | _ => none

/-- How the game of the match comes to be what it is after a granted request; that it was found means
that the table held it or that it was rebuilt from the record. -/
inductive Leads (a : Arbiter) (m : MatchId) : Request → Game → Prop where
  | created (creator : UserId) (color : Color) (opponent : Option UserId) :
      Leads a m (.create creator color opponent) (.opening (seatsOf creator color opponent))
  | joined (u : UserId) (t : Table) (seat : Color) (g : Game) (found : (a.find m).1 = .ok t)
      (step : t.game.join u = .ok (seat, g)) : Leads a m (.join m u) g
  | watched (u : UserId) (t : Table) (found : (a.find m).1 = .ok t) : Leads a m (.watch m u) t.game
  | moved (c : Connection) (source target : String) (s s' : Square) (t : Table) (side : Color)
      (o : MoveOutcome) (g : Game) (readSource : Square.ofText? source = some s)
      (readTarget : Square.ofText? target = some s') (found : (a.find m).1 = .ok t)
      (step : t.game.move c.user s s' = .ok (o, g)) (mover : t.game.seats.seatOf c.user = some side)
      (opponent : g.turn = side.opponent) : Leads a m (.move c m source target) g

/-- What a connection that follows the table is told of a granted request. -/
def tellsOf (opened : Connections) (m : MatchId) (t : Table) (i : ConnectionId) :
    Request → List Notice
  | .create _ _ _ => [.newBoard m t.snapshot]
  | .join _ _ => [.playerJoined m t.snapshot]
  | .watch _ u =>
    if opened.contains ⟨i, u⟩ then [.newBoard m t.snapshot] else [.newWatcher m u]
  | .move _ _ source target =>
    match Square.ofText? source, Square.ofText? target with
    | some s, some s' =>
      .pieceMoved m s s' ::
        if t.game.board.isCheckmate t.game.turn then [.checkmate m t.snapshot]
        else if t.game.board.inCheck t.game.turn then [.inCheck m t.snapshot]
        else []
    | _, _ => []
  | _ => []

/-- What is sent after a granted request on a match, and to whom; `t` is the table when the
connections of the request have been attached. -/
structure FannedOut (a : Arbiter) (opened : Connections) (r : Request) (m : MatchId) (t : Table)
    (x : Handled) : Prop where
  attached : ∀ c, t.followers.contains c = true ↔ c ∈ r.newcomers opened ∨ Follows a m c
  game : Leads a m r t.game
  kept : x.state.hall.tables.get? m = if t.game.status = .closed then none else some t
  told : ∀ c, t.followers.contains c = true →
    noticesTo c.id x.sent = tellsOf opened m t c.id r
  untold : ∀ i, (∀ u, t.followers.contains ⟨i, u⟩ = false) → noticesTo i x.sent = []
  picture : t.snapshot = t.game.snapshot m t.viewers
  viewers : ∀ u, u ∈ t.viewers ↔ ∃ i, t.followers.contains ⟨i, u⟩ = true
  ascending : t.viewers.Pairwise fun u v => Ranked.rank u < Ranked.rank v

/-- A table with its followers gathered is told of as it should be, if everybody on its list is sent
what is meant for him. -/
theorem Gathers.fannedOut {x : Handled} (h : Gathers a opened r m t) (hgame : Leads a m r t.game)
    (hkept : x.state.hall.tables.get? m = if t.game.status = .closed then none else some t)
    (hsent : ∀ i, noticesTo i x.sent =
      if i ∈ t.followers.ids then tellsOf opened m t i r else []) :
    FannedOut a opened r m t x := by
  refine ⟨h.attached, hgame, hkept, fun c hc => ?_, fun i hi => ?_, ?_, fun u => ?_, ?_⟩
  · rw [hsent, if_pos (Connections.mem_ids.mpr ⟨c.user, hc⟩)]
  · rw [hsent, if_neg]
    intro hmem
    obtain ⟨u, hu⟩ := Connections.mem_ids.mp hmem
    rw [hi u] at hu
    cases hu
  · rw [Table.snapshot, h.id_eq]
  · exact Connections.mem_users h.tight
  · exact t.followers.ascending_users

/-! ### Each kind of request -/

/-- A move gives the turn to the other side. -/
theorem turn_of_move {g g' : Game} {s s' : Square} {o : MoveOutcome}
    (h : g.move u s s' = .ok (o, g')) :
    ∃ side, g.seats.seatOf u = some side ∧ g'.turn = side.opponent := by
  obtain ⟨p, -, -, -, hseat, -, -, e⟩ := Game.move_eq_ok_iff.mp h
  cases e
  exact ⟨p.color, hseat, rfl⟩

theorem attend_eq_ok {β : Type} {act : Table → Store → β × Table × Store} {v : β}
    (h : a.attend m act = (.ok v, a')) :
    ∃ t a₁, Finds a m (.ok t, a₁) ∧ (a.find m).1 = .ok t ∧ v = (act t a₁.store).1 ∧
      a' = { a₁ with store := (act t a₁.store).2.2 }.settle (act t a₁.store).2.1 := by
  have hfind := a.find_finds m
  unfold attend at h
  generalize a.find m = x at hfind h ⊢
  obtain ⟨e | t, a₁⟩ := x
  · cases h
  · cases h
    exact ⟨t, a₁, hfind, rfl, rfl, rfl⟩

theorem get?_settle_self (a : Arbiter) (ht : t.id = m) :
    (a.settle t).hall.tables.get? m = if t.game.status = .closed then none else some t := by
  rw [get?_settle, if_pos ht.symm]

theorem fannedOut_join (hk : a.hall.Keyed) (h : Tight a) (howner : OneOwner a opened (.join m u))
    (hgranted : (a.join opened m u).Granted) :
    ∃ t, FannedOut a opened (.join m u) m t (a.join opened m u) := by
  have hanswer := hgranted.answer
  rw [join_eq] at hanswer ⊢
  generalize hx : a.attend m (joinAct (opened.ofUser u) u) = x at hanswer ⊢
  obtain ⟨e | e | t, a'⟩ := x
  · exact absurd rfl (hanswer e)
  · exact absurd rfl (hanswer e)
  · obtain ⟨t₀, a₁, hfind, hfound, hv, rfl⟩ := attend_eq_ok hx
    have hsteps := t₀.join_steps u a₁.store
    unfold joinAct at hv ⊢
    generalize t₀.join u a₁.store = y at hsteps hv ⊢
    cases hsteps with
    | refused e n => cases hv
    | done seat next hstep =>
        cases hv
        have hgather : Gathers a opened (.join m u) m
            ({ t₀ with game := next }.connectAll (opened.ofUser u)) :=
          (hfind.takes hk h).gathers (fun _ => Iff.rfl) next
        refine ⟨_, hgather.fannedOut ?_ (get?_settle_self _ hgather.id_eq) fun i => ?_⟩
        · rw [Table.connectAll_game]
          exact .joined u t₀ seat next hfound hstep
        · exact noticesTo_map i (fun _ => _) (hgather.nodup_ids howner)

theorem mem_ids_ofUser {i : ConnectionId} :
    i ∈ (opened.ofUser u).map (·.id) ↔ opened.contains ⟨i, u⟩ = true := by
  rw [List.mem_map]
  constructor
  · rintro ⟨c, hc, rfl⟩
    obtain ⟨rfl, hopen⟩ := Connections.mem_ofUser.mp hc
    exact hopen
  · intro h
    exact ⟨⟨i, u⟩, Connections.mem_ofUser.mpr ⟨rfl, h⟩, rfl⟩

theorem fannedOut_watch (hk : a.hall.Keyed) (h : Tight a) (howner : OneOwner a opened (.watch m u))
    (hgranted : (a.watch opened m u).Granted) :
    ∃ t, FannedOut a opened (.watch m u) m t (a.watch opened m u) := by
  have hanswer := hgranted.answer
  rw [watch_eq] at hanswer ⊢
  generalize hx : a.attend m (followAct (opened.ofUser u)) = x at hanswer ⊢
  obtain ⟨e | t, a'⟩ := x
  · exact absurd rfl (hanswer e)
  · obtain ⟨t₀, a₁, hfind, hfound, rfl, rfl⟩ := attend_eq_ok hx
    have hgather : Gathers a opened (.watch m u) m (t₀.connectAll (opened.ofUser u)) :=
      (hfind.takes hk h).gathers (fun _ => Iff.rfl) t₀.game
    refine ⟨_, hgather.fannedOut ?_ (get?_settle_self _ hgather.id_eq) fun i => ?_⟩
    · rw [Table.connectAll_game]
      exact .watched u t₀ hfound
    · have hlist := noticesTo_map i (fun j => if opened.contains ⟨j, u⟩
        then .newBoard m (t₀.connectAll (opened.ofUser u)).snapshot else .newWatcher m u)
        (hgather.nodup_ids howner)
      simp only [followAct, mem_ids_ofUser, tellsOf]
      rw [← apply_ite (fun n => [n]), ← hlist]
      congr 1
      exact List.map_congr_left fun j _ => (apply_ite _ _ _ _).symm

/-- The notices of a move tell of mate and check as the new board has it. -/
theorem moveNotices_of_move (m : MatchId) {g g' : Game} {s s' : Square} {o : MoveOutcome}
    (h : g.move u s s' = .ok (o, g')) (picture : Snapshot) :
    moveNotices m o picture =
      .pieceMoved m s s' ::
        if g'.board.isCheckmate g'.turn then [.checkmate m picture]
        else if g'.board.inCheck g'.turn then [.inCheck m picture]
        else [] := by
  obtain ⟨p, -, -, -, -, -, -, e⟩ := Game.move_eq_ok_iff.mp h
  cases e
  simp only [moveNotices, Board.isCheckmate, Bool.and_self_left]
  rfl

theorem fannedOut_move {source target : String} (hk : a.hall.Keyed) (h : Tight a)
    (howner : OneOwner a opened (.move c m source target))
    (hgranted : (a.move c m source target).Granted) :
    ∃ t, FannedOut a opened (.move c m source target) m t (a.move c m source target) := by
  have hsent := hgranted.sent
  have hrefusal : ∀ (e : Refusal) (x : Handled), x.sent = tellRefusal c e → x.refuses = true := by
    intro e x hx
    simp [Handled.refuses, hx, tellRefusal, Notice.isRefusal]
  rw [move_eq hk] at hsent ⊢
  unfold Square.parse at hsent ⊢
  cases hs : Square.ofText? source with
  | none =>
      rw [hs] at hsent
      rw [hrefusal _ _ rfl] at hsent
      cases hsent
  | some s =>
      cases hs' : Square.ofText? target with
      | none =>
          rw [hs, hs'] at hsent
          rw [hrefusal _ _ rfl] at hsent
          cases hsent
      | some s' =>
          rw [hs, hs'] at hsent
          simp only at hsent ⊢
          generalize hx : a.attend m (moveAct c s s') = x at hsent ⊢
          obtain ⟨e | e | ⟨o, t⟩, a'⟩ := x
          · rw [hrefusal _ _ rfl] at hsent
            cases hsent
          · rw [hrefusal _ _ rfl] at hsent
            cases hsent
          · obtain ⟨t₀, a₁, hfind, hfound, hv, rfl⟩ := attend_eq_ok hx
            have hsteps := t₀.move_steps c.user s s' a₁.store
            unfold moveAct at hv ⊢
            generalize t₀.move c.user s s' a₁.store = y at hsteps hv ⊢
            cases hsteps with
            | refused e n => cases hv
            | done o next hstep =>
                cases hv
                have hgather : Gathers a opened (.move c m source target) m
                    ({ t₀ with game := next }.connectAll [c]) :=
                  (hfind.takes hk h).gathers (fun _ => Iff.rfl) next
                obtain ⟨side, hside, hturn⟩ := turn_of_move hstep
                refine ⟨_, hgather.fannedOut ?_ (get?_settle_self _ hgather.id_eq) fun i => ?_⟩
                · rw [Table.connectAll_game]
                  exact .moved c source target s s' t₀ side o next hs hs' hfound hstep hside hturn
                · have htells : tellsOf opened m ({ t₀ with game := next }.connectAll [c]) i
                      (.move c m source target) =
                        moveNotices m o ({ t₀ with game := next }.connectAll [c]).snapshot := by
                    simp only [tellsOf, hs, hs', Table.connectAll_game]
                    exact (moveNotices_of_move m hstep _).symm
                  rw [htells]
                  exact noticesTo_broadcast i _ (hgather.nodup_ids howner)

/-- What is sent when a match begins. -/
theorem sent_create (a : Arbiter) (opened : Connections) (creator : UserId) (color : Color)
    (opponent : Option UserId) :
    (∃ e, (a.create opened creator color opponent).answer = .refused e) ∨
      (a.create opened creator color opponent).sent =
        broadcast (a.newTable opened (seatsOf creator color opponent)).followers.ids
          (.newBoard a.store.nextId (a.newTable opened (seatsOf creator color opponent)).snapshot) := by
  unfold create
  split_ifs with hopp
  · exact .inl ⟨_, rfl⟩
  · unfold Hall.create Store.create
    cases Store.hindrance a.store.outage.create a.hall.budget with
    | some e => exact .inl ⟨_, rfl⟩
    | none =>
        right
        simp only [Hall.setUp, Table.setUp, Game.ofRecord_fresh]
        show broadcast _ (.newBoard (a.newTable opened (seatsOf creator color opponent)).id _) = _
        rw [newTable_id]
        rfl

theorem mem_newcomers_iff {creator : UserId} {color : Color} {opponent : Option UserId} :
    c ∈ (seatsOf creator color opponent).players.flatMap opened.ofUser ↔
      c ∈ (Request.create creator color opponent).newcomers opened := by
  refine ⟨mem_newcomers_of_players, fun h => ?_⟩
  obtain ⟨u, hu, hc⟩ := List.mem_flatMap.mp h
  refine List.mem_flatMap.mpr ⟨u, ?_, hc⟩
  cases color <;> simpa [seatsOf, Seats.players, or_comm] using hu

theorem fannedOut_create {creator : UserId} {color : Color} {opponent : Option UserId}
    (hk : a.hall.Keyed) (howner : OneOwner a opened (.create creator color opponent))
    (hfresh : a.hall.tables.get? a.store.nextId = none)
    (hgranted : (a.create opened creator color opponent).Granted) :
    ∃ t, FannedOut a opened (.create creator color opponent) a.store.nextId t
      (a.create opened creator color opponent) := by
  rcases sent_create a opened creator color opponent with ⟨e, he⟩ | hsent
  · exact absurd he (hgranted.answer e)
  cases create_founded hk opened creator color opponent with
  | refused e hx => exact absurd (congrArg Handled.answer hx) (hgranted.answer e)
  | founded answer distinct stands off watching issued =>
      have hnobody : ∀ c, ¬ Follows a a.store.nextId c := by
        rintro c ⟨t, ht, -⟩
        rw [hfresh] at ht
        cases ht
      have hgather : Gathers a opened (.create creator color opponent) a.store.nextId
          (a.newTable opened (seatsOf creator color opponent)) := by
        refine ⟨newTable_id a opened _, fun c => ?_, tight_connectAll Connections.tight_empty _⟩
        rw [newTable, Table.contains_connectAll, mem_newcomers_iff]
        simp [hnobody, Connections.contains, Connections.numbersOf, Connections.empty,
          SortedMap.contains]
      refine ⟨_, hgather.fannedOut ?_ ?_ fun i => ?_⟩
      · rw [newTable_game]
        exact .created creator color opponent
      · rw [if_neg stands.unfinished]
        exact stands.table
      · rw [hsent]
        exact noticesTo_map i (fun _ => _) (hgather.nodup_ids howner)

/-- **Everybody who follows a match is told once of what is granted in it, and nobody else.**  Take
any state that the hall can be in after a run, whatever the store holds and whichever of its calls
fail.  Let no number of a connection belong to two users, and let a match that begins get a name
that no table has.  If a request to begin, join or watch a match or to move in it is granted, there
is a table `t` of the match to which the connections of the request have been attached besides
those that followed before.  Each connection that follows `t` is sent what `tellsOf` says, in this
order: the new board; that a player has joined; the board for an open connection of the watcher and
else that there is a new watcher; or the move and then mate or check of the side now on turn, which
is the mover's opponent.  No other connection is sent anything.  Every picture sent is that of the
game the request has led to, with the users who have a connection at `t` as onlookers, ascending.
The connection that asks for a move is at `t`. -/
theorem fan_out_exact (store : Store) (budget : Duration) {es : List Occasion}
    (ha : a.hall = ((new store budget).after es).hall) (hsubject : a.subject r = some m)
    (howner : OneOwner a opened r) (hfresh : r.creates = true → a.hall.tables.get? m = none)
    (hgranted : (a.handle opened r).Granted) :
    ∃ t, FannedOut a opened r m t (a.handle opened r) ∧
      ∀ c, r.asker? = some c → t.followers.contains c = true := by
  have hk : a.hall.Keyed := ha ▸ keyed_after (keyed_new store budget) es
  have htight : Tight a := by
    intro m t ht
    rw [ha] at ht
    exact tight_after (keyed_new store budget) (tight_new store budget) es m t ht
  have hfan : ∃ t, FannedOut a opened r m t (a.handle opened r) := by
    cases r with
    | create creator color opponent =>
        cases hsubject
        exact fannedOut_create hk howner (hfresh rfl) hgranted
    | join id u =>
        cases hsubject
        exact fannedOut_join hk htight howner hgranted
    | watch id u =>
        cases hsubject
        exact fannedOut_watch hk htight howner hgranted
    | move c id source target =>
        cases hsubject
        exact fannedOut_move hk htight howner hgranted
    | _ => cases hsubject
  obtain ⟨t, ht⟩ := hfan
  refine ⟨t, ht, fun c hc => (ht.attached c).mpr (.inl ?_)⟩
  cases r with
  | move c' id source target =>
      cases hc
      exact List.mem_singleton_self c
  | connect c' => cases hsubject
  | disconnect c' => cases hsubject
  | showMoves c' id source => cases hsubject
  | _ => cases hc

/-- Dave already watches Alice and Bob play, and watches again when he has opened a tablet: his
connections get the board, and the players hear of a new watcher. -/
theorem fan_out_of_second_device :
    let m : MatchId := ⟨⟨7⟩⟩
    let alice : Connection := ⟨⟨0⟩, ⟨⟨1⟩⟩⟩
    let bob : Connection := ⟨⟨1⟩, ⟨⟨2⟩⟩⟩
    let dave : Connection := ⟨⟨2⟩, ⟨⟨4⟩⟩⟩
    let tablet : Connection := ⟨⟨3⟩, ⟨⟨4⟩⟩⟩
    let before := ((Connections.empty.insert alice).insert bob).insert dave
    let opened := before.insert tablet
    let es : List Occasion := [⟨.create alice.user .white (some bob.user), before, .none⟩,
      ⟨.watch m dave.user, before, .none⟩]
    let a := (new (.new [m]) ⟨1000⟩).after es
    let r : Request := .watch m dave.user
    let x := a.handle opened r
    a.subject r = some m ∧ OneOwner a opened r ∧ x.Granted ∧
      noticesTo alice.id x.sent = [.newWatcher m dave.user] ∧
      ∃ t : Table, (∀ c ∈ [dave, tablet], noticesTo c.id x.sent = [.newBoard m t.snapshot]) ∧
        (∀ c ∈ [alice, bob, dave, tablet], t.followers.contains c = true) ∧
        ∀ u, u ∈ t.viewers ↔ ∃ i, t.followers.contains ⟨i, u⟩ = true := by
  intro m alice bob dave tablet before opened es a r x
  have hsubject : a.subject r = some m := rfl
  have howner : OneOwner a opened r := by decide +kernel
  have hanswer : x.answer = .done := by decide +kernel
  have hgranted : x.Granted := ⟨by decide +kernel, fun e he => by rw [hanswer] at he; cases he⟩
  have halice : noticesTo alice.id x.sent = [.newWatcher m dave.user] := by decide +kernel
  have hfollow : ∀ c ∈ [alice, bob], Follows a m c := by decide +kernel
  have hnew : ∀ c ∈ [dave, tablet], c ∈ r.newcomers opened := by decide +kernel
  have hopen : ∀ c ∈ [dave, tablet], opened.contains ⟨c.id, dave.user⟩ = true := by decide
  have ha : a.hall = ((new (.new [m]) ⟨1000⟩).after es).hall := rfl
  obtain ⟨t, h, -⟩ := fan_out_exact _ _ ha hsubject howner (fun hc => by cases hc) hgranted
  refine ⟨hsubject, howner, hgranted, halice, t, fun c hc => ?_, fun c hc => ?_, h.viewers⟩
  · rw [h.told c ((h.attached c).mpr (.inl (hnew c hc)))]
    exact if_pos (hopen c hc)
  · rcases List.mem_append.mp (show c ∈ [alice, bob] ++ [dave, tablet] from hc) with hc | hc
    · exact (h.attached c).mpr (.inr (hfollow c hc))
    · exact (h.attached c).mpr (.inl (hnew c hc))

end Arbiter
end LiveChess
