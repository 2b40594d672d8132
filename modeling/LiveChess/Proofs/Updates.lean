import LiveChess.Proofs.Following

/-! # No update is lost, doubled or sent astray

In an orderly run a connection that follows a match is told each of its moves once, as it is made,
and a connection whose user is not entitled to hear of it is told none (`updates_exact`).  `Heard`
says this of one stretch of a run; stretches are put together by `Heard.trans`. -/

namespace LiveChess

open Arbiter

variable {past later es : List Happening} {e : Happening} {w : World} {m : MatchId} {t : Table}
  {g : Game} {c d : Connection} {a a' : Arbiter} {o : Outage} {r : Request}

/-! ### What a connection is told -/

/-- The moves of a match that a connection is told, in the order of sending. -/
def told (m : MatchId) (c : ConnectionId) (sent : List Delivery) : List (String × String) :=
  sent.filterMap fun d => if d.recipient = c then d.notice.moveOf? m else none

/-- The squares of a log entry. -/
def MoveRecord.squares (e : MoveRecord) : String × String := (e.source, e.target)

theorem told_append (m : MatchId) (i : ConnectionId) (l l' : List Delivery) :
    told m i (l ++ l') = told m i l ++ told m i l' := List.filterMap_append

theorem told_of_quiet {l : List Delivery} (h : Quiet m l) (i : ConnectionId) : told m i l = [] := by
  unfold told
  rw [List.filterMap_eq_nil_iff]
  intro d hd
  split_ifs
  · exact h d hd
  · rfl

theorem told_broadcast {n : Notice} {p : String × String} (hn : n.moveOf? m = some p)
    (i : ConnectionId) (l : List ConnectionId) :
    told m i (broadcast l n) = List.replicate (l.count i) p := by
  induction l with
  | nil => rfl
  | cons j l ih =>
      have hcons : told m i (broadcast (j :: l) n) =
          (if j = i then [p] else []) ++ told m i (broadcast l n) := by
        show List.filterMap _ (_ :: _) = _
        rw [List.filterMap_cons]
        by_cases hj : j = i
        · simp only [hj, if_true, hn]
          rfl
        · simp only [hj, if_false]
          rfl
      rw [hcons, ih]
      by_cases hj : j = i
      · rw [if_pos hj, hj, List.count_cons_self, List.replicate_succ]
        rfl
      · rw [if_neg hj, List.count_cons_of_ne (by simpa using hj)]
        rfl

/-- Of a move every follower is told once for each time the follower is numbered off. -/
theorem told_moveNotices (m : MatchId) (o : MoveOutcome) (picture : Snapshot) (i : ConnectionId)
    (l : List ConnectionId) :
    told m i ((moveNotices m o picture).flatMap (broadcast l)) =
      List.replicate (l.count i) (o.source.text, o.target.text) := by
  unfold moveNotices
  rw [List.flatMap_cons, told_append,
    told_broadcast (show Notice.moveOf? m (.pieceMoved m o.source o.target) = _ from if_pos rfl)]
  have hrest : Quiet m (List.flatMap (broadcast l)
      (if o.checkmate then [.checkmate m picture]
        else if o.inCheck then [.inCheck m picture] else [])) := by
    intro d hd
    obtain ⟨n, hn, hd⟩ := List.mem_flatMap.mp hd
    refine quiet_broadcast (n := n) ?_ l d hd
    split_ifs at hn
    · rw [List.mem_singleton.mp hn]; rfl
    · rw [List.mem_singleton.mp hn]; rfl
    · exact absurd hn List.not_mem_nil
  rw [told_of_quiet hrest, List.append_nil]

/-! ### What one happening tells -/

/-- What a connection is told of a match, in a time in which its log grows by some entries: all of
them if its user was entitled from the start, none of them if not even at the end. -/
structure Heard (a a' : Arbiter) (m : MatchId) (c : Connection) (sent : List Delivery)
    (new : List MoveRecord) : Prop where
  all : Entitled a m c.user → told m c.id sent = new.map MoveRecord.squares
  nothing : ¬ Entitled a' m c.user → told m c.id sent = []
  keeps : Entitled a m c.user → Entitled a' m c.user

theorem heard_of_quiet {sent : List Delivery} (hq : Quiet m sent)
    (hkeep : Entitled a m c.user → Entitled a' m c.user) : Heard a a' m c sent [] :=
  ⟨fun _ => told_of_quiet hq c.id, fun _ => told_of_quiet hq c.id, hkeep⟩

theorem Heard.trans {a'' : Arbiter} {l l' : List Delivery} {new new' : List MoveRecord}
    (h : Heard a a' m c l new) (h' : Heard a' a'' m c l' new') :
    Heard a a'' m c (l ++ l') (new ++ new') := by
  refine ⟨?_, ?_, fun hc => h'.keeps (h.keeps hc)⟩
  · intro hc
    rw [told_append, h.all hc, h'.all (h.keeps hc), List.map_append]
  · intro hc
    rw [told_append, h.nothing fun hc' => hc (h'.keeps hc'), h'.nothing hc, List.append_nil]

/-- A move is told once to each connection that follows the match, and to no other. -/
theorem told_moved (h : Followed past w m t.game) (hw : w.Tidy past) (hs : Stands w.arbiter m t)
    (hc : .connect c ∈ requests past) (hd : d ∈ openings past) (q : MoveOutcome)
    (picture : Snapshot) :
    told m d.id ((moveNotices m q picture).flatMap (broadcast (t.followers.insert c).ids)) =
      if (t.followers.insert c).contains d = true then [(q.source.text, q.target.text)]
      else [] := by
  have hopened : ∀ b, (t.followers.insert c).contains b = true → b ∈ openings past := by
    intro b hb
    rcases Connections.contains_insert.mp hb with rfl | hb
    · exact hw.opened_of_connected b hc
    · exact h.opened b ((follows_iff hs).mpr hb)
  have hdistinct : (t.followers.insert c).Distinct := by
    intro i u v hu hv
    exact congrArg Connection.user (hw.unique _ _ (hopened _ hu) (hopened _ hv) rfl)
  have hnumber : ∀ u, (t.followers.insert c).contains ⟨d.id, u⟩ = true → u = d.user := by
    intro u hu
    exact congrArg Connection.user (hw.unique _ _ (hopened _ hu) hd rfl)
  rw [told_moveNotices, Connections.count_ids hdistinct hnumber]
  split_ifs
  · rfl
  · rfl

theorem Followed.heard_moved (h : Followed past w m t.game) (hw : w.Tidy past)
    (hs : Stands w.arbiter m t) {s s' : Square} {q : MoveOutcome} {next : Game}
    (picture : Snapshot) (hc : .connect c ∈ requests past)
    (step : t.game.move c.user s s' = .ok (q, next))
    (hn : Noted w.arbiter w.opened r a') (hhas' : Has a' m next) :
    ∃ entry, next.log = t.game.log ++ [entry] ∧
      ∀ d, w.opened.contains d = true → .connect d ∈ requests past →
        Heard w.arbiter a' m d
          ((moveNotices m q picture).flatMap (broadcast (t.followers.insert c).ids)) [entry] := by
  obtain ⟨rfl, rfl, hseats, side, -, hlog⟩ := Game.log_of_move step
  refine ⟨_, hlog, ?_⟩
  intro d hopen hd
  have htold := told_moved h hw hs hc (hw.opened_of_connected d hd) q picture
  have hkeep : Entitled w.arbiter m d.user → Entitled a' m d.user :=
    fun hent => h.has.keeps hhas' hn (fun hv => hseats ▸ hv) (ofUser_of_open hopen) hent
  refine ⟨?_, ?_, hkeep⟩
  · intro hent
    have hf : t.followers.contains d = true :=
      (follows_iff hs).mp (h.attached hs.unfinished d hopen hd hent)
    rw [htold, if_pos (Connections.contains_insert.mpr (.inr hf))]
    rfl
  · intro hnot
    rw [htold, if_neg]
    intro hf
    apply hnot
    rcases Connections.contains_insert.mp hf with rfl | hf
    · -- the mover has a seat
      rw [hhas'.entitled_iff, hseats]
      exact .inl (seated_of_move step)
    · exact hkeep (h.entitled d hopen ((follows_iff hs).mpr hf))

/-- A store that names matches afresh does not create a match that has a record. -/
theorem answer_ne_created (hk : a.hall.Keyed) (opened : Connections) (hr : r.InOrder past a)
    (hrec : a.store.records.get? m ≠ none) : (a.handle opened r).answer ≠ .created m := by
  intro hx
  obtain ⟨rfl, creator, color, opponent, -, rfl, -⟩ :=
    stands_of_created (e := ⟨r, opened, a.store.outage⟩) hk hx
  exact hrec hr

/-- What a request does to those who follow a match, and what they are told. -/
theorem Followed.asks (h : Followed past w m g) (hw : w.Tidy past)
    (hr : r.InOrder past (w.arbiter.under o)) :
    ∃ g' new, Followed (past ++ [.asks o r]) (w.step (.asks o r)).2 m g' ∧
      g'.log = g.log ++ new ∧
      ∀ d, w.opened.contains d = true → .connect d ∈ requests past →
        Heard w.arbiter (w.step (.asks o r)).2.arbiter m d (w.step (.asks o r)).1 new := by
  have hk : (w.arbiter.under o).hall.Keyed := hw.keyed
  have hrec : (w.arbiter.under o).store.records.get? m ≠ none := by
    show w.arbiter.store.records.get? m ≠ none
    rw [h.has.record]
    exact Option.some_ne_none _
  have hanswer := answer_ne_created hk w.opened hr hrec
  have hn := meet_noted hw.keyed ⟨r, w.opened, o⟩
  rcases h.has with ⟨t, hs, rfl⟩ | ho
  · have hcourse : Course (w.arbiter.under o) w.opened m t r (w.arbiter.meet ⟨r, w.opened, o⟩) :=
      (hs.under o).handle hk w.opened hanswer
    cases hcourse with
    | still stands quiet refused =>
        have hhas' : Has (w.arbiter.meet ⟨r, w.opened, o⟩).state m t.game :=
          .inl ⟨_, stands, Table.connectAll_game _ _⟩
        refine ⟨t.game, [], h.still hw hs hr hn stands ?_, (List.append_nil _).symm, ?_⟩
        · rintro d rfl hopen
          exact (hs.under o).watched_watch (ofUser_of_open hopen)
        · intro d hopen _
          exact heard_of_quiet quiet (h.has.keeps hhas' hn id (ofUser_of_open hopen))
    | left c hrc stands quiet =>
        subst hrc
        have hhas' : Has (w.arbiter.meet ⟨.disconnect c, w.opened, o⟩).state m t.game :=
          .inl ⟨_, stands, rfl⟩
        refine ⟨t.game, [], h.left hw hs hr hn stands, (List.append_nil _).symm, ?_⟩
        intro d hopen _
        exact heard_of_quiet quiet (h.has.keeps hhas' hn id (ofUser_of_open hopen))
    | joined u seat next hrj step stands quiet =>
        subst hrj
        have hhas' : Has (w.arbiter.meet ⟨.join m u, w.opened, o⟩).state m next :=
          .inl ⟨_, stands, Table.connectAll_game _ _⟩
        refine ⟨next, [], h.joined hw hs step hn stands, ?_, ?_⟩
        · obtain ⟨-, -, -, rfl⟩ := Game.join_eq_ok_iff.mp step
          exact (List.append_nil _).symm
        · intro d hopen _
          refine heard_of_quiet quiet (h.has.keeps hhas' hn ?_ (ofUser_of_open hopen))
          exact fun hv => (Game.seatOf_of_join step).mpr (.inl hv)
    | moved c s s' q next hrm step sent goes =>
        subst hrm
        have hhas' : Has (w.arbiter.meet ⟨.move c m s.text s'.text, w.opened, o⟩).state m next :=
          goes.imp (fun hs' => ⟨_, hs', rfl⟩) id
        obtain ⟨entry, hlog, hheard⟩ := h.heard_moved hw hs
          ({ t with game := next }.connect c).snapshot hr.1 step hn hhas'
        refine ⟨next, [entry], h.moved hw hs hr step hn goes, hlog, ?_⟩
        intro d hopen hd
        show Heard _ _ _ _ (w.arbiter.meet ⟨.move c m s.text s'.text, w.opened, o⟩).sent _
        rw [sent]
        exact hheard d hopen hd
  · obtain ⟨ho', hquiet, -⟩ := (ho.under o).handle hk w.opened hanswer
    refine ⟨g, [], followed_of_over ho', (List.append_nil _).symm, ?_⟩
    intro d hopen _
    exact heard_of_quiet hquiet (h.has.keeps (.inr ho') hn id (ofUser_of_open hopen))

/-- Whatever happens, the invariant is kept, and open connections are told what the log gains. -/
theorem Followed.step (h : Followed past w m g) (hw : w.Tidy past) (he : w.Allows past e) :
    ∃ g' new, Followed (past ++ [e]) (w.step e).2 m g' ∧ g'.log = g.log ++ new ∧
      ∀ d, w.opened.contains d = true → .connect d ∈ requests past →
        Heard w.arbiter (w.step e).2.arbiter m d (w.step e).1 new := by
  cases e with
  | opens c =>
      refine ⟨g, [], h.opens hw he, (List.append_nil _).symm, ?_⟩
      intro d _ _
      exact heard_of_quiet (quiet_nil m) id
  | closes c =>
      refine ⟨g, [], h.closes c, (List.append_nil _).symm, ?_⟩
      intro d _ _
      exact heard_of_quiet (quiet_nil m) id
  | asks o r => exact h.asks hw he

/-- A match that has not begun stays so, or begins with the right connections following. -/
theorem Arbiter.Unborn.step (h : Unborn w.arbiter m) (hw : w.Tidy past) (he : w.Allows past e) :
    Unborn (w.step e).2.arbiter m ∨ ∃ g, Followed (past ++ [e]) (w.step e).2 m g := by
  cases e with
  | opens c => exact .inl h
  | closes c => exact .inl h
  | asks o r =>
      have hk : (w.arbiter.under o).hall.Keyed := hw.keyed
      have hu : Unborn (w.arbiter.under o) m := h.under o
      by_cases hanswer : ((w.arbiter.under o).handle w.opened r).answer = .created m
      · right
        obtain ⟨creator, color, opponent, rfl⟩ := create_of_answer hanswer
        replace hanswer : ((w.arbiter.under o).create w.opened creator color opponent).answer =
          .created m := hanswer
        cases create_founded hk w.opened creator color opponent with
        | refused e hx =>
            rw [hx] at hanswer
            cases hanswer
        | founded answer distinct stands off watching =>
            rw [answer] at hanswer
            cases hanswer
            exact ⟨_, followed_newTable h hw stands watching⟩
      · left
        exact hu.handle hk w.opened hanswer

/-- After an orderly run a match has not begun, or is followed as it should be. -/
theorem followed_of_orderly {supply : List MatchId} {budget : Duration}
    (h : World.Orderly [] (.new supply budget) es) (m : MatchId) :
    World.Tidy es ((World.new supply budget).run es).2 ∧
      (Unborn ((World.new supply budget).run es).2.arbiter m ∨
        ∃ g, Followed es ((World.new supply budget).run es).2 m g) := by
  refine World.orderly_induction (P := fun past w => w.Tidy past ∧
    (Unborn w.arbiter m ∨ ∃ g, Followed past w m g)) h ?_ ?_
  · exact ⟨World.tidy_new supply budget, .inl ⟨rfl, rfl, fun _ => rfl⟩⟩
  · rintro past w e ⟨hw, hm⟩ he
    refine ⟨hw.step he, ?_⟩
    rcases hm with hu | ⟨g, hf⟩
    · exact hu.step hw he
    · obtain ⟨g', -, hf', -⟩ := hf.step hw he
      exact .inr ⟨g', hf'⟩

/-- What a connection that stays open is told in a run. -/
theorem Followed.run (h : Followed past w m g) (hw : w.Tidy past) (hes : World.Orderly past w es)
    (hopen : w.opened.contains c = true) (hc : .connect c ∈ requests past)
    (hstay : c ∉ closings es) :
    ∃ g' new, Followed (past ++ es) (w.run es).2 m g' ∧ g'.log = g.log ++ new ∧
      Heard w.arbiter (w.run es).2.arbiter m c (w.run es).1 new := by
  induction es generalizing past w g with
  | nil =>
      refine ⟨g, [], ?_, (List.append_nil _).symm, heard_of_quiet (quiet_nil m) id⟩
      rw [List.append_nil]
      exact h
  | cons e es ih =>
      obtain ⟨he, hes⟩ := hes
      obtain ⟨g₁, new₁, h₁, hlog₁, hheard₁⟩ := h.step hw he
      have hstay₁ : c ∉ closings es := by
        intro hmem
        obtain ⟨x, hx, hxc⟩ := mem_closings.mp hmem
        exact hstay (mem_closings.mpr ⟨x, List.mem_cons_of_mem _ hx, hxc⟩)
      have hopen₁ : (w.step e).2.opened.contains c = true := by
        obtain ⟨ho, hcl⟩ := (hw.opened_iff c).mp hopen
        rw [(hw.step he).opened_iff, mem_openings_snoc, mem_closings_snoc]
        refine ⟨.inl ho, ?_⟩
        rintro (hmem | hmem)
        · exact hcl hmem
        · exact hstay (mem_closings.mpr ⟨e, List.mem_cons_self, hmem⟩)
      obtain ⟨g₂, new₂, h₂, hlog₂, hheard₂⟩ := ih h₁ (hw.step he) hes hopen₁
        (mem_requests_snoc.mpr (.inl hc)) hstay₁
      refine ⟨g₂, new₁ ++ new₂, ?_, ?_, (hheard₁ c hopen hc).trans hheard₂⟩
      · rw [List.append_assoc] at h₂
        exact h₂
      · rw [hlog₂, hlog₁, List.append_assoc]

/-- **No update is lost, doubled or sent astray.**  Take an orderly run from an empty store, `past`
and then `later`, in which the calls of the store may fail.  Let a match have a record and not be
over after `past`.  Then it has a table, whose game is that of the record; and a connection that is
open and whose connecting has been handled follows the table exactly if its user has a seat in the
match or watches it.  If the connection does not close in `later`, the log of the match grows in
`later` by some entries; of these a follower is told each one once, in order, and a connection that
is not entitled even in the end is told nothing. -/
theorem updates_exact {supply : List MatchId} {budget : Duration}
    (h : World.Orderly [] (.new supply budget) (past ++ later)) {w' : World}
    (hw : w = ((World.new supply budget).run past).2) (hw' : w' = (w.run later).2)
    {record : MatchRecord} (hrecord : w.arbiter.store.records.get? m = some record)
    (hgoes : record.status ≠ .closed) :
    ∃ t, w.arbiter.hall.tables.get? m = some t ∧ t.game.toRecord = record ∧
      ∀ c, w.opened.contains c = true → .connect c ∈ requests past →
        (t.followers.contains c = true ↔ (record.seats.seatOf c.user).isSome = true ∨
          (w.arbiter.watched c.user).contains m = true) ∧
        (c ∉ closings later →
          ∃ record' new, w'.arbiter.store.records.get? m = some record' ∧
            record'.log = record.log ++ new ∧
            (t.followers.contains c = true →
              told m c.id (w.run later).1 = new.map MoveRecord.squares) ∧
            (¬ ((record'.seats.seatOf c.user).isSome = true ∨
                (w'.arbiter.watched c.user).contains m = true) →
              told m c.id (w.run later).1 = [])) := by
  obtain ⟨hpast, hlater⟩ := World.orderly_append.mp h
  rw [List.nil_append, ← hw] at hlater
  obtain ⟨htidy, hmatch⟩ := followed_of_orderly hpast m
  rw [← hw] at htidy hmatch
  rcases hmatch with hu | ⟨g, hf⟩
  · rw [hu.record] at hrecord
    cases hrecord
  · rcases hf.has with ⟨t, hs, rfl⟩ | ho
    · rw [hs.record] at hrecord
      cases hrecord
      refine ⟨t, hs.table, rfl, ?_⟩
      intro c hopen hc
      have hiff : t.followers.contains c = true ↔ Entitled w.arbiter m c.user := by
        rw [← follows_iff hs]
        exact ⟨hf.entitled c hopen, hf.attached hs.unfinished c hopen hc⟩
      refine ⟨hiff.trans hf.has.entitled_iff, ?_⟩
      intro hstay
      obtain ⟨g', new, hf', hlog, hheard⟩ := hf.run htidy hlater hopen hc hstay
      rw [← hw'] at hf' hheard
      refine ⟨g'.toRecord, new, hf'.has.record, hlog, ?_, ?_⟩
      · intro hfollows
        exact hheard.all (hiff.mp hfollows)
      · intro hnot
        exact hheard.nothing fun hent => hnot (hf'.has.entitled_iff.mp hent)
    · rw [ho.record] at hrecord
      cases hrecord
      exact absurd ho.closed hgoes

/-- Bob hears of the move that Alice makes in the match she has begun with him. -/
theorem updates_of_firstMove :
    let m : MatchId := ⟨⟨7⟩⟩
    let alice : Connection := ⟨⟨0⟩, ⟨⟨1⟩⟩⟩
    let bob : Connection := ⟨⟨1⟩, ⟨⟨2⟩⟩⟩
    let past : List Happening := [.opens alice, .asks .none (.connect alice), .opens bob,
      .asks .none (.create alice.user .white (some bob.user)), .asks .none (.connect bob)]
    let later : List Happening := [.asks .none (.move alice m "e2" "e4"), .closes alice,
      .asks .none (.disconnect alice)]
    let record : MatchRecord := .fresh ⟨some alice.user, some bob.user⟩
    let w := ((World.new [m] ⟨1000⟩).run past).2
    World.Orderly [] (.new [m] ⟨1000⟩) (past ++ later) ∧
      w.arbiter.store.records.get? m = some record ∧ record.status ≠ .closed ∧
      w.opened.contains bob = true ∧ .connect bob ∈ requests past ∧ bob ∉ closings later ∧
      told m bob.id (w.run later).1 = [("e2", "e4")] ∧
      ∃ (t : Table) (new : List MoveRecord), w.arbiter.hall.tables.get? m = some t ∧
        t.followers.contains bob = true ∧
        told m bob.id (w.run later).1 = new.map MoveRecord.squares := by
  intro m alice bob past later record w
  have horderly : World.Orderly [] (.new [m] ⟨1000⟩) (past ++ later) := by decide +kernel
  have hrecord : w.arbiter.store.records.get? m = some record := by decide +kernel
  have hgoes : record.status ≠ .closed := by decide
  have hopen : w.opened.contains bob = true := by decide +kernel
  have hconnected : .connect bob ∈ requests past := by decide
  have hstay : bob ∉ closings later := by decide
  have htold : told m bob.id (w.run later).1 = [("e2", "e4")] := by decide +kernel
  refine ⟨horderly, hrecord, hgoes, hopen, hconnected, hstay, htold, ?_⟩
  have hw : w = ((World.new [m] ⟨1000⟩).run past).2 := rfl
  clear_value w
  obtain ⟨t, ht, -, hexact⟩ := updates_exact horderly hw rfl hrecord hgoes
  obtain ⟨hiff, hheard⟩ := hexact bob hopen hconnected
  have hfollows : t.followers.contains bob = true := hiff.mpr (.inl (by decide))
  obtain ⟨-, new, -, -, hall, -⟩ := hheard hstay
  exact ⟨t, new, ht, hfollows, hall hfollows⟩

end LiveChess
