import LiveChess.Proofs.World

/-! # Who follows a match

The connections that follow the table of a match come to it and leave it with requests of several
kinds.  In an orderly run they are always right: of the connections that are open and announced,
those follow a match that goes on whose users are entitled to hear of it.  `Followed` is this
invariant, with what it needs about connections that are not open any more.  There is one lemma for
each thing that may happen; `Followed.grow` is common to the requests that let connections
follow. -/

namespace LiveChess

open Arbiter

variable {past : List Happening} {w : World} {m : MatchId} {t t' : Table} {g : Game}
  {c d : Connection} {u : UserId} {a a' : Arbiter} {o : Outage} {r : Request}
  {opened : Connections}

/-! ### Who follows a match -/

/-- The connection follows the table of the match. -/
def Follows (a : Arbiter) (m : MatchId) (c : Connection) : Prop :=
  ∃ t, a.hall.tables.get? m = some t ∧ t.followers.contains c = true

theorem follows_iff (h : Stands a m t) : Follows a m c ↔ t.followers.contains c = true := by
  unfold Follows
  rw [h.table]
  constructor
  · rintro ⟨t', ht, hc⟩
    cases ht
    exact hc
  · intro hc
    exact ⟨t, rfl, hc⟩

theorem not_follows_of_over (h : Over a m g) : ¬ Follows a m c := by
  rintro ⟨t, ht, -⟩
  rw [h.table] at ht
  cases ht

/-- Those who follow a match have opened; of the open ones, only users entitled to hear of it follow
it; and all connections of theirs that have been announced do, as long as it goes on. -/
structure Followed (past : List Happening) (w : World) (m : MatchId) (g : Game) : Prop where
  has : Has w.arbiter m g
  opened : ∀ c, Follows w.arbiter m c → c ∈ openings past
  entitled : ∀ c, w.opened.contains c = true → Follows w.arbiter m c →
    Entitled w.arbiter m c.user
  attached : g.status ≠ .closed → ∀ c, w.opened.contains c = true →
    .connect c ∈ requests past → Entitled w.arbiter m c.user → Follows w.arbiter m c

theorem followed_of_over (h : Over w.arbiter m g) : Followed past w m g := by
  refine ⟨.inr h, ?_, ?_, ?_⟩
  · intro c hc
    exact absurd hc (not_follows_of_over h)
  · intro c _ hc
    exact absurd hc (not_follows_of_over h)
  · intro hg
    exact absurd h.closed hg

theorem Followed.opens (h : Followed past w m g) (hw : w.Tidy past)
    (he : w.Allows past (.opens c)) :
    Followed (past ++ [.opens c]) (w.step (.opens c)).2 m g := by
  have hnew : c ∉ openings past := fun hc => he (List.mem_map_of_mem hc)
  have hopen : ∀ d, (w.opened.insert c).contains d = true → d = c ∨ w.opened.contains d = true :=
    fun d => Connections.contains_insert.mp
  refine ⟨h.has, ?_, ?_, ?_⟩
  · intro d hd
    exact mem_openings_snoc.mpr (.inl (h.opened d hd))
  · intro d hd hf
    rcases hopen d hd with rfl | hd
    · exact absurd (h.opened d hf) hnew
    · exact h.entitled d hd hf
  · intro hg d hd hc hent
    rw [mem_requests_snoc] at hc
    simp only [Happening.request?, reduceCtorEq, or_false] at hc
    rcases hopen d hd with rfl | hd
    · exact absurd (hw.opened_of_connected d hc) hnew
    · exact h.attached hg d hd hc hent

theorem Followed.closes (h : Followed past w m g) (c : Connection) :
    Followed (past ++ [.closes c]) (w.step (.closes c)).2 m g := by
  have hopen : ∀ d, (w.opened.erase c).contains d = true → w.opened.contains d = true :=
    fun d hd => (Connections.contains_erase.mp hd).2
  refine ⟨h.has, ?_, ?_, ?_⟩
  · intro d hd
    exact mem_openings_snoc.mpr (.inl (h.opened d hd))
  · intro d hd
    exact h.entitled d (hopen d hd)
  · intro hg d hd hc
    rw [mem_requests_snoc] at hc
    simp only [Happening.request?, reduceCtorEq, or_false] at hc
    exact h.attached hg d (hopen d hd) hc

/-- A request that lets more connections follow keeps the invariant if these are open, their users
are entitled afterwards, and nobody else becomes entitled or is announced. -/
theorem Followed.grow (h : Followed past w m t.game) (hs : Stands w.arbiter m t)
    (hs' : Stands a' m t') (cs : List Connection)
    (hf : ∀ d, t'.followers.contains d = true ↔ d ∈ cs ∨ t.followers.contains d = true)
    (hcs : ∀ d ∈ cs, d ∈ openings past ∧ (w.opened.contains d = true → Entitled a' m d.user))
    (hkeep : ∀ d, w.opened.contains d = true → Entitled w.arbiter m d.user →
      Entitled a' m d.user)
    (hnew : ∀ d, w.opened.contains d = true → .connect d ∈ requests (past ++ [.asks o r]) →
      Entitled a' m d.user →
        d ∈ cs ∨ .connect d ∈ requests past ∧ Entitled w.arbiter m d.user) :
    Followed (past ++ [.asks o r]) ⟨w.opened, a'⟩ m t'.game := by
  refine ⟨.inl ⟨t', hs', rfl⟩, ?_, ?_, ?_⟩
  · intro d hd
    rw [follows_iff hs', hf] at hd
    rw [mem_openings_snoc]
    rcases hd with hd | hd
    · exact .inl (hcs d hd).1
    · exact .inl (h.opened d ((follows_iff hs).mpr hd))
  · intro d hopen hd
    rw [follows_iff hs', hf] at hd
    rcases hd with hd | hd
    · exact (hcs d hd).2 hopen
    · exact hkeep d hopen (h.entitled d hopen ((follows_iff hs).mpr hd))
  · intro _ d hopen hc hent
    rw [follows_iff hs', hf]
    rcases hnew d hopen hc hent with hd | ⟨hc', hent'⟩
    · exact .inl hd
    · exact .inr ((follows_iff hs).mp (h.attached hs.unfinished d hopen hc' hent'))

/-! ### Entitlement through a request -/

namespace Arbiter

theorem Has.entitled_iff (h : Has a m g) : Entitled a m u ↔
    (g.seats.seatOf u).isSome = true ∨ (a.watched u).contains m = true := by
  unfold Entitled
  rw [h.record]
  constructor
  · rintro (⟨r, hr, hs⟩ | hw)
    · cases hr
      exact .inl hs
    · exact .inr hw
  · rintro (hs | hw)
    · exact .inl ⟨_, rfl, hs⟩
    · exact .inr hw

/-- Whoever has an open connection stays entitled, as long as players keep their seats. -/
theorem Has.keeps {g' : Game} (h : Has a m g) (h' : Has a' m g') (hn : Noted a opened r a')
    (hseats : (g.seats.seatOf u).isSome = true → (g'.seats.seatOf u).isSome = true)
    (hopen : (opened.ofUser u).isEmpty = false) (hu : Entitled a m u) : Entitled a' m u := by
  rw [h.entitled_iff] at hu
  rw [h'.entitled_iff]
  rcases hu with hu | hu
  · exact .inl (hseats hu)
  · exact .inr (hn.keeps hopen hu)

/-- Whoever is entitled has a seat, watched the match before, or has asked to watch it. -/
theorem Has.origin (h : Has a' m g) (hn : Noted a opened r a') (hu : Entitled a' m u) :
    (g.seats.seatOf u).isSome = true ∨ (a.watched u).contains m = true ∨ r = .watch m u := by
  rcases h.entitled_iff.mp hu with hu | hu
  · exact .inl hu
  · rcases hn.origin hu with hu | ⟨hr, -⟩
    · exact .inr (.inl hu)
    · exact .inr (.inr hr)

end Arbiter

/-! ### What a request does to those who follow -/

theorem ofUser_of_open (hopen : w.opened.contains d = true) :
    (w.opened.ofUser d.user).isEmpty = false := Connections.ofUser_ne_nil hopen

/-- Those who are entitled after a request that changes no seat were entitled before, or have asked
to watch. -/
theorem entitled_origin (h : Has w.arbiter m g) {g' : Game} (h' : Has a' m g')
    (hn : Noted w.arbiter w.opened r a') (hseats : g'.seats = g.seats)
    (hd : Entitled a' m d.user) : Entitled w.arbiter m d.user ∨ r = .watch m d.user := by
  rcases h'.origin hn hd with hd | hd | hd
  · exact .inl (h.entitled_iff.mpr (.inl (hseats ▸ hd)))
  · exact .inl (.inr hd)
  · exact .inr hd

theorem Followed.still (h : Followed past w m t.game) (hw : w.Tidy past)
    (hs : Stands w.arbiter m t) (hr : r.InOrder past (w.arbiter.under o))
    (hn : Noted w.arbiter w.opened r a')
    (hs' : Stands a' m (t.connectAll ((w.arbiter.under o).welcomes w.opened m r)))
    (hwatch : ∀ d, r = .watch m d.user → w.opened.contains d = true →
      (a'.watched d.user).contains m = true) :
    Followed (past ++ [.asks o r]) ⟨w.opened, a'⟩ m t.game := by
  have hgame := Table.connectAll_game t ((w.arbiter.under o).welcomes w.opened m r)
  have hhas' : Has a' m t.game := .inl ⟨_, hs', hgame⟩
  have hkeep : ∀ d, w.opened.contains d = true → Entitled w.arbiter m d.user →
      Entitled a' m d.user :=
    fun d hopen hd => h.has.keeps hhas' hn id (ofUser_of_open hopen) hd
  have hgrow := h.grow (r := r) (o := o) hs hs' _ (fun d => Table.contains_connectAll) ?_ hkeep ?_
  · rw [hgame] at hgrow
    exact hgrow
  · intro d hd
    rcases mem_welcomes.mp hd with ⟨rfl, hm⟩ | ⟨hrw, hu⟩
    · exact ⟨hr.1, fun hopen => hkeep d hopen (entitled_of_mem_shown (a := w.arbiter.under o) hm)⟩
    · exact ⟨hw.mem_openings hu, fun hopen => .inr (hwatch d hrw hopen)⟩
  · intro d hopen hc hd
    have horigin := entitled_origin h.has hhas' hn rfl hd
    rw [mem_requests_snoc] at hc
    rcases hc with hc | hc
    · rcases horigin with hd | hrw
      · exact .inr ⟨hc, hd⟩
      · exact .inl (mem_welcomes.mpr (.inr ⟨hrw, Connections.mem_ofUser.mpr ⟨rfl, hopen⟩⟩))
    · -- the connection is the one that comes up, and the store tells all its matches
      obtain rfl : r = .connect d := Option.some.inj hc
      rcases horigin with hd | hd
      · exact .inl (mem_welcomes.mpr (.inl ⟨rfl, (mem_shown hr.2.2).mpr hd⟩))
      · cases hd

theorem Followed.left (h : Followed past w m t.game) (hw : w.Tidy past)
    (hs : Stands w.arbiter m t) (hr : (Request.disconnect c).InOrder past (w.arbiter.under o))
    (hn : Noted w.arbiter w.opened (.disconnect c) a') (hs' : Stands a' m (t.disconnect c)) :
    Followed (past ++ [.asks o (.disconnect c)]) ⟨w.opened, a'⟩ m t.game := by
  have hhas' : Has a' m t.game := .inl ⟨_, hs', rfl⟩
  have hfollows : ∀ d, Follows a' m d ↔ d ≠ c ∧ Follows w.arbiter m d := by
    intro d
    rw [follows_iff hs', follows_iff hs]
    exact Connections.contains_erase
  refine ⟨hhas', ?_, ?_, ?_⟩
  · intro d hd
    exact mem_openings_snoc.mpr (.inl (h.opened d ((hfollows d).mp hd).2))
  · intro d hopen hd
    have hent := h.entitled d hopen ((hfollows d).mp hd).2
    exact h.has.keeps hhas' hn id (ofUser_of_open hopen) hent
  · intro hg d hopen hc hd
    rw [mem_requests_snoc] at hc
    simp only [Happening.request?, Option.some.injEq, reduceCtorEq, or_false] at hc
    have hent : Entitled w.arbiter m d.user := by
      rcases entitled_origin h.has hhas' hn rfl hd with hd | hd
      · exact hd
      · cases hd
    refine (hfollows d).mpr ⟨?_, h.attached hg d hopen hc hent⟩
    -- a connection that is open has not closed, so it is not the one that goes
    rintro rfl
    exact ((hw.opened_iff d).mp hopen).2 hr.1

theorem Followed.joined (h : Followed past w m t.game) (hw : w.Tidy past)
    (hs : Stands w.arbiter m t) {seat : Color} {next : Game}
    (step : t.game.join u = .ok (seat, next)) (hn : Noted w.arbiter w.opened (.join m u) a')
    (hs' : Stands a' m ({ t with game := next }.connectAll (w.opened.ofUser u))) :
    Followed (past ++ [.asks o (.join m u)]) ⟨w.opened, a'⟩ m next := by
  have hgame := Table.connectAll_game { t with game := next } (w.opened.ofUser u)
  have hhas' : Has a' m next := .inl ⟨_, hs', hgame⟩
  have hseat : ∀ v, (next.seats.seatOf v).isSome = true ↔
      (t.game.seats.seatOf v).isSome = true ∨ v = u := fun v => Game.seatOf_of_join step
  have hgrow := h.grow (r := .join m u) (o := o) hs hs' _ (fun d => Table.contains_connectAll) ?_ ?_ ?_
  · rw [hgame] at hgrow
    exact hgrow
  · intro d hd
    have hu := (Connections.mem_ofUser.mp hd).1
    refine ⟨hw.mem_openings hd, fun _ => hhas'.entitled_iff.mpr (.inl ?_)⟩
    exact (hseat d.user).mpr (.inr hu)
  · intro d hopen hd
    exact h.has.keeps hhas' hn (fun hv => (hseat d.user).mpr (.inl hv)) (ofUser_of_open hopen) hd
  · intro d hopen hc hd
    rw [mem_requests_snoc] at hc
    simp only [Happening.request?, Option.some.injEq, reduceCtorEq, or_false] at hc
    rcases hhas'.origin hn hd with hd | hd | hd
    · rcases (hseat d.user).mp hd with hd | hd
      · exact .inr ⟨hc, h.has.entitled_iff.mpr (.inl hd)⟩
      · exact .inl (Connections.mem_ofUser.mpr ⟨hd, hopen⟩)
    · exact .inr ⟨hc, .inr hd⟩
    · cases hd

/-- A mover has a seat. -/
theorem seated_of_move {s s' : Square} {q : MoveOutcome} {next : Game}
    (step : g.move u s s' = .ok (q, next)) : (g.seats.seatOf u).isSome = true := by
  obtain ⟨p, -, -, -, hseat, -⟩ := Game.move_eq_ok_iff.mp step
  rw [hseat]
  rfl

theorem Followed.moved (h : Followed past w m t.game) (hw : w.Tidy past)
    (hs : Stands w.arbiter m t) {s s' : Square} {q : MoveOutcome} {next : Game}
    (hr : (Request.move c m s.text s'.text).InOrder past (w.arbiter.under o))
    (step : t.game.move c.user s s' = .ok (q, next))
    (hn : Noted w.arbiter w.opened (.move c m s.text s'.text) a')
    (goes : Stands a' m ({ t with game := next }.connect c) ∨ Over a' m next) :
    Followed (past ++ [.asks o (.move c m s.text s'.text)]) ⟨w.opened, a'⟩ m next := by
  rcases goes with hs' | ho
  · have hhas' : Has a' m next := .inl ⟨_, hs', rfl⟩
    obtain ⟨-, -, hseats, -⟩ := Game.log_of_move step
    refine h.grow hs hs' [c] ?_ ?_ ?_ ?_
    · intro d
      rw [List.mem_singleton]
      exact Connections.contains_insert
    · intro d hd
      rw [List.mem_singleton] at hd
      subst hd
      refine ⟨hw.opened_of_connected d hr.1, fun _ => hhas'.entitled_iff.mpr (.inl ?_)⟩
      rw [hseats]
      exact seated_of_move step
    · intro d hopen hd
      exact h.has.keeps hhas' hn (fun hv => hseats ▸ hv) (ofUser_of_open hopen) hd
    · intro d hopen hc hd
      rw [mem_requests_snoc] at hc
      simp only [Happening.request?, Option.some.injEq, reduceCtorEq, or_false] at hc
      rcases entitled_origin h.has hhas' hn hseats hd with hd | hd
      · exact .inr ⟨hc, hd⟩
      · cases hd
  · exact followed_of_over ho

/-- A match that begins is followed by the open connections of its players. -/
theorem followed_newTable (hu : Unborn w.arbiter m) (hw : w.Tidy past) {seats : Seats}
    (hs' : Stands a' m ((w.arbiter.under o).newTable w.opened seats))
    (hwatch : a'.watching = w.arbiter.watching) :
    Followed (past ++ [.asks o r]) ⟨w.opened, a'⟩ m (.opening seats) := by
  have hgame := (w.arbiter.under o).newTable_game w.opened seats
  have hhas' : Has a' m (.opening seats) := .inl ⟨_, hs', hgame⟩
  have hentitled : ∀ v, Entitled a' m v ↔ (seats.seatOf v).isSome = true := by
    intro v
    rw [hhas'.entitled_iff]
    have hnone : (a'.watched v).contains m = false := by
      unfold watched
      rw [hwatch]
      exact hu.unwatched v
    rw [hnone]
    simp [Game.opening]
  have hfollows : ∀ d, Follows a' m d ↔
      (seats.seatOf d.user).isSome = true ∧ w.opened.contains d = true := by
    intro d
    rw [follows_iff hs', newTable, Table.contains_connectAll, List.mem_flatMap]
    constructor
    · rintro (⟨v, hv, hd⟩ | hd)
      · obtain ⟨rfl, hopen⟩ := Connections.mem_ofUser.mp hd
        exact ⟨Seats.mem_players.mp hv, hopen⟩
      · cases hd
    · rintro ⟨hv, hopen⟩
      exact .inl ⟨d.user, Seats.mem_players.mpr hv, Connections.mem_ofUser.mpr ⟨rfl, hopen⟩⟩
  refine ⟨hhas', ?_, ?_, ?_⟩
  · intro d hd
    exact mem_openings_snoc.mpr (.inl ((hw.opened_iff d).mp ((hfollows d).mp hd).2).1)
  · intro d _ hd
    exact (hentitled d.user).mpr ((hfollows d).mp hd).1
  · intro _ d hopen _ hd
    exact (hfollows d).mpr ⟨(hentitled d.user).mp hd, hopen⟩

end LiveChess
