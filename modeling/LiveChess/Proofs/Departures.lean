import LiveChess.Proofs.Following
import LiveChess.Proofs.Upkeep
import LiveChess.Server.Http

/-! # No dead connection is kept

Sockets come and go while requests wait in the mailbox, and each of these steps may come between
any others.  A connection that follows a match is in the lobby, or it has left the lobby and its
disconnecting is still to be handled; and a user who watches something has such a connection
(`no_dead_connection`).  The invariant is `Tended`.  What carries it is the order in which a socket
queues its requests: whatever it has asked for and is still in the mailbox has its disconnecting
behind it, once it is queued (`Covered`). -/

namespace LiveChess

/-- The connection that a request comes from. -/
def Request.asker? : Request → Option Connection
  | .connect c => some c
  | .showMoves c _ _ => some c
  | .move c _ _ _ => some c
  | _ => none

/-- Who comes to follow a match has asked, or is open. -/
theorem Request.asker_of_newcomer {r : Request} {opened : Connections} {c : Connection}
    (h : c ∈ r.newcomers opened) : r.asker? = some c ∨ opened.contains c = true := by
  cases r with
  | connect d => exact .inl (congrArg some (List.mem_singleton.mp h).symm)
  | disconnect d => cases h
  | showMoves d id source => cases h
  | move d id source target => exact .inl (congrArg some (List.mem_singleton.mp h).symm)
  | join id u => exact .inr (Connections.mem_ofUser.mp h).2
  | watch id u => exact .inr (Connections.mem_ofUser.mp h).2
  | create creator color opponent =>
      obtain ⟨u, -, hc⟩ := List.mem_flatMap.mp h
      exact .inr (Connections.mem_ofUser.mp hc).2

namespace Arbiter

variable {a : Arbiter} {m : MatchId} {c : Connection} {u : UserId} {opened : Connections}
  {r : Request}

instance (a : Arbiter) (m : MatchId) (c : Connection) : Decidable (Follows a m c) :=
  match h : a.hall.tables.get? m with
  | none => .isFalse fun ⟨t, ht, _⟩ => Option.some_ne_none t (ht.symm.trans h)
  | some t => decidable_of_iff (t.followers.contains c = true)
      ⟨fun hc => ⟨t, h, hc⟩, fun ⟨_, ht, hc⟩ => Option.some.inj (h.symm.trans ht) ▸ hc⟩

theorem not_follows_disconnect : ¬ Follows (a.disconnect opened c).state m c := by
  rintro ⟨t', ht', hc⟩
  rw [get?_disconnect] at ht'
  obtain ⟨t, -, rfl⟩ := Option.map_eq_some_iff.mp ht'
  exact (Connections.contains_erase.mp hc).1 rfl

/-- Who follows a match after a request followed it before and does not go away with the request, or
has come with it. -/
theorem follows_handle (hk : Kempt a) (h : Follows (a.handle opened r).state m c) :
    Follows a m c ∧ r ≠ .disconnect c ∨ c ∈ r.newcomers opened := by
  by_cases hr : r = .disconnect c
  · subst hr
    exact absurd h not_follows_disconnect
  · obtain ⟨t', ht', hc⟩ := h
    rcases (kempt_handle hk opened r).2.origin m t' ht' with ⟨t, ht, hgo⟩ | ⟨-, hown⟩
    · exact (hgo.followers c hc).symm.imp_left fun hc => ⟨⟨t, ht, hc⟩, hr⟩
    · exact .inr (hown c hc)

theorem watching_disconnect {ids : SortedSet MatchId}
    (h : (a.disconnect opened c).state.watching.get? u = some ids) :
    a.watching.get? u = some ids ∧ (c.user ≠ u ∨ (opened.ofUser u).isEmpty = false) := by
  have h' : (if (opened.ofUser c.user).isEmpty then a.watching.erase c.user
      else a.watching).get? u = some ids := h
  split_ifs at h' with hnone
  · obtain ⟨hu, h'⟩ := SortedMap.get?_of_erase h'
    exact ⟨h', .inl (Ne.symm hu)⟩
  · refine ⟨h', ?_⟩
    by_cases hu : c.user = u
    · exact .inr (hu ▸ Bool.eq_false_iff.mpr hnone)
    · exact .inl hu

/-- Who watches something after a request did so before, and no connection of the user's goes away
with the request, or the user has an open connection. -/
theorem watching_handle (hk : Kempt a) {ids : SortedSet MatchId}
    (h : (a.handle opened r).state.watching.get? u = some ids) :
    (∃ ids, a.watching.get? u = some ids) ∧ (∀ c, r = .disconnect c → c.user ≠ u) ∨
      (opened.ofUser u).isEmpty = false := by
  by_cases hr : ∃ c, r = .disconnect c
  · obtain ⟨c, rfl⟩ := hr
    obtain ⟨hw, hc⟩ := watching_disconnect h
    refine hc.imp_left fun hc => ⟨⟨ids, hw⟩, ?_⟩
    rintro c' ⟨⟩
    exact hc
  · have hnot : ∀ c, r = .disconnect c → c.user ≠ u := fun c hc => absurd ⟨c, hc⟩ hr
    cases handle_noted hk.keyed opened r with
    | same hw => exact .inl ⟨⟨ids, hw ▸ h⟩, hnot⟩
    | forgot c hc hnone hw => exact absurd ⟨c, hc⟩ hr
    | noted id v hr hsome hw =>
        rw [hw] at h
        rcases SortedMap.get?_insert_eq_some h with ⟨rfl, -⟩ | ⟨-, h⟩
        · exact .inr hsome
        · exact .inl ⟨⟨ids, h⟩, hnot⟩

end Arbiter

/-- What may happen at the server: a socket comes into the lobby, queues its connecting, queues what
its client commands, leaves the lobby or queues its disconnecting; a request for a seat, to watch or
for a new match is queued; or the next request is handled while certain calls of the store fail. -/
inductive Event where
  | arrives (u : UserId)
  | announces (c : ConnectionId)
  | submits (c : ConnectionId) (command : Command)
  | leaves (c : ConnectionId)
  | departs (c : ConnectionId)
  | joins (id : MatchId) (u : UserId)
  | watches (id : MatchId) (u : UserId)
  | begins (creator : UserId) (color : Color) (opponent : Option UserId)
  | handles (outage : Outage)

namespace Server

variable {s : Server} {c : Connection} {r : Request} {l : List Request} {i : ConnectionId}
  {u : UserId} {p : Phase}

/-- Handle the next request, if there is one, while certain calls of the store fail. -/
def handleUnder (s : Server) (o : Outage) : Server :=
  match { s with arbiter := s.arbiter.under o }.handleNext with
  | none => s
  | some (_, s) => s

/-- Let something happen. -/
def step (s : Server) : Event → Server
  | .arrives u => (s.arrive u).2
  | .announces c => s.announce c
  | .submits c command => s.submit c command
  | .leaves c => s.leave c
  | .departs c => s.depart c
  | .joins id u => s.post (.join id u)
  | .watches id u => s.post (.watch id u)
  | .begins creator color opponent => s.post (.create creator color opponent)
  | .handles o => s.handleUnder o

/-- Let things happen one after another. -/
def run (s : Server) (es : List Event) : Server := es.foldl step s

/-- The socket has left the lobby and has not queued its disconnecting. -/
def Leaving (s : Server) (c : Connection) : Prop := s.sockets.get? c.id = some ⟨c.user, .leaving⟩

/-- The connection is in the lobby, or it has left and has not queued its disconnecting. -/
def Present (s : Server) (c : Connection) : Prop := s.lobby.contains c = true ∨ s.Leaving c

/-- The connection has left the lobby, and its disconnecting has yet to be queued or handled. -/
def Ending (s : Server) (c : Connection) : Prop := s.Leaving c ∨ .disconnect c ∈ s.mailbox

/-- The connection is in the lobby, or its disconnecting has yet to be handled. -/
def Accounted (s : Server) (c : Connection) : Prop := s.lobby.contains c = true ∨ s.Ending c

theorem accounted_iff : s.Accounted c ↔ s.Present c ∨ .disconnect c ∈ s.mailbox := or_assoc.symm

/-! ### The mailbox -/

/-- Of every request in the list, the connection that it comes from is of the given kind or has its
disconnecting further back. -/
def Covered (P : Connection → Prop) : List Request → Prop
  | [] => True
  | r :: rest => (∀ c, r.asker? = some c → P c ∨ .disconnect c ∈ rest) ∧ Covered P rest

theorem Covered.mono {P Q : Connection → Prop} (h : Covered P l) (hPQ : ∀ c, P c → Q c) :
    Covered Q l := by
  induction l with
  | nil => trivial
  | cons r rest ih => exact ⟨fun c hc => (h.1 c hc).imp_left (hPQ c), ih h.2⟩

/-- A request may be put behind if its own connection is of the kind; the kind may lose the
connection that the request disconnects. -/
theorem Covered.snoc {P Q : Connection → Prop} (h : Covered P l)
    (hPQ : ∀ c, P c → Q c ∨ r = .disconnect c) (hr : ∀ c, r.asker? = some c → Q c) :
    Covered Q (l ++ [r]) := by
  induction l with
  | nil => exact ⟨fun c hc => .inl (hr c hc), trivial⟩
  | cons r' rest ih =>
      refine ⟨fun c hc => ?_, ih h.2⟩
      rcases h.1 c hc with hc | hc
      · rcases hPQ c hc with hc | rfl
        · exact .inl hc
        · exact .inr (List.mem_append_right _ List.mem_cons_self)
      · exact .inr (List.mem_append_left _ hc)

/-! ### The invariant -/

/-- Sockets are numbered; those that have not left are in the lobby; requests in the mailbox have
the disconnecting of their connections behind them; and whoever follows or watches is accounted
for. -/
structure Tended (s : Server) : Prop where
  kempt : Arbiter.Kempt s.arbiter
  numbered : ∀ i k, s.sockets.get? i = some k → i.number < s.issued
  opened : ∀ i u p, s.sockets.get? i = some ⟨u, p⟩ → p ≠ .leaving →
    s.lobby.contains ⟨i, u⟩ = true
  queued : Covered s.Present s.mailbox
  followers : ∀ m c, Follows s.arbiter m c → s.Accounted c
  watchers : ∀ u ids, s.arbiter.watching.get? u = some ids → ∃ c, c.user = u ∧ s.Accounted c

theorem tended_new (store : Store) (budget : Duration) : Tended (new store budget) := by
  refine ⟨Arbiter.kempt_new store budget, ?_, ?_, trivial, ?_, ?_⟩
  · intro i k h
    cases h
  · intro i u p h
    cases h
  · rintro m c ⟨t, h, -⟩
    cases h
  · intro u ids h
    cases h

theorem Tended.watchers_of (h : Tended s) {P : Connection → Prop}
    (hacc : ∀ c, s.Accounted c → P c) (u : UserId) (ids : SortedSet MatchId)
    (hw : s.arbiter.watching.get? u = some ids) : ∃ c, c.user = u ∧ P c := by
  obtain ⟨c, hc, hc'⟩ := h.watchers u ids hw
  exact ⟨c, hc, hacc c hc'⟩

/-- A change of sockets and lobby keeps the invariant if nobody stops being present. -/
theorem Tended.change (h : Tended s) {lobby : Connections}
    {sockets : SortedMap ConnectionId Socket} {issued : Nat}
    (hnum : ∀ i k, sockets.get? i = some k → i.number < issued)
    (hopen : ∀ i u p, sockets.get? i = some ⟨u, p⟩ → p ≠ .leaving → lobby.contains ⟨i, u⟩ = true)
    (hkeep : ∀ c, s.Present c →
      { s with lobby := lobby, sockets := sockets, issued := issued }.Present c) :
    Tended { s with lobby := lobby, sockets := sockets, issued := issued } := by
  have hacc : ∀ c, s.Accounted c →
      { s with lobby := lobby, sockets := sockets, issued := issued }.Accounted c :=
    fun c hc => accounted_iff.mpr ((accounted_iff.mp hc).imp_left (hkeep c))
  exact ⟨h.kempt, hnum, hopen, h.queued.mono hkeep, fun m c hc => hacc c (h.followers m c hc),
    h.watchers_of hacc⟩

/-- Queueing a request of a connection that is present, or of none, keeps the invariant. -/
theorem Tended.post (h : Tended s) (hr : ∀ c, r.asker? = some c → s.Present c) :
    Tended (s.post r) := by
  have hacc : ∀ c, s.Accounted c → (s.post r).Accounted c := by
    intro c hc
    refine accounted_iff.mpr ((accounted_iff.mp hc).imp_right fun hc => ?_)
    exact List.mem_append_left _ hc
  exact ⟨h.kempt, h.numbered, h.opened, h.queued.snoc (fun c hc => .inl hc) hr,
    fun m c hc => hacc c (h.followers m c hc), h.watchers_of hacc⟩

theorem Tended.post_of_nobody (h : Tended s) (hr : r.asker? = none) : Tended (s.post r) := by
  refine h.post fun c hc => ?_
  rw [hr] at hc
  cases hc

/-! ### Sockets -/

theorem Tended.arrive (h : Tended s) (u : UserId) : Tended (s.arrive u).2 := by
  have hfresh : ∀ i k, s.sockets.get? i = some k → i ≠ ⟨s.issued⟩ := by
    rintro i k hk rfl
    exact absurd (h.numbered _ k hk) (Nat.lt_irrefl _)
  refine h.change (fun i k hk => ?_) (fun i v p hk hp => ?_) fun c hc => ?_
  · rcases SortedMap.get?_insert_eq_some hk with ⟨rfl, -⟩ | ⟨-, hk⟩
    · exact Nat.lt_succ_self _
    · exact (h.numbered i k hk).trans (Nat.lt_succ_self _)
  · rw [Connections.contains_insert]
    rcases SortedMap.get?_insert_eq_some hk with ⟨rfl, e⟩ | ⟨-, hk⟩
    · cases e
      exact .inl rfl
    · exact .inr (h.opened i v p hk hp)
  · rcases hc with hc | hc
    · exact .inl (Connections.contains_insert.mpr (.inr hc))
    · exact .inr ((SortedMap.get?_insert_of_ne _ _ (hfresh _ _ hc)).trans hc)

/-- Nobody leaves by what becomes of a socket that has not left. -/
theorem Leaving.insert (hc : s.Leaving c) (hs : s.sockets.get? i = some ⟨u, p⟩)
    (hp : p ≠ .leaving) (k : Socket) :
    (s.sockets.insert i k).get? c.id = some ⟨c.user, .leaving⟩ := by
  have hne : c.id ≠ i := by
    rintro rfl
    unfold Leaving at hc
    rw [hs] at hc
    cases hc
    exact hp rfl
  exact (SortedMap.get?_insert_of_ne _ _ hne).trans hc

theorem Tended.numbered_insert (h : Tended s) (hs : s.sockets.get? i = some ⟨u, p⟩) (k : Socket)
    (j : ConnectionId) (k' : Socket) (hk : (s.sockets.insert i k).get? j = some k') :
    j.number < s.issued := by
  rcases SortedMap.get?_insert_eq_some hk with ⟨rfl, -⟩ | ⟨-, hk⟩
  · exact h.numbered _ _ hs
  · exact h.numbered j k' hk

theorem Tended.announce (h : Tended s) (i : ConnectionId) : Tended (s.announce i) := by
  unfold Server.announce
  split
  · rename_i u hs
    have hin : s.lobby.contains ⟨i, u⟩ = true := h.opened i u .arriving hs (by simp)
    have hlive : Tended { s with sockets := s.sockets.insert i ⟨u, .live⟩ } := by
      refine h.change (h.numbered_insert hs _) (fun j v p hk hp => ?_)
        fun c hc => hc.imp_right fun hc => hc.insert hs (by simp) _
      rcases SortedMap.get?_insert_eq_some hk with ⟨rfl, e⟩ | ⟨-, hk⟩
      · cases e
        exact hin
      · exact h.opened j v p hk hp
    refine hlive.post fun c hc => ?_
    cases hc
    exact .inl hin
  · exact h

theorem Tended.submit (h : Tended s) (i : ConnectionId) (command : Command) :
    Tended (s.submit i command) := by
  unfold Server.submit
  split
  · rename_i u hs
    refine h.post fun c hc => ?_
    have hc' : c = ⟨i, u⟩ := by
      cases command <;> exact (Option.some.inj hc).symm
    subst hc'
    exact .inl (h.opened i u .live hs (by simp))
  · exact h

theorem Tended.leave (h : Tended s) (i : ConnectionId) : Tended (s.leave i) := by
  unfold Server.leave
  split
  · rename_i u hs
    refine h.change (h.numbered_insert hs _) (fun j v p hk hp => ?_) fun c hc => ?_
    · rcases SortedMap.get?_insert_eq_some hk with ⟨rfl, e⟩ | ⟨hj, hk⟩
      · cases e
        exact absurd rfl hp
      · exact Connections.contains_erase.mpr
          ⟨fun he => hj (congrArg Connection.id he), h.opened j v p hk hp⟩
    · by_cases hci : c = ⟨i, u⟩
      · subst hci
        exact .inr (SortedMap.get?_insert_self _ _ _)
      · rcases hc with hc | hc
        · exact .inl (Connections.contains_erase.mpr ⟨hci, hc⟩)
        · exact .inr (hc.insert hs (by simp) _)
  · exact h

theorem Tended.depart (h : Tended s) (i : ConnectionId) : Tended (s.depart i) := by
  unfold Server.depart
  split
  · rename_i u hs
    -- the socket stops being present, but its disconnecting takes the place of that
    have hkeep : ∀ c, s.Present c → { s with sockets := s.sockets.erase i }.Present c ∨
        Request.disconnect ⟨i, u⟩ = .disconnect c := by
      intro c hc
      rcases hc with hc | hc
      · exact .inl (.inl hc)
      · by_cases hci : c.id = i
        · subst hci
          unfold Leaving at hc
          rw [hs] at hc
          cases hc
          exact .inr rfl
        · exact .inl (.inr ((SortedMap.get?_erase_of_ne _ hci).trans hc))
    have hacc : ∀ c, s.Accounted c →
        ({ s with sockets := s.sockets.erase i }.post (.disconnect ⟨i, u⟩)).Accounted c := by
      intro c hc
      rw [accounted_iff] at hc ⊢
      rcases hc with hc | hc
      · refine (hkeep c hc).imp_right fun he => ?_
        exact List.mem_append_right _ (List.mem_singleton.mpr he.symm)
      · exact .inr (List.mem_append_left _ hc)
    refine ⟨h.kempt, fun j k hk => h.numbered j k (SortedMap.get?_of_erase hk).2,
      fun j v p hk => h.opened j v p (SortedMap.get?_of_erase hk).2,
      h.queued.snoc hkeep fun c hc => ?_, fun m c hc => hacc c (h.followers m c hc),
      h.watchers_of hacc⟩
    cases hc
  · exact h

/-! ### Handling -/

/-- A connection stays accounted for when a request is handled, unless the request disconnects
it. -/
theorem accounted_of_rest {rest : List Request} {a : Arbiter} (hm : s.mailbox = r :: rest)
    (hc : s.Accounted c) (hr : r ≠ .disconnect c) :
    { s with arbiter := a, mailbox := rest }.Accounted c := by
  rw [accounted_iff] at hc ⊢
  refine hc.imp_right fun hc => ?_
  rw [hm] at hc
  rcases List.mem_cons.mp hc with he | hc
  · exact absurd he.symm hr
  · exact hc

theorem Tended.handleUnder (h : Tended s) (o : Outage) : Tended (s.handleUnder o) := by
  obtain ⟨hkempt, hnumbered, hopened, hqueued, hfollowers, hwatchers⟩ := h
  unfold Server.handleUnder handleNext
  cases hm : s.mailbox with
  | nil => exact ⟨hkempt, hnumbered, hopened, hqueued, hfollowers, hwatchers⟩
  | cons r rest =>
      rw [hm] at hqueued
      have hk := hkempt.under o
      refine ⟨(Arbiter.kempt_handle hk s.lobby r).1, hnumbered, hopened, hqueued.2, ?_, ?_⟩
      · intro m c hc
        rcases Arbiter.follows_handle hk hc with ⟨hc, hr⟩ | hc
        · exact accounted_of_rest (s := s) hm (hfollowers m c hc) hr
        · rcases Request.asker_of_newcomer hc with hc | hc
          · exact accounted_iff.mpr (hqueued.1 c hc)
          · exact .inl hc
      · intro u ids hw
        rcases Arbiter.watching_handle hk hw with ⟨⟨ids', hw⟩, hr⟩ | hopen
        · obtain ⟨c, rfl, hc⟩ := hwatchers u ids' hw
          exact ⟨c, rfl, accounted_of_rest (s := s) hm hc fun he => hr c he rfl⟩
        · obtain ⟨c, hc, hin⟩ := Connections.exists_of_ofUser hopen
          exact ⟨c, hc, .inl hin⟩

theorem Tended.step (h : Tended s) (e : Event) : Tended (s.step e) := by
  cases e with
  | arrives u => exact h.arrive u
  | announces c => exact h.announce c
  | submits c command => exact h.submit c command
  | leaves c => exact h.leave c
  | departs c => exact h.depart c
  | joins id u => exact h.post_of_nobody rfl
  | watches id u => exact h.post_of_nobody rfl
  | begins creator color opponent => exact h.post_of_nobody rfl
  | handles o => exact h.handleUnder o

theorem Tended.run (h : Tended s) (es : List Event) : Tended (s.run es) := by
  induction es generalizing s with
  | nil => exact h
  | cons e es ih => exact ih (h.step e)

/-- **No dead connection is kept.**  Start from a store with any records, and let any sockets come
and go and any requests be queued and handled, in any order and with any calls of the store failing.
Then a connection that follows a match is in the lobby, or it has left and its disconnecting has yet
to be handled; and a user who watches something has such a connection.  So when the mailbox is empty
and no socket has still to queue its disconnecting, those who follow are in the lobby, and those who
watch have a connection there. -/
theorem no_dead_connection (store : Store) (budget : Duration) {es : List Event} {s : Server}
    (hs : s = (new store budget).run es) :
    (∀ m c, Follows s.arbiter m c → s.lobby.contains c = true ∨ s.Ending c) ∧
      (∀ u ids, s.arbiter.watching.get? u = some ids →
        ∃ c, c.user = u ∧ (s.lobby.contains c = true ∨ s.Ending c)) ∧
      (s.mailbox = [] → (∀ c, ¬ s.Leaving c) →
        (∀ m c, Follows s.arbiter m c → s.lobby.contains c = true) ∧
        ∀ u ids, s.arbiter.watching.get? u = some ids →
          ∃ c, c.user = u ∧ s.lobby.contains c = true) := by
  have h : Tended s := hs ▸ (tended_new store budget).run es
  refine ⟨h.followers, h.watchers, fun hmail hleaving => ?_⟩
  have hin : ∀ c, s.Accounted c → s.lobby.contains c = true := by
    rintro c (hc | hc | hc)
    · exact hc
    · exact absurd hc (hleaving c)
    · rw [hmail] at hc
      cases hc
  exact ⟨fun m c hc => hin c (h.followers m c hc), h.watchers_of hin⟩

/-- One of a watcher's two connections leaves: it follows until its disconnecting is handled, and
the other one goes on watching. -/
theorem no_dead_connection_of_watcher :
    let m : MatchId := ⟨⟨9⟩⟩
    let alice : Connection := ⟨⟨0⟩, ⟨⟨1⟩⟩⟩
    let carol : Connection := ⟨⟨1⟩, ⟨⟨3⟩⟩⟩
    let other : Connection := ⟨⟨2⟩, carol.user⟩
    let handle : Event := .handles .none
    let coming : List Event := [.arrives alice.user, .arrives carol.user, .arrives other.user,
      .announces alice.id, .announces carol.id, .announces other.id,
      .begins alice.user .white none, .watches m carol.user, handle, handle, handle, handle, handle]
    let left : List Event := coming ++ [.leaves carol.id]
    let gone : List Event := left ++ [.departs carol.id, handle]
    let s := (new (Store.new [m]) ⟨1000⟩).run left
    let s' := (new (Store.new [m]) ⟨1000⟩).run gone
    Follows s.arbiter m carol ∧ s.lobby.contains carol = false ∧ s.Ending carol ∧
      Follows s'.arbiter m other ∧ (∀ c, Follows s'.arbiter m c → s'.lobby.contains c = true) ∧
      ∃ c, c.user = carol.user ∧ s'.lobby.contains c = true := by
  intro m alice carol other handle coming left gone s s'
  have hcarol : Follows s.arbiter m carol := by decide +kernel
  have hother : Follows s'.arbiter m other := by decide +kernel
  have hout : s.lobby.contains carol = false := by decide +kernel
  have hmail : s'.mailbox = [] := by decide +kernel
  have hsockets : s'.sockets.entries =
      [(alice.id, ⟨alice.user, .live⟩), (other.id, ⟨other.user, .live⟩)] := by decide +kernel
  have hwatching : (s'.arbiter.watching.get? carol.user).isSome = true := by decide +kernel
  have hs : s = (new (Store.new [m]) ⟨1000⟩).run left := rfl
  have hs' : s' = (new (Store.new [m]) ⟨1000⟩).run gone := rfl
  clear_value s s'
  obtain ⟨hin, -, -⟩ := no_dead_connection (Store.new [m]) ⟨1000⟩ hs
  obtain ⟨-, -, hidle⟩ := no_dead_connection (Store.new [m]) ⟨1000⟩ hs'
  have hleaving : ∀ c, ¬ s'.Leaving c := by
    intro c hc
    have hmem := SortedMap.mem_entries_iff.mpr hc
    rw [hsockets] at hmem
    simp at hmem
  obtain ⟨hin', hwatch'⟩ := hidle hmail hleaving
  obtain ⟨ids, hids⟩ := Option.isSome_iff_exists.mp hwatching
  refine ⟨hcarol, hout, ?_, hother, hin' m, hwatch' _ ids hids⟩
  rcases hin m carol hcarol with hc | hc
  · rw [hout] at hc
    cases hc
  · exact hc

/-! ### Frames and calls

What the server does with the frames of a socket or with a request over HTTP is made of such steps,
so it keeps the invariant. -/

theorem Tended.handleUpTo (h : Tended s) (n : Nat) : Tended (Server.handleUpTo n s).2 := by
  induction n generalizing s with
  | zero => exact h
  | succ n ih =>
      have hnext := h.handleUnder s.arbiter.store.outage
      unfold Server.handleUnder at hnext
      unfold Server.handleUpTo
      -- the store's own outage changes nothing
      have hself : { s with arbiter := s.arbiter.under s.arbiter.store.outage } = s := rfl
      rw [hself] at hnext
      generalize s.handleNext = x at hnext ⊢
      cases x with
      | none => exact h
      | some x => exact ih hnext

theorem Tended.drain (h : Tended s) : Tended s.drain.2 := h.handleUpTo _

theorem Tended.hangUp (h : Tended s) (i : ConnectionId) : Tended (s.hangUp i) :=
  (h.leave i).depart i

theorem Tended.take (h : Tended s) (i : ConnectionId) (f : Web.Frame) :
    Tended (s.take i f).2 := by
  unfold Server.take
  split_ifs
  · exact h
  · exact h.hangUp i
  · cases f with
    | text payload =>
        simp only
        split
        · exact h.submit i _
        · exact h
    | binary _ => exact h
    | ping _ => exact h
    | pong _ => exact h
    | _ => exact h.hangUp i

theorem Tended.takeAll (h : Tended s) (i : ConnectionId) (fs : List Web.Frame) :
    Tended (Server.takeAll i fs s).2 := by
  induction fs generalizing s with
  | nil => exact h
  | cons f fs ih => exact ih (h.take i f)

/-- A server that takes frames from a socket stays tended. -/
theorem Tended.receive (h : Tended s) (i : ConnectionId) (fs : List Web.Frame) :
    Tended (s.receive i fs).2 := (h.takeAll i fs).drain

theorem Tended.openSocket (h : Tended s) (u : UserId) : Tended (s.openSocket u).2 :=
  ((h.arrive u).announce _).drain

/-- A request over HTTP comes from no connection. -/
theorem asker_of_check {a : Web.Ask} (h : Web.check a = .ok (.request r)) : r.asker? = none := by
  unfold Web.check at h
  simp only at h
  cases hroute : Web.Route.ofTarget? (Web.Target.ofText a.target) with
  | none =>
      rw [hroute] at h
      cases h
  | some route =>
      rw [hroute] at h
      simp only at h
      split at h
      · cases h
      · cases route with
        | socket =>
            simp only at h
            split at h
            · cases h
            · split at h <;> cases h
        | newMatch =>
            simp only at h
            split at h
            · cases h
            · cases h
              rfl
        | join name =>
            simp only at h
            split at h
            · cases h
            · split at h
              · cases h
              · cases h
                rfl
        | watch name =>
            simp only at h
            split at h
            · cases h
            · split at h
              · cases h
              · cases h
                rfl

/-- A server that serves requests over HTTP stays tended. -/
theorem Tended.serve (h : Tended s) (a : Web.Ask) : Tended (s.serve a).state := by
  unfold Server.serve
  cases hc : Web.check a with
  | error status => exact h
  | ok passed =>
      cases passed with
      | socket u => exact h.openSocket u
      | request r => exact (h.post_of_nobody (asker_of_check hc)).drain

end Server
end LiveChess
