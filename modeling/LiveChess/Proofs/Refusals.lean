import LiveChess.Proofs.Upkeep

/-! # Refused requests

A request on a match, or one to begin a match, is refused for reasons that lie at every depth: a
square that cannot be read, a match that cannot be found, a rule of the game, or a save that fails
after the next state has been computed.  `verdict` collects them.  `judged_handle` says that a
request is refused exactly as the verdict has it, and that a refusal reaches nobody but the asker
and leaves everything as it was (`Untouched`), except that the match may have got a table that
nobody follows. -/

namespace LiveChess

/-- The answer and the notices by which a refusal is told: a connection gets a notice, all others
get it as their answer. -/
def Request.refusedWith (e : Refusal) : Request → Answer × List Delivery
  | .connect c => (.done, Arbiter.tellRefusal c e)
  | .disconnect c => (.done, Arbiter.tellRefusal c e)
  | .showMoves c _ _ => (.done, Arbiter.tellRefusal c e)
  | .move c _ _ _ => (.done, Arbiter.tellRefusal c e)
  | .join _ _ => (.refused e, [])
  | .watch _ _ => (.refused e, [])
  | .create _ _ _ => (.refused e, [])

/-- Neither a notice nor the answer tells of a refusal. -/
structure Handled.Granted (x : Handled) : Prop where
  sent : x.refuses = false
  answer : ∀ e, x.answer ≠ .refused e

namespace Arbiter

variable {a a' : Arbiter} {id m : MatchId} {t : Table} {c : Connection} {e : Refusal}
  {opened : Connections} {r : Request}

/-- Whether a request on a match or for a new one is granted, and if not, why. -/
def verdict (a : Arbiter) : Request → Except Refusal Unit
  | .connect _ => .ok ()
  | .disconnect _ => .ok ()
  | .showMoves c id source => do
    let s ← Square.parse source
    let t ← (a.find id).1
    let _ ← t.game.movesFrom c.user s
  | .move c id source target => do
    let s ← Square.parse source
    let s' ← Square.parse target
    let t ← (a.find id).1
    let _ ← (t.move c.user s s' (a.find id).2.store).1
  | .join id u => do
    let t ← (a.find id).1
    let _ ← (t.join u (a.find id).2.store).1
  | .watch id _ => do
    let _ ← (a.find id).1
  | .create creator color opponent => do
    if opponent = some creator then throw .alreadySeated
    let _ ← (a.hall.create (.fresh (seatsOf creator color opponent)) a.store).1

/-- Records, the name of the next match, watching users and all tables are as before, tables with
their games and followers, except that the match, if one is named, may have got a table from its
record, with nobody following. -/
structure Untouched (named : Option MatchId) (a a' : Arbiter) : Prop where
  records : a'.store.records = a.store.records
  names : a'.store.nextId = a.store.nextId
  watching : a'.watching = a.watching
  kept : ∀ m t, a.hall.tables.get? m = some t → a'.hall.tables.get? m = some t
  fresh : ∀ m t, a'.hall.tables.get? m = some t → a.hall.tables.get? m = some t ∨
    named = some m ∧ a.hall.tables.get? m = none ∧ t.game.status ≠ .closed ∧ t.followers = .empty ∧
      ∃ r, a.store.records.get? m = some r ∧ Game.ofRecord r = .ok t.game

theorem Untouched.refl (named : Option MatchId) (a : Arbiter) : Untouched named a a :=
  ⟨rfl, rfl, rfl, fun _ _ h => h, fun _ _ h => .inl h⟩

theorem Untouched.of_under {named : Option MatchId} {o : Outage}
    (h : Untouched named (a.under o) a') : Untouched named a a' :=
  ⟨h.records, h.names, h.watching, h.kept, h.fresh⟩

/-- A search that fails touches nothing. -/
theorem Finds.untouched_error (h : Finds a id (.error e, a')) : Untouched (some id) a a' := by
  cases h with
  | refused e h => exact ⟨rfl, rfl, rfl, fun _ _ h => h, fun _ _ h => .inl h⟩

/-- Settling a table that was found and did not change touches nothing. -/
theorem Finds.untouched_settle (hk : Kempt a) (h : Finds a id (.ok t, a')) (saves : Nat) :
    Untouched (some id) a ({ a' with store := { a'.store with saves := saves } }.settle t) := by
  have hget : ∀ (b : Arbiter) (j : MatchId), (b.settle t).hall.tables.get? j =
      if j = id then (if t.game.status = .closed then none else some t)
      else b.hall.tables.get? j := by
    intro b j
    rw [get?_settle, (h.found hk).id_eq]
  cases h with
  | held t ht =>
      -- the table was not over, so settling puts it where it was
      have hsame : ∀ (b : Arbiter) (j : MatchId), b.hall = a.hall →
          (b.settle t).hall.tables.get? j = a.hall.tables.get? j := by
        intro b j hb
        rw [hget, hb]
        split_ifs with hj hc
        · exact absurd hc (hk.sound id t ht).unfinished
        · rw [hj, ht]
        · rfl
      exact ⟨rfl, rfl, rfl, fun m t' h => (hsame _ m rfl).trans h,
        fun m t' h => .inl ((hsame _ m rfl).symm.trans h)⟩
  | loaded r g ht hr hg =>
      refine ⟨rfl, rfl, rfl, fun m t' h => ?_, fun m t' h => ?_⟩
      · have hm : m ≠ id := by
          rintro rfl
          rw [ht] at h
          cases h
        rw [hget, if_neg hm]
        exact (SortedMap.get?_insert_of_ne _ _ hm).trans h
      · rw [hget] at h
        split_ifs at h with hm hc
        · cases h
          subst hm
          exact .inr ⟨rfl, ht, hc, rfl, r, hr, hg⟩
        · exact .inl ((SortedMap.get?_insert_of_ne _ _ hm).symm.trans h)

/-! ### One request at a time -/

/-- What becomes of a request with a verdict. -/
inductive Judged (a : Arbiter) (r : Request) : Except Refusal Unit → Handled → Prop where
  | refused (e : Refusal) (x : Handled) (told : (x.answer, x.sent) = r.refusedWith e)
      (untouched : Untouched r.about a x.state) : Judged a r (.error e) x
  | granted (x : Handled) (h : x.Granted) : Judged a r (.ok ()) x

/-- What is sent to many tells no refusal if the notice does not. -/
theorem refuses_broadcast {n : Notice} (hn : n.isRefusal = false) (l : List ConnectionId) :
    (broadcast l n).any (fun d => d.notice.isRefusal) = false := by
  rw [List.any_eq_false]
  intro d hd
  obtain ⟨i, -, rfl⟩ := List.mem_map.mp hd
  rw [hn]
  exact Bool.false_ne_true

theorem judged_showMoves (hk : Kempt a) (c : Connection) (id : MatchId) (source : String) :
    Judged a (.showMoves c id source) (a.verdict (.showMoves c id source))
      (a.showMoves c id source) := by
  simp only [verdict, bind, Except.bind]
  unfold showMoves
  cases Square.parse source with
  | error e =>
      show Judged a _ (.error e) ⟨.done, tellRefusal c e, a⟩
      exact .refused e _ rfl (.refl _ a)
  | ok s =>
      have hfind := a.find_finds id
      generalize a.find id = x at hfind ⊢
      obtain ⟨e | t, a'⟩ := x
      · show Judged a _ (.error e) ⟨.done, tellRefusal c e, a'⟩
        exact .refused e _ rfl hfind.untouched_error
      · simp only
        cases t.game.movesFrom c.user s with
        | error e =>
            show Judged a _ (.error e) ⟨.done, tellRefusal c e, a'.settle t⟩
            exact .refused e _ rfl (hfind.untouched_settle hk a'.store.saves)
        | ok squares =>
            show Judged a _ (.ok ()) ⟨.done, [⟨c.id, .validMoves id squares⟩], a'.settle t⟩
            exact .granted _ ⟨rfl, fun e h => by cases h⟩

theorem judged_move (hk : Kempt a) (c : Connection) (id : MatchId) (source target : String) :
    Judged a (.move c id source target) (a.verdict (.move c id source target))
      (a.move c id source target) := by
  simp only [verdict, bind, Except.bind]
  unfold move
  cases Square.parse source with
  | error e =>
      show Judged a _ (.error e) ⟨.done, tellRefusal c e, a⟩
      exact .refused e _ rfl (.refl _ a)
  | ok s =>
      simp only
      cases Square.parse target with
      | error e =>
          show Judged a _ (.error e) ⟨.done, tellRefusal c e, a⟩
          exact .refused e _ rfl (.refl _ a)
      | ok s' =>
          have hfind := a.find_finds id
          generalize a.find id = x at hfind ⊢
          obtain ⟨e | t, a'⟩ := x
          · show Judged a _ (.error e) ⟨.done, tellRefusal c e, a'⟩
            exact .refused e _ rfl hfind.untouched_error
          · have hsteps := t.move_steps c.user s s' a'.store
            simp only
            generalize t.move c.user s s' a'.store = y at hsteps ⊢
            cases hsteps with
            | refused e saves => exact .refused e _ rfl (hfind.untouched_settle hk saves)
            | done o next h => exact .granted _ ⟨refuses_moveNotices rfl, fun e h => by cases h⟩

theorem judged_join (hk : Kempt a) (opened : Connections) (id : MatchId) (u : UserId) :
    Judged a (.join id u) (a.verdict (.join id u)) (a.join opened id u) := by
  simp only [verdict, bind, Except.bind]
  unfold join
  have hfind := a.find_finds id
  generalize a.find id = x at hfind ⊢
  obtain ⟨e | t, a'⟩ := x
  · show Judged a _ (.error e) ⟨.refused e, [], a'⟩
    exact .refused e _ rfl hfind.untouched_error
  · have hsteps := t.join_steps u a'.store
    simp only
    generalize t.join u a'.store = y at hsteps ⊢
    cases hsteps with
    | refused e saves => exact .refused e _ rfl (hfind.untouched_settle hk saves)
    | done seat next h => exact .granted _ ⟨refuses_broadcast rfl _, fun e h => by cases h⟩

theorem judged_watch (a : Arbiter) (opened : Connections) (id : MatchId) (u : UserId) :
    Judged a (.watch id u) (a.verdict (.watch id u)) (a.watch opened id u) := by
  simp only [verdict, bind, Except.bind]
  unfold watch
  have hfind := a.find_finds id
  generalize a.find id = x at hfind ⊢
  obtain ⟨e | t, a'⟩ := x
  · show Judged a _ (.error e) ⟨.refused e, [], a'⟩
    exact .refused e _ rfl hfind.untouched_error
  · refine .granted _ ⟨?_, fun e h => by cases h⟩
    unfold Handled.refuses
    rw [List.any_eq_false]
    intro d hd
    obtain ⟨i, -, rfl⟩ := List.mem_map.mp hd
    split_ifs <;> exact Bool.false_ne_true

theorem judged_create (a : Arbiter) (opened : Connections) (creator : UserId) (color : Color)
    (opponent : Option UserId) :
    Judged a (.create creator color opponent) (a.verdict (.create creator color opponent))
      (a.create opened creator color opponent) := by
  simp only [verdict, bind, Except.bind]
  unfold create
  split_ifs with hopp
  · show Judged a _ (.error .alreadySeated) ⟨.refused .alreadySeated, [], a⟩
    exact .refused _ _ rfl (.refl _ a)
  · unfold Hall.create Store.create
    cases Store.hindrance a.store.outage.create a.hall.budget with
    | some e =>
        show Judged a _ (.error (.store e)) ⟨.refused (.store e), [], a⟩
        exact .refused _ _ rfl (.refl _ a)
    | none =>
        simp only [Hall.setUp, Table.setUp, Game.ofRecord_fresh]
        exact .granted _ ⟨refuses_broadcast rfl _, fun e h => by cases h⟩

/-- A request on a match or for a new one is refused exactly as the verdict has it. -/
theorem judged_handle (hk : Kempt a) (opened : Connections)
    (hr : r.about.isSome = true ∨ r.creates = true) :
    Judged a r (a.verdict r) (a.handle opened r) := by
  cases r with
  | connect c => simp [Request.about, Request.creates] at hr
  | disconnect c => simp [Request.about, Request.creates] at hr
  | showMoves c id source => exact judged_showMoves hk c id source
  | move c id source target => exact judged_move hk c id source target
  | join id u => exact judged_join hk opened id u
  | watch id u => exact judged_watch a opened id u
  | create creator color opponent => exact judged_create a opened creator color opponent

/-- **A refused request changes nothing and is heard only by its sender.**  Start from a store with
any records, and handle any requests with any connections open and any calls of the store failing.
If a request on a match or for a new one is refused after that, then a connection that asked gets
one notice of the reason and nothing else is sent, or the asker gets the reason as the answer and
nothing is sent at all; and the state is as it was, except that the match may have got a table that
nobody follows.  A request that is not refused is granted: nobody is told of a refusal. -/
theorem refusal_changes_nothing (store : Store) (budget : Duration) {es : List Occasion}
    {a : Arbiter} (ha : a = (new store budget).after es) (e : Occasion)
    (hasked : e.request.about.isSome = true ∨ e.request.creates = true) :
    (∀ reason, (a.under e.outage).verdict e.request = .error reason →
      ((a.meet e).answer, (a.meet e).sent) = e.request.refusedWith reason ∧
        Untouched e.request.about a (a.meet e).state) ∧
      ((a.under e.outage).verdict e.request = .ok () → (a.meet e).Granted) := by
  have hk : Kempt a := ha ▸ (kempt_after (kempt_new store budget) es).1
  have h := judged_handle (hk.under e.outage) e.opened hasked
  unfold meet
  generalize (a.under e.outage).verdict e.request = v at h ⊢
  cases h with
  | refused reason x told untouched =>
      refine ⟨fun reason' hv => ?_, fun hv => ?_⟩
      · cases hv
        exact ⟨told, untouched.of_under⟩
      · cases hv
  | granted x h =>
      refine ⟨fun reason hv => ?_, fun _ => h⟩
      cases hv

/-- A first move that cannot be saved is told to the mover only, and the table stays as it is. -/
theorem refusal_of_failed_save :
    let m : MatchId := ⟨⟨9⟩⟩
    let alice : Connection := ⟨⟨0⟩, ⟨⟨1⟩⟩⟩
    let bob : Connection := ⟨⟨1⟩, ⟨⟨2⟩⟩⟩
    let opened := (Connections.empty.insert alice).insert bob
    let fault : StoreFault := .unavailable "disk full"
    let begun : Occasion := ⟨.create alice.user .white (some bob.user), opened, .none⟩
    let outage : Outage := { Outage.none with save := fun _ => some fault }
    let e : Occasion := ⟨.move alice m "e2" "e4", opened, outage⟩
    let a := (new (Store.new [m]) ⟨1000⟩).after [begun]
    (a.under e.outage).verdict e.request = .error (.store fault) ∧
      (∃ t, a.hall.tables.get? m = some t ∧ (a.meet e).state.hall.tables.get? m = some t) ∧
      (a.meet e).sent = [⟨alice.id, .refused (.store fault)⟩] := by
  intro m alice bob opened fault begun outage e a
  have hverdict : (a.under e.outage).verdict e.request = .error (.store fault) := by decide +kernel
  have htable : a.hall.tables.contains m = true := by decide +kernel
  have ha : a = (new (Store.new [m]) ⟨1000⟩).after [begun] := rfl
  clear_value a
  obtain ⟨htold, huntouched⟩ :=
    (refusal_changes_nothing (Store.new [m]) ⟨1000⟩ ha e (.inl rfl)).1 _ hverdict
  obtain ⟨t, ht⟩ := Option.isSome_iff_exists.mp htable
  exact ⟨hverdict, ⟨t, ht, huntouched.kept m t ht⟩, congrArg Prod.snd htold⟩

end Arbiter
end LiveChess
