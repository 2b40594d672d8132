import LiveChess.Proofs.Locality

/-! # Requests on different matches do not interfere

Two requests on two matches may be handled in either order: each is answered the same and sends the
same, and the states in the end differ at most in the serial numbers of tables set up meanwhile
(`handle_comm`).  A request on the one match leaves the state as it was at the other
(`agreesAt_handle`), so that the request on the other depends on nothing the first has changed. -/

namespace LiveChess

attribute [ext] Store

namespace Arbiter

variable {a a' b b' : Arbiter} {j m m' : MatchId} {t t' : Table} {opened : Connections} {r r' : Request}

/-! ### What requests on a match leave alone -/

/-- What no request on a match changes. -/
structure Steady (a a' : Arbiter) : Prop where
  budget : a'.hall.budget = a.hall.budget
  outage : a'.store.outage = a.store.outage
  supply : a'.store.supply = a.store.supply
  created : a'.store.created = a.store.created

theorem Attended.steady {own : List Connection} (h : Attended own a m a') : Steady a a' := by
  cases h with
  | missing h => exact ⟨rfl, rfl, rfl, rfl⟩
  | served t a₁ found t' s' act =>
      have hfound : Steady a a₁ := by
        cases found with
        | held t h => exact ⟨rfl, rfl, rfl, rfl⟩
        | loaded r g h hr hg => exact ⟨rfl, rfl, rfl, rfl⟩
      refine ⟨?_, ?_, ?_, ?_⟩
      · rw [budget_settle]
        exact hfound.budget
      · cases act <;> exact hfound.outage
      · cases act <;> exact hfound.supply
      · cases act <;> exact hfound.created

theorem steady_handle (hk : a.hall.Keyed) (opened : Connections) (hr : r.about = some m) :
    Steady a (a.handle opened r).state := by
  rcases state_handle_about hk opened hr with ⟨-, hs⟩ | ⟨-, β, act, watching, hact, hs⟩
  · rw [hs]
    exact ⟨rfl, rfl, rfl, rfl⟩
  · obtain ⟨hbudget, houtage, hsupply, hcreated⟩ := (attend_attended a m act hact).steady
    rw [hs]
    exact ⟨hbudget, houtage, hsupply, hcreated⟩

/-- A request on one match leaves all there is of another as it was. -/
theorem agreesAt_handle (hk : a.hall.Keyed) (opened : Connections) (hr : r.about = some m)
    (hne : m' ≠ m) : AgreesAt m' a (a.handle opened r).state := by
  have hoff := agreesOff_handle hk opened hr
  have hsteady := steady_handle hk opened hr
  exact ⟨by rw [hoff.tables m' hne], hsteady.budget, hoff.records m' hne, hsteady.outage⟩

/-- A table that was there before a request is still the same one, unless it was cleared away. -/
theorem serial_handle (hk : a.hall.Keyed) (opened : Connections) (hr : r.about = some m)
    (ht : a.hall.tables.get? j = some t)
    (ht' : (a.handle opened r).state.hall.tables.get? j = some t') : t'.serial = t.serial := by
  by_cases hj : j = m
  · subst hj
    rcases state_handle_about hk opened hr with ⟨-, hs⟩ | ⟨-, β, act, watching, hact, hs⟩
    · rw [hs, ht] at ht'
      cases ht'
      rfl
    · have hdone := hact t a.store
      unfold attend at hs
      rw [find_of_held ht] at hs
      rw [hs] at ht'
      simp only at ht'
      rw [get?_settle, if_pos (hdone.id_eq.trans (hk j t ht)).symm] at ht'
      split_ifs at ht'
      cases ht'
      exact hdone.continues.serial
  · rw [(agreesOff_handle hk opened hr).tables j hj, ht] at ht'
    cases ht'
    rfl

/-! ### Either order -/

theorem noted_comm (hne : m ≠ m') (w : SortedMap UserId (SortedSet MatchId))
    (u u' : Option UserId) :
    noted m' (noted m w u) u' = noted m (noted m' w u') u := by
  cases u with
  | none => rfl
  | some u =>
      cases u' with
      | none => rfl
      | some u' =>
          simp only [noted]
          by_cases hu : u = u'
          · subst hu
            simp only [SortedMap.get?_insert_self, SortedMap.insert_insert, Option.getD_some]
            congr 1
            exact SortedMap.insert_comm _ _ _ hne
          · rw [SortedMap.get?_insert_of_ne _ _ hu, SortedMap.get?_insert_of_ne _ _ (Ne.symm hu),
              SortedMap.insert_comm _ _ _ hu]

/-- The states differ at most in the serial numbers of tables that a third one did not have. -/
structure AlikeSince (a b b' : Arbiter) : Prop where
  store : b'.store = b.store
  watching : b'.watching = b.watching
  budget : b'.hall.budget = b.hall.budget
  issued : b'.hall.issued = b.hall.issued
  tables : ∀ j, (b'.hall.tables.get? j).map (·.numbered 0) =
    (b.hall.tables.get? j).map (·.numbered 0)
  kept : ∀ j t, a.hall.tables.get? j = some t → b'.hall.tables.get? j = b.hall.tables.get? j

theorem AgreesAt.symm (h : AgreesAt m a b) : AgreesAt m b a :=
  ⟨h.table.symm, h.budget.symm, h.store.record.symm, h.store.outage.symm⟩

theorem AgreesAt.trans (h : AgreesAt m a b) (h' : AgreesAt m b b') : AgreesAt m a b' :=
  ⟨h'.table.trans h.table, h'.budget.trans h.budget, h'.store.record.trans h.store.record,
    h'.store.outage.trans h.store.outage⟩

/-- The later of two requests on two matches does what it would have done without the earlier. -/
theorem abreast_handle (hk : a.hall.Keyed) (opened : Connections) (hr : r.about = some m)
    (hr' : r'.about = some m') (hne : m' ≠ m) :
    HandledAbreast m' a (a.handle opened r).state (a.handle opened r')
      ((a.handle opened r).state.handle opened r') :=
  handled_abreast (agreesAt_handle hk opened hr hne) hk (agreesOff_handle hk opened hr).keyed
    opened hr'

/-- Of the match of the earlier request, the same is left whatever the order. -/
theorem agreesAt_own (hk : a.hall.Keyed) (opened : Connections) (hr : r.about = some m)
    (hr' : r'.about = some m') (hne : m ≠ m') :
    AgreesAt m ((a.handle opened r).state.handle opened r').state
      ((a.handle opened r').state.handle opened r).state := by
  have hlater := agreesAt_handle (agreesOff_handle hk opened hr).keyed opened hr' hne
  exact hlater.symm.trans (abreast_handle hk opened hr' hr hne).state.agrees

theorem agreesAt_either (hk : a.hall.Keyed) (opened : Connections) (hr : r.about = some m)
    (hr' : r'.about = some m') (hne : m ≠ m') (j : MatchId) :
    AgreesAt j ((a.handle opened r).state.handle opened r').state
      ((a.handle opened r').state.handle opened r).state := by
  by_cases hm : j = m
  · subst hm
    exact agreesAt_own hk opened hr hr' hne
  by_cases hm' : j = m'
  · subst hm'
    exact (agreesAt_own hk opened hr' hr hne.symm).symm
  have hthere := (agreesAt_handle hk opened hr hm).trans
    (agreesAt_handle (agreesOff_handle hk opened hr).keyed opened hr' hm')
  have hback := (agreesAt_handle hk opened hr' hm').trans
    (agreesAt_handle (agreesOff_handle hk opened hr').keyed opened hr hm)
  exact hthere.symm.trans hback

theorem serial_handle_handle (hk : a.hall.Keyed) (opened : Connections) (hr : r.about = some m)
    (hr' : r'.about = some m') (hne : m ≠ m') (ht : a.hall.tables.get? j = some t) :
    ∀ t', ((a.handle opened r).state.handle opened r').state.hall.tables.get? j = some t' →
      t'.serial = t.serial := by
  intro t' ht'
  have hoff := agreesOff_handle hk opened hr
  by_cases hj : j = m'
  · rw [← hoff.tables j (hj.trans_ne hne.symm)] at ht
    exact serial_handle hoff.keyed opened hr' ht ht'
  · rw [(agreesOff_handle hoff.keyed opened hr').tables j hj] at ht'
    exact serial_handle hk opened hr ht ht'

theorem alikeSince_either (hk : a.hall.Keyed) (opened : Connections) (hr : r.about = some m)
    (hr' : r'.about = some m') (hne : m ≠ m') :
    AlikeSince a ((a.handle opened r).state.handle opened r').state
      ((a.handle opened r').state.handle opened r).state := by
  have hagree := agreesAt_either hk opened hr hr' hne
  have hk₁ := (agreesOff_handle hk opened hr).keyed
  have hk₂ := (agreesOff_handle hk opened hr').keyed
  have hthere := abreast_handle hk opened hr hr' hne.symm
  have hback := abreast_handle hk opened hr' hr hne
  obtain ⟨hloads, hsaves, hissued⟩ := hthere.state.counts
  obtain ⟨hloads', hsaves', hissued'⟩ := hback.state.counts
  have hs₁ := steady_handle hk opened hr
  have hs₂ := steady_handle hk opened hr'
  have hs₁₂ := steady_handle hk₁ opened hr'
  have hs₂₁ := steady_handle hk₂ opened hr
  refine ⟨?_, ?_, (hagree m).budget, by omega, fun j => (hagree j).table, fun j t ht => ?_⟩
  · apply Store.ext
    · exact SortedMap.ext_get? fun j => (hagree j).store.record
    · exact (hagree m).store.outage
    · rw [hs₂₁.supply, hs₂.supply, hs₁₂.supply, hs₁.supply]
    · rw [hs₂₁.created, hs₂.created, hs₁₂.created, hs₁.created]
    · omega
    · omega
  · obtain ⟨u', hw, hw'⟩ := hthere.watching
    obtain ⟨u, hv, hv'⟩ := hback.watching
    rw [hv', hw, hw', hv, noted_comm hne]
  · have htable := (hagree j).table
    have hserial := serial_handle_handle hk opened hr hr' hne ht
    have hserial' := serial_handle_handle hk opened hr' hr hne.symm ht
    generalize ((a.handle opened r).state.handle opened r').state.hall.tables.get? j = x
      at htable hserial ⊢
    generalize ((a.handle opened r').state.handle opened r).state.hall.tables.get? j = y
      at htable hserial' ⊢
    cases x with
    | none => exact Option.map_eq_none_iff.mp htable
    | some t₁ =>
        obtain ⟨t₂, rfl, hsame⟩ := Option.map_eq_some_iff.mp htable
        have hnumber : t₂.serial = t₁.serial := (hserial' t₂ rfl).trans (hserial t₁ rfl).symm
        rw [Table.eq_numbered hsame, hnumber]
        rfl

/-- **Requests on different matches do not interfere.**  Let the hall be in any state that a run can
bring it to, and the store hold any records and fail at any calls; and let one request be about one
match and another about another, each of them listing squares, moving, joining or watching.  In
either order each request gets the answer and sends the notices that it would get and send alone.
In the end the store, what is watched and the tables, games and followers alike, do not depend on
the order; only the serial numbers of tables set up meanwhile may.  Either request leaves the table
and the record of every match but its own as they were. -/
theorem handle_comm (store : Store) (budget : Duration) {es : List Occasion}
    (ha : a.hall = ((new store budget).after es).hall) (opened : Connections)
    (hr : r.about = some m) (hr' : r'.about = some m') (hne : m ≠ m') :
    let x := a.handle opened r
    let y := a.handle opened r'
    let xy := x.state.handle opened r'
    let yx := y.state.handle opened r
    (yx.answer = x.answer ∧ yx.sent = x.sent) ∧ (xy.answer = y.answer ∧ xy.sent = y.sent) ∧
      AlikeSince a xy.state yx.state ∧
      (∀ j, j ≠ m → x.state.hall.tables.get? j = a.hall.tables.get? j ∧
        x.state.store.records.get? j = a.store.records.get? j) ∧
      ∀ j, j ≠ m' → y.state.hall.tables.get? j = a.hall.tables.get? j ∧
        y.state.store.records.get? j = a.store.records.get? j := by
  have hk : a.hall.Keyed := ha ▸ keyed_after (keyed_new store budget) es
  have hthere := abreast_handle hk opened hr hr' hne.symm
  have hback := abreast_handle hk opened hr' hr hne
  have hoff := agreesOff_handle hk opened hr
  have hoff' := agreesOff_handle hk opened hr'
  refine ⟨⟨hback.answer, hback.sent⟩, ⟨hthere.answer, hthere.sent⟩,
    alikeSince_either hk opened hr hr' hne, ?_, ?_⟩
  · exact fun j hj => ⟨hoff.tables j hj, hoff.records j hj⟩
  · exact fun j hj => ⟨hoff'.tables j hj, hoff'.records j hj⟩

/-- Dave begins to watch one match while Alice moves in another; both matches are set up from the
store, so which of the tables gets the first serial number depends on the order. -/
theorem handle_comm_of_watch_and_move :
    let m : MatchId := ⟨⟨7⟩⟩
    let m' : MatchId := ⟨⟨9⟩⟩
    let alice : Connection := ⟨⟨0⟩, ⟨⟨1⟩⟩⟩
    let dave : Connection := ⟨⟨3⟩, ⟨⟨4⟩⟩⟩
    let opened := (Connections.empty.insert alice).insert dave
    let seats : Seats := ⟨some alice.user, some ⟨⟨2⟩⟩⟩
    let store := ((Store.new []).seed m (.fresh seats)).seed m' (.fresh seats)
    let a := (new store ⟨1000⟩).after []
    let watch : Request := .watch m dave.user
    let move : Request := .move alice m' "e2" "e4"
    let after := (a.handle opened watch).state.handle opened move
    let before := (a.handle opened move).state.handle opened watch
    (after.state.hall.tables.get? m).map (·.serial) = some 0 ∧
      (before.state.hall.tables.get? m).map (·.serial) = some 1 ∧
      after.sent = [⟨alice.id, .pieceMoved m' ⟨6, 4⟩ ⟨4, 4⟩⟩] ∧
      after.sent = (a.handle opened move).sent ∧ before.sent = (a.handle opened watch).sent ∧
      AlikeSince a after.state before.state := by
  intro m m' alice dave opened seats store a watch move after before
  have hfirst : (after.state.hall.tables.get? m).map (·.serial) = some 0 := by decide +kernel
  have hsecond : (before.state.hall.tables.get? m).map (·.serial) = some 1 := by decide +kernel
  have hsent : after.sent = [⟨alice.id, .pieceMoved m' ⟨6, 4⟩ ⟨4, 4⟩⟩] := by decide +kernel
  have hwatch : watch.about = some m := rfl
  have hmove : move.about = some m' := rfl
  obtain ⟨⟨-, hbefore⟩, ⟨-, hafter⟩, halike, -, -⟩ :=
    handle_comm (a := a) store ⟨1000⟩ rfl opened hwatch hmove (by decide)
  exact ⟨hfirst, hsecond, hsent, hafter, hbefore, halike⟩

end Arbiter
end LiveChess
