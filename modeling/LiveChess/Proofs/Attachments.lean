import LiveChess.Proofs.Calls

/-! # Who follows a table

The connections that follow a table are kept by user, but they amount to a set of pairs of a user
and a number (`Table.FollowedBy`): the pairs that have come to the table and not left it since
(`Sitting.Attached`).  One call changes the set by its own pair or not at all (`contains_call`), and
no user is kept without a connection (`tight_call`), so any run of calls, joins and moves among
them, ends with the attached pairs (`followers_are_attached`). -/

namespace LiveChess

namespace Table

variable {t : Table} {P : Connection → Prop}

theorem dismiss_eq (t : Table) (c : Connection) :
    t.dismiss c = (t.followers.contains c, t.disconnect c) := by
  unfold dismiss
  rw [Connections.remove_eq]
  rfl

/-- The followers of a table are a set of connections.  The map holds these, and no user without
one; the viewers are their users in strictly ascending order, in pictures too; numbering off names
the number of each connection once. -/
structure FollowedBy (t : Table) (P : Connection → Prop) : Prop where
  contains : ∀ c, t.followers.contains c = true ↔ P c
  kept : ∀ u s, t.followers.byUser.get? u = some s → s.isEmpty = false
  viewers : ∀ us, t.viewers = us ↔
    us.Pairwise (fun u v => Ranked.rank u < Ranked.rank v) ∧ ∀ u, u ∈ us ↔ ∃ i, P ⟨i, u⟩
  pictured : t.snapshot.viewers = t.viewers
  ids : ∃ pairs : List Connection, pairs.Nodup ∧ (∀ c, c ∈ pairs ↔ P c) ∧
    t.followers.ids = pairs.map (·.id)

theorem followedBy_of_tight (ht : t.followers.Tight)
    (h : ∀ c, t.followers.contains c = true ↔ P c) : t.FollowedBy P where
  contains := h
  kept := fun u s hs => ht.isEmpty_eq_false hs
  viewers := fun us => by
    refine (Connections.users_eq_iff ht).trans ?_
    simp only [h]
  pictured := rfl
  ids := ⟨_, t.followers.nodup_toList, fun c => Connections.mem_toList.trans (h c),
    t.followers.ids_eq_map⟩

end Table

namespace Sitting

variable {d : Sitting} {past : List Call} {x y : Call} {c e : Connection}

/-! ### Coming and going -/

/-- The connection has come to the table and not left it since. -/
def Attached (past : List Call) (c : Connection) : Prop :=
  ∃ before after, past = before ++ .connect c :: after ∧ .disconnect c ∉ after

theorem not_attached_nil : ¬ Attached [] c := by
  rintro ⟨before, after, h, -⟩
  simp at h

theorem attached_snoc : Attached (past ++ [x]) c ↔
    x = .connect c ∨ x ≠ .disconnect c ∧ Attached past c := by
  constructor
  · rintro ⟨before, after, h, hno⟩
    rcases after.eq_nil_or_concat with rfl | ⟨after, z, rfl⟩
    · exact .inl (List.singleton_inj.mp (List.append_inj' h rfl).2)
    · rw [List.concat_eq_append, ← List.cons_append, ← List.append_assoc] at h
      obtain ⟨hpast, hx⟩ := List.append_inj' h rfl
      rw [List.concat_eq_append, List.mem_append, not_or] at hno
      refine .inr ⟨?_, before, after, hpast, hno.1⟩
      rw [List.singleton_inj.mp hx]
      exact fun hz => hno.2 (List.mem_singleton.mpr hz.symm)
  · rintro (rfl | ⟨hx, before, after, rfl, hno⟩)
    · exact ⟨past, [], rfl, List.not_mem_nil⟩
    · refine ⟨before, after ++ [x], by simp, ?_⟩
      rw [List.mem_append, List.mem_singleton, not_or]
      exact ⟨hno, hx.symm⟩

/-- The connection that a call is about. -/
def Call.connection? : Call → Option Connection
  | .connect c => some c
  | .disconnect c => some c
  | _ => none

theorem connection?_eq_some_iff :
    x.connection? = some c ↔ x = .connect c ∨ x = .disconnect c := by
  cases x <;> simp [Call.connection?]

/-! ### What a call does to the followers -/

theorem followers_ask (d : Sitting) (o : Outage) (q : Question) :
    (d.ask o q).2.table.followers = d.table.followers := by
  have h := d.ask_asked o q
  generalize (d.ask o q).2 = d' at h ⊢
  cases h <;> rfl

/-- After a call the followers are those that the call attaches and those that were there and that
it does not take away. -/
theorem contains_call : (d.call x).table.followers.contains c = true ↔
    x = .connect c ∨ x ≠ .disconnect c ∧ d.table.followers.contains c = true := by
  cases x with
  | ask o q => simp [call, followers_ask]
  | connect e =>
      refine Connections.contains_insert.trans ?_
      simp [eq_comm (a := c)]
  | disconnect e =>
      refine Connections.contains_erase.trans ?_
      simp [eq_comm (a := c)]
  | picture => simp [call]

theorem tight_call (h : d.table.followers.Tight) (x : Call) :
    (d.call x).table.followers.Tight := by
  cases x with
  | ask o q =>
      show (d.ask o q).2.table.followers.Tight
      rw [followers_ask]
      exact h
  | connect c => exact h.insert c
  | disconnect c => exact h.erase c
  | picture => exact h

theorem calls_snoc (d : Sitting) (past : List Call) (x : Call) :
    d.calls (past ++ [x]) = (d.calls past).call x := List.foldl_concat ..

/-- A run of calls at a table that nobody followed leads to the attached connections. -/
theorem followers_calls (h : d.table.followers = .empty) (past : List Call) :
    (d.calls past).table.followers.Tight ∧
      ∀ c, (d.calls past).table.followers.contains c = true ↔ Attached past c := by
  induction past using List.reverseRecOn with
  | nil =>
      rw [show d.calls [] = d from rfl, h]
      refine ⟨Connections.tight_empty, fun c => ?_⟩
      rw [iff_false_right not_attached_nil]
      exact Bool.false_ne_true
  | append_singleton past x ih =>
      -- the last call changes the followers as it changes who is attached
      rw [calls_snoc]
      refine ⟨tight_call ih.1 x, fun c => ?_⟩
      rw [contains_call, attached_snoc, ih.2]

/-! ### Calls about different connections -/

theorem contains_call_of_ne (hx : x.connection? = some c) (hce : c ≠ e) :
    (d.call x).table.followers.contains e = d.table.followers.contains e := by
  rw [Bool.eq_iff_iff, contains_call]
  have hconnect : x ≠ .connect e := by
    rintro rfl
    exact hce (Option.some.inj hx).symm
  have hdisconnect : x ≠ .disconnect e := by
    rintro rfl
    exact hce (Option.some.inj hx).symm
  simp [hconnect, hdisconnect]

theorem call_comm (h : d.table.followers.Tight) (hx : x.connection? = some c)
    (hy : y.connection? = some e) (hce : c ≠ e) : (d.call x).call y = (d.call y).call x := by
  rcases connection?_eq_some_iff.mp hx with rfl | rfl
  · rcases connection?_eq_some_iff.mp hy with rfl | rfl
    · simp only [call, Table.connect, h.insert_comm c e]
    · simp only [call, Table.connect, Table.disconnect, h.erase_insert_comm hce]
  · rcases connection?_eq_some_iff.mp hy with rfl | rfl
    · simp only [call, Table.connect, Table.disconnect, h.erase_insert_comm hce.symm]
    · simp only [call, Table.disconnect, h.erase_comm c e]

theorem call_connect_of_contains (h : d.table.followers.Tight)
    (hc : d.table.followers.contains c = true) : d.call (.connect c) = d := by
  simp only [call, Table.connect, h.insert_of_contains hc]

/-- **The followers of a table are the attached pairs.**  Set up a table from any record and let
connections come and go, in any order and any of them more than once, while users join, move and
ask with the saves failing as they like.  The followers are the set of the connections that have
come and not left since (`Table.FollowedBy`, with viewers and numbering off).  A connection that is
sent away is told that it followed if it is attached, and only then, and it alone is taken away; one
that is attached already changes nothing by coming.  Calls about different connections lead to
the same in either order, and none changes what the other is told. -/
theorem followers_are_attached {serial : Nat} {id : MatchId} {r : MatchRecord} {budget : Duration}
    {t₀ : Table} (h : Table.setUp serial id r budget = .ok t₀) (store : Store) (past : List Call)
    {d : Sitting} (hd : d = calls ⟨t₀, store⟩ past) :
    d.table.FollowedBy (Attached past) ∧
      (∀ c, ∃ followed, d.table.dismiss c = (followed, (d.call (.disconnect c)).table) ∧
        (followed = true ↔ Attached past c) ∧
        (d.call (.disconnect c)).table.FollowedBy fun e => e ≠ c ∧ Attached past e) ∧
      (∀ c, Attached past c → d.call (.connect c) = d) ∧
      ∀ x y c e, x.connection? = some c → y.connection? = some e → c ≠ e →
        (d.call x).call y = (d.call y).call x ∧
          ((d.call x).table.dismiss e).1 = (d.table.dismiss e).1 := by
  have hempty : t₀.followers = .empty := by
    unfold Table.setUp at h
    split at h
    · cases h
      rfl
    · cases h
  obtain ⟨htight, hcontains⟩ : d.table.followers.Tight ∧
      ∀ c, d.table.followers.contains c = true ↔ Attached past c :=
    hd ▸ followers_calls (d := ⟨t₀, store⟩) hempty past
  refine ⟨Table.followedBy_of_tight htight hcontains, fun c => ?_, fun c hc => ?_, ?_⟩
  · refine ⟨_, d.table.dismiss_eq c, hcontains c, ?_⟩
    refine Table.followedBy_of_tight (htight.erase c) fun e => ?_
    exact Connections.contains_erase.trans (and_congr_right' (hcontains e))
  · exact call_connect_of_contains htight ((hcontains c).mpr hc)
  · intro x y c e hx hy hce
    refine ⟨call_comm htight hx hy hce, ?_⟩
    rw [Table.dismiss_eq, Table.dismiss_eq, contains_call_of_ne hx hce]

/-- Alice follows with her phone, but no longer with her laptop, though Bob has come with a
connection of the laptop's number. -/
theorem followers_of_two_devices :
    let id : MatchId := ⟨⟨7⟩⟩
    let alice : UserId := ⟨⟨1⟩⟩
    let bob : UserId := ⟨⟨2⟩⟩
    let phone : Connection := ⟨⟨1⟩, alice⟩
    let laptop : Connection := ⟨⟨2⟩, alice⟩
    let past : List Call := [.connect laptop, .connect phone, .connect ⟨⟨2⟩, bob⟩,
      .ask .none (.join bob), .disconnect ⟨⟨3⟩, alice⟩, .connect phone,
      .ask .none (.move alice ⟨6, 4⟩ ⟨4, 4⟩), .disconnect laptop]
    ∃ t₀, Table.setUp 0 id (.fresh ⟨some alice, none⟩) ⟨1000⟩ = .ok t₀ ∧
      ∀ d, d = calls ⟨t₀, (Store.new []).seed id (.fresh ⟨some alice, none⟩)⟩ past →
        alice ∈ d.table.viewers ∧ bob ∈ d.table.viewers ∧
          (d.table.dismiss phone).1 = true ∧ (d.table.dismiss laptop).1 = false ∧
          d.call (.connect phone) = d := by
  intro id alice bob phone laptop past
  have hsetUp : Table.setUp 0 id (.fresh ⟨some alice, none⟩) ⟨1000⟩ =
      .ok ⟨id, 0, ⟨1000⟩, .opening ⟨some alice, none⟩, .empty⟩ := by
    rw [Table.setUp, Game.ofRecord_fresh]
  refine ⟨_, hsetUp, fun d hd => ?_⟩
  obtain ⟨hfollowed, hdismiss, hconnect, -⟩ := followers_are_attached hsetUp _ past hd
  have hphone : Attached past phone :=
    ⟨past.take 5, past.drop 6, rfl, by simp [past, phone, laptop]⟩
  have hbob : Attached past ⟨⟨2⟩, bob⟩ :=
    ⟨past.take 2, past.drop 3, rfl, by simp [past, bob, laptop, alice]⟩
  have hlaptop : ¬ Attached past laptop := by
    -- the last call took the laptop away
    intro hl
    rcases attached_snoc.mp (show Attached (past.take 7 ++ [.disconnect laptop]) laptop from hl)
      with hx | ⟨hx, -⟩
    · cases hx
    · exact hx rfl
  have hviewers := (hfollowed.viewers d.table.viewers).mp rfl
  refine ⟨(hviewers.2 alice).mpr ⟨_, hphone⟩, (hviewers.2 bob).mpr ⟨_, hbob⟩, ?_, ?_,
    hconnect phone hphone⟩
  · obtain ⟨followed, hd, hiff, -⟩ := hdismiss phone
    rw [hd]
    exact hiff.mpr hphone
  · obtain ⟨followed, hd, hiff, -⟩ := hdismiss laptop
    rw [hd, Bool.eq_false_iff]
    exact fun hf => hlaptop (hiff.mp hf)

end Sitting
end LiveChess
