import Tradebot.Limiter.Run

/-! At most one live order.

`Run` keeps one order on the exchange at a time: it cancels the active order before it
creates another, and it will not start when a refresh finds more than one order that
is not done. Over the exchange model where a report says done only of an order that is
no longer live (`truthful`), `Sys.Inv` holds in every reachable state: every live order
is a non-done entry of the order map (`Tracked`), at most one order is live (`Single`),
and while the loop runs the live order is the active one (`Owned`). `inv_step` is the
step lemma, `inv_reachable` the run lemma, and `single_live_order` reads the invariant
off.

The invariant has to be there at the start: a limiter that already has two live
orders keeps them, and `Run` only returns an error (`two_live_orders_stay`). The order
map may hold more than one non-done order: a successful Cancel marks nothing locally,
and a create before the done update leaves two (`two_open_orders`). What stays true
is that at most one of them is live (`open_orders_not_live`). -/
namespace Tradebot

namespace Sys

/-- Every live order is a non-done entry of the order map, and no live order has the
empty id. -/
def Tracked (s : Sys) : Prop :=
  s.book.isLive "" = false ∧
    ∀ id, s.book.isLive id = true → ∃ o, s.lim.orderMap.lookup id = some o ∧ o.done = false

/-- At most one order is live. -/
def Single (s : Sys) : Prop := ∀ a b, s.book.isLive a = true → s.book.isLive b = true → a = b

/-- Every live order is the active one. -/
def Owned (s : Sys) : Prop := ∀ id, s.book.isLive id = true → id = s.active

/-- The single-live-order invariant. -/
structure Inv (s : Sys) : Prop where
  tracked : s.Tracked
  single : s.Single
  owned : s.running = true → s.Owned

section Lemmas

variable {P : Product} {s : Sys}

theorem Owned.single (h : s.Owned) : s.Single := fun a b ha hb => (h a ha).trans (h b hb).symm

/-! ### `Tracked` under each operation -/

theorem Tracked.close (h : s.Tracked) (id : OrderID) : Tracked { s with book := s.book.close id } := by
  refine ⟨by simp [h.1], fun k hk => h.2 k ?_⟩
  simp only [Book.isLive_close, Bool.and_eq_true] at hk
  exact hk.2

theorem Single.close (h : s.Single) (id : OrderID) : Single { s with book := s.book.close id } :=
  fun x y hx hy => by
    simp only [Book.isLive_close, Bool.and_eq_true] at hx hy
    exact h x y hx.2 hy.2

theorem Tracked.fill (h : s.Tracked) (id : OrderID) (q : ℚ) :
    Tracked { s with book := s.book.fill id q } := by
  simpa [Tracked] using h

theorem Tracked.save (h : s.Tracked) (db : Except String Unit) : (s.save db).Tracked := by
  refine ⟨h.1, fun k hk => ?_⟩
  obtain ⟨o, ho, hd⟩ := h.2 k hk
  exact ⟨o, by simp [ho, hd], hd⟩

theorem Tracked.onUpdate (h : s.Tracked) {o : Order} (ho : truthful s.book o = true) :
    (s.onUpdate o).Tracked := by
  refine ⟨by simpa using h.1, fun k hk => ?_⟩
  simp only [onUpdate_book, onUpdate_lim, Limiter.updateOrderMap_lookup] at hk ⊢
  split
  · rename_i hko
    refine ⟨o, rfl, ?_⟩
    cases hd : o.done
    · rfl
    · have := not_isLive_of_truthful ho hd
      rw [← hko.1, hk] at this
      cases this
  · exact h.2 k hk

/-- A refresh whose answers are truthful keeps every live order non-done. -/
theorem Tracked.fetch (h : s.Tracked) {es : List (Σ _ : OrderID, Order)}
    {get : OrderID → Except String Order} (hans : s.answers truthful es get = true) (n : Nat) :
    Tracked { s with lim := (s.lim.fetchOrderMap get es n).1 } := by
  refine ⟨h.1, fun k hk => ?_⟩
  obtain ⟨o, ho, hd⟩ := h.2 k hk
  rcases Limiter.fetchOrderMap_lookup get es s.lim n k with h' | ⟨o', r, hmem, hd', hget, h'⟩
  · exact ⟨o, h'.trans ho, hd⟩
  · refine ⟨r, h', ?_⟩
    obtain ⟨hid, htr⟩ := (answers_iff.mp hans).2 ⟨k, o'⟩ hmem hd' r hget
    cases hr : r.done
    · rfl
    · have := not_isLive_of_truthful htr hr
      rw [hid, hk] at this
      cases this

/-- After a refresh with no failed `Get`, a live order is a non-done entry that names
itself. -/
theorem fetch_live (h : s.Tracked) {es : List (Σ _ : OrderID, Order)}
    {get : OrderID → Except String Order} (hans : s.answers truthful es get = true)
    (hok : (s.lim.fetchOrderMap get es 0).2.2 = .ok ()) {k : OrderID} (hk : s.book.isLive k = true) :
    ∃ r, (s.lim.fetchOrderMap get es 0).1.orderMap.lookup k = some r ∧ r.done = false ∧ r.orderID = k := by
  obtain ⟨hperm, hget⟩ := answers_iff.mp hans
  obtain ⟨o, ho, hd⟩ := h.2 k hk
  have hmem : (⟨k, o⟩ : Σ _ : OrderID, Order) ∈ es := hperm.mem_iff.mpr (AList.mem_lookup_iff.mp ho)
  obtain ⟨r, hr, hl⟩ := Limiter.fetchOrderMap_ok get es
    ((List.perm_nodupKeys hperm).mpr s.lim.orderMap.nodupKeys) s.lim 0 hok hmem hd
  obtain ⟨hid, htr⟩ := hget _ hmem hd r hr
  refine ⟨r, hl, ?_, hid⟩
  cases hrd : r.done
  · rfl
  · have := not_isLive_of_truthful htr hrd
    rw [hid, hk] at this
    cases this

/-! ### The handlers -/

theorem Inv.ret (ht : s.Tracked) (hs : s.Single) (r : Except String Unit) : (s.ret r).Inv :=
  ⟨ht, hs, fun h => by simp at h⟩

theorem dropActive_outcome {a : Except String Unit} (hs : s.Tracked ∧ s.Owned) :
    Outcome (fun s => s.Tracked ∧ s.Owned) (fun s => s.Tracked ∧ s.Single) (s.dropActive a) := by
  cases a with
  | error e => exact ⟨hs.1, hs.2.single⟩
  | ok u =>
    refine ⟨hs.1.close s.active, fun k hk => ?_⟩
    simp only [Book.isLive_close, Bool.and_eq_true, bne_iff_ne] at hk
    exact absurd (hs.2 k hk.2) hk.1

theorem addActive_outcome {sl : ℚ} {c : Except String OrderID} (hs : s.Tracked ∧ s.Owned)
    (hact : s.active = "") (hc : ∀ id, c = .ok id → id ≠ "") :
    Outcome (fun s => s.Tracked ∧ s.Owned) (fun s => s.Tracked ∧ s.Single) (s.addActive P sl c) := by
  cases c with
  | error e =>
    simp only [addActive, create_error, Except.map]
    exact ⟨hs.1, hs.2.single⟩
  | ok nid =>
    have hid := hc nid rfl
    simp only [addActive, create_ok, Except.map, Outcome]
    have old : ∀ k, s.book.isLive k = true → k = nid := fun k hk => by
      have := hs.2 k hk
      rw [hact] at this
      subst this
      rw [hs.1.1] at hk
      cases hk
    refine ⟨⟨by simp [hid.symm, hs.1.1], fun k hk => ?_⟩, fun k hk => ?_⟩
    · simp only [Book.isLive_place, Bool.or_eq_true, beq_iff_eq] at hk
      have hk : k = nid := hk.elim (fun h => h) (old k)
      subst hk
      simp [Limiter.create_ok, Limiter.newOrder]
    · simp only [Book.isLive_place, Bool.or_eq_true, beq_iff_eq] at hk
      exact hk.elim (fun h => h) (old k)

/-- A ticker's cancels and creates keep the live order the active one; when one of
them fails, at most one order is live. -/
theorem onTicker_outcome {t sl : ℚ} {hold : Bool} {a : Except String Unit}
    {c : Except String OrderID} (hs : s.Tracked ∧ s.Owned) (hc : ∀ id, c = .ok id → id ≠ "") :
    Outcome (fun s => s.Tracked ∧ s.Owned) (fun s => s.Tracked ∧ s.Single)
      (s.onTicker P t hold sl a c) :=
  (Outcome.onTicker (fun _ h => dropActive_outcome h) (fun _ h hact => addActive_outcome h hact hc)
    (fun _ h => h) hs).mono fun _ => or_self_iff.mp

theorem ne_of_fresh {c : Except String OrderID} (h : s.fresh c = true) : ∀ id, c = .ok id → id ≠ "" := by
  rintro id rfl
  simp only [fresh, Bool.and_eq_true, decide_eq_true_eq] at h
  exact h.1

theorem Inv.tick {t sl : ℚ} {hold : Bool} {a : Except String Unit} {c : Except String OrderID}
    (h : s.Inv) (hrun : s.running = true) (hc : s.fresh c = true) : (s.tick P t hold sl a c).Inv :=
  Outcome.tick (onTicker_outcome ⟨h.tracked, h.owned hrun⟩ (ne_of_fresh hc))
    (fun _ ho => ⟨ho.1, ho.2.single, fun _ => ho.2⟩) fun _ _ ho => Inv.ret ho.1 ho.2 _

theorem head?_eq_of_length_le_one {α : Type} {l : List α} {x : α} (hx : x ∈ l) (hl : l.length ≤ 1) :
    l.head? = some x := by
  match l, hx, hl with
  | [y], hx, _ => simp_all
  | _ :: _ :: _, _, hl => simp at hl

theorem Inv.start {sl : ℚ} {es : List (Σ _ : OrderID, Order)} {get : OrderID → Except String Order}
    {db : Except String Unit} (h : s.Inv) (hans : s.answers truthful es get = true) :
    (s.start P sl es get db).Inv := by
  have ht := h.tracked.fetch hans 0
  rcases start_cases P sl es get db s with ⟨r, he⟩ | ⟨r, he⟩ | ⟨r, he⟩ | ⟨hok, hlen, he⟩ <;> rw [he]
  · exact Inv.ret h.tracked h.single _
  · exact Inv.ret ht h.single _
  · exact Inv.ret (ht.save db) h.single _
  · refine ⟨ht, h.single, fun _ k hk => ?_⟩
    obtain ⟨r, hl, hd, hid⟩ := fetch_live h.tracked hans hok hk
    have hmem : (⟨k, r⟩ : Σ _ : OrderID, Order) ∈
        (s.lim.fetchOrderMap get es 0).1.orderMap.entries.filter fun e => !e.2.done :=
      List.mem_filter.mpr ⟨AList.mem_lookup_iff.mp hl, by simp [hd]⟩
    simp only [head?_eq_of_length_le_one hmem hlen, Option.map_some', Option.getD_some, hid]

theorem Inv.finish {es : List (Σ _ : OrderID, Order)} {get : OrderID → Except String Order}
    {db : Except String Unit} (h : s.Inv) (hans : s.answers truthful es get = true) :
    (s.finish es get db).Inv := by
  have ht := h.tracked.fetch hans 0
  rcases finish_cases es get db s with ⟨e, he⟩ | he <;> rw [he]
  · exact Inv.ret ht h.single _
  · exact Inv.ret (ht.save db) h.single _

theorem Inv.onCanceled {cause : String} {a db : Except String Unit} (h : s.Inv) :
    (s.onCanceled cause a db).Inv := by
  rcases onCanceled_cases cause a db s with ⟨-, he⟩ | ⟨-, -, he⟩ | ⟨e, -, -, he⟩ <;> rw [he]
  · exact Inv.ret (h.tracked.save db) h.single _
  · refine Inv.ret ?_ ?_ _
    · exact (h.tracked.close s.active).save db
    · exact h.single.close s.active
  · exact Inv.ret h.tracked h.single _

theorem Inv.onFlush {db : Except String Unit} (h : s.Inv) : (s.onFlush db).Inv := by
  have hs : ∀ db, (s.save db).Inv := fun db => ⟨h.tracked.save db, h.single, h.owned⟩
  rcases onFlush_cases db s with ⟨-, he⟩ | ⟨-, -, he⟩ | ⟨-, he⟩ <;> rw [he]
  · exact h
  · have hok := hs (.ok ())
    exact ⟨hok.1, hok.2, hok.3⟩
  · exact hs db

theorem Inv.onUpdate {o : Order} (h : s.Inv) (hrun : s.running = true) (ho : truthful s.book o = true) :
    (s.onUpdate o).Inv := by
  refine ⟨h.tracked.onUpdate ho, by simpa [Single] using h.single, fun _ k hk => ?_⟩
  simp only [onUpdate_book] at hk
  have hk' := h.owned hrun k hk
  rw [onUpdate_active]
  split
  · rename_i hd
    have := not_isLive_of_truthful ho hd.1
    rw [hd.2, ← hk', hk] at this
    cases this
  · exact hk'

/-! ### Every step, every run -/

theorem inv_step {s' : Sys} {e : Event} (h : s.Inv) (hs : Step P truthful s e s') : s'.Inv := by
  cases hs with
  | run sl es get db _ hans => exact h.start hans
  | refresh es get hidle hans => exact ⟨h.tracked.fetch hans 0, h.single, fun hr => absurd hr (by simp [hidle])⟩
  | save db _ => exact ⟨h.tracked.save db, h.single, h.owned⟩
  | canceled cause a db _ => exact h.onCanceled
  | flush db _ => exact h.onFlush
  | update o hl ho => exact h.onUpdate (running_of_looping hl) ho
  | ticker t hold sl a c hl hc => exact h.tick (running_of_looping hl) hc
  | finish es get db _ _ hans => exact h.finish hans
  | fill id q _ =>
    exact ⟨h.tracked.fill id q, by simpa [Single] using h.single, by simpa [Owned] using h.owned⟩
  | close id _ =>
    refine ⟨h.tracked.close id, h.single.close id, fun hr k hk => ?_⟩
    simp only [Book.isLive_close, Bool.and_eq_true] at hk
    exact h.owned hr k hk.2

theorem inv_reachable {s₀ : Sys} (h₀ : s₀.Inv) (hr : Reachable P truthful s₀ s) : s.Inv :=
  Reachable.induction h₀ (fun _ h hs => inv_step h hs) hr

end Lemmas

end Sys

/-! ### One live order, over every run -/

/-- **At most one live order.** From a state between runs where every live order is a
non-done entry of the order map, no live order has the empty id, and at most one order
is live, every reachable state has at most one live order, and while the loop runs it
is the active one. -/
theorem single_live_order {P : Product} {s₀ s : Sys} (hidle : s₀.running = false)
    (htracked : s₀.Tracked) (hsingle : s₀.Single) (hr : Reachable P truthful s₀ s) :
    s.Single ∧ (s.running = true → s.Owned) :=
  have h := Sys.inv_reachable ⟨htracked, hsingle, fun h => by simp [hidle] at h⟩ hr
  ⟨h.single, h.owned⟩

/-- **Open orders that are not the active one are not live.** From the same states, every
live order is a non-done entry of the order map, at most one non-done entry is live,
and while the loop runs every non-done entry other than the active order is not live:
its Cancel succeeded or it finished, and its done update has not arrived. -/
theorem open_orders_not_live {P : Product} {s₀ s : Sys} (hidle : s₀.running = false)
    (htracked : s₀.Tracked) (hsingle : s₀.Single) (hr : Reachable P truthful s₀ s) :
    s.Tracked ∧
    (∀ a b oa ob, s.lim.orderMap.lookup a = some oa → oa.done = false → s.book.isLive a = true →
      s.lim.orderMap.lookup b = some ob → ob.done = false → s.book.isLive b = true → a = b) ∧
    (s.running = true → ∀ id o, s.lim.orderMap.lookup id = some o → o.done = false →
      id ≠ s.active → s.book.isLive id = false) := by
  have h := Sys.inv_reachable ⟨htracked, hsingle, fun h => by simp [hidle] at h⟩ hr
  refine ⟨h.tracked, fun a b _ _ _ _ ha _ _ hb => h.single a b ha hb, fun hrun id _ _ _ hne => ?_⟩
  cases hl : s.book.isLive id
  · rfl
  · exact absurd (h.owned hrun id hl) hne

theorem withLive_A_tracked : (withLive ["A"]).Tracked := by
  refine ⟨by decide, fun k hk => ?_⟩
  have : k = "A" := by simpa [withLive, Book.place] using Book.mem_of_isLive hk
  subst this
  exact ⟨_, rfl, rfl⟩

theorem withLive_A_single : (withLive ["A"]).Single := fun a b ha hb => by
  have ha : a = "A" := by simpa [withLive, Book.place] using Book.mem_of_isLive ha
  have hb : b = "A" := by simpa [withLive, Book.place] using Book.mem_of_isLive hb
  rw [ha, hb]

/-- From `withLive ["A"]`: `Run` starts with `"A"` active, the exchange fills half of it
and `Run` hears of it, a ticker at 94 cancels `"A"`, a ticker at 96 creates `"B"` for
the half left, and the exchange fills `"B"`. -/
def recreateB : List Event :=
  [.run 10 (sellLimiter ["A"]).orderMap.entries (echo (sellLimiter ["A"])) (.ok ()), .fill "A" (1 / 2),
    .update { Limiter.newOrder "A" "" "SELL" with filledSize := 1 / 2 },
    .ticker 94 false 10 (.ok ()) (.error "unused"), .ticker 96 false 10 (.ok ()) (.ok "B"), .fill "B" (1 / 2)]

/-- After `recreateB`, `"B"` is the one live order. -/
theorem single_live_order_withLive_A :
    ∃ s, Reachable product₀ truthful (withLive ["A"]) s ∧ s.book.isLive "A" = false ∧
      s.book.isLive "B" = true ∧ s.Single ∧ (s.running = true → s.Owned) := by
  have h : (replay product₀ truthful (withLive ["A"]) recreateB).map
      (fun s => (s.book.isLive "A", s.book.isLive "B")) = some (false, true) := by
    with_unfolding_all decide
  obtain ⟨s, hs, he⟩ := Option.map_eq_some'.mp h
  obtain ⟨hA, hB⟩ := Prod.mk.inj he
  have hr := reachable_of_replay .refl hs
  exact ⟨s, hr, hA, hB, single_live_order rfl withLive_A_tracked withLive_A_single hr⟩

/-- After `recreateB`, `"A"` is still an open entry of the order map, and not live. -/
theorem open_orders_not_live_withLive_A :
    ∃ s, Reachable product₀ truthful (withLive ["A"]) s ∧
      (s.lim.orderMap.lookup "A").map (·.done) = some false ∧ s.active = "B" ∧ s.Tracked ∧
      (∀ a b oa ob, s.lim.orderMap.lookup a = some oa → oa.done = false → s.book.isLive a = true →
        s.lim.orderMap.lookup b = some ob → ob.done = false → s.book.isLive b = true → a = b) ∧
      (s.running = true → ∀ id o, s.lim.orderMap.lookup id = some o → o.done = false →
        id ≠ s.active → s.book.isLive id = false) := by
  have h : (replay product₀ truthful (withLive ["A"]) recreateB).map
      (fun s => ((s.lim.orderMap.lookup "A").map (·.done), s.active)) = some (some false, "B") := by
    with_unfolding_all decide
  obtain ⟨s, hs, he⟩ := Option.map_eq_some'.mp h
  obtain ⟨hA, hB⟩ := Prod.mk.inj he
  have hr := reachable_of_replay .refl hs
  exact ⟨s, hr, hA, hB, open_orders_not_live rfl withLive_A_tracked withLive_A_single hr⟩

/-- Two live orders, both tracked: `Run` refuses to start and both stay live. -/
theorem two_live_orders_stay :
    (withLive ["A", "B"]).running = false ∧ (withLive ["A", "B"]).Tracked ∧
      ∃ s, Reachable product₀ truthful (withLive ["A", "B"]) s ∧
        s.book.isLive "A" = true ∧ s.book.isLive "B" = true ∧
        s.returned = some (.error "found 2 live orders (want 0 or 1)") := by
  have h : (next product₀ truthful (withLive ["A", "B"])
      (.run 10 (sellLimiter ["A", "B"]).orderMap.entries (echo (sellLimiter ["A", "B"])) (.ok ()))).map
        (fun s => (s.book.isLive "A" && s.book.isLive "B", s.returned)) =
      some (true, some (.error "found 2 live orders (want 0 or 1)")) := by
    with_unfolding_all decide
  obtain ⟨s, hs, he⟩ := Option.map_eq_some'.mp h
  simp only [Prod.mk.injEq, Bool.and_eq_true] at he
  refine ⟨rfl, ⟨by decide, fun k hk => ?_⟩, s, .step _ .refl hs, he.1.1, he.1.2, he.2⟩
  have : k = "B" ∨ k = "A" := by simpa [withLive, Book.place] using Book.mem_of_isLive hk
  rcases this with rfl | rfl <;> exact ⟨_, rfl, rfl⟩

/-- From one live order: the active order is cancelled at 94, and at 96 a new one is
created before the done update of the first arrives. -/
theorem two_open_orders :
    ((withLive ["A"]).lim.orderMap.entries.filter fun e => !e.2.done).length = 1 ∧
      ∃ s, Reachable product₀ truthful (withLive ["A"]) s ∧
        (s.lim.orderMap.entries.filter fun e => !e.2.done).length = 2 := by
  have h : (replay product₀ truthful (withLive ["A"])
      [.run 10 (sellLimiter ["A"]).orderMap.entries (echo (sellLimiter ["A"])) (.ok ()),
        .ticker 94 false 10 (.ok ()) (.ok "B"), .ticker 96 false 10 (.ok ()) (.ok "B")]).map
        (fun s => (s.lim.orderMap.entries.filter fun e => !e.2.done).length) = some 2 := by
    with_unfolding_all decide
  obtain ⟨s, hs, he⟩ := Option.map_eq_some'.mp h
  exact ⟨by decide, s, reachable_of_replay .refl hs, he⟩

end Tradebot
