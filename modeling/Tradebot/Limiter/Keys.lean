import Tradebot.Limiter.Run

/-! Which orders a limiter holds.

The order-update stream of a product carries the orders of every limiter on it, under
any ids. `updateOrderMap` replaces only orders the limiter already holds, a refresh
only re-reads the orders it visits, compaction only drops orders, and only `create`
adds one, under the id the exchange returned. So from any state, every key of the
order map was there at the start or came from one of this limiter's own creates since
(`Sys.grows_reachable`), whatever reports the exchange sends, and an update for any
other order leaves `Pending` alone (`orderMap_keys_from_creates`). -/
namespace Tradebot

namespace Sys

/-- From `s` to `s'` the creates appended `l` to `created`, and every order-map key of
`s'` was a key in `s` or is in `l`. -/
def Grows (s s' : Sys) : Prop :=
  ∃ l, s'.created = s.created ++ l ∧ ∀ k ∈ s'.lim.orderMap, k ∈ s.lim.orderMap ∨ k ∈ l

section Lemmas

variable {P : Product} {F : Book → Order → Bool} {s s' s'' : Sys}

theorem Grows.refl (s : Sys) : Grows s s := ⟨[], by simp, fun _ hk => .inl hk⟩

theorem Grows.trans (h₁ : Grows s s') (h₂ : Grows s' s'') : Grows s s'' := by
  obtain ⟨l₁, hc₁, hk₁⟩ := h₁
  obtain ⟨l₂, hc₂, hk₂⟩ := h₂
  refine ⟨l₁ ++ l₂, by rw [hc₂, hc₁, List.append_assoc], fun k hk => ?_⟩
  rcases hk₂ k hk with h | h
  · exact (hk₁ k h).imp_right (List.mem_append_left _)
  · exact .inr (List.mem_append_right _ h)

/-- A step that adds no key and no create. -/
theorem Grows.of_sub (hc : s'.created = s.created) (hk : ∀ k ∈ s'.lim.orderMap, k ∈ s.lim.orderMap) :
    Grows s s' :=
  ⟨[], by simp [hc], fun k h => .inl (hk k h)⟩

theorem grows_fetch {es : List (Σ _ : OrderID, Order)} {get : OrderID → Except String Order}
    (hperm : es.Perm s.lim.orderMap.entries) (n : Nat) :
    Grows s { s with lim := (s.lim.fetchOrderMap get es n).1 } :=
  .of_sub rfl fun _ h => (Limiter.mem_fetchOrderMap get es s.lim n h).elim id
    fun ⟨_, ho⟩ => AList.mem_keys.mpr (List.mem_keys_of_mem (hperm.mem_iff.mp ho))

theorem grows_create (id : OrderID) :
    Grows s { s with lim := (s.lim.create (.ok id)).2, created := s.created ++ [id] } := by
  refine ⟨[id], rfl, fun k hk => ?_⟩
  rw [Limiter.create_ok] at hk
  rcases (AList.mem_insert _).mp hk with rfl | hk
  · exact .inr (List.mem_singleton_self _)
  · exact .inl hk

/-- Each building block of `Run` keeps `Grows`. -/
theorem kept_grows : Kept Grows where
  refl := Grows.refl
  trans := Grows.trans
  frame hl hc := .of_sub hc fun _ h => by rwa [hl] at h
  fetch _ _ _ n hperm := grows_fetch hperm n
  save _ _ := .of_sub rfl fun _ h => GoMap.mem_filter h
  update _ _ := .of_sub rfl fun _ h => Limiter.mem_updateOrderMap h
  create _ id := grows_create id

theorem grows_reachable {s₀ : Sys} (hr : Reachable P F s₀ s) : Grows s₀ s :=
  kept_grows.reachable hr

end Lemmas

end Sys

/-- **The order map holds only the limiter's own orders.** Whatever the exchange
reports, every key of the order map in a reachable state was a key at the start or is
an id the exchange returned to one of this limiter's creates since, and an update for
an order that is neither leaves `Pending` unchanged. -/
theorem orderMap_keys_from_creates {P : Product} {F : Book → Order → Bool} {s₀ s : Sys}
    (hr : Reachable P F s₀ s) :
    ∃ l, s.created = s₀.created ++ l ∧ (∀ k ∈ s.lim.orderMap, k ∈ s₀.lim.orderMap ∨ k ∈ l) ∧
      ∀ o : Order, o.orderID ∉ s₀.lim.orderMap → o.orderID ∉ l →
        (s.onUpdate o).lim.pending = s.lim.pending := by
  obtain ⟨l, hc, hk⟩ := Sys.grows_reachable hr
  refine ⟨l, hc, hk, fun o h₀ hl => ?_⟩
  have hs : o.orderID ∉ s.lim.orderMap := fun h => (hk _ h).elim h₀ hl
  rw [Sys.onUpdate_lim, Limiter.updateOrderMap_of_not_mem hs]

theorem orderMap_keys_from_creates_withLive_A :
    ∃ l, (withLive ["A"]).created = (withLive ["A"]).created ++ l ∧
      (∀ k ∈ (withLive ["A"]).lim.orderMap, k ∈ (withLive ["A"]).lim.orderMap ∨ k ∈ l) ∧
      ∀ o : Order, o.orderID ∉ (withLive ["A"]).lim.orderMap → o.orderID ∉ l →
        ((withLive ["A"]).onUpdate o).lim.pending = (withLive ["A"]).lim.pending :=
  orderMap_keys_from_creates (P := product₀) (F := truthful) .refl

end Tradebot
