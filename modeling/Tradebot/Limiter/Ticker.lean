import Tradebot.Limiter.Run

/-! What one ticker does with the active order.

The ticker case of the loop (lines 352-429) ends with an active order only when the
hold option is unset and the price is strictly on the side of the cancel price where
the limiter trades: above it for a SELL, below it for a BUY. The hold branch and every
side branch at a price that is not ready cancel the active order and create nothing
(`onTicker_idle_unless_ready`). A limiter that passed `check` has a side, and `Run`
never changes its point, so this holds at every reachable state
(`ticker_active_ready`).

The size-limit branch compares the option with `lastSizeLimit`, which only `start` and
that branch set. `create` reads the option itself, so after a change while no order
is active, the order created under the new limit is cancelled by the next ticker
although the limit has not moved since (`size_limit_cancels_fresh_order`). -/
namespace Tradebot

/-- A limiter that passes `check` has a side: its price is not its cancel price. -/
theorem Limiter.isSell_or_isBuy {v : Limiter} (h : v.check = .ok ()) : v.isSell ∨ v.isBuy := by
  have hp : v.point.price ≠ v.point.cancel := fun heq => by
    have hc : v.point.check = .error "invalid point" := if_neg fun h => h.2.2.2 heq
    unfold Limiter.check at h
    rw [hc] at h
    split at h <;> cases h
  rcases lt_or_gt_of_ne hp with hlt | hgt
  · exact .inr (by simp [Limiter.isBuy, Point.side, hlt])
  · exact .inl (by simp [Limiter.isSell, Point.side, hgt, not_lt.mpr hgt.le])

namespace Sys

variable {P : Product} {s : Sys} {t sl : ℚ} {hold : Bool} {a : Except String Unit}
  {c : Except String OrderID}

/-- A cancel that succeeds leaves no active order and changes neither the limiter nor
what it created. -/
theorem dropActive_idle (a : Except String Unit) (s : Sys) :
    Outcome (fun s' => s'.active = "" ∧ s'.lim = s.lim ∧ s'.created = s.created) (fun _ => True)
      (s.dropActive a) := by
  cases a with
  | error e => trivial
  | ok u => exact ⟨rfl, rfl, rfl⟩

/-- A side branch whose cancel test holds and whose create test fails ends with no
active order and nothing created. -/
theorem side_idle {s₁ : Sys} {d : Prop} {k : Sys → Prop} [Decidable d] [DecidablePred k]
    (hl : s₁.lim = s.lim) (hc : s₁.created = s.created) (hd : d)
    (hk : ∀ s₂ : Sys, s₂.lim = s.lim → ¬k s₂) :
    Outcome (fun s' => s'.active = "" ∧ s'.created = s.created) (fun _ => True)
      ((if d ∧ s₁.active ≠ "" then s₁.dropActive a else pure s₁) >>= fun s₂ =>
        if k s₂ ∧ s₂.active = "" then s₂.addActive P sl c else pure s₂) :=
  Outcome.bind (K := fun s₂ => s₂.active = "" ∧ s₂.lim = s.lim ∧ s₂.created = s.created)
    (Outcome.ite (fun _ => (dropActive_idle a s₁).mono fun _ h => ⟨h.1, h.2.1.trans hl, h.2.2.trans hc⟩)
      fun h => ⟨not_not.mp fun h' => h ⟨hd, h'⟩, hl, hc⟩)
    fun s₂ h₂ => Outcome.ite (fun h => absurd h.1 (hk s₂ h₂.2.1)) fun _ => ⟨h₂.1, h₂.2.2⟩

/-- A ticker that succeeds either ends with no active order and nothing created, or
came with the hold option unset and the price on the ready side. -/
theorem onTicker_idle_unless_ready (hside : s.lim.isSell ∨ s.lim.isBuy) :
    Outcome (fun s' => (s'.active = "" ∧ s'.created = s.created) ∨
        (hold = false ∧ (s.lim.isSell ∧ s.lim.point.cancel < t ∨ s.lim.isBuy ∧ t < s.lim.point.cancel)))
      (fun _ => True) (s.onTicker P t hold sl a c) := by
  by_cases hr :
      hold = false ∧ (s.lim.isSell ∧ s.lim.point.cancel < t ∨ s.lim.isBuy ∧ t < s.lim.point.cancel)
  · cases s.onTicker P t hold sl a c with
    | error e => trivial
    | ok s' => exact .inr hr
  unfold onTicker
  refine Outcome.ite (fun _ => Outcome.ite
    (fun _ => (dropActive_idle a s).mono fun _ h => .inl ⟨h.1, h.2.2⟩) fun h => .inl ⟨not_not.mp h, rfl⟩)
    fun hh => ?_
  have hnr : ¬(s.lim.isSell ∧ s.lim.point.cancel < t ∨ s.lim.isBuy ∧ t < s.lim.point.cancel) :=
    fun h => hr ⟨Bool.eq_false_iff.mpr hh, h⟩
  refine Outcome.bind (K := fun s₁ => s₁.lim = s.lim ∧ s₁.created = s.created)
    (Outcome.ite (fun _ => (dropActive_idle a s).map fun _ h => ⟨h.2.1, h.2.2⟩) fun _ => ⟨rfl, rfl⟩)
    fun s₁ h₁ => Outcome.ite (fun h => .inl ⟨h.1, h₁.2⟩) fun _ => ?_
  rw [h₁.1]
  refine Outcome.ite (fun hs => ?_) fun hs => Outcome.ite (fun hb => ?_) fun hb => (hside.elim hs hb).elim
  · exact (side_idle h₁.1 h₁.2 (not_lt.mp fun h => hnr (.inl ⟨hs, h⟩))
      fun _ h₂ h => hnr (.inl ⟨hs, h₂ ▸ h⟩)).mono fun _ => .inl
  · exact (side_idle h₁.1 h₁.2 (not_lt.mp fun h => hnr (.inr ⟨hb, h⟩))
      fun _ h₂ h => hnr (.inr ⟨hb, h₂ ▸ h⟩)).mono fun _ => .inl

end Sys

/-- **An order is active only on the ready side.** From a state whose limiter passed
`check`, at every reachable state, a ticker at price `t` that `Run` handles without an
error leaves an active order, and creates one, only when the hold option is unset and
`t` is above the cancel price of a SELL or below that of a BUY. -/
theorem ticker_active_ready {P : Product} {F : Book → Order → Bool} {s₀ s s' : Sys} {t sl : ℚ}
    {hold : Bool} {a : Except String Unit} {c : Except String OrderID} (h₀ : s₀.lim.check = .ok ())
    (hr : Reachable P F s₀ s) (ht : s.onTicker P t hold sl a c = .ok s') :
    (s'.active ≠ "" →
      hold = false ∧ (s.lim.isSell ∧ s.lim.point.cancel < t ∨ s.lim.isBuy ∧ t < s.lim.point.cancel)) ∧
    (s'.created ≠ s.created →
      hold = false ∧ (s.lim.isSell ∧ s.lim.point.cancel < t ∨ s.lim.isBuy ∧ t < s.lim.point.cancel)) := by
  have hside : s.lim.isSell ∨ s.lim.isBuy := by
    simpa only [Limiter.isSell, Limiter.isBuy, kept_point.reachable hr] using Limiter.isSell_or_isBuy h₀
  have h : Outcome _ (fun _ => True) (s.onTicker P t hold sl a c) := Sys.onTicker_idle_unless_ready hside
  rw [ht] at h
  rcases h with h | h
  · exact ⟨fun hne => absurd h.1 hne, fun hne => absurd h.2 hne⟩
  · exact ⟨fun _ => h, fun _ => h⟩

/-- `withLive ["A"]` in its loop with `"A"` active. -/
def holdingA : Sys := { withLive ["A"] with running := true, active := "A" }

/-- The hold option cancels the active order. -/
theorem ticker_active_ready_hold :
    holdingA.lim.check = .ok () ∧
    holdingA.onTicker product₀ 96 true 10 (.ok ()) (.ok "B") =
      .ok { holdingA with book := holdingA.book.close "A", dirty := 1, active := "" } ∧
    (("" : OrderID) ≠ "" → true = false ∧ (holdingA.lim.isSell ∧ holdingA.lim.point.cancel < 96 ∨
      holdingA.lim.isBuy ∧ 96 < holdingA.lim.point.cancel)) ∧
    (holdingA.created ≠ holdingA.created → true = false ∧ (holdingA.lim.isSell ∧ holdingA.lim.point.cancel < 96 ∨
      holdingA.lim.isBuy ∧ 96 < holdingA.lim.point.cancel)) :=
  have h₀ : holdingA.lim.check = .ok () := by with_unfolding_all decide
  have ht : holdingA.onTicker product₀ 96 true 10 (.ok ()) (.ok "B") =
      .ok { holdingA with book := holdingA.book.close "A", dirty := 1, active := "" } := rfl
  ⟨h₀, ht, ticker_active_ready (F := truthful) h₀ .refl ht⟩

/-- Two tickers at 96 under the size limit 5, the first after `Run` started under 10:
the first creates `"A"` under the limit 5, and the second cancels it on the size-limit
path, since `lastSizeLimit` still holds 10. -/
theorem size_limit_cancels_fresh_order :
    ∃ s₁ s₂ s₃, Reachable product₀ truthful (withLive []) s₁ ∧
      next product₀ truthful s₁ (.ticker 96 false 5 (.ok ()) (.ok "A")) = some s₂ ∧
      next product₀ truthful s₂ (.ticker 96 false 5 (.ok ()) (.ok "B")) = some s₃ ∧
      s₂.active = "A" ∧ s₂.book.isLive "A" = true ∧ s₂.lastSizeLimit = 10 ∧
      s₃.book.isLive "A" = false ∧ s₃.lastSizeLimit = 5 := by
  have h : ((next product₀ truthful (withLive []) (.run 10 [] (echo (sellLimiter [])) (.ok ()))).bind
      fun s₁ => (next product₀ truthful s₁ (.ticker 96 false 5 (.ok ()) (.ok "A"))).bind
      fun s₂ => (next product₀ truthful s₂ (.ticker 96 false 5 (.ok ()) (.ok "B"))).map
      fun s₃ => (s₂.active, s₂.book.isLive "A", s₂.lastSizeLimit, s₃.book.isLive "A", s₃.lastSizeLimit)) =
      some ("A", true, 10, false, 5) := by
    with_unfolding_all decide
  obtain ⟨s₁, h₁, h⟩ := Option.bind_eq_some.mp h
  obtain ⟨s₂, h₂, h⟩ := Option.bind_eq_some.mp h
  obtain ⟨s₃, h₃, he⟩ := Option.map_eq_some'.mp h
  simp only [Prod.mk.injEq] at he
  exact ⟨s₁, s₂, s₃, .step _ .refl h₁, h₂, h₃, he.1, he.2.1, he.2.2.1, he.2.2.2.1, he.2.2.2.2⟩

end Tradebot
