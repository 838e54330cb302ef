import Tradebot.Limiter.Live

/-! How much a limiter's orders fill.

On the exchange each order fills at most up to the size it was placed with, and only
while live. So what the orders can still fill up to, `Book.committed` (a live order at
its size, any other at what it filled), bounds what they filled. `create` sizes an
order from `PendingSize()`: clamped to the size limit, then raised to the product's
minimum. When at every ticker that creates an order the limiter knows every fill so far
and at least the minimum is pending, the new order asks for no more than is left; a
ticker that creates nothing only cancels (`Filling.tick_idle`). So the committed size
stays within the point's size (`filled_within_size`).

Neither condition holds by itself. A fill the limiter has not heard of yet makes
`Pending()` too large, and a remainder below the minimum is raised to it. The second
happens with every report exact: after 0.7 of a 1.0 point fills, the limiter places
0.5 for the 0.3 left, the total filled reaches 1.2, and `Pending()` is -0.2. The loop,
whose guard is `!PendingSize().IsZero()`, then does not end on its own: each ready
ticker that finds no active order places another 0.5 (`overfill_below_minimum`). -/
namespace Tradebot

/-- The runs of the fill bound: whenever a ticker makes the loop create an order, the
limiter's order map holds every fill so far, and what is left is at least the product's
minimum. A ticker that creates nothing needs neither. -/
def Informed (P : Product) (s : Sys) : Event → Prop
  | .ticker t hold sl a c => (s.tick P t hold sl a c).created ≠ s.created →
      s.lim.pending = s.lim.point.size - s.book.totalFilled ∧ P.baseMinSize ≤ s.lim.pending
  | _ => True

instance decidableInformed (P : Product) (s : Sys) : (e : Event) → Decidable (Informed P s e)
  | .ticker .. => inferInstanceAs (Decidable (_ → _))
  | .run .. | .refresh .. | .save .. | .canceled .. | .flush .. | .update .. | .finish .. | .fill .. | .close .. =>
    isTrue trivial

namespace Sys

/-- The orders can fill at most `size`, the point's size. -/
def Bound (size : ℚ) (s : Sys) : Prop := s.lim.point.size = size ∧ s.book.committed ≤ size

/-- What a ticker's create needs besides the invariant: the limiter's view of the fills
is the exchange's, what is left is at least the product's minimum and not zero, and
the exchange's new id is fresh. -/
structure Ready (P : Product) (size : ℚ) (c : Except String OrderID) (s : Sys) : Prop where
  pending_eq : s.lim.pending = size - s.book.totalFilled
  min_le : P.baseMinSize ≤ s.lim.pending
  pending_ne : s.lim.pending ≠ 0
  fresh : s.fresh c = true

/-- The fill bound's invariant: one live order, and the orders can fill at most `size`. -/
structure Filling (size : ℚ) (s : Sys) : Prop where
  inv : s.Inv
  bound : s.Bound size

section Lemmas

variable {P : Product} {size sl : ℚ} {c : Except String OrderID} {s : Sys}

theorem not_mem_of_fresh {id : OrderID} (h : s.fresh (.ok id) = true) : id ∉ s.book := by
  simp only [fresh, Bool.and_eq_true, decide_eq_true_eq] at h
  exact h.2

theorem fresh_close (id : OrderID) : Sys.fresh { s with book := s.book.close id } c = s.fresh c := by
  cases c <;> simp [fresh, Book.mem_close]

/-- With the active order gone, nothing is live. -/
theorem not_isLive_of_owned (ht : s.Tracked) (ho : s.Owned) (hact : s.active = "") (k : OrderID) :
    s.book.isLive k = false := by
  cases hk : s.book.isLive k
  · rfl
  · have := ho k hk
    rw [hact] at this
    subst this
    rw [ht.1] at hk
    cases hk

theorem dropActive_ready {a : Except String Unit}
    (h : (s.Tracked ∧ s.Owned) ∧ s.Bound size ∧ s.Ready P size c) :
    Outcome (fun s => (s.Tracked ∧ s.Owned) ∧ s.Bound size ∧ s.Ready P size c)
      (fun s => (s.Tracked ∧ s.Single) ∧ s.Bound size) (s.dropActive a) := by
  have hl := dropActive_outcome (a := a) h.1
  obtain ⟨-, ⟨hsz, hc⟩, ⟨hp, hm, hne, hf⟩⟩ := h
  cases a with
  | error e => exact ⟨hl, hsz, hc⟩
  | ok u =>
    refine ⟨hl, ⟨hsz, (Book.committed_close _ _).trans hc⟩, ⟨?_, hm, hne, ?_⟩⟩
    · simpa [Book.totalFilled_close] using hp
    · rw [← hf]
      exact fresh_close s.active

/-- A ticker's create, from a state with nothing live, asks for no more than is left. -/
theorem addActive_bound (h : (s.Tracked ∧ s.Owned) ∧ s.Bound size ∧ s.Ready P size c)
    (hact : s.active = "") :
    Outcome (fun s => (s.Tracked ∧ s.Owned) ∧ s.Bound size)
      (fun s => (s.Tracked ∧ s.Single) ∧ s.Bound size) (s.addActive P sl c) := by
  obtain ⟨hto, ⟨hsz, hc⟩, ⟨hp, hm, hne, hf⟩⟩ := h
  have hl : Outcome (fun s => s.Tracked ∧ s.Owned) (fun s => s.Tracked ∧ s.Single)
      (s.addActive P sl c) :=
    addActive_outcome hto hact (ne_of_fresh hf)
  cases c with
  | error e =>
    simp only [addActive, create_error, Except.map] at hl ⊢
    exact ⟨hl, hsz, hc⟩
  | ok id =>
    simp only [addActive, create_ok, Except.map, Outcome] at hl ⊢
    refine ⟨hl, hsz, ?_⟩
    have hT := Book.committed_eq_totalFilled (not_isLive_of_owned hto.1 hto.2 hact)
    have hle0 : 0 ≤ s.lim.pending := by linarith [Book.totalFilled_le_committed s.book]
    have hsize : max (s.lim.orderSize sl P.baseMinSize) 0 ≤ s.lim.pending :=
      max_le (Limiter.orderSize_le hm) hle0
    rw [Book.committed_place (not_mem_of_fresh hf)]
    linarith

theorem Filling.tick {t : ℚ} {hold : Bool} {a : Except String Unit} (h : s.Filling size)
    (hl : s.looping = true) (hc : s.fresh c = true)
    (hA : s.lim.pending = s.lim.point.size - s.book.totalFilled ∧ P.baseMinSize ≤ s.lim.pending) :
    (s.tick P t hold sl a c).Filling size := by
  have hne : s.lim.pending ≠ 0 := by
    simp only [looping, Bool.and_eq_true, decide_eq_true_eq] at hl
    exact hl.2
  have hr : (s.Tracked ∧ s.Owned) ∧ s.Bound size ∧ s.Ready P size c :=
    ⟨⟨h.inv.tracked, h.inv.owned (running_of_looping hl)⟩, h.bound,
      ⟨h.bound.1 ▸ hA.1, hA.2, hne, hc⟩⟩
  have ho : Outcome
      (fun s => ((s.Tracked ∧ s.Owned) ∧ s.Bound size ∧ s.Ready P size c) ∨
        ((s.Tracked ∧ s.Owned) ∧ s.Bound size))
      (fun s => (s.Tracked ∧ s.Single) ∧ s.Bound size) (s.onTicker P t hold sl a c) :=
    Outcome.onTicker (fun _ h => dropActive_ready h) (fun _ h hact => addActive_bound h hact)
      (fun _ ⟨h₁, h₂, r⟩ => ⟨h₁, h₂, r.1, r.2, r.3, r.4⟩) hr
  refine Outcome.tick ho (fun _ ho => ?_) fun _ _ ho => ⟨Inv.ret ho.1.1 ho.1.2 _, ho.2⟩
  obtain ⟨⟨ht, ho⟩, hb, -⟩ | ⟨⟨ht, ho⟩, hb⟩ := ho
  all_goals exact ⟨⟨ht, ho.single, fun _ => ho⟩, hb⟩

/-- A ticker that creates nothing keeps the fill bound: it only cancels. -/
theorem Filling.tick_idle {t : ℚ} {hold : Bool} {a : Except String Unit} (h : s.Filling size)
    (hl : s.looping = true) (hc : s.fresh c = true) (hcr : (s.tick P t hold sl a c).created = s.created) :
    (s.tick P t hold sl a c).Filling size := by
  have ho : Outcome
      (fun s' => ((s'.Tracked ∧ s'.Owned) ∧ s'.Bound size ∧ s'.created = s.created) ∨ s'.created ≠ s.created)
      (fun s' => (s'.Tracked ∧ s'.Single) ∧ s'.Bound size) (s.onTicker P t hold sl a c) := by
    refine Outcome.onTicker (fun s' h' => ?_) (fun s' h' hact => ?_) (fun _ h => h)
      ⟨⟨h.inv.tracked, h.inv.owned (running_of_looping hl)⟩, h.bound, rfl⟩
    · have hd := dropActive_outcome (a := a) h'.1
      cases a with
      | error e => exact ⟨hd, h'.2.1⟩
      | ok u => exact ⟨hd, ⟨h'.2.1.1, (Book.committed_close _ _).trans h'.2.1.2⟩, h'.2.2⟩
    · have hd : Outcome (fun s => s.Tracked ∧ s.Owned) (fun s => s.Tracked ∧ s.Single) (s'.addActive P sl c) :=
        addActive_outcome h'.1 hact (ne_of_fresh hc)
      cases c with
      | error e =>
        simp only [addActive, create_error, Except.map] at hd ⊢
        exact ⟨hd, h'.2.1⟩
      | ok id =>
        simp only [addActive, create_ok, Except.map, Outcome, h'.2.2]
        exact fun he => by simpa using congrArg List.length he
  exact Outcome.tick (K := fun s' => s'.created = s.created → s'.Filling size) ho
    (fun _ ho hcr => ho.elim (fun ⟨⟨ht, ho⟩, hb, _⟩ => ⟨⟨ht, ho.single, fun _ => ho⟩, hb⟩) (absurd hcr))
    (fun _ _ ho _ => ⟨Inv.ret ho.1.1 ho.1.2 _, ho.2⟩) hcr

theorem Filling.step {e : Event} {s' : Sys} (h : s.Filling size) (hA : Informed P s e)
    (hs : Step P truthful s e s') : s'.Filling size := by
  have hinv := inv_step h.inv hs
  have hsz : s'.lim.point.size = size := by rw [kept_point.step hs, h.bound.1]
  cases hs with
  | ticker t hold sl a c hl hc =>
    by_cases hcr : (s.tick P t hold sl a c).created = s.created
    · exact h.tick_idle hl hc hcr
    · exact h.tick hl hc (hA hcr)
  | fill id q hq => exact ⟨hinv, hsz, (Book.committed_fill hq).trans_le h.bound.2⟩
  | close id _ => exact ⟨hinv, hsz, (Book.committed_close _ _).trans h.bound.2⟩
  | canceled cause a db _ =>
    refine ⟨hinv, hsz, ?_⟩
    rcases onCanceled_book cause a db s with hb | hb <;> rw [hb]
    · exact h.bound.2
    · exact (Book.committed_close _ _).trans h.bound.2
  | run | refresh | save | flush | update | finish =>
    exact ⟨hinv, hsz, by simpa using h.bound.2⟩

end Lemmas

end Sys

/-- **The orders fill at most the point's size.** From a state between runs with the
single-live-order start conditions, where the orders could not fill more than the
point's size, every run in which each ticker that creates an order finds the limiter
informed of every fill and at least the product's minimum pending keeps what the orders
filled at most what they can fill, and that at most the point's size. -/
theorem filled_within_size {P : Product} {s₀ s : Sys} (hidle : s₀.running = false)
    (htracked : s₀.Tracked) (hsingle : s₀.Single) (hc : s₀.book.committed ≤ s₀.lim.point.size)
    (hr : ReachableUnder P truthful (Informed P) s₀ s) :
    s.book.totalFilled ≤ s.book.committed ∧ s.book.committed ≤ s₀.lim.point.size :=
  have h : s.Filling s₀.lim.point.size :=
    ReachableUnder.induction
      ⟨⟨htracked, hsingle, fun h => by simp [hidle] at h⟩, rfl, hc⟩
      (fun h hA hs => h.step hA hs) hr
  ⟨Book.totalFilled_le_committed _, h.bound.2⟩

/-- Along `recreateB` the one ticker that creates, at 96, finds the half filled reported
and the half left at the minimum: the orders fill the whole point and no more. -/
theorem filled_within_size_withLive_A :
    ∃ s, ReachableUnder product₀ truthful (Informed product₀) (withLive ["A"]) s ∧ s.book.totalFilled = 1 ∧
      s.book.totalFilled ≤ s.book.committed ∧ s.book.committed ≤ (withLive ["A"]).lim.point.size := by
  have h : (replayUnder product₀ truthful (Informed product₀) (withLive ["A"]) recreateB).map
      (·.book.totalFilled) = some 1 := by
    with_unfolding_all decide
  obtain ⟨s, hs, he⟩ := Option.map_eq_some'.mp h
  have hr := reachableUnder_of_replayUnder .refl hs
  exact ⟨s, hr, he, filled_within_size rfl withLive_A_tracked withLive_A_single (by with_unfolding_all decide) hr⟩

/-- Every report exact, a point of 1.0 with a minimum of 0.5: 0.7 fills, the order is
cancelled, the 0.3 left is raised to 0.5, which fills. `Pending()` is then -0.2, the
loop goes on, and the next ticker at 96 places another 0.5. -/
theorem overfill_below_minimum :
    product₀.baseMinSize ≤ (withLive []).lim.point.size ∧
      ∃ s s', Reachable product₀ exact (withLive []) s ∧ s.book.totalFilled = 6 / 5 ∧
        s.lim.pending = -1 / 5 ∧ s.looping = true ∧
        next product₀ exact s (.ticker 96 false 10 (.ok ()) (.ok "C")) = some s' ∧
        s'.book.isLive "C" = true ∧ (s'.book.lookup "C").map (·.size) = some (1 / 2) := by
  have h : (replay product₀ exact (withLive [])
      [.run 10 [] (echo (sellLimiter [])) (.ok ()),
        .ticker 96 false 10 (.ok ()) (.ok "A"),
        .fill "A" (7 / 10),
        .update { Limiter.newOrder "A" "u/0" "SELL" with filledSize := 7 / 10 },
        .ticker 94 false 10 (.ok ()) (.error "unused"),
        .ticker 96 false 10 (.ok ()) (.ok "B"),
        .fill "B" (1 / 2),
        .close "B",
        .update { Limiter.newOrder "B" "u/1" "SELL" with filledSize := 1 / 2, done := true }]).bind
        (fun s => (next product₀ exact s (.ticker 96 false 10 (.ok ()) (.ok "C"))).map fun s' =>
          ((s.book.totalFilled, s.lim.pending, s.looping), (s'.book.isLive "C", (s'.book.lookup "C").map (·.size)))) =
      some ((6 / 5, -1 / 5, true), (true, some (1 / 2))) := by
    with_unfolding_all decide
  obtain ⟨s, hs, h⟩ := Option.bind_eq_some.mp h
  obtain ⟨s', hs', he⟩ := Option.map_eq_some'.mp h
  simp only [Prod.mk.injEq] at he
  exact ⟨by with_unfolding_all decide, s, s', reachable_of_replay .refl hs, he.1.1, he.1.2.1, he.1.2.2, hs',
    he.2.1, he.2.2⟩

end Tradebot
