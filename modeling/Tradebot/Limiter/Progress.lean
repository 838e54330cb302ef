import Tradebot.Limiter.Fills

/-! What a limiter has left.

`Pending()` is the point's size less what the limiter's orders have filled, as the
limiter last heard it: from `Get` in a refresh, from the order-update stream, or `0`
for an order it just created. When every report carries the order's cumulative fill
(`exact`), what the limiter holds for an order never runs ahead of the exchange
(`Sys.Behind`): each report brings an order up to the exchange's fill, and the
exchange's fills only grow. So no step raises `Pending()` (`Sys.ahead_step`), and
along every run it only goes down, while staying at least the point's size less what
the exchange has filled (`pending_never_grows`): the looper, which waits for a
limiter's `Pending()` to reach zero, never sees a limiter lose progress, nor finish on
fills the exchange has not made. -/
namespace Tradebot

namespace Limiter

/-- Every order of `m` is in the book `b` and has filled at most what the exchange
says it filled. -/
def Behind (b : Book) (m : GoMap OrderID Order) : Prop :=
  ∀ k o, m.lookup k = some o → ∃ p, b.lookup k = some p ∧ o.filledSize ≤ p.filled

/-- What the limiter counts as filled. -/
def filled (v : Limiter) : ℚ := GoMap.total (·.filledSize) v.orderMap

section Behind

variable {b : Book} {m : GoMap OrderID Order}

theorem pending_eq (v : Limiter) : v.pending = v.point.size - v.filled := rfl

theorem Behind.mem (h : Behind b m) {k : OrderID} (hk : k ∈ m) : k ∈ b := by
  obtain ⟨o, ho⟩ := Option.isSome_iff_exists.mp (AList.lookup_isSome.mpr hk)
  obtain ⟨p, hp, -⟩ := h k o ho
  exact AList.lookup_isSome.mp (by rw [hp]; rfl)

/-- Storing at a held key a report carrying the exchange's fill keeps `Behind`, and
counts no less as filled. -/
theorem Behind.insert (h : Behind b m) {k : OrderID} {r : Order} (hk : k ∈ m)
    (hr : ∀ p, b.lookup k = some p → r.filledSize = p.filled) :
    Behind b (m.insert k r) ∧ GoMap.total (·.filledSize) m ≤ GoMap.total (·.filledSize) (m.insert k r) := by
  obtain ⟨o, ho⟩ := Option.isSome_iff_exists.mp (AList.lookup_isSome.mpr hk)
  obtain ⟨p, hp, hle⟩ := h k o ho
  refine ⟨fun k' o' h' => ?_, ?_⟩
  · by_cases hk' : k' = k
    · subst hk'
      rw [AList.lookup_insert, Option.some_inj] at h'
      exact ⟨p, hp, by rw [← h', hr p hp]⟩
    · rw [AList.lookup_insert_ne hk'] at h'
      exact h k' o' h'
  · rw [GoMap.total_insert_of_lookup _ ho, hr p hp]
    linarith

theorem filledSize_of_exact {r : Order} (h : exact b r = true) {p : Placed} (hp : b.lookup r.orderID = some p) :
    r.filledSize = p.filled := by
  simpa [exact, hp] using (Bool.and_eq_true _ _).mp h |>.2

/-- A refresh whose answers carry the exchange's fills keeps `Behind`, and counts no less
as filled. -/
theorem fetchOrderMap_behind {get : OrderID → Except String Order} :
    ∀ {es : List (Σ _ : OrderID, Order)} {v : Limiter} (n : Nat), (∀ e ∈ es, e.1 ∈ v.orderMap) →
      (∀ e ∈ es, e.2.done = false → ∀ r, get e.1 = .ok r → r.orderID = e.1 ∧ exact b r = true) →
      Behind b v.orderMap →
      Behind b (v.fetchOrderMap get es n).1.orderMap ∧ v.filled ≤ (v.fetchOrderMap get es n).1.filled
  | [], _, _, _, _, h => ⟨h, le_rfl⟩
  | ⟨id, order⟩ :: es, v, n, hk, hget, h => by
    have hk' : ∀ e ∈ es, e.1 ∈ v.orderMap := fun e he => hk e (List.mem_cons_of_mem _ he)
    have hget' := fun e he => hget e (List.mem_cons_of_mem _ he)
    simp only [fetchOrderMap]
    split
    · exact fetchOrderMap_behind n hk' hget' h
    · rename_i hd
      split
      · exact ⟨h, le_rfl⟩
      · rename_i r hr
        obtain ⟨hid, hex⟩ := hget _ (List.mem_cons_self _ _) (by simpa using hd) r hr
        obtain ⟨hb, hle⟩ := h.insert (hk _ (List.mem_cons_self _ _)) fun p hp =>
          filledSize_of_exact hex (by rw [hid]; exact hp)
        have := fetchOrderMap_behind (v := { v with orderMap := v.orderMap.insert id r }) (n + 1)
          (fun e he => (AList.mem_insert _).mpr (.inr (hk' e he))) hget' hb
        exact ⟨this.1, hle.trans this.2⟩

/-- A book in which every order is still there and has filled no less. -/
theorem Behind.mono {b' : Book} (h : Behind b m)
    (hb : ∀ k p, b.lookup k = some p → ∃ p', b'.lookup k = some p' ∧ p.filled ≤ p'.filled) : Behind b' m :=
  fun k o ho => by
    obtain ⟨p, hp, hle⟩ := h k o ho
    obtain ⟨p', hp', hle'⟩ := hb k p hp
    exact ⟨p', hp', hle.trans hle'⟩

/-- What the limiter counts as filled is at most what the book filled, when no order on
the book has a negative fill. -/
theorem Behind.total_le (h : Behind b m) (hb : ∀ e ∈ b.entries, 0 ≤ e.2.filled) :
    GoMap.total (·.filledSize) m ≤ b.totalFilled := by
  obtain ⟨l, nd⟩ := m
  induction l generalizing b with
  | nil =>
    refine List.sum_nonneg fun x hx => ?_
    obtain ⟨e, he, rfl⟩ := List.mem_map.mp hx
    exact hb e he
  | cons e l ih =>
    obtain ⟨k, o⟩ := e
    obtain ⟨p, hp, hle⟩ := h k o (List.dlookup_cons_eq l k o)
    have hrest : Behind (b.erase k) ⟨l, List.nodupKeys_of_nodupKeys_cons nd⟩ := fun k' o' h' => by
      have hk : k' ≠ k := fun he => List.not_mem_keys_of_nodupKeys_cons nd
        (he ▸ List.dlookup_isSome.mp (by rw [show l.dlookup k' = some o' from h']; rfl))
      obtain ⟨p', hp', hle'⟩ := h k' o' (by rw [AList.lookup, List.dlookup_cons_ne _ _ hk]; exact h')
      exact ⟨p', by rw [AList.lookup_erase_ne hk, hp'], hle'⟩
    have := ih (fun e he => hb e ((List.kerase_sublist _ _).subset he)) _ hrest
    simp only [GoMap.total, List.map_cons, List.sum_cons] at this ⊢
    rw [Book.totalFilled, GoMap.total_of_lookup _ hp]
    exact add_le_add hle this

end Behind

end Limiter

namespace Book

/-- No order on the book has a negative fill. -/
def Nonneg (b : Book) : Prop := ∀ e ∈ b.entries, 0 ≤ e.2.filled

theorem pos_of_canFill {b : Book} {id : OrderID} {q : ℚ} (hc : b.canFill id q = true) : 0 < q := by
  unfold canFill at hc
  split at hc
  · simp only [Bool.and_eq_true, decide_eq_true_eq] at hc
    exact hc.1.2
  · cases hc

section Nonneg

variable {b : Book} (h : b.Nonneg)
include h

theorem Nonneg.of_lookup {k : OrderID} {p : Placed} (hp : b.lookup k = some p) : 0 ≤ p.filled :=
  h ⟨k, p⟩ (AList.mem_lookup_iff.mp hp)

theorem Nonneg.insert {k : OrderID} {p : Placed} (hp : 0 ≤ p.filled) : Book.Nonneg (b.insert k p) := fun e he => by
  rw [AList.insert_entries, List.mem_cons] at he
  rcases he with rfl | he
  · exact hp
  · exact h e ((List.kerase_sublist _ _).subset he)

theorem Nonneg.close (id : OrderID) : (b.close id).Nonneg := by
  unfold Book.close
  split
  · rename_i p hp
    exact h.insert (show 0 ≤ p.filled from h.of_lookup hp)
  · exact h

theorem Nonneg.fill {id : OrderID} {q : ℚ} (hc : b.canFill id q = true) : (b.fill id q).Nonneg := by
  unfold Book.fill
  split
  · rename_i p hp
    exact h.insert (add_nonneg (show 0 ≤ p.filled from h.of_lookup hp) (pos_of_canFill hc).le)
  · exact h

theorem Nonneg.place (id : OrderID) (side : String) (size : ℚ) : (b.place id side size).Nonneg :=
  h.insert le_rfl

end Nonneg

theorem grows_close (b : Book) (id : OrderID) :
    ∀ k p, b.lookup k = some p → ∃ p', (b.close id).lookup k = some p' ∧ p.filled ≤ p'.filled := fun k p hp => by
  unfold close
  split
  · rename_i p₀ hp₀
    by_cases hk : k = id
    · subst hk
      rw [hp₀, Option.some_inj] at hp
      exact ⟨_, AList.lookup_insert _, by rw [← hp]⟩
    · exact ⟨p, by rw [AList.lookup_insert_ne hk, hp], le_rfl⟩
  · exact ⟨p, hp, le_rfl⟩

theorem grows_fill {b : Book} {id : OrderID} {q : ℚ} (hc : b.canFill id q = true) :
    ∀ k p, b.lookup k = some p → ∃ p', (b.fill id q).lookup k = some p' ∧ p.filled ≤ p'.filled := fun k p hp => by
  have hq := pos_of_canFill hc
  unfold fill
  split
  · rename_i p₀ hp₀
    by_cases hk : k = id
    · subst hk
      rw [hp₀, Option.some_inj] at hp
      exact ⟨_, AList.lookup_insert _, by rw [← hp]; simp only; linarith⟩
    · exact ⟨p, by rw [AList.lookup_insert_ne hk, hp], le_rfl⟩
  · exact ⟨p, hp, le_rfl⟩

end Book

namespace Sys

/-- The limiter has heard of no fill the exchange has not made, and no fill on the
exchange is negative. -/
def Behind (s : Sys) : Prop := Limiter.Behind s.book s.lim.orderMap ∧ s.book.Nonneg

/-- `s'` is as far along as `s`: its limiter still trails the exchange, and has no more
pending. -/
def Ahead (s s' : Sys) : Prop := s'.Behind ∧ s'.lim.pending ≤ s.lim.pending

variable {P : Product} {s s' s'' : Sys}

theorem Ahead.trans (h₁ : Ahead s s') (h₂ : Ahead s' s'') : Ahead s s'' := ⟨h₂.1, h₂.2.trans h₁.2⟩

theorem Ahead.of_eq (h : s.Behind) (hl : s'.lim = s.lim) (hb : s'.book = s.book) : Ahead s s' := by
  refine ⟨⟨?_, ?_⟩, le_of_eq (by rw [hl])⟩
  · rw [hl, hb]
    exact h.1
  · rw [hb]
    exact h.2

theorem ahead_save (h : s.Behind) (db : Except String Unit) : Ahead s (s.save db) := by
  refine ⟨⟨fun k o ho => h.1 k o ?_, h.2⟩, by rw [save_lim, Limiter.pending_compactOrderMap]⟩
  rw [save_lim, Limiter.compactOrderMap_lookup, Option.filter_eq_some] at ho
  exact ho.1

theorem ahead_fetch (h : s.Behind) {es : List (Σ _ : OrderID, Order)} {get : OrderID → Except String Order}
    (hans : s.answers exact es get = true) : Ahead s { s with lim := (s.lim.fetchOrderMap get es 0).1 } := by
  obtain ⟨hperm, hget⟩ := answers_iff.mp hans
  obtain ⟨hb, hle⟩ := Limiter.fetchOrderMap_behind 0
    (fun e he => AList.mem_keys.mp (List.mem_keys_of_mem (hperm.mem_iff.mp he))) hget h.1
  refine ⟨⟨hb, h.2⟩, ?_⟩
  show (s.lim.fetchOrderMap get es 0).1.pending ≤ s.lim.pending
  rw [Limiter.pending_eq, Limiter.pending_eq, Limiter.fetchOrderMap_point]
  linarith

theorem ahead_close (h : s.Behind) (id : OrderID) : Ahead s { s with book := s.book.close id } :=
  ⟨⟨h.1.mono (Book.grows_close s.book id), h.2.close id⟩, le_rfl⟩

theorem ahead_create (h : s.Behind) {id : OrderID} (hf : s.fresh (.ok id) = true) (side : String) (size : ℚ) :
    Ahead s { s with lim := (s.lim.create (.ok id)).2, book := s.book.place id side size, created := s.created ++ [id] } := by
  have hb : id ∉ s.book := not_mem_of_fresh hf
  have hm : id ∉ s.lim.orderMap := fun hm => hb (h.1.mem hm)
  refine ⟨⟨fun k o ho => ?_, h.2.place id side size⟩, ?_⟩
  · simp only [Limiter.create_ok] at ho
    by_cases hk : k = id
    · subst hk
      rw [AList.lookup_insert, Option.some_inj] at ho
      exact ⟨_, AList.lookup_insert _, by rw [← ho]; rfl⟩
    · rw [AList.lookup_insert_ne hk] at ho
      obtain ⟨p, hp, hle⟩ := h.1 k o ho
      exact ⟨p, by simp only [Book.place]; rw [AList.lookup_insert_ne hk, hp], hle⟩
  · show (s.lim.create (.ok id)).2.pending ≤ s.lim.pending
    rw [Limiter.pending_eq, Limiter.pending_eq, Limiter.create_point]
    simp only [Limiter.filled, Limiter.create_ok, GoMap.total_insert_of_not_mem _ hm, Limiter.newOrder, zero_add,
      le_refl]

theorem ahead_update (h : s.Behind) {o : Order} (ho : exact s.book o = true) : Ahead s (s.onUpdate o) := by
  rw [onUpdate_eq]
  by_cases hm : o.orderID ∈ s.lim.orderMap
  · obtain ⟨hb, hle⟩ := h.1.insert hm fun p hp => Limiter.filledSize_of_exact ho hp
    refine ⟨⟨?_, h.2⟩, ?_⟩
    · simpa only [Limiter.updateOrderMap, hm, if_true] using hb
    · simp only [Limiter.updateOrderMap, hm, if_true, Limiter.pending]
      linarith
  · exact Ahead.of_eq h (by simp only [Limiter.updateOrderMap_of_not_mem hm]) rfl

theorem ahead_tick (h : s.Behind) {t sl : ℚ} {hold : Bool} {a : Except String Unit} {c : Except String OrderID}
    (hf : s.fresh c = true) : Ahead s (s.tick P t hold sl a c) := by
  have hdrop : ∀ s' : Sys, Ahead s s' ∧ s'.fresh c = true →
      Outcome (fun s' => Ahead s s' ∧ s'.fresh c = true) (Ahead s) (s'.dropActive a) := fun s' h' => by
    cases a with
    | error e => exact h'.1
    | ok u => exact ⟨h'.1.trans (ahead_close h'.1.1 s'.active), (fresh_close s'.active).trans h'.2⟩
  have hadd : ∀ s' : Sys, Ahead s s' ∧ s'.fresh c = true → s'.active = "" →
      Outcome (Ahead s) (Ahead s) (s'.addActive P sl c) := fun s' h' _ => by
    cases c with
    | error e =>
      simp only [addActive, create_error, Except.map]
      exact h'.1
    | ok id => exact h'.1.trans (ahead_create h'.1.1 h'.2 _ _)
  exact Outcome.tick (Outcome.onTicker hdrop hadd (fun _ h => h) ⟨⟨h, le_rfl⟩, hf⟩) (fun _ h => h.elim (·.1) id)
    fun _ _ h => h

theorem ahead_start (h : s.Behind) {sl : ℚ} {es : List (Σ _ : OrderID, Order)} {get : OrderID → Except String Order}
    {db : Except String Unit} (hans : s.answers exact es get = true) : Ahead s (s.start P sl es get db) := by
  have hf := ahead_fetch h hans
  rcases start_cases P sl es get db s with ⟨r, he⟩ | ⟨r, he⟩ | ⟨r, he⟩ | ⟨-, -, he⟩ <;> rw [he]
  · exact ⟨h, le_rfl⟩
  · exact hf
  · exact hf.trans (ahead_save hf.1 db)
  · exact hf

theorem ahead_finish (h : s.Behind) {es : List (Σ _ : OrderID, Order)} {get : OrderID → Except String Order}
    {db : Except String Unit} (hans : s.answers exact es get = true) : Ahead s (s.finish es get db) := by
  have hf := ahead_fetch h hans
  rcases finish_cases es get db s with ⟨e, he⟩ | he <;> rw [he]
  · exact hf
  · exact hf.trans (ahead_save hf.1 db)

theorem ahead_onCanceled (h : s.Behind) {cause : String} {a db : Except String Unit} :
    Ahead s (s.onCanceled cause a db) := by
  rcases onCanceled_cases cause a db s with ⟨-, he⟩ | ⟨-, -, he⟩ | ⟨e, -, -, he⟩ <;> rw [he]
  · exact ahead_save h db
  · exact (ahead_close h s.active).trans (ahead_save (ahead_close h s.active).1 db)
  · exact ⟨h, le_rfl⟩

theorem ahead_onFlush (h : s.Behind) {db : Except String Unit} : Ahead s (s.onFlush db) := by
  rcases onFlush_cases db s with ⟨-, he⟩ | ⟨-, -, he⟩ | ⟨-, he⟩ <;> rw [he]
  · exact ⟨h, le_rfl⟩
  · exact ahead_save h (.ok ())
  · exact ahead_save h db

/-- **Step lemma.** Under exact reports every step leaves the limiter trailing the
exchange, with no more pending. -/
theorem ahead_step {e : Event} (h : s.Behind) (hs : Step P exact s e s') : Ahead s s' := by
  cases hs with
  | run sl es get db _ hans => exact ahead_start h hans
  | refresh es get _ hans => exact ahead_fetch h hans
  | save db _ => exact ahead_save h db
  | canceled cause a db _ => exact ahead_onCanceled h
  | flush db _ => exact ahead_onFlush h
  | update o _ ho => exact ahead_update h ho
  | ticker t hold sl a c _ hf => exact ahead_tick h hf
  | finish es get db _ _ hans => exact ahead_finish h hans
  | fill id q hc => exact ⟨⟨h.1.mono (Book.grows_fill hc), h.2.fill hc⟩, le_rfl⟩
  | close id _ => exact ahead_close h id

theorem ahead_reachable (h : s.Behind) (hr : Reachable P exact s s') : Ahead s s' :=
  Reachable.induction (I := Ahead s) ⟨h, le_rfl⟩ (fun _ h₁ hs => h₁.trans (ahead_step h₁.1 hs)) hr

/-! ### What `Run` returning nil means -/

/-- The last call of `Run` returned nil only if nothing is pending. -/
def Complete (s : Sys) : Prop := s.returned = some (.ok ()) → s.lim.pending ≤ 0

theorem Complete.of_ahead (h : s.Complete) (ha : Ahead s s') (hr : s'.returned = s.returned) : s'.Complete :=
  fun h' => ha.2.trans (h (hr ▸ h'))

theorem complete_ret_error (e : String) (s : Sys) : (s.ret (.error e)).Complete := fun h => by cases h

/-- `start` returns nil only after a refresh that left nothing pending. -/
theorem complete_start {sl : ℚ} {es : List (Σ _ : OrderID, Order)} {get : OrderID → Except String Order}
    {db : Except String Unit} : (s.start P sl es get db).Complete := by
  unfold start
  split
  · exact complete_ret_error _ _
  · dsimp only
    split
    · exact complete_ret_error _ _
    · split
      · rename_i hz
        intro _
        split
        · rw [ret_lim, save_lim, Limiter.pending_compactOrderMap]
          exact le_of_eq hz
        · exact le_of_eq hz
      · split
        · exact complete_ret_error _ _
        · intro h
          cases h

/-- A ticker keeps what `Run` returned, or returns an error. -/
theorem tick_returned (P : Product) (t : ℚ) (hold : Bool) (sl : ℚ) (a : Except String Unit)
    (c : Except String OrderID) (s : Sys) :
    (s.tick P t hold sl a c).returned = s.returned ∨ ∃ e, (s.tick P t hold sl a c).returned = some (.error e) := by
  have hdrop : ∀ s' : Sys, s'.returned = s.returned →
      Outcome (·.returned = s.returned) (·.returned = s.returned) (s'.dropActive a) := fun s' h => by
    cases a <;> exact h
  have hadd : ∀ s' : Sys, s'.returned = s.returned → s'.active = "" →
      Outcome (·.returned = s.returned) (·.returned = s.returned) (s'.addActive P sl c) := fun s' h _ => by
    cases c with
    | error e =>
      simp only [addActive, create_error, Except.map]
      exact h
    | ok id => exact h
  exact Outcome.tick (K := fun s' => s'.returned = s.returned ∨ ∃ e, s'.returned = some (.error e))
    (Outcome.onTicker hdrop hadd (fun _ h => h) rfl) (fun _ h => .inl (h.elim id id)) fun _ e _ => .inr ⟨e, rfl⟩

/-- **Step lemma.** Under exact reports, from a state trailing the exchange, every step
keeps `Complete`. -/
theorem complete_step {e : Event} (h : s.Behind) (hc : s.Complete) (hs : Step P exact s e s') : s'.Complete := by
  have ha := ahead_step h hs
  cases hs with
  | run sl es get db _ _ => exact complete_start
  | refresh es get _ _ => exact hc.of_ahead ha rfl
  | save db _ => exact hc.of_ahead ha rfl
  | canceled cause a db _ =>
    rcases onCanceled_cases cause a db s with ⟨-, he⟩ | ⟨-, -, he⟩ | ⟨e, -, -, he⟩ <;> rw [he] <;>
      exact complete_ret_error _ _
  | flush db _ =>
    refine hc.of_ahead ha ?_
    rcases onFlush_cases db s with ⟨-, he⟩ | ⟨-, -, he⟩ | ⟨-, he⟩ <;> rw [he] <;> rfl
  | update o _ _ => exact hc.of_ahead ha (by rw [onUpdate_eq])
  | ticker t hold sl a c _ _ =>
    rcases tick_returned P t hold sl a c s with hr | ⟨e, hr⟩
    · exact hc.of_ahead ha hr
    · exact fun h' => absurd (hr.symm.trans h') (by simp)
  | finish es get db _ hz _ => exact fun _ => ha.2.trans (le_of_eq hz)
  | fill id q _ => exact hc.of_ahead ha rfl
  | close id _ => exact hc.of_ahead ha rfl

end Sys

/-- **No progress is lost, none is invented.** When the exchange's reports carry each
order's cumulative fill, from a state in which the limiter has heard of no fill the
exchange has not made, along every run the limiter's pending size never grows, and it
never drops below the point's size less all the exchange has filled: every state
reachable from a reachable state has at most the pending size of the earlier one, and
at least what the book leaves of the point's size. -/
theorem pending_never_grows {P : Product} {s₀ s s' : Sys} (h₀ : s₀.Behind) (hr : Reachable P exact s₀ s)
    (hr' : Reachable P exact s s') :
    s'.lim.pending ≤ s.lim.pending ∧ s'.lim.point.size - s'.book.totalFilled ≤ s'.lim.pending := by
  have h := Sys.ahead_reachable (Sys.ahead_reachable h₀ hr).1 hr'
  rw [Limiter.pending_eq s'.lim]
  exact ⟨h.2, sub_le_sub_left (h.1.1.total_le h.1.2) _⟩

/-- `withLive ["A"]` trails the exchange: `"A"` is on the book, unfilled. -/
theorem behind_withLive_A : (withLive ["A"]).Behind := by
  refine ⟨fun k o ho => ?_, Book.Nonneg.place (fun e he => absurd he (List.not_mem_nil e)) "A" "SELL" 1⟩
  have hk : k = "A" := by
    have hm : k ∈ (withLive ["A"]).lim.orderMap := AList.lookup_isSome.mp (by rw [ho]; rfl)
    simpa [withLive, sellLimiter] using hm
  subst hk
  simp only [withLive, sellLimiter, List.foldl_cons, List.foldl_nil, AList.lookup_insert, Option.some_inj] at ho
  exact ⟨_, AList.lookup_insert _, by rw [← ho]; rfl⟩

/-- The exchange fills half of `"A"` while `Run` is in its loop, and reports it. -/
theorem pending_never_grows_half_filled :
    (withLive ["A"]).Behind ∧ ∃ s, Reachable product₀ exact (withLive ["A"]) s ∧ s.lim.pending = 1 / 2 ∧
      s.lim.pending ≤ (withLive ["A"]).lim.pending ∧ s.lim.point.size - s.book.totalFilled ≤ s.lim.pending := by
  have h : (replay product₀ exact (withLive ["A"])
      [.run 10 (sellLimiter ["A"]).orderMap.entries (echo (sellLimiter ["A"])) (.ok ()), .fill "A" (1 / 2),
        .update { Limiter.newOrder "A" "" "SELL" with filledSize := 1 / 2 }]).map (·.lim.pending) = some (1 / 2) := by
    with_unfolding_all decide
  obtain ⟨s, hs, he⟩ := Option.map_eq_some'.mp h
  have hr := reachable_of_replay .refl hs
  exact ⟨behind_withLive_A, s, hr, he, pending_never_grows behind_withLive_A .refl hr⟩

/-- **`Run` returns nil only when done.** When the exchange's reports carry each order's
cumulative fill, from a state in which the limiter has heard of no fill the exchange has
not made, and in which `Run` has not returned nil with something pending, at every
reachable state, if the last call of `Run` returned nil then nothing is pending: the
refresh `Run` makes after its loop sees nothing pending, and every step after the
return, never raises `Pending()` above zero. -/
theorem run_nil_nothing_pending {P : Product} {s₀ s : Sys} (h₀ : s₀.Behind) (hc₀ : s₀.Complete)
    (hr : Reachable P exact s₀ s) : s.returned = some (.ok ()) → s.lim.pending ≤ 0 :=
  (Reachable.induction (I := fun s => s.Behind ∧ s.Complete) ⟨h₀, hc₀⟩
    (fun _ h hs => ⟨(Sys.ahead_step h.1 hs).1, Sys.complete_step h.1 h.2 hs⟩) hr).2

/-- The exchange fills all of `"A"` and finishes it while `Run` is in its loop; `Run`
hears of it and returns nil. -/
theorem run_nil_nothing_pending_filled :
    (withLive ["A"]).Behind ∧ (withLive ["A"]).Complete ∧ ∃ s, Reachable product₀ exact (withLive ["A"]) s ∧
      s.returned = some (.ok ()) ∧ s.lim.pending ≤ 0 := by
  have hc₀ : (withLive ["A"]).Complete := fun h => by cases h
  have h : (replay product₀ exact (withLive ["A"])
      [.run 10 (sellLimiter ["A"]).orderMap.entries (echo (sellLimiter ["A"])) (.ok ()), .fill "A" 1, .close "A",
        .update { Limiter.newOrder "A" "" "SELL" with filledSize := 1, done := true },
        .finish [⟨"A", { Limiter.newOrder "A" "" "SELL" with filledSize := 1, done := true }⟩]
          (echo (sellLimiter ["A"])) (.ok ())]).map (·.returned) = some (some (.ok ())) := by
    with_unfolding_all decide
  obtain ⟨s, hs, he⟩ := Option.map_eq_some'.mp h
  have hr := reachable_of_replay .refl hs
  exact ⟨behind_withLive_A, hc₀, s, hr, he, run_nil_nothing_pending behind_withLive_A hc₀ hr he⟩

end Tradebot
