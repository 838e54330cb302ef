import Tradebot.Looper.Basic
import Tradebot.Limiter.Run

/-! `Looper.Run`, one pass of its loop at a time.

Each pass looks at the last buy and the last sell (`Looper.branch`) and either adds a
limiter or runs the last one. A run is the limiter model's: from the last limiter
between runs, any list of its events that ends between runs (`LimiterRun`); adding may
fail in `limiter.New` or in the transaction and is then rolled back. `Looper.Step`
is one pass with what the world answers, `Looper.Reachable` any number of them.

`Paired` is the loop's invariant on the pending sizes of the buys and sells: at most
one more buy than sells, every limiter but the last of each side done, the last buy
done when the sides are even, and every sell done when a buy is ahead. Each branch
keeps it (`balanced_step`), so every run from `New` keeps it (`balanced_reachable`), and so sell
`i` is added only after buy `i` is done and buy `i + 1` only after sell `i`
(`looper_balanced`). -/
namespace Tradebot

namespace Looper

/-- Which branch a pass of `Run`'s loop takes. -/
inductive Branch where
  | addBuy
  | runBuy
  | addSell
  | runSell
deriving DecidableEq, Repr

/-- The branch `Run` takes: with no buy, add one; while the last buy is pending, run it;
then add its sell; while the last sell is pending, run it; then add the next buy. -/
def branch (v : Looper) : Branch :=
  match v.buys.getLast? with
  | none => .addBuy
  | some b =>
    if b.pending ≠ 0 then .runBuy
    else if v.sells.length < v.buys.length then .addSell
    else match v.sells.getLast? with
      | some s => if s.pending ≠ 0 then .runSell else .addBuy
      | none => .addBuy

/-- `Run` of one limiter as the limiter model runs it: from `v` between runs, over the
store `rw`, to a state between runs its events reach, with limiter `v'` and store `rw'`. -/
def LimiterRun (P : Product) (v : Limiter) (rw : Store) (v' : Limiter) (rw' : Store) : Prop :=
  ∃ (F : Book → Order → Bool) (s₀ s : Sys), s₀.lim = v ∧ s₀.db = rw ∧ s₀.running = false ∧
    Tradebot.Reachable P F s₀ s ∧ s.running = false ∧ s.lim = v' ∧ s.db = rw'

/-- One pass of `Run`'s loop, with the wait, the transaction, or the limiter's run as the
world answers them. -/
inductive Step (P : Product) : Looper × Store → Looper × Store → Prop where
  | addBuy {v : Looper} {rw : Store} (wait db : Except String Unit) : v.branch = .addBuy →
      Step P (v, rw) (v.addNewBuy P wait db rw).2
  | addSell {v : Looper} {rw : Store} (db : Except String Unit) : v.branch = .addSell →
      Step P (v, rw) (v.addNewSell P db rw).2
  | runBuy {v : Looper} {rw rw' : Store} {b w : Limiter} : v.branch = .runBuy →
      v.buys.getLast? = some b → LimiterRun P b rw w rw' →
      Step P (v, rw) ({ v with buys := v.buys.dropLast ++ [w] }, rw')
  | runSell {v : Looper} {rw rw' : Store} {s w : Limiter} : v.branch = .runSell →
      v.sells.getLast? = some s → LimiterRun P s rw w rw' →
      Step P (v, rw) ({ v with sells := v.sells.dropLast ++ [w] }, rw')

/-- The loopers and stores a number of passes reach. -/
inductive Reachable (P : Product) (s₀ : Looper × Store) : Looper × Store → Prop where
  | refl : Reachable P s₀ s₀
  | step {s s' : Looper × Store} : Reachable P s₀ s → Step P s s' → Reachable P s₀ s'

/-! ### The invariant, on pending sizes -/

/-- `Run`'s invariant on the pending sizes of the buys `ps` and the sells `qs`. -/
structure Paired (ps qs : List ℚ) : Prop where
  sells_le : qs.length ≤ ps.length
  buys_le : ps.length ≤ qs.length + 1
  buys_done : ∀ p ∈ ps.dropLast, p = 0
  sells_done : ∀ q ∈ qs.dropLast, q = 0
  last_buy_done : ps.length = qs.length → ∀ p ∈ ps.getLast?, p = 0
  sells_all_done : ps.length = qs.length + 1 → ∀ q ∈ qs, q = 0

/-- The invariant of a looper. -/
def Balanced (v : Looper) : Prop := Paired (v.buys.map (·.pending)) (v.sells.map (·.pending))

section Paired

variable {ps qs : List ℚ}

theorem mem_dropLast_or_getLast {l : List ℚ} {x : ℚ} (h : x ∈ l) : x ∈ l.dropLast ∨ x ∈ l.getLast? := by
  rcases hl : l.getLast? with _ | a
  · simp [List.getLast?_eq_none_iff.mp hl] at h
  · rw [← List.dropLast_append_getLast? a hl, List.mem_append, List.mem_singleton] at h
    rcases h with h | rfl
    exacts [.inl h, .inr rfl]

theorem all_zero {l : List ℚ} (h₁ : ∀ p ∈ l.dropLast, p = 0) (h₂ : ∀ p ∈ l.getLast?, p = 0) :
    ∀ p ∈ l, p = 0 := fun p hp => (mem_dropLast_or_getLast hp).elim (h₁ p) (h₂ p)

/-- `New`'s looper, with no buy and no sell. -/
theorem Paired.nil : Paired [] [] := ⟨le_rfl, by simp, nofun, nofun, fun _ => nofun, fun h => nomatch h⟩

/-- Adding a buy, when the last buy and, if there is a buy, the last sell are done, and
the sides are even. -/
theorem Paired.push_buy (h : Paired ps qs) (hp : ∀ p ∈ ps.getLast?, p = 0) (hlen : ps.length ≤ qs.length)
    (hq : ps ≠ [] → ∀ q ∈ qs.getLast?, q = 0) (x : ℚ) : Paired (ps ++ [x]) qs := by
  have := h.sells_le
  have hq' : ∀ q ∈ qs.getLast?, q = 0 := by
    by_cases hps : ps = []
    · have : qs = [] := by simpa [hps] using h.sells_le
      simp [this]
    · exact hq hps
  exact {
    sells_le := by simp; omega
    buys_le := by simpa using hlen
    buys_done := by rw [List.dropLast_concat]; exact all_zero h.buys_done hp
    sells_done := h.sells_done
    last_buy_done := fun he => absurd he (by simp; omega)
    sells_all_done := fun _ => all_zero h.sells_done hq' }

/-- Adding a sell, when the last buy is done and a buy is ahead. -/
theorem Paired.push_sell (h : Paired ps qs) (hp : ∀ p ∈ ps.getLast?, p = 0) (hlt : qs.length < ps.length)
    (x : ℚ) : Paired ps (qs ++ [x]) := by
  have := h.buys_le
  exact {
    sells_le := by simpa using hlt
    buys_le := by simp; omega
    buys_done := h.buys_done
    sells_done := by rw [List.dropLast_concat]; exact h.sells_all_done (by omega)
    last_buy_done := fun _ => hp
    sells_all_done := fun he => absurd he (by simp; omega) }

/-- Running the last buy while it is pending. -/
theorem Paired.set_last_buy (h : Paired ps qs) (hp : ∃ p ∈ ps.getLast?, p ≠ 0) (x : ℚ) :
    Paired (ps.dropLast ++ [x]) qs := by
  obtain ⟨p, hpl, hp0⟩ := hp
  have hne : ps ≠ [] := fun h => by simp [h] at hpl
  have hlen : (ps.dropLast ++ [x]).length = ps.length := by
    simp [List.length_dropLast]
    have := List.length_pos.mpr hne
    omega
  exact {
    sells_le := hlen ▸ h.sells_le
    buys_le := hlen ▸ h.buys_le
    buys_done := by rw [List.dropLast_concat]; exact h.buys_done
    sells_done := h.sells_done
    last_buy_done := fun he => absurd (h.last_buy_done (hlen ▸ he) p hpl) hp0
    sells_all_done := fun he => h.sells_all_done (hlen ▸ he) }

/-- Running the last sell while it is pending, the last buy done and the sides even. -/
theorem Paired.set_last_sell (h : Paired ps qs) (hp : ∀ p ∈ ps.getLast?, p = 0) (hlen : ps.length ≤ qs.length)
    (hq : ∃ q ∈ qs.getLast?, q ≠ 0) (x : ℚ) : Paired ps (qs.dropLast ++ [x]) := by
  obtain ⟨q, hql, -⟩ := hq
  have hne : qs ≠ [] := fun h => by simp [h] at hql
  have hlen' : (qs.dropLast ++ [x]).length = qs.length := by
    simp [List.length_dropLast]
    have := List.length_pos.mpr hne
    omega
  exact {
    sells_le := hlen' ▸ h.sells_le
    buys_le := hlen' ▸ h.buys_le
    buys_done := h.buys_done
    sells_done := by rw [List.dropLast_concat]; exact h.sells_done
    last_buy_done := fun _ => hp
    sells_all_done := fun he => absurd he (by omega) }

/-- Sell `i` exists only once buy `i` is done. -/
theorem Paired.buys_before_sells (h : Paired ps qs) : ∀ p ∈ ps.take qs.length, p = 0 := by
  intro p hp
  rcases Nat.lt_or_ge qs.length ps.length with hlt | hge
  · have hd : ps.take qs.length = ps.dropLast.take qs.length := by
      rw [List.dropLast_eq_take, List.take_take, min_eq_left (by omega)]
    rw [hd] at hp
    exact h.buys_done p (List.mem_of_mem_take hp)
  · rw [List.take_of_length_le hge] at hp
    exact all_zero h.buys_done (h.last_buy_done (by have := h.sells_le; omega)) p hp

/-- Buy `i + 1` exists only once sell `i` is done. -/
theorem Paired.sells_before_buys (h : Paired ps qs) : ∀ q ∈ qs.take (ps.length - 1), q = 0 := by
  intro q hq
  rcases Nat.lt_or_ge qs.length ps.length with hlt | hge
  · exact h.sells_all_done (by have := h.buys_le; omega) q (List.mem_of_mem_take hq)
  · rw [show ps.length - 1 = qs.length - 1 by have := h.sells_le; omega, ← List.dropLast_eq_take] at hq
    exact h.sells_done q hq

end Paired

/-! ### Each branch keeps the invariant -/

section Steps

variable {P : Product} {v : Looper}

/-- Adding a limiter on one side appends one pending size there, or, when `New` or the
transaction fails, changes no pending size; the other side keeps its pending sizes. -/
theorem addNew_pendings (buy : Bool) (db : Except String Unit) (rw : Store) :
    ((v.addNew P buy db rw).2.1.side (!buy)).map (·.pending) = (v.side (!buy)).map (·.pending) ∧
      (((v.addNew P buy db rw).2.1.side buy).map (·.pending) = (v.side buy).map (·.pending) ∨
        ∃ x, ((v.addNew P buy db rw).2.1.side buy).map (·.pending) = (v.side buy).map (·.pending) ++ [x]) := by
  rcases addNew_cases P buy db rw v with h | ⟨l, -, h | h⟩ <;> rw [h]
  · exact ⟨rfl, .inl rfl⟩
  · simp only [save_side, pending_map_compact, true_or, and_self]
  · simp only [save_side, side_setSide, side_not_setSide, List.map_append, pending_map_compact, true_and]
    exact .inr ⟨_, rfl⟩

theorem balanced_addNewBuy (h : v.Balanced) (hp : ∀ p ∈ (v.buys.map (·.pending)).getLast?, p = 0)
    (hlen : v.buys.length ≤ v.sells.length)
    (hq : v.buys ≠ [] → ∀ q ∈ (v.sells.map (·.pending)).getLast?, q = 0)
    (wait db : Except String Unit) (rw : Store) : (v.addNewBuy P wait db rw).2.1.Balanced := by
  unfold addNewBuy
  split
  · exact h
  · obtain ⟨hs, hb⟩ := addNew_pendings (v := v) (P := P) true db rw
    simp only [side_true, side_false, Bool.not_true] at hs hb
    unfold Balanced
    rw [hs]
    rcases hb with hb | ⟨x, hb⟩ <;> rw [hb]
    · exact h
    · exact h.push_buy hp (by simpa using hlen) (fun hne => hq (by simpa using hne)) x

theorem balanced_addNewSell (h : v.Balanced) (hp : ∀ p ∈ (v.buys.map (·.pending)).getLast?, p = 0)
    (hlt : v.sells.length < v.buys.length) (db : Except String Unit) (rw : Store) :
    (v.addNewSell P db rw).2.1.Balanced := by
  obtain ⟨hs, hb⟩ := addNew_pendings (v := v) (P := P) false db rw
  simp only [side_true, side_false, Bool.not_false] at hs hb
  unfold Balanced addNewSell
  rw [hs]
  rcases hb with hb | ⟨x, hb⟩ <;> rw [hb]
  · exact h
  · exact h.push_sell hp (by simpa using hlt) x

/-- What each branch knows of the last limiters. -/
theorem branch_spec (v : Looper) :
    (v.branch = .addBuy → (∀ p ∈ (v.buys.map (·.pending)).getLast?, p = 0) ∧
        v.buys.length ≤ v.sells.length ∧ (v.buys ≠ [] → ∀ q ∈ (v.sells.map (·.pending)).getLast?, q = 0)) ∧
      (v.branch = .runBuy → ∃ p ∈ (v.buys.map (·.pending)).getLast?, p ≠ 0) ∧
      (v.branch = .addSell → (∀ p ∈ (v.buys.map (·.pending)).getLast?, p = 0) ∧
        v.sells.length < v.buys.length) ∧
      (v.branch = .runSell → (∀ p ∈ (v.buys.map (·.pending)).getLast?, p = 0) ∧
        v.buys.length ≤ v.sells.length ∧ ∃ q ∈ (v.sells.map (·.pending)).getLast?, q ≠ 0) := by
  unfold branch
  simp only [List.getLast?_map]
  rcases hb : v.buys.getLast? with _ | b
  · have : v.buys = [] := List.getLast?_eq_none_iff.mp hb
    exact ⟨fun _ => ⟨nofun, by simp [this], fun h => (h this).elim⟩, nofun, nofun, nofun⟩
  · have hbl : 0 < v.buys.length := List.length_pos.mpr fun h => by simp [h] at hb
    simp only [Option.map_some', Option.mem_def, Option.some.injEq, forall_eq', exists_eq_left']
    split_ifs with hp hlt
    · exact ⟨nofun, fun _ => hp, nofun, nofun⟩
    · exact ⟨nofun, nofun, fun _ => ⟨not_not.mp hp, hlt⟩, nofun⟩
    · rcases hs : v.sells.getLast? with _ | s
      · rw [List.getLast?_eq_none_iff.mp hs, List.length_nil] at hlt
        omega
      · simp only [Option.map_some', Option.mem_def, Option.some.injEq, forall_eq', exists_eq_left']
        split_ifs with hq
        · exact ⟨nofun, nofun, nofun, fun _ => ⟨not_not.mp hp, not_lt.mp hlt, hq⟩⟩
        · exact ⟨fun _ => ⟨not_not.mp hp, not_lt.mp hlt, fun _ => not_not.mp hq⟩, nofun, nofun, nofun⟩

theorem balanced_step {s s' : Looper × Store} (h : s.1.Balanced) (hs : Step P s s') : s'.1.Balanced := by
  cases hs with
  | addBuy wait db hb =>
    obtain ⟨hp, hlen, hq⟩ := (branch_spec _).1 hb
    exact balanced_addNewBuy h hp hlen hq wait db _
  | addSell db hb =>
    obtain ⟨hp, hlt⟩ := (branch_spec _).2.2.1 hb
    exact balanced_addNewSell h hp hlt db _
  | runBuy hb hl _ =>
    unfold Balanced
    simp only [List.map_append, List.map_dropLast, List.map_cons, List.map_nil]
    exact Paired.set_last_buy h ((branch_spec _).2.1 hb) _
  | runSell hb hl _ =>
    obtain ⟨hp, hlen, hq⟩ := (branch_spec _).2.2.2 hb
    unfold Balanced
    simp only [List.map_append, List.map_dropLast, List.map_cons, List.map_nil]
    exact Paired.set_last_sell h hp (by simpa using hlen) hq _

/-- Every run of passes keeps the invariant. -/
theorem balanced_reachable {s₀ s : Looper × Store} (h₀ : s₀.1.Balanced) (hr : Reachable P s₀ s) :
    s.1.Balanced := by
  induction hr with
  | refl => exact h₀
  | step _ hs ih => exact balanced_step ih hs

theorem balanced_new {uid productID : String} {buy sell : Point} (h : new uid productID buy sell = .ok v) :
    v.Balanced := by
  simp only [new] at h
  split at h <;> cases h
  exact Paired.nil

/-- Sell `i` exists only once buy `i` is done. -/
theorem Balanced.take_buys_done (h : v.Balanced) : ∀ b ∈ v.buys.take v.sells.length, b.pending = 0 :=
  fun b hb => Paired.buys_before_sells h b.pending (by
    simpa only [List.length_map, ← List.map_take] using List.mem_map_of_mem (·.pending) hb)

/-- Buy `i + 1` exists only once sell `i` is done. -/
theorem Balanced.take_sells_done (h : v.Balanced) : ∀ s ∈ v.sells.take (v.buys.length - 1), s.pending = 0 :=
  fun s hs => Paired.sells_before_buys h s.pending (by
    simpa only [List.length_map, ← List.map_take] using List.mem_map_of_mem (·.pending) hs)

end Steps

end Looper

/-- **Buys and sells alternate.** In every looper that passes of `Run` reach from
`New`, whatever the waits, the transactions and the limiters' runs answer, there are as
many sells as buys or one buy more; every buy and sell but the last of its side is
done; the last buy is done when the sides are even; every sell is done when a buy is
ahead. So sell `i` exists only once buy `i` is done, and buy `i + 1` only once sell `i`
is done. -/
theorem looper_balanced {P : Product} {uid productID : String} {buy sell : Point} {V₀ V : Looper}
    {rw₀ rw : Store} (hnew : Looper.new uid productID buy sell = .ok V₀)
    (hr : Looper.Reachable P (V₀, rw₀) (V, rw)) :
    V.Balanced ∧ (∀ b ∈ V.buys.take V.sells.length, b.pending = 0) ∧
      ∀ s ∈ V.sells.take (V.buys.length - 1), s.pending = 0 :=
  have hb : V.Balanced := Looper.balanced_reachable (Looper.balanced_new hnew) hr
  ⟨hb, hb.take_buys_done, hb.take_sells_done⟩

/-- A looper of product `P` under `/l`, buying 1 at 95 (cancelled at 100) and selling
it at 105 (cancelled at 100). -/
def looper₀ : Looper :=
  { productID := "P", key := "/l", buyPoint := ⟨1, 95, 100⟩, sellPoint := ⟨1, 105, 100⟩, buys := [],
    sells := [] }

theorem new_looper₀ : Looper.new "/l" "P" ⟨1, 95, 100⟩ ⟨1, 105, 100⟩ = .ok looper₀ := by
  have hc : looper₀.check = .ok () := by with_unfolding_all decide
  simp only [Looper.new]
  split
  · rename_i he
    cases he.symm.trans hc
  · rfl

theorem looper_balanced_looper₀ :
    looper₀.Balanced ∧ (∀ b ∈ looper₀.buys.take looper₀.sells.length, b.pending = 0) ∧
      ∀ s ∈ looper₀.sells.take (looper₀.buys.length - 1), s.pending = 0 :=
  looper_balanced new_looper₀ (.refl : Looper.Reachable product₀ (looper₀, Store.empty) _)

end Tradebot
