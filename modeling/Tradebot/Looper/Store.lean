import Tradebot.Looper.Shape

/-! A looper saved and loaded back.

`Save` writes every limiter's record under that limiter's key, then the looper's record
under the looper's key: its product, its points, and the uids of its buys followed by
those of its sells. `Load` reads the looper's record, loads each uid in turn, and files
each limiter under buys or sells by its point's side.

The round trip restores both lists when nothing overwrites what was written: the
limiters' keys are distinct and none is the looper's key (`looper_save_load`). Then
every record `Load` reads is the one `Save` wrote for that limiter, which keeps its
uid, its point and its pending size, and the point's side sends it back to its list.
Two limiters sharing a uid share a record, so the later one's is read twice
(`looper_save_load_twin`). Every looper `Run` reaches from `New` meets the conditions
on points (`Looper.shaped_of_reachable`). -/
namespace Tradebot

namespace Looper

/-! ### What `Save` writes -/

theorem saveAll_snd_append (ls ls' : List Limiter) (rw : Store) :
    (saveAll ls' (saveAll ls rw).2).2 = (saveAll (ls ++ ls') rw).2 := by
  induction ls generalizing rw with
  | nil => rfl
  | cons l ls ih => exact ih _

/-- Saving limiters leaves every key none of them is saved under. -/
theorem saveAll_other {ls : List Limiter} {rw : Store} {k : String}
    (h : ∀ l ∈ ls, Limiter.key l.uid ≠ k) : (saveAll ls rw).2 k = rw k := by
  induction ls generalizing rw with
  | nil => rfl
  | cons l ls ih =>
    show (saveAll ls (l.save rw).2).2 k = rw k
    rw [ih fun l' hl' => h l' (List.mem_cons_of_mem _ hl'), Limiter.save_snd,
      Store.set_other _ _ (h l (List.mem_cons_self _ _)).symm]

/-- With distinct keys, each limiter's record is the one its own `Save` wrote. -/
theorem saveAll_mem {ls : List Limiter} {rw : Store} {l : Limiter}
    (hn : (ls.map fun l => Limiter.key l.uid).Nodup) (hl : l ∈ ls) :
    (saveAll ls rw).2 (Limiter.key l.uid) = some (.limiter (Limiter.encode l.compactOrderMap)) := by
  induction ls generalizing rw with
  | nil => cases hl
  | cons l₀ ls ih =>
    rw [List.map_cons, List.nodup_cons] at hn
    show (saveAll ls (l₀.save rw).2).2 _ = _
    rcases List.mem_cons.mp hl with rfl | hl
    · have hk : ∀ l' ∈ ls, Limiter.key l'.uid ≠ Limiter.key l.uid := fun l' hl' he =>
        hn.1 (he ▸ List.mem_map_of_mem (fun l => Limiter.key l.uid) hl')
      rw [saveAll_other hk, Limiter.save_snd, Store.set_same]
    · exact ih hn.2 hl

theorem save_snd (v : Looper) (rw : Store) :
    (v.save rw).2 = (saveAll (v.buys ++ v.sells) rw).2.set v.key
      (.looper ⟨v.productID, v.buys.map (·.uid) ++ v.sells.map (·.uid), v.buyPoint, v.sellPoint⟩) := by
  rw [← saveAll_snd_append]
  rfl

/-! ### What `Load` reads -/

theorem checkPoint_side {name side : String} {p : Point} (h : checkPoint name side p = .ok ()) :
    p.side = side := by
  unfold checkPoint at h
  split at h
  · cases h
  · split at h
    · cases h
    · exact not_not.mp ‹_›

/-- A looper that passes `check` buys at a BUY point and sells at a SELL point. -/
theorem check_sides {v : Looper} (h : v.check = .ok ()) :
    v.buyPoint.side = "BUY" ∧ v.sellPoint.side = "SELL" := by
  unfold check at h
  split at h
  · cases h
  · cases hb : checkPoint "buy" "BUY" v.buyPoint with
    | error e =>
      rw [hb] at h
      cases h
    | ok u =>
      rw [hb] at h
      exact ⟨checkPoint_side hb, checkPoint_side h⟩

section Load

variable {r : Store} {g : Limiter → Limiter}

/-- Limiters that load as BUY limiters are appended to the buys, in order. -/
theorem loadLimiters_buys {ls : List Limiter}
    (h : ∀ l ∈ ls, Limiter.load l.uid r = .ok (g l) ∧ (g l).point.side = "BUY")
    (ids : List String) (buys sells : List Limiter) :
    loadLimiters r (ls.map (·.uid) ++ ids) buys sells = loadLimiters r ids (buys ++ ls.map g) sells := by
  induction ls generalizing buys with
  | nil => simp
  | cons l ls ih =>
    obtain ⟨hl, hs⟩ := h l (List.mem_cons_self _ _)
    simp only [List.map_cons, List.cons_append, loadLimiters, hl, hs, ↓reduceIte, List.append_eq]
    rw [ih fun l' hl' => h l' (List.mem_cons_of_mem _ hl')]
    simp

/-- Limiters that load as SELL limiters are appended to the sells, in order. -/
theorem loadLimiters_sells {ls : List Limiter}
    (h : ∀ l ∈ ls, Limiter.load l.uid r = .ok (g l) ∧ (g l).point.side = "SELL")
    (buys sells : List Limiter) :
    loadLimiters r (ls.map (·.uid)) buys sells = .ok (buys, sells ++ ls.map g) := by
  induction ls generalizing sells with
  | nil => simp [loadLimiters]
  | cons l ls ih =>
    obtain ⟨hl, hs⟩ := h l (List.mem_cons_self _ _)
    have hne : ¬((g l).point.side = "BUY") := by rw [hs]; decide
    simp only [List.map_cons, loadLimiters, hl, hs, hne, ↓reduceIte]
    rw [ih fun l' hl' => h l' (List.mem_cons_of_mem _ hl')]
    simp

/-- The uids of BUY limiters followed by those of SELL limiters load back into the two
lists. -/
theorem loadLimiters_split {bs ss : List Limiter}
    (hb : ∀ l ∈ bs, Limiter.load l.uid r = .ok (g l) ∧ (g l).point.side = "BUY")
    (hs : ∀ l ∈ ss, Limiter.load l.uid r = .ok (g l) ∧ (g l).point.side = "SELL") :
    loadLimiters r (bs.map (·.uid) ++ ss.map (·.uid)) [] [] = .ok (bs.map g, ss.map g) := by
  rw [loadLimiters_buys hb, loadLimiters_sells hs]
  rfl

end Load

end Looper

/-- **A looper survives `Save` and `Load`.** A looper that passes `check`, whose buys
are at its buy point and sells at its sell point, and whose limiters are saved under
distinct keys other than its own, loads back from what `Save` wrote with its key, its
product, its points, and buys and sells of the same uids and pending sizes, in the
same order. -/
theorem looper_save_load {V : Looper} {rw : Store} (hcheck : V.check = .ok ())
    (hbuy : ∀ b ∈ V.buys, b.point = V.buyPoint) (hsell : ∀ s ∈ V.sells, s.point = V.sellPoint)
    (hkeys : ((V.buys ++ V.sells).map fun l => Limiter.key l.uid).Nodup)
    (hkey : ∀ l ∈ V.buys ++ V.sells, Limiter.key l.uid ≠ V.key) :
    ∃ W, Looper.load V.key (V.save rw).2 = .ok W ∧ W.key = V.key ∧ W.productID = V.productID ∧
      W.buyPoint = V.buyPoint ∧ W.sellPoint = V.sellPoint ∧
      W.buys.map (·.uid) = V.buys.map (·.uid) ∧ W.buys.map (·.pending) = V.buys.map (·.pending) ∧
      W.sells.map (·.uid) = V.sells.map (·.uid) ∧ W.sells.map (·.pending) = V.sells.map (·.pending) := by
  let g : Limiter → Limiter := fun l => Limiter.decode l.uid (Limiter.encode l.compactOrderMap)
  have hload : ∀ l ∈ V.buys ++ V.sells, Limiter.load l.uid (V.save rw).2 = .ok (g l) := fun l hl =>
    Limiter.load_of_get (by
      rw [Looper.save_snd, Store.set_other _ _ (hkey l hl), Looper.saveAll_mem hkeys hl])
  have hsides := Looper.check_sides hcheck
  have hlim := Looper.loadLimiters_split
    (fun b hb => ⟨hload b (List.mem_append_left _ hb), (congrArg Point.side (hbuy b hb)).trans hsides.1⟩)
    (fun s hs => ⟨hload s (List.mem_append_right _ hs), (congrArg Point.side (hsell s hs)).trans hsides.2⟩)
  have hpending : ∀ ls : List Limiter, (ls.map g).map (·.pending) = ls.map (·.pending) := fun ls => by
    rw [List.map_map]
    exact List.map_congr_left fun l _ =>
      (Limiter.pending_decode_encode _ _).trans (Limiter.pending_compactOrderMap l)
  refine ⟨{ V with buys := V.buys.map g, sells := V.sells.map g }, ?_, rfl, rfl, rfl, rfl,
    by rw [List.map_map]; rfl, hpending _, by rw [List.map_map]; rfl, hpending _⟩
  have hstate : Looper.getLooperState (V.save rw).2 V.key =
      .ok ⟨V.productID, V.buys.map (·.uid) ++ V.sells.map (·.uid), V.buyPoint, V.sellPoint⟩ := by
    simp only [Looper.getLooperState, Looper.save_snd, Store.set_same]
  simp only [Looper.load, hstate, hlim]
  split
  · rename_i he
    cases he.symm.trans hcheck
  · rfl

/-- A limiter of product `P` under `uid` at `point`, holding `orders`. -/
def limiterAt (uid : String) (point : Point) (orders : GoMap OrderID Order) : Limiter :=
  { productID := "P", exchangeName := "", uid, point, idgen := ⟨uid, 0⟩, clientServerMap := ∅,
    orderMap := orders }

/-- One order, done after filling 1. -/
def filledOnce : GoMap OrderID Order :=
  (∅ : GoMap OrderID Order).insert "A" { Limiter.newOrder "A" "c" "BUY" with filledSize := 1, done := true }

/-- `looper₀` after one round: a filled buy and a sell. -/
def pairLooper : Looper :=
  { looper₀ with
    buys := [limiterAt "/l/buy-000000" ⟨1, 95, 100⟩ filledOnce]
    sells := [limiterAt "/l/sell-000000" ⟨1, 105, 100⟩ ∅] }

theorem looper_save_load_pair :
    pairLooper.check = .ok () ∧ (∀ b ∈ pairLooper.buys, b.point = pairLooper.buyPoint) ∧
      (∀ s ∈ pairLooper.sells, s.point = pairLooper.sellPoint) ∧
      ((pairLooper.buys ++ pairLooper.sells).map fun l => Limiter.key l.uid).Nodup ∧
      (∀ l ∈ pairLooper.buys ++ pairLooper.sells, Limiter.key l.uid ≠ pairLooper.key) ∧
      ∃ W, Looper.load pairLooper.key (pairLooper.save Store.empty).2 = .ok W ∧ W.key = pairLooper.key ∧
        W.productID = pairLooper.productID ∧ W.buyPoint = pairLooper.buyPoint ∧
        W.sellPoint = pairLooper.sellPoint ∧ W.buys.map (·.uid) = pairLooper.buys.map (·.uid) ∧
        W.buys.map (·.pending) = pairLooper.buys.map (·.pending) ∧
        W.sells.map (·.uid) = pairLooper.sells.map (·.uid) ∧
        W.sells.map (·.pending) = pairLooper.sells.map (·.pending) := by
  have hc : pairLooper.check = .ok () := by with_unfolding_all decide
  have hb : ∀ b ∈ pairLooper.buys, b.point = pairLooper.buyPoint := by decide
  have hs : ∀ s ∈ pairLooper.sells, s.point = pairLooper.sellPoint := by decide
  have hn : ((pairLooper.buys ++ pairLooper.sells).map fun l => Limiter.key l.uid).Nodup := by
    with_unfolding_all decide
  have hk : ∀ l ∈ pairLooper.buys ++ pairLooper.sells, Limiter.key l.uid ≠ pairLooper.key := by
    with_unfolding_all decide
  exact ⟨hc, hb, hs, hn, hk, looper_save_load hc hb hs hn hk⟩

/-- `looper₀` with two buys under one uid, the first filled and the second not. -/
def twinLooper : Looper :=
  { looper₀ with buys := [limiterAt "/l/b" ⟨1, 95, 100⟩ filledOnce, limiterAt "/l/b" ⟨1, 95, 100⟩ ∅] }

/-- Two buys under one uid share a record: the second's, which `Load` reads twice. -/
theorem looper_save_load_twin :
    twinLooper.check = .ok () ∧ (∀ b ∈ twinLooper.buys, b.point = twinLooper.buyPoint) ∧
      (∀ s ∈ twinLooper.sells, s.point = twinLooper.sellPoint) ∧
      twinLooper.buys.map (·.pending) = [0, 1] ∧
      (Looper.load twinLooper.key (twinLooper.save Store.empty).2).map (fun W => W.buys.map (·.pending)) =
        .ok [1, 1] := by
  with_unfolding_all decide

end Tradebot
