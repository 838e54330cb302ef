import Tradebot.Looper.Store
import Tradebot.Looper.Keys
import Tradebot.Limiter.Persist

/-! A looper after a crash.

`Run` writes the looper's record only in `addNew`'s transaction, which saves every
limiter and then the looper, and a limiter's run writes its own record under its own
key and nothing else (`writesAt_reachable`). No two limiters of a looper `Run` keeps
share a key, and none has the looper's (`Shaped.keyed`). So at every state `Run`
reaches from `New`, the store holds, once the looper has a limiter, the looper's
record with the uids of all its limiters, and under each limiter's key a record at
that limiter's point (`recorded_reachable`). A crash at any point between passes then
loses no limiter: `Load` gives back the looper with its key, product and points, and
each side's limiters under the same uids at the side's point (`looper_load_recovers`).
What `Load` cannot give back is what a run had not flushed (`reconcile_not_flushed`,
`cancel_failure_skips_save`): the orders are those of each limiter's last save.

Every pass keeps the looper's keys, its own and its limiters' (`Looper.keys`), and
writes under no other (`Looper.keys_step`): along every run, from any looper and store,
the only records that change are the looper's and its limiters'
(`looper_writes_own_keys`). -/
namespace Tradebot

namespace Looper

/-- The record `Save` writes under the looper's key. -/
def record (v : Looper) : LooperState :=
  ⟨v.productID, v.buys.map (·.uid) ++ v.sells.map (·.uid), v.buyPoint, v.sellPoint⟩

/-- All of a looper its records hold: its product, key and points, and the point and uid
of each limiter of each side. -/
def view (v : Looper) : String × String × Point × Point × List (Point × String) × List (Point × String) :=
  (v.productID, v.key, v.buyPoint, v.sellPoint, v.buys.map ident, v.sells.map ident)

/-- What the store holds for a looper: once the looper has a limiter, its record under
its key; and under each limiter's key, a limiter record at that limiter's point. -/
structure Recorded (v : Looper) (rw : Store) : Prop where
  looper : v.buys ++ v.sells ≠ [] → rw v.key = some (.looper v.record)
  limiters : ∀ l ∈ v.buys ++ v.sells, ∃ gv, rw (Limiter.key l.uid) = some (.limiter gv) ∧ gv.tradePoint = l.point

/-- No two limiters of a looper share a key, and none has the looper's. -/
structure Keyed (v : Looper) : Prop where
  ne : ∀ l ∈ v.buys ++ v.sells, Limiter.key l.uid ≠ v.key
  nodup : ((v.buys ++ v.sells).map fun l => Limiter.key l.uid).Nodup

section Lemmas

variable {v v' : Looper} {rw rw' : Store}

theorem view_eq (he : v'.view = v.view) :
    v'.key = v.key ∧ v'.record = v.record ∧ (v'.buys ++ v'.sells).map ident = (v.buys ++ v.sells).map ident := by
  simp only [view, Prod.mk.injEq] at he
  obtain ⟨hp, hk, hb, hs, hbi, hsi⟩ := he
  refine ⟨hk, ?_, by rw [List.map_append, List.map_append, hbi, hsi]⟩
  simp only [record, map_uid_eq hbi, map_uid_eq hsi, hp, hb, hs]

theorem mem_of_view (he : v'.view = v.view) {l' : Limiter} (hl : l' ∈ v'.buys ++ v'.sells) :
    ∃ l ∈ v.buys ++ v.sells, l.uid = l'.uid ∧ l.point = l'.point := by
  obtain ⟨l, hl, he⟩ := List.mem_map.mp ((view_eq he).2.2 ▸ List.mem_map_of_mem ident hl)
  exact ⟨l, hl, congrArg Prod.snd he, congrArg Prod.fst he⟩

theorem Recorded.of_view (h : Recorded v rw) (he : v'.view = v.view) : Recorded v' rw := by
  obtain ⟨hk, hr, hi⟩ := view_eq he
  refine ⟨fun hne => ?_, fun l' hl' => ?_⟩
  · rw [hk, hr]
    exact h.looper fun h0 => hne (List.map_eq_nil_iff.mp (hi.trans (by rw [h0]; rfl)))
  · obtain ⟨l, hl, hu, hp⟩ := mem_of_view he hl'
    rw [← hu, ← hp]
    exact h.limiters l hl

theorem Keyed.of_view (h : v.Keyed) (he : v'.view = v.view) : v'.Keyed := by
  have hu : (v'.buys ++ v'.sells).map (·.uid) = (v.buys ++ v.sells).map (·.uid) := map_uid_eq (view_eq he).2.2
  refine ⟨fun l' hl' => ?_, ?_⟩
  · obtain ⟨l, hl, hu, -⟩ := mem_of_view he hl'
    rw [← hu, (view_eq he).1]
    exact h.ne l hl
  · have := congrArg (List.map Limiter.key) hu
    simp only [List.map_map, Function.comp_def] at this
    rw [this]
    exact h.nodup

theorem view_save (v : Looper) (rw : Store) : (v.save rw).1.view = v.view := by
  simp only [view, save_buys, save_sells, ident_map_compact]
  rfl

theorem check_isAbs (h : v.check = .ok ()) : Path.isAbs v.key = true := by
  unfold check at h
  split at h
  · cases h
  · rename_i hk
    have := (not_or.mp hk).2
    simpa using this

/-- The keys of a shaped side are those of the uids of indices `0`, `1`, …. -/
theorem Shaped.keys_side (h : v.Shaped) (b : Bool) :
    (v.side b).map (fun l => Limiter.key l.uid) =
      (List.range (v.side b).length).map fun i => Limiter.key (limiterUID v.key (if b then "buy" else "sell") i) := by
  have := congrArg (List.map Limiter.key) (h.side b).2
  simpa only [List.map_map, Function.comp_def] using this

theorem Shaped.keyed (h : v.Shaped) : v.Keyed := by
  have hK := check_isAbs h.check
  have hsides : ∀ l ∈ v.buys ++ v.sells, ∃ b, l ∈ v.side b := fun l hl =>
    (List.mem_append.mp hl).elim (fun h => ⟨true, h⟩) fun h => ⟨false, h⟩
  refine ⟨fun l hl => ?_, ?_⟩
  · obtain ⟨b, hb⟩ := hsides l hl
    obtain ⟨i, -, hi⟩ := List.mem_map.mp ((h.side b).2 ▸ List.mem_map_of_mem Limiter.uid hb)
    rw [← hi]
    exact key_limiterUID_ne hK b i
  · rw [List.map_append, List.nodup_append]
    have hnd : ∀ b, ((v.side b).map fun l => Limiter.key l.uid).Nodup := fun b => by
      rw [h.keys_side b]
      exact (List.nodup_range _).map fun i j hij => (key_limiterUID_inj hK hij).2
    refine ⟨hnd true, hnd false, fun k hk hk' => ?_⟩
    rw [← side_true, h.keys_side] at hk
    rw [← side_false, h.keys_side] at hk'
    obtain ⟨i, -, rfl⟩ := List.mem_map.mp hk
    obtain ⟨j, -, hj⟩ := List.mem_map.mp hk'
    exact Bool.noConfusion (key_limiterUID_inj hK hj).1

/-- `addNew` ends with the looper and store as they were, with the looper saved but the
store as it was when the transaction fails, or with the looper and the new limiter
saved when it commits. -/
theorem addNew_store (P : Product) (buy : Bool) (db : Except String Unit) (rw : Store) (v : Looper) :
    (v.addNew P buy db rw).2 = (v, rw) ∨ (v.addNew P buy db rw).2 = ((v.save rw).1, rw) ∨
      ∃ l, Limiter.new (limiterUID v.key (if buy then "buy" else "sell") (v.side buy).length) ""
          P.productID (if buy then v.buyPoint else v.sellPoint) = .ok l ∧
        (v.addNew P buy db rw).2 = (v.setSide buy (v.side buy ++ [l])).save rw := by
  rcases hn : Limiter.new (limiterUID v.key (if buy then "buy" else "sell") (v.side buy).length) ""
      P.productID (if buy then v.buyPoint else v.sellPoint) with e | l
  · left
    simp only [addNew, hn]
  · simp only [addNew, hn]
    cases db with
    | ok u => exact .inr (.inr ⟨l, rfl, rfl⟩)
    | error e =>
      refine .inr (.inl ?_)
      cases buy <;> simp [save, saveAll_fst]

/-- A save that commits writes the looper's record and each limiter's. -/
theorem Recorded.save (h : (v.save rw).1.Keyed) : Recorded (v.save rw).1 (v.save rw).2 := by
  have hk := h.of_view (view_save v rw).symm
  refine ⟨fun _ => ?_, fun l' hl' => ?_⟩
  · rw [save_key, save_snd, Store.set_same]
    exact congrArg (some ∘ Record.looper) (view_eq (view_save v rw)).2.1.symm
  · simp only [save_buys, save_sells, ← List.map_append, List.mem_map] at hl'
    obtain ⟨l, hl, rfl⟩ := hl'
    refine ⟨Limiter.encode l.compactOrderMap, ?_, rfl⟩
    show (v.save rw).2 (Limiter.key l.uid) = _
    rw [save_snd, Store.set_other _ _ (hk.ne l hl), saveAll_mem hk.nodup hl]

/-- A limiter's run, which writes only under its own key, keeps the records of the
looper and of the other limiters. -/
theorem Recorded.run {b : Limiter} (h : Recorded v rw) (hk : v.Keyed) (hb : b ∈ v.buys ++ v.sells)
    (hw : Store.WritesAt (Limiter.key b.uid) b.point rw rw') : Recorded v rw' := by
  have hne : v.buys ++ v.sells ≠ [] := List.ne_nil_of_mem hb
  refine ⟨fun _ => ?_, fun l hl => ?_⟩
  · rcases hw v.key with e | ⟨e, -⟩
    · rw [e]
      exact h.looper hne
    · exact absurd e.symm (hk.ne b hb)
  · rcases hw (Limiter.key l.uid) with e | ⟨e, v'', hp, hd⟩
    · rw [e]
      exact h.limiters l hl
    · have hlb : l = b := List.inj_on_of_nodup_map hk.nodup hl hb e
      exact ⟨_, hd, by rw [hlb, ← hp]; rfl⟩

theorem recorded_addNew (P : Product) (buy : Bool) (db : Except String Unit) (hsh : v.Shaped)
    (h : Recorded v rw) : Recorded (v.addNew P buy db rw).2.1 (v.addNew P buy db rw).2.2 := by
  have hsh' : (v.addNew P buy db rw).2.1.Shaped := hsh.addNew
  rcases addNew_store P buy db rw v with he | he | ⟨l, -, he⟩ <;> rw [he] at hsh' ⊢
  · exact h
  · exact h.of_view (view_save v rw)
  · exact Recorded.save hsh'.keyed

/-- Running the last limiter of a side keeps what the records hold. -/
theorem Recorded.run_last {P : Product} {ls : List Limiter} {b w : Limiter} (h : Recorded v rw) (hsh : v.Shaped)
    (hls : ls = v.buys ∨ ls = v.sells) (hl : ls.getLast? = some b) (hrun : LimiterRun P b rw w rw') :
    Recorded v rw' := by
  have hb : b ∈ v.buys ++ v.sells := by
    rcases hls with rfl | rfl
    exacts [List.mem_append_left _ (List.mem_of_getLast?_eq_some hl),
      List.mem_append_right _ (List.mem_of_getLast?_eq_some hl)]
  obtain ⟨F, s₀, s, rfl, rfl, -, hr, -, rfl, rfl⟩ := hrun
  exact h.run hsh.keyed hb (writesAt_reachable hr)

/-- **Step lemma.** Every pass keeps the records of a looper as `Run` keeps it. -/
theorem recorded_step {P : Product} {s s' : Looper × Store} (hsh : s.1.Shaped) (h : Recorded s.1 s.2)
    (hs : Step P s s') : Recorded s'.1 s'.2 := by
  cases hs with
  | @addBuy v rw wait db _ =>
    unfold addNewBuy
    split
    · exact h
    · exact recorded_addNew P true db hsh h
  | @addSell v rw db _ =>
    unfold addNewSell
    exact recorded_addNew P false db hsh h
  | runBuy _ hl hrun =>
    refine (h.run_last hsh (.inl rfl) hl hrun).of_view ?_
    simp only [view, ident_replace_last hl hrun.ident]
  | runSell _ hl hrun =>
    refine (h.run_last hsh (.inr rfl) hl hrun).of_view ?_
    simp only [view, ident_replace_last hl hrun.ident]

theorem new_empty {uid productID : String} {buy sell : Point} (h : new uid productID buy sell = .ok v) :
    v.buys ++ v.sells = [] := by
  simp only [new] at h
  split at h <;> cases h
  rfl

/-- Along every run from `New`, the looper keeps its shape and the store its records. -/
theorem recorded_reachable {P : Product} {uid productID : String} {buy sell : Point} {V₀ : Looper} {rw₀ : Store}
    {s : Looper × Store} (hnew : new uid productID buy sell = .ok V₀) (hr : Reachable P (V₀, rw₀) s) :
    s.1.Shaped ∧ Recorded s.1 s.2 := by
  induction hr with
  | refl =>
    have he := new_empty hnew
    exact ⟨shaped_new hnew, fun hne => absurd he hne, fun l hl => absurd (he ▸ hl) (List.not_mem_nil l)⟩
  | step _ hs ih => exact ⟨shaped_step ih.1 hs, recorded_step ih.1 ih.2 hs⟩

/-! ### What `Run` writes -/

/-- The keys `Run` writes for a looper: its own, and each limiter's. -/
def keys (v : Looper) : List String := v.key :: (v.buys ++ v.sells).map fun l => Limiter.key l.uid

/-- Loopers with the same key, and limiters with the same points and uids, have the
same keys. -/
theorem keys_of_ident (hk : v'.key = v.key) (h : (v'.buys ++ v'.sells).map ident = (v.buys ++ v.sells).map ident) :
    v'.keys = v.keys := by
  have := congrArg (List.map Limiter.key) (map_uid_eq h)
  simp only [List.map_map, Function.comp_def] at this
  rw [keys, keys, hk, this]

theorem keys_save (v : Looper) (rw : Store) : (v.save rw).1.keys = v.keys :=
  keys_of_ident rfl (view_eq (view_save v rw)).2.2

theorem keys_subset_setSide (v : Looper) (b : Bool) (l : Limiter) : v.keys ⊆ (v.setSide b (v.side b ++ [l])).keys := by
  have h : (v.buys ++ v.sells).Sublist ((v.setSide b (v.side b ++ [l])).buys ++ (v.setSide b (v.side b ++ [l])).sells) := by
    cases b
    · exact (List.Sublist.refl _).append (List.sublist_append_left _ _)
    · exact (List.sublist_append_left _ _).append (List.Sublist.refl _)
  have hk : (v.setSide b (v.side b ++ [l])).key = v.key := by cases b <;> rfl
  rw [keys, keys, hk]
  exact ((h.map _).cons_cons _).subset

/-- A save writes only under the looper's keys. -/
theorem mem_keys_of_save {k : String} (h : (v.save rw).2 k ≠ rw k) : k ∈ v.keys := by
  by_cases hk : k = v.key
  · exact hk ▸ List.mem_cons_self _ _
  · refine List.mem_cons_of_mem _ (by_contra fun hm => h ?_)
    rw [save_snd, Store.set_other _ _ hk]
    exact saveAll_other fun l hl he => hm (List.mem_map.mpr ⟨l, hl, he⟩)

/-- Adding a limiter keeps the looper's keys, and writes only under those it ends with. -/
theorem keys_addNew (P : Product) (b : Bool) (db : Except String Unit) (rw : Store) (v : Looper) :
    v.keys ⊆ (v.addNew P b db rw).2.1.keys ∧
      ∀ k, (v.addNew P b db rw).2.2 k ≠ rw k → k ∈ (v.addNew P b db rw).2.1.keys := by
  rcases addNew_store P b db rw v with he | he | ⟨l, -, he⟩ <;> rw [he]
  · exact ⟨List.Subset.refl _, fun k h => absurd rfl h⟩
  · exact ⟨(keys_save v rw).symm ▸ List.Subset.refl _, fun k h => absurd rfl h⟩
  · rw [keys_save]
    exact ⟨keys_subset_setSide v b l, fun k h => mem_keys_of_save h⟩

/-- Running the last limiter of a side keeps the looper's keys, and writes only under
that limiter's. -/
theorem keys_run_last {P : Product} {ls : List Limiter} {b w : Limiter} (hls : ls = v.buys ∨ ls = v.sells)
    (hl : ls.getLast? = some b) (hrun : LimiterRun P b rw w rw') {k : String} (h : rw' k ≠ rw k) : k ∈ v.keys := by
  have hb : b ∈ v.buys ++ v.sells := by
    rcases hls with rfl | rfl
    exacts [List.mem_append_left _ (List.mem_of_getLast?_eq_some hl),
      List.mem_append_right _ (List.mem_of_getLast?_eq_some hl)]
  obtain ⟨F, s₀, s, rfl, rfl, -, hr, -, -, rfl⟩ := hrun
  rcases writesAt_reachable hr k with e | ⟨rfl, -⟩
  · exact absurd e h
  · exact List.mem_cons_of_mem _ (List.mem_map_of_mem _ hb)

/-- **Step lemma.** A pass keeps every key of the looper, and writes only under the keys
of the looper it ends with. -/
theorem keys_step {P : Product} {s s' : Looper × Store} (hs : Step P s s') :
    s.1.keys ⊆ s'.1.keys ∧ ∀ k, s'.2 k ≠ s.2 k → k ∈ s'.1.keys := by
  cases hs with
  | @addBuy v rw wait db _ =>
    unfold addNewBuy
    split
    · exact ⟨List.Subset.refl _, fun k h => absurd rfl h⟩
    · exact keys_addNew P true db rw v
  | @addSell v rw db _ =>
    unfold addNewSell
    exact keys_addNew P false db rw v
  | @runBuy v _ _ _ w _ hl hrun =>
    have he : keys { v with buys := v.buys.dropLast ++ [w] } = v.keys := keys_of_ident rfl (by
      rw [List.map_append ident (_ ++ [w]), ident_replace_last hl hrun.ident, List.map_append])
    rw [he]
    exact ⟨List.Subset.refl _, fun k h => keys_run_last (.inl rfl) hl hrun h⟩
  | @runSell v _ _ _ w _ hl hrun =>
    have he : keys { v with sells := v.sells.dropLast ++ [w] } = v.keys := keys_of_ident rfl (by
      rw [List.map_append ident v.buys, ident_replace_last hl hrun.ident, List.map_append])
    rw [he]
    exact ⟨List.Subset.refl _, fun k h => keys_run_last (.inr rfl) hl hrun h⟩

end Lemmas

end Looper

/-- **A looper survives a crash.** At every state that passes of `Run` reach from `New`,
whatever the waits, the transactions and the limiters' runs answer, once the looper
has a limiter, `Load` of its key from the store succeeds and gives back its key,
product and points, and on each side limiters with the same uids in the same order;
the loaded looper passes `check`, with each limiter at its side's point and under the
uid of its index. -/
theorem looper_load_recovers {P : Product} {uid productID : String} {buy sell : Point} {V₀ V : Looper}
    {rw₀ rw : Store} (hnew : Looper.new uid productID buy sell = .ok V₀)
    (hr : Looper.Reachable P (V₀, rw₀) (V, rw)) (hne : V.buys ++ V.sells ≠ []) :
    ∃ W, Looper.load V.key rw = .ok W ∧ W.key = V.key ∧ W.productID = V.productID ∧
      W.buyPoint = V.buyPoint ∧ W.sellPoint = V.sellPoint ∧ W.buys.map (·.uid) = V.buys.map (·.uid) ∧
      W.sells.map (·.uid) = V.sells.map (·.uid) ∧ W.Shaped := by
  obtain ⟨hsh, hrec⟩ : V.Shaped ∧ Looper.Recorded V rw := Looper.recorded_reachable hnew hr
  let g : Limiter → Limiter := fun l =>
    match rw (Limiter.key l.uid) with
    | some (.limiter gv) => Limiter.decode l.uid gv
    | _ => l
  have hg : ∀ l ∈ V.buys ++ V.sells, Limiter.load l.uid rw = .ok (g l) ∧ Looper.ident (g l) = Looper.ident l :=
    fun l hl => by
      obtain ⟨gv, hgv, hp⟩ := hrec.limiters l hl
      have hgl : g l = Limiter.decode l.uid gv := by simp only [g, hgv]
      rw [hgl]
      exact ⟨Limiter.load_of_get hgv, Prod.ext hp rfl⟩
  have hsides := Looper.check_sides hsh.check
  have hpt : ∀ l ∈ V.buys ++ V.sells, (g l).point = l.point := fun l hl => congrArg Prod.fst (hg l hl).2
  have hlim := Looper.loadLimiters_split (r := rw) (g := g)
    (fun b hb => ⟨(hg b (List.mem_append_left _ hb)).1,
      by rw [hpt b (List.mem_append_left _ hb), hsh.buys_at b hb, hsides.1]⟩)
    (fun s hs => ⟨(hg s (List.mem_append_right _ hs)).1,
      by rw [hpt s (List.mem_append_right _ hs), hsh.sells_at s hs, hsides.2]⟩)
  let W : Looper := { V with buys := V.buys.map g, sells := V.sells.map g }
  have hident : ∀ b, (W.side b).map Looper.ident = (V.side b).map Looper.ident := fun b => by
    cases b <;> simp only [Looper.side_true, Looper.side_false, W, List.map_map] <;>
      refine List.map_congr_left fun l hl => (hg l ?_).2
    exacts [List.mem_append_right _ hl, List.mem_append_left _ hl]
  have hload : Looper.load V.key rw = .ok W := by
    simp only [Looper.load, Looper.getLooperState, hrec.looper hne, Looper.record, hlim]
    split
    · rename_i he
      cases he.symm.trans hsh.check
    · rfl
  exact ⟨W, hload, rfl, rfl, rfl, rfl, Looper.map_uid_eq (hident true), Looper.map_uid_eq (hident false),
    hsh.check, fun b => (hsh.side b).of_ident rfl rfl (hident b)⟩

/-- `looper₀` after its first pass, which adds the first buy and commits. -/
def firstBuy : Looper × Store := (looper₀.addNewBuy product₀ (.ok ()) (.ok ()) Store.empty).2

theorem looper_load_recovers_firstBuy :
    firstBuy.1.buys ++ firstBuy.1.sells ≠ [] ∧
      ∃ W, Looper.load firstBuy.1.key firstBuy.2 = .ok W ∧ W.key = firstBuy.1.key ∧
        W.productID = firstBuy.1.productID ∧ W.buyPoint = firstBuy.1.buyPoint ∧
        W.sellPoint = firstBuy.1.sellPoint ∧ W.buys.map (·.uid) = firstBuy.1.buys.map (·.uid) ∧
        W.sells.map (·.uid) = firstBuy.1.sells.map (·.uid) ∧ W.Shaped :=
  have hlen : (firstBuy.1.buys ++ firstBuy.1.sells).length = 1 := by with_unfolding_all decide
  have hne : firstBuy.1.buys ++ firstBuy.1.sells ≠ [] := fun h => by simp [h] at hlen
  ⟨hne, looper_load_recovers new_looper₀ (.step .refl (.addBuy (.ok ()) (.ok ()) rfl)) hne⟩

/-- **A looper writes only its own records.** Along every run of passes of `Run`, from
any looper and store, whatever the waits, the transactions and the limiters' runs
answer, every key under which the store changed is the looper's key or the key of one
of its limiters. -/
theorem looper_writes_own_keys {P : Product} {V₀ V : Looper} {rw₀ rw : Store}
    (hr : Looper.Reachable P (V₀, rw₀) (V, rw)) (k : String) (hk : rw k ≠ rw₀ k) :
    k = V.key ∨ ∃ l ∈ V.buys ++ V.sells, Limiter.key l.uid = k := by
  have h : ∀ s, Looper.Reachable P (V₀, rw₀) s → ∀ k, s.2 k ≠ rw₀ k → k ∈ s.1.keys := by
    intro s hs
    induction hs with
    | refl => exact fun k h => absurd rfl h
    | @step s s' _ hs ih =>
      intro k hk
      obtain ⟨hsub, hw⟩ := Looper.keys_step hs
      by_cases hk' : s'.2 k = s.2 k
      · exact hsub (ih k (hk' ▸ hk))
      · exact hw k hk'
  simpa only [Looper.keys, List.mem_cons, List.mem_map] using h _ hr k hk

/-- The first pass of `looper₀` writes the looper's record under its key. -/
theorem looper_writes_own_keys_firstBuy :
    Looper.Reachable product₀ (looper₀, Store.empty) firstBuy ∧ firstBuy.2 "/l" ≠ Store.empty "/l" ∧
      ("/l" = firstBuy.1.key ∨ ∃ l ∈ firstBuy.1.buys ++ firstBuy.1.sells, Limiter.key l.uid = "/l") :=
  have hr : Looper.Reachable product₀ (looper₀, Store.empty) firstBuy := .step .refl (.addBuy (.ok ()) (.ok ()) rfl)
  have hs : (firstBuy.2 "/l").isSome = true := by with_unfolding_all decide
  have hk : firstBuy.2 "/l" ≠ Store.empty "/l" := fun h => by
    rw [h] at hs
    cases hs
  ⟨hr, hk, looper_writes_own_keys hr "/l" hk⟩

end Tradebot
