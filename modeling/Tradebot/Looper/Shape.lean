import Tradebot.Looper.Run

/-! What `Run` keeps of each limiter of a looper.

`addNew` creates the `n`-th limiter of a side at that side's point under the uid of
index `n`; compaction and a limiter's own runs change neither its point nor its uid
(`kept_point`, `kept_uid`), and a rollback drops the limiter it added. So along every
run from `New`, the looper passes `check`, each limiter sits at its side's point, and
the `i`-th limiter of a side has the uid of index `i` (`shaped_of_reachable`). These
are the conditions on points of the save-and-load round trip, and the uids it files
the limiters under. -/
namespace Tradebot

namespace Looper

/-- All of a limiter the shape of a looper looks at: its point and its uid. -/
def ident (l : Limiter) : Point × String := (l.point, l.uid)

/-- One side's limiters: each at the side's point, the `i`-th under the uid of index `i`. -/
def SideShaped (v : Looper) (buy : Bool) : Prop :=
  (∀ l ∈ v.side buy, l.point = if buy then v.buyPoint else v.sellPoint) ∧
    (v.side buy).map (·.uid) =
      (List.range (v.side buy).length).map (limiterUID v.key (if buy then "buy" else "sell"))

/-- A looper as `Run` keeps it. -/
structure Shaped (v : Looper) : Prop where
  check : v.check = .ok ()
  side : ∀ buy, v.SideShaped buy

section Lemmas

variable {v v' : Looper} {buy : Bool}

theorem map_uid_eq {ls ls' : List Limiter} (h : ls'.map ident = ls.map ident) :
    ls'.map (·.uid) = ls.map (·.uid) := by
  have := congrArg (List.map Prod.snd) h
  simpa only [List.map_map] using this

/-- A side with the same points and uids, under the same key and points, is shaped
like the old one. -/
theorem SideShaped.of_ident (h : v.SideShaped buy) (hk : v'.key = v.key)
    (hp : (if buy then v'.buyPoint else v'.sellPoint) = if buy then v.buyPoint else v.sellPoint)
    (hi : (v'.side buy).map ident = (v.side buy).map ident) : v'.SideShaped buy := by
  have hlen : (v'.side buy).length = (v.side buy).length := by
    simpa only [List.length_map] using congrArg List.length hi
  refine ⟨fun l hl => ?_, by rw [map_uid_eq hi, h.2, hlen, hk]⟩
  obtain ⟨l₀, hl₀, he⟩ := List.mem_map.mp (hi ▸ List.mem_map_of_mem ident hl)
  rw [hp, ← h.1 l₀ hl₀]
  exact (congrArg Prod.fst he).symm

/-- A side that gains, after the same points and uids, a limiter at the side's point
under the uid of the next index is shaped. -/
theorem SideShaped.push {l : Limiter} (h : v.SideShaped buy) (hk : v'.key = v.key)
    (hp : (if buy then v'.buyPoint else v'.sellPoint) = if buy then v.buyPoint else v.sellPoint)
    (hi : (v'.side buy).map ident = (v.side buy).map ident ++ [ident l])
    (hl : l.point = if buy then v.buyPoint else v.sellPoint)
    (hu : l.uid = limiterUID v.key (if buy then "buy" else "sell") (v.side buy).length) :
    v'.SideShaped buy := by
  have hi' : (v'.side buy).map ident = (v.side buy ++ [l]).map ident := by
    rw [hi, List.map_append, List.map_singleton]
  have hlen : (v'.side buy).length = (v.side buy).length + 1 := by
    simpa only [List.length_map, List.length_append, List.length_singleton] using congrArg List.length hi'
  refine ⟨fun l' hl' => ?_, ?_⟩
  · obtain ⟨l₀, hl₀, he⟩ := List.mem_map.mp (hi' ▸ List.mem_map_of_mem ident hl')
    have hpt : l'.point = l₀.point := (congrArg Prod.fst he).symm
    rw [hpt, hp]
    rcases List.mem_append.mp hl₀ with hl₀ | hl₀
    · exact h.1 l₀ hl₀
    · rw [List.mem_singleton.mp hl₀]
      exact hl
  · rw [map_uid_eq hi', List.map_append, h.2, hlen, List.range_succ, List.map_append, hk, List.map_singleton,
      List.map_singleton, hu]

/-- Compaction keeps what the shape looks at. -/
theorem ident_map_compact (ls : List Limiter) : (ls.map Limiter.compactOrderMap).map ident = ls.map ident := by
  rw [List.map_map]
  rfl

/-- Adding a limiter keeps a looper shaped. -/
theorem Shaped.addNew {P : Product} {db : Except String Unit} {rw : Store} (h : v.Shaped) :
    (v.addNew P buy db rw).2.1.Shaped := by
  rcases addNew_cases P buy db rw v with he | ⟨l, hn, he | he⟩ <;> rw [he]
  · exact h
  · exact ⟨h.check, fun b => (h.side b).of_ident rfl rfl (by rw [save_side, ident_map_compact])⟩
  · obtain ⟨hu, hp⟩ := Limiter.new_ok hn
    have hk : ((v.setSide buy (v.side buy ++ [l])).save rw).1.key = v.key := by cases buy <;> rfl
    have hpt : ∀ b : Bool, (if b then ((v.setSide buy (v.side buy ++ [l])).save rw).1.buyPoint
        else ((v.setSide buy (v.side buy ++ [l])).save rw).1.sellPoint) =
        if b then v.buyPoint else v.sellPoint := fun b => by cases buy <;> rfl
    refine ⟨by cases buy <;> exact h.check, fun b => ?_⟩
    rcases Bool.eq_or_eq_not b buy with rfl | rfl
    · refine (h.side b).push hk (hpt b) ?_ hp hu
      rw [save_side, side_setSide, ident_map_compact, List.map_append, List.map_singleton]
    · refine (h.side (!buy)).of_ident hk (hpt _) ?_
      rw [save_side, side_not_setSide, ident_map_compact]

/-- A limiter's run keeps its point and its uid. -/
theorem LimiterRun.ident {P : Product} {l w : Limiter} {rw rw' : Store} (h : LimiterRun P l rw w rw') :
    ident w = ident l := by
  obtain ⟨F, s₀, s, rfl, -, -, hr, -, rfl, -⟩ := h
  exact Prod.ext (kept_point.reachable hr) (kept_uid.reachable hr)

/-- Replacing the last limiter of a side by one with its point and uid. -/
theorem ident_replace_last {ls : List Limiter} {l w : Limiter} (hl : ls.getLast? = some l)
    (hw : ident w = ident l) : (ls.dropLast ++ [w]).map ident = ls.map ident := by
  conv_rhs => rw [← List.dropLast_append_getLast? l hl]
  rw [List.map_append, List.map_append, List.map_singleton, List.map_singleton, hw]

theorem shaped_step {P : Product} {s s' : Looper × Store} (h : s.1.Shaped) (hs : Step P s s') : s'.1.Shaped := by
  cases hs with
  | @addBuy v rw wait db _ =>
    have h : v.Shaped := h
    unfold addNewBuy
    split
    · exact h
    · exact h.addNew
  | @addSell v rw db _ =>
    have h : v.Shaped := h
    unfold addNewSell
    exact h.addNew
  | runBuy _ hl hrun =>
    exact ⟨h.check, fun b => by
      cases b
      · exact h.side false
      · exact (h.side true).of_ident rfl rfl (ident_replace_last hl hrun.ident)⟩
  | runSell _ hl hrun =>
    exact ⟨h.check, fun b => by
      cases b
      · exact (h.side false).of_ident rfl rfl (ident_replace_last hl hrun.ident)
      · exact h.side true⟩

theorem shaped_new {uid productID : String} {buy sell : Point} (h : new uid productID buy sell = .ok v) :
    v.Shaped := by
  simp only [new] at h
  split at h <;> cases h
  rename_i hc
  exact ⟨hc, fun b => by cases b <;> exact ⟨fun l hl => absurd hl (List.not_mem_nil l), rfl⟩⟩

/-- The buys of a shaped looper are at its buy point. -/
theorem Shaped.buys_at (h : v.Shaped) : ∀ b ∈ v.buys, b.point = v.buyPoint := (h.side true).1

/-- The sells of a shaped looper are at its sell point. -/
theorem Shaped.sells_at (h : v.Shaped) : ∀ s ∈ v.sells, s.point = v.sellPoint := (h.side false).1

end Lemmas

/-- **Every limiter keeps its place.** Every looper that passes of `Run` reach from
`New`, whatever the world answers, passes `check`, has each buy at the buy point and
each sell at the sell point, and has the `i`-th limiter of each side under the uid of
index `i`. -/
theorem shaped_of_reachable {P : Product} {uid productID : String} {buy sell : Point} {V₀ : Looper}
    {rw₀ : Store} {s : Looper × Store} (hnew : new uid productID buy sell = .ok V₀)
    (hr : Reachable P (V₀, rw₀) s) : s.1.Shaped := by
  induction hr with
  | refl => exact shaped_new hnew
  | step _ hs ih => exact shaped_step ih hs

/-- `looper₀` after its first pass, which adds the first buy and commits. -/
theorem shaped_of_reachable_first_buy : (looper₀.addNewBuy product₀ (.ok ()) (.ok ()) Store.empty).2.1.Shaped :=
  shaped_of_reachable new_looper₀ (.step .refl (.addBuy (.ok ()) (.ok ()) rfl))

end Looper

end Tradebot
