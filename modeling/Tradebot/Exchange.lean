import Tradebot.Basic

/-! The exchange, as far as one limiter can tell.

The limiter talks to `exchange.Product`: `ProductID()` and `BaseMinSize()` (the
`Product` record here), `LimitBuy`/`LimitSell`, `Cancel`, `Get`, and the
order-update stream. Behind those calls the exchange keeps a `Book` of the orders
this limiter placed: the size each was placed with, what has filled, and whether it
is still live. A successful create adds one live order (`Book.place`), a successful
Cancel and the exchange's own finishing of an order make it not live
(`Book.close`), and only a live order fills, never past its size (`Book.canFill`).

What the exchange reports is constrained separately, by a feed `Book → Order →
Bool` saying which reports it may send in a given book. `truthful` is the
single-live-order model's rule: a report says done only of an order that is no
longer live. `exact` adds that reports carry the order's cumulative fill. -/
namespace Tradebot

/-- What the limiter reads of `exchange.Product` besides its calls. -/
structure Product where
  productID : String
  baseMinSize : ℚ
deriving DecidableEq, Repr

/-- One order as the exchange holds it. -/
structure Placed where
  side : String
  size : ℚ
  filled : ℚ
  live : Bool
deriving DecidableEq, Repr

/-- The most one order can fill up to. -/
def Placed.reach (p : Placed) : ℚ := if p.live then max p.size p.filled else p.filled

theorem Placed.filled_le_reach (p : Placed) : p.filled ≤ p.reach := by
  unfold reach
  split
  · exact le_max_right _ _
  · exact le_rfl

/-- The orders this limiter placed, by exchange order id. -/
abbrev Book := GoMap OrderID Placed

namespace Book

def isLive (b : Book) (id : OrderID) : Bool :=
  ((b.lookup id).map (·.live)).getD false

/-- A successful `LimitBuy`/`LimitSell` under the id the exchange chose. -/
def place (b : Book) (id : OrderID) (side : String) (size : ℚ) : Book :=
  b.insert id ⟨side, size, 0, true⟩

/-- The order stops being live: a successful Cancel, or the exchange finishing it. -/
def close (b : Book) (id : OrderID) : Book :=
  match b.lookup id with
  | some p => b.insert id { p with live := false }
  | none => b

/-- A fill the exchange can make: of a live order, and within the size it was placed with. -/
def canFill (b : Book) (id : OrderID) (q : ℚ) : Bool :=
  match b.lookup id with
  | some p => p.live && 0 < q && p.filled + q ≤ p.size
  | none => false

def fill (b : Book) (id : OrderID) (q : ℚ) : Book :=
  match b.lookup id with
  | some p => b.insert id { p with filled := p.filled + q }
  | none => b

/-- The size filled over all orders this limiter placed. -/
def totalFilled (b : Book) : ℚ := GoMap.total (·.filled) b

/-- The most the orders can still fill up to: each live order its placed size (or what
it filled, were that more), each other order what it filled. -/
def committed (b : Book) : ℚ := GoMap.total Placed.reach b

theorem isLive_iff {b : Book} {id : OrderID} : b.isLive id = true ↔ ∃ p, b.lookup id = some p ∧ p.live = true := by
  unfold isLive
  cases b.lookup id <;> simp

@[simp] theorem isLive_place (b : Book) (id k : OrderID) (side : String) (size : ℚ) :
    (b.place id side size).isLive k = (k == id || b.isLive k) := by
  by_cases h : k = id
  · subst h
    simp [isLive, place, AList.lookup_insert]
  · simp [isLive, place, AList.lookup_insert_ne h, h]

@[simp] theorem isLive_close (b : Book) (id k : OrderID) :
    (b.close id).isLive k = (k != id && b.isLive k) := by
  unfold close
  split
  · by_cases h : k = id
    · subst h
      simp [isLive, AList.lookup_insert]
    · simp [isLive, AList.lookup_insert_ne h, h]
  · rename_i hn
    by_cases h : k = id
    · subst h
      simp [isLive, hn]
    · simp [h]

@[simp] theorem isLive_fill (b : Book) (id k : OrderID) (q : ℚ) : (b.fill id q).isLive k = b.isLive k := by
  unfold fill
  split
  · rename_i p hp
    by_cases h : k = id
    · subst h
      simp [isLive, AList.lookup_insert, hp]
    · simp [isLive, AList.lookup_insert_ne h]
  · rfl

theorem mem_close {b : Book} {id k : OrderID} : k ∈ b.close id ↔ k ∈ b := by
  unfold close
  split
  · rename_i p hp
    rw [AList.mem_insert]
    exact ⟨fun h => h.elim (fun h => h ▸ AList.lookup_isSome.mp (by rw [hp]; rfl)) (fun h => h), .inr⟩
  · exact Iff.rfl

/-! ### What the orders filled and can fill -/

theorem totalFilled_le_committed (b : Book) : b.totalFilled ≤ b.committed :=
  GoMap.total_le b fun _ p _ => p.filled_le_reach

/-- With no live order, what the orders can fill is what they filled. -/
theorem committed_eq_totalFilled {b : Book} (h : ∀ k, b.isLive k = false) :
    b.committed = b.totalFilled :=
  GoMap.total_congr b fun k p hp => by
    have : p.live = false := by simpa [isLive, hp] using h k
    simp [Placed.reach, this]

theorem committed_place {b : Book} {id : OrderID} (h : id ∉ b) (side : String) (size : ℚ) :
    (b.place id side size).committed = max size 0 + b.committed := by
  simp [committed, place, GoMap.total_insert_of_not_mem _ h, Placed.reach]

theorem totalFilled_close (b : Book) (id : OrderID) : (b.close id).totalFilled = b.totalFilled := by
  unfold close
  split
  · rename_i p hp
    simp [totalFilled, GoMap.total_insert_of_lookup _ hp]
  · rfl

theorem committed_close (b : Book) (id : OrderID) : (b.close id).committed ≤ b.committed := by
  unfold close
  split
  · rename_i p hp
    have hr : ({ p with live := false } : Placed).reach ≤ p.reach := by
      simpa [Placed.reach] using p.filled_le_reach
    simp only [committed, GoMap.total_insert_of_lookup _ hp]
    linarith
  · exact le_rfl

theorem committed_fill {b : Book} {id : OrderID} {q : ℚ} (h : b.canFill id q = true) :
    (b.fill id q).committed = b.committed := by
  unfold canFill at h
  unfold fill
  split at h
  · rename_i p hp
    simp only [Bool.and_eq_true, decide_eq_true_eq] at h
    obtain ⟨⟨hl, hq⟩, hle⟩ := h
    have hr : ({ p with filled := p.filled + q } : Placed).reach = p.reach := by
      simp only [Placed.reach, hl, if_true]
      rw [max_eq_left hle, max_eq_left (by linarith)]
    simp only [committed, GoMap.total_insert_of_lookup _ hp, hr]
    ring
  · cases h

theorem mem_of_isLive {b : Book} {id : OrderID} (h : b.isLive id = true) : id ∈ b := by
  obtain ⟨p, hp, -⟩ := isLive_iff.mp h
  exact AList.lookup_isSome.mp (by rw [hp]; rfl)

end Book

/-! ### What the exchange may report -/

/-- A report says done only of an order that is no longer live. -/
def truthful (b : Book) (o : Order) : Bool :=
  !o.done || !b.isLive o.orderID

/-- A truthful report that also carries the order's cumulative fill. -/
def exact (b : Book) (o : Order) : Bool :=
  truthful b o && ((b.lookup o.orderID).map fun p => decide (o.filledSize = p.filled)).getD true

theorem not_isLive_of_truthful {b : Book} {o : Order} (h : truthful b o = true) (hd : o.done = true) :
    b.isLive o.orderID = false := by
  simpa [truthful, hd] using h

end Tradebot
