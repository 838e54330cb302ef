import Mathlib.Data.List.AList
import Mathlib.Algebra.Order.Ring.Rat
import Mathlib.Algebra.BigOperators.Group.List
import Mathlib.Algebra.Order.BigOperators.Group.List
import Mathlib.Tactic.Ring
import Mathlib.Tactic.Linarith
import Mathlib.Data.UInt

/-! The values every part of the trading engine passes around.

Sizes, prices and fees are `shopspring/decimal` values in the source: arbitrary
precision, exact under addition and subtraction, which is all the core does with
them. They are rationals here. Times are nanoseconds.

A Go `map[K]V` is a `GoMap`: an association list with unique keys whose order
carries no meaning. The three loops the limiter runs over its maps — a sum
(`GoMap.total`), a delete-while-ranging (`GoMap.filter`) and a copy into another
record type (`GoMap.mapVal`) — get their lookup and sum lemmas here, so that no later
proof looks inside the list.

`Point` and `Generator` stand for the `point` and `idgen` packages, which are not in
the sources; both are modelled from the spec's data model. -/
namespace Tradebot

instance instDecidableEqExcept {ε α : Type} [DecidableEq ε] [DecidableEq α] : DecidableEq (Except ε α)
  | .error a, .error b => if h : a = b then .isTrue (h ▸ rfl) else .isFalse fun e => h (Except.error.inj e)
  | .ok a, .ok b => if h : a = b then .isTrue (h ▸ rfl) else .isFalse fun e => h (Except.ok.inj e)
  | .error _, .ok _ => .isFalse fun e => Except.noConfusion e
  | .ok _, .error _ => .isFalse fun e => Except.noConfusion e

/-- Go's `map[K]V`. -/
abbrev GoMap (K V : Type) [DecidableEq K] := AList (fun _ : K => V)

namespace GoMap

@[simp] theorem mem_singleton {K V : Type} {k a : K} {v : V} :
    k ∈ AList.singleton (β := fun _ : K => V) a v ↔ k = a := by
  rw [AList.mem_keys, AList.keys_singleton, List.mem_singleton]

variable {K V W : Type} [DecidableEq K]

/-- `for k, v := range m { if !p(k, v) { delete(m, k) } }`. -/
def filter (p : K → V → Bool) (m : GoMap K V) : GoMap K V :=
  ⟨m.entries.filter (fun e => p e.1 e.2), m.nodupKeys.sublist (List.filter_sublist _)⟩

/-- `for k, v := range m { out[k] = f(k, v) }` into a fresh map. -/
def mapVal (f : K → V → W) (m : GoMap K V) : GoMap K W :=
  ⟨m.entries.map (fun e => ⟨e.1, f e.1 e.2⟩), by
    show (List.map Sigma.fst _).Nodup
    simpa [List.map_map, Function.comp_def] using m.nodupKeys⟩

/-- `for _, v := range m { sum = sum.Add(f(v)) }`. -/
def total (f : V → ℚ) (m : GoMap K V) : ℚ :=
  (m.entries.map fun e => f e.2).sum

@[simp] theorem lookup_filter (p : K → V → Bool) (m : GoMap K V) (k : K) :
    (filter p m).lookup k = (m.lookup k).filter (p k) :=
  Option.ext fun b => by
    rw [Option.mem_filter_iff, AList.mem_lookup_iff, AList.mem_lookup_iff]
    exact List.mem_filter

@[simp] theorem lookup_mapVal (f : K → V → W) (m : GoMap K V) (k : K) :
    (mapVal f m).lookup k = (m.lookup k).map (f k) :=
  List.dlookup_map₂ k

/-- Filtering twice by the same test is filtering once. -/
theorem filter_filter_self (p : K → V → Bool) (m : GoMap K V) : filter p (filter p m) = filter p m :=
  AList.ext (by simp only [filter, List.filter_filter, Bool.and_self])

theorem mem_filter {p : K → V → Bool} {m : GoMap K V} {k : K} (h : k ∈ filter p m) : k ∈ m := by
  rw [← AList.lookup_isSome, lookup_filter] at h
  exact AList.lookup_isSome.mp (Option.isSome_filter_of_isSome _ _ h)

@[simp] theorem mem_mapVal {f : K → V → W} {m : GoMap K V} {k : K} : k ∈ mapVal f m ↔ k ∈ m := by
  rw [← AList.lookup_isSome, ← AList.lookup_isSome, lookup_mapVal]
  cases m.lookup k <;> rfl

theorem mapVal_mapVal {X : Type} (f : K → V → W) (g : K → W → X) (m : GoMap K V) :
    mapVal g (mapVal f m) = mapVal (fun k v => g k (f k v)) m :=
  AList.ext (by simp [mapVal, Function.comp_def])

theorem mapVal_id (m : GoMap K V) : mapVal (fun _ v => v) m = m :=
  AList.ext (by simp [mapVal])

theorem erase_entries (k : K) (m : GoMap K V) : (m.erase k).entries = m.entries.kerase k := rfl

@[simp] theorem total_empty (f : V → ℚ) : total f (∅ : GoMap K V) = 0 := rfl

theorem total_mapVal (f : W → ℚ) (g : V → W) (m : GoMap K V) :
    total f (mapVal (fun _ v => g v) m) = total (fun v => f (g v)) m := by
  simp only [total, mapVal, List.map_map, Function.comp_def]

theorem total_insert (f : V → ℚ) (m : GoMap K V) (k : K) (v : V) :
    total f (m.insert k v) = f v + total f (m.erase k) := by
  simp [total, AList.insert_entries, erase_entries]

/-- The entry at `k` and the rest of the map. -/
theorem total_of_lookup (f : V → ℚ) {m : GoMap K V} {k : K} {v : V} (h : m.lookup k = some v) :
    total f m = f v + total f (m.erase k) := by
  obtain ⟨b, l₁, l₂, -, he, hk⟩ :=
    List.exists_of_kerase (AList.mem_keys.mp (AList.lookup_isSome.mp (by rw [h]; rfl)))
  have hb : (b : V) = v := by
    have := AList.mem_lookup_iff.mpr (show Sigma.mk k b ∈ m.entries by rw [he]; simp)
    rw [h] at this
    exact (Option.some_inj.mp this).symm
  subst hb
  simp only [total, erase_entries]
  rw [hk, he]
  simp only [List.map_append, List.map_cons, List.sum_append, List.sum_cons]
  ring

/-- Storing at a present key trades the old value's term for the new one's. -/
theorem total_insert_of_lookup (f : V → ℚ) {m : GoMap K V} {k : K} {v : V} (h : m.lookup k = some v)
    (w : V) : total f (m.insert k w) = total f m - f v + f w := by
  rw [total_insert, total_of_lookup f h]
  ring

theorem total_insert_of_not_mem (f : V → ℚ) {m : GoMap K V} {k : K} (h : k ∉ m) (w : V) :
    total f (m.insert k w) = f w + total f m := by
  rw [total_insert]
  simp only [total, erase_entries, List.kerase_of_not_mem_keys (show k ∉ m.entries.keys from h)]

/-- A sum bounded term by term. -/
theorem total_le {f g : V → ℚ} (m : GoMap K V) (h : ∀ k v, m.lookup k = some v → f v ≤ g v) :
    total f m ≤ total g m :=
  List.sum_le_sum fun e he => h e.1 e.2 (AList.mem_lookup_iff.mpr he)

theorem total_congr {f g : V → ℚ} (m : GoMap K V) (h : ∀ k v, m.lookup k = some v → f v = g v) :
    total f m = total g m :=
  le_antisymm (total_le m fun k v hv => (h k v hv).le) (total_le m fun k v hv => (h k v hv).ge)

/-- Deleting only entries that count zero leaves the sum. -/
theorem total_filter (f : V → ℚ) (p : K → V → Bool) (m : GoMap K V)
    (h : ∀ k v, m.lookup k = some v → p k v = false → f v = 0) : total f (filter p m) = total f m := by
  obtain ⟨l, nd⟩ := m
  simp only [total, filter]
  induction l with
  | nil => rfl
  | cons e l ih =>
    obtain ⟨a, b⟩ := e
    have he : ∀ k v, l.dlookup k = some v → p k v = false → f v = 0 := fun k v hk =>
      h k v (by
        rw [AList.lookup, List.dlookup_cons_ne]
        · exact hk
        · rintro rfl
          exact List.not_mem_keys_of_nodupKeys_cons nd (List.dlookup_isSome.mp (by rw [hk]; rfl)))
    have ih := ih (List.nodupKeys_of_nodupKeys_cons nd) he
    by_cases hp : p a b
    · simp [List.filter_cons, hp, ih]
    · have h0 := h a b (List.dlookup_cons_eq l a b) (by simpa using hp)
      simp [List.filter_cons, hp, ih, h0]

end GoMap

/-! ### Points and client order ids -/

/-- `point.Point`: the size to trade, the limit price, and the ticker price past which
the order is withdrawn. -/
structure Point where
  size : ℚ
  price : ℚ
  cancel : ℚ
deriving DecidableEq, Repr

namespace Point

/-- Modelled from the spec: `point.Point.Side`. A point buys when its cancel price is
above its price and sells when it is below; the spec gives no side to the rest. -/
def side (p : Point) : String :=
  if p.price < p.cancel then "BUY" else if p.cancel < p.price then "SELL" else ""

/-- Modelled from the spec: `point.Point.Check`. Size, price and cancel price are
positive and the price is not the cancel price; the spec names no error text. -/
def check (p : Point) : Except String Unit :=
  if 0 < p.size ∧ 0 < p.price ∧ 0 < p.cancel ∧ p.price ≠ p.cancel then .ok ()
  else .error "invalid point"

end Point

/-- Modelled from the spec: the client order id `idgen` derives from `(seed, offset)`.
The spec says only that it is a UUID computed from the pair; the pair's text stands
for it here. -/
def uuid (seed : String) (offset : UInt64) : String :=
  seed ++ "/" ++ toString offset

/-- Modelled from the spec: `idgen.Generator`, a `(seed, offset)` counter whose offset
is a `u64`. -/
structure Generator where
  seed : String
  offset : UInt64
deriving DecidableEq, Repr

namespace Generator

/-- `NextID`: the id for the current offset; the offset moves past it. -/
def nextID (g : Generator) : String × Generator :=
  (uuid g.seed g.offset, { g with offset := g.offset + 1 })

/-- `RevertID`: give back the last id handed out. -/
def revertID (g : Generator) : Generator :=
  { g with offset := g.offset - 1 }

@[simp] theorem nextID_seed (g : Generator) : g.nextID.2.seed = g.seed := rfl
@[simp] theorem nextID_offset (g : Generator) : g.nextID.2.offset = g.offset + 1 := rfl
@[simp] theorem revertID_nextID (g : Generator) : g.nextID.2.revertID = g := by
  simp only [nextID, revertID, add_sub_cancel_right]

end Generator

/-! ### Orders -/

/-- `exchange.OrderID`. The empty id is the source's "no order". -/
abbrev OrderID := String

/-- `exchange.Order`, as the exchange reports it on `Get` and on the order-update stream. -/
structure Order where
  orderID : OrderID
  clientOrderID : String
  side : String
  status : String
  createTime : Int
  finishTime : Int
  fee : ℚ
  filledSize : ℚ
  filledPrice : ℚ
  done : Bool
  doneReason : String
deriving DecidableEq, Repr

end Tradebot
