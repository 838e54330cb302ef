import Tradebot.Exchange

/-! The limiter's state and the operations `Run` is built from.

`Limiter` is `limiter.Limiter` with the fields its methods read and write. Each
method that touches it is a function here under the source's name: `new` and
`check`, `pending`, `compactOrderMap`, `updateOrderMap`, the limiter's side of
`create` (the client id it takes from `idgen`, the record it stores, the id it gives
back on failure), and `fetchOrderMap` with the exchange's answer to each `Get`.
The exchange's side of those calls is in `Limiter/Run.lean`.

`fetchOrderMap` ranges over `dupOrderMap()`, whose order Go leaves unspecified; it
takes the visiting order as a list of entries. Its lemmas say what a refresh can
leave at a key: the old entry, or the exchange's answer for a non-done order it
visited (`fetchOrderMap_lookup`), and after a run with no failed `Get`, the answer
for every non-done order (`fetchOrderMap_ok`). -/
namespace Tradebot

/-- `limiter.Limiter`. -/
structure Limiter where
  productID : String
  exchangeName : String
  uid : String
  point : Point
  idgen : Generator
  /-- Client order id to exchange order id. -/
  clientServerMap : GoMap String OrderID
  orderMap : GoMap OrderID Order

namespace Limiter

def check (v : Limiter) : Except String Unit :=
  if v.uid = "" then .error "limiter uid is empty"
  else match v.point.check with
    | .error e => .error ("limiter buy/sell point is invalid: " ++ e)
    | .ok () => .ok ()

/-- `New`: a limiter with no orders, whose client ids are seeded by its uid. -/
def new (uid exchangeName productID : String) (point : Point) : Except String Limiter :=
  let v : Limiter :=
    { productID, exchangeName, uid, point, idgen := ⟨uid, 0⟩, clientServerMap := ∅, orderMap := ∅ }
  match v.check with
  | .error e => .error e
  | .ok () => .ok v

/-- Modelled from the spec: `IsSell`, from the point's side. -/
def isSell (v : Limiter) : Bool := v.point.side = "SELL"

/-- Modelled from the spec: `IsBuy`, from the point's side. -/
def isBuy (v : Limiter) : Bool := v.point.side = "BUY"

def pending (v : Limiter) : ℚ :=
  v.point.size - GoMap.total (·.filledSize) v.orderMap

/-- Modelled from the spec: `PendingSize`, the point's size less what has filled. -/
def pendingSize (v : Limiter) : ℚ := v.pending

/-- Modelled from the spec: `isTickerSideReady`. A SELL waits for the ticker above its
cancel price, a BUY for the ticker below it. -/
def isTickerSideReady (v : Limiter) (price : ℚ) : Bool :=
  if v.isSell then v.point.cancel < price else if v.isBuy then price < v.point.cancel else false

/-- `limiter.Status`. -/
structure Status where
  uid : String
  productID : String
  side : String
  point : Point
  pending : ℚ

def status (v : Limiter) : Status := ⟨v.uid, v.productID, v.point.side, v.point, v.pending⟩

/-- Drops the orders that finished without filling. -/
def compactOrderMap (v : Limiter) : Limiter :=
  { v with orderMap := GoMap.filter (fun _ o => !(o.done && o.filledSize = 0)) v.orderMap }

/-- An update replaces the order it names, when that order is one of this limiter's. -/
def updateOrderMap (order : Order) (v : Limiter) : Limiter :=
  if order.orderID ∈ v.orderMap then { v with orderMap := v.orderMap.insert order.orderID order }
  else v

/-- The size `create` asks for: `PendingSize()`, clamped to the size-limit option, then
raised to the product's minimum. -/
def orderSize (v : Limiter) (sizeLimit baseMinSize : ℚ) : ℚ :=
  let size := if v.pendingSize > sizeLimit then sizeLimit else v.pendingSize
  if size < baseMinSize then baseMinSize else size

/-- The order `create` stores for a new exchange order id. -/
def newOrder (orderID : OrderID) (clientOrderID side : String) : Order :=
  { orderID, clientOrderID, side, status := "", createTime := 0, finishTime := 0, fee := 0,
    filledSize := 0, filledPrice := 0, done := false, doneReason := "" }

/-- The limiter's side of `create`, given the exchange's answer to `LimitSell` or
`LimitBuy`: the client id is taken from `idgen` and given back on failure; on success
the new order is stored under the id the exchange chose. -/
def create (answer : Except String OrderID) (v : Limiter) : Except String OrderID × Limiter :=
  let (clientOrderID, idgen) := v.idgen.nextID
  match answer with
  | .error e => (.error e, { v with idgen := idgen.revertID })
  | .ok orderID =>
    (.ok orderID,
      { v with idgen, orderMap := v.orderMap.insert orderID (newOrder orderID clientOrderID v.point.side) })

/-- `fetchOrderMap`, visiting the entries `es` of `dupOrderMap()` in order, with the
exchange's answer to each `Get`: the limiter after the refreshes, `nupdated`, and the
error of the first failed `Get`. -/
def fetchOrderMap (get : OrderID → Except String Order) :
    List (Σ _ : OrderID, Order) → Limiter → Nat → Limiter × Nat × Except String Unit
  | [], v, n => (v, n, .ok ())
  | ⟨id, order⟩ :: es, v, n =>
    if order.done then fetchOrderMap get es v n
    else match get id with
      | .error e => (v, n, .error e)
      | .ok norder => fetchOrderMap get es { v with orderMap := v.orderMap.insert id norder } (n + 1)

/-! ### What each operation changes -/

@[simp] theorem compactOrderMap_lookup (v : Limiter) (k : OrderID) :
    v.compactOrderMap.orderMap.lookup k =
      (v.orderMap.lookup k).filter (fun o => !(o.done && o.filledSize = 0)) :=
  GoMap.lookup_filter _ _ _

theorem pending_compactOrderMap (v : Limiter) : v.compactOrderMap.pending = v.pending := by
  unfold pending compactOrderMap
  rw [GoMap.total_filter]
  intro _ o _ h
  simp only [Bool.not_eq_false', Bool.and_eq_true, decide_eq_true_eq] at h
  exact h.2

/-- The test `compactOrderMap` keeps an order by. -/
theorem compact_keeps_iff (o : Order) :
    (!(o.done && decide (o.filledSize = 0))) = true ↔ ¬(o.done = true ∧ o.filledSize = 0) := by
  simp only [Bool.not_eq_true', Bool.and_eq_false_iff, decide_eq_false_iff_not, not_and_or, Bool.not_eq_true]

/-- **Compaction drops exactly the orders that finished unfilled.** An order stays under
its id if and only if it is not both done and unfilled, so every order that is still
open or has filled keeps its place, and `Pending()` does not move. -/
theorem compactOrderMap_removes_exactly (v : Limiter) :
    (∀ k o, v.compactOrderMap.orderMap.lookup k = some o ↔
      v.orderMap.lookup k = some o ∧ ¬(o.done = true ∧ o.filledSize = 0)) ∧
    (∀ k o, v.orderMap.lookup k = some o → (o.done = false ∨ o.filledSize ≠ 0) →
      v.compactOrderMap.orderMap.lookup k = some o) ∧
    v.compactOrderMap.pending = v.pending := by
  have hkeep : ∀ k o, v.compactOrderMap.orderMap.lookup k = some o ↔
      v.orderMap.lookup k = some o ∧ ¬(o.done = true ∧ o.filledSize = 0) := fun k o => by
    rw [compactOrderMap_lookup, Option.filter_eq_some, Option.mem_def, compact_keeps_iff]
  refine ⟨hkeep, fun k o hk ho => (hkeep k o).mpr ⟨hk, ?_⟩, pending_compactOrderMap v⟩
  rw [not_and_or, Bool.not_eq_true]
  exact ho

/-- Compacting a compacted limiter changes nothing. -/
@[simp] theorem compactOrderMap_compactOrderMap (v : Limiter) :
    v.compactOrderMap.compactOrderMap = v.compactOrderMap := by
  simp only [compactOrderMap, GoMap.filter_filter_self]

theorem updateOrderMap_lookup (order : Order) (v : Limiter) (k : OrderID) :
    (v.updateOrderMap order).orderMap.lookup k =
      if k = order.orderID ∧ order.orderID ∈ v.orderMap then some order else v.orderMap.lookup k := by
  unfold updateOrderMap
  by_cases hm : order.orderID ∈ v.orderMap
  · by_cases hk : k = order.orderID
    · subst hk
      simp [hm, AList.lookup_insert]
    · simp [hm, hk, AList.lookup_insert_ne hk]
  · simp [hm]

/-- An update for an order this limiter does not hold changes nothing. -/
theorem updateOrderMap_of_not_mem {order : Order} {v : Limiter} (h : order.orderID ∉ v.orderMap) :
    v.updateOrderMap order = v := by
  simp [updateOrderMap, h]

@[simp] theorem updateOrderMap_point (order : Order) (v : Limiter) :
    (v.updateOrderMap order).point = v.point := by
  unfold updateOrderMap
  split <;> rfl

@[simp] theorem updateOrderMap_idgen (order : Order) (v : Limiter) :
    (v.updateOrderMap order).idgen = v.idgen := by
  unfold updateOrderMap
  split <;> rfl

@[simp] theorem updateOrderMap_clientServerMap (order : Order) (v : Limiter) :
    (v.updateOrderMap order).clientServerMap = v.clientServerMap := by
  unfold updateOrderMap
  split <;> rfl

@[simp] theorem updateOrderMap_uid (order : Order) (v : Limiter) : (v.updateOrderMap order).uid = v.uid := by
  unfold updateOrderMap
  split <;> rfl

@[simp] theorem compactOrderMap_point (v : Limiter) : v.compactOrderMap.point = v.point := rfl

@[simp] theorem create_point (answer : Except String OrderID) (v : Limiter) :
    (v.create answer).2.point = v.point := by
  cases answer <;> rfl

@[simp] theorem create_uid (answer : Except String OrderID) (v : Limiter) : (v.create answer).2.uid = v.uid := by
  cases answer <;> rfl

/-- What `New` returns is under its uid, at its point. -/
theorem new_ok {uid exchangeName productID : String} {point : Point} {v : Limiter}
    (h : new uid exchangeName productID point = .ok v) : v.uid = uid ∧ v.point = point := by
  simp only [new] at h
  split at h <;> cases h
  exact ⟨rfl, rfl⟩

/-- With at least the product's minimum pending, `create` asks for no more than is
pending. -/
theorem orderSize_le {v : Limiter} {sizeLimit baseMinSize : ℚ} (h : baseMinSize ≤ v.pendingSize) :
    v.orderSize sizeLimit baseMinSize ≤ v.pendingSize := by
  unfold orderSize
  dsimp only
  split_ifs <;> linarith

theorem mem_updateOrderMap {order : Order} {v : Limiter} {k : OrderID}
    (h : k ∈ (v.updateOrderMap order).orderMap) : k ∈ v.orderMap := by
  unfold updateOrderMap at h
  split at h
  · rcases (AList.mem_insert _).mp h with rfl | h
    · assumption
    · exact h
  · exact h

theorem create_error (e : String) (v : Limiter) : v.create (.error e) = (.error e, v) := by
  simp [create]

theorem create_ok (orderID : OrderID) (v : Limiter) :
    v.create (.ok orderID) = (.ok orderID, { v with
      idgen := v.idgen.nextID.2
      orderMap := v.orderMap.insert orderID (newOrder orderID v.idgen.nextID.1 v.point.side) }) := rfl

/-- A refresh changes only `orderMap`. -/
theorem fetchOrderMap_eq (get : OrderID → Except String Order) (es : List (Σ _ : OrderID, Order))
    (v : Limiter) (n : Nat) :
    (fetchOrderMap get es v n).1 = { v with orderMap := (fetchOrderMap get es v n).1.orderMap } := by
  induction es generalizing v n with
  | nil => rfl
  | cons e es ih =>
    obtain ⟨id, order⟩ := e
    simp only [fetchOrderMap]
    split
    · exact ih v n
    · split
      · rfl
      · exact ih { v with orderMap := v.orderMap.insert id _ } (n + 1)

@[simp] theorem fetchOrderMap_point (get : OrderID → Except String Order)
    (es : List (Σ _ : OrderID, Order)) (v : Limiter) (n : Nat) :
    (fetchOrderMap get es v n).1.point = v.point := by
  rw [fetchOrderMap_eq]

@[simp] theorem fetchOrderMap_idgen (get : OrderID → Except String Order)
    (es : List (Σ _ : OrderID, Order)) (v : Limiter) (n : Nat) :
    (fetchOrderMap get es v n).1.idgen = v.idgen := by
  rw [fetchOrderMap_eq]

@[simp] theorem fetchOrderMap_uid (get : OrderID → Except String Order)
    (es : List (Σ _ : OrderID, Order)) (v : Limiter) (n : Nat) :
    (fetchOrderMap get es v n).1.uid = v.uid := by
  rw [fetchOrderMap_eq]

@[simp] theorem fetchOrderMap_clientServerMap (get : OrderID → Except String Order)
    (es : List (Σ _ : OrderID, Order)) (v : Limiter) (n : Nat) :
    (fetchOrderMap get es v n).1.clientServerMap = v.clientServerMap := by
  rw [fetchOrderMap_eq]

@[simp] theorem fetchOrderMap_productID (get : OrderID → Except String Order)
    (es : List (Σ _ : OrderID, Order)) (v : Limiter) (n : Nat) :
    (fetchOrderMap get es v n).1.productID = v.productID := by
  rw [fetchOrderMap_eq]

/-- What a refresh leaves at a key: the old entry, or the answer to a `Get` of a
non-done order it visited. -/
theorem fetchOrderMap_lookup (get : OrderID → Except String Order) (es : List (Σ _ : OrderID, Order))
    (v : Limiter) (n : Nat) (k : OrderID) :
    (fetchOrderMap get es v n).1.orderMap.lookup k = v.orderMap.lookup k ∨
      ∃ o r, ⟨k, o⟩ ∈ es ∧ o.done = false ∧ get k = .ok r ∧
        (fetchOrderMap get es v n).1.orderMap.lookup k = some r := by
  induction es generalizing v n with
  | nil => exact .inl rfl
  | cons e es ih =>
    obtain ⟨id, order⟩ := e
    simp only [fetchOrderMap]
    split
    · exact (ih v n).imp_right fun ⟨o, r, h⟩ => ⟨o, r, List.mem_cons_of_mem _ h.1, h.2⟩
    · rename_i hd
      split
      · exact .inl rfl
      · rename_i norder hget
        rcases ih { v with orderMap := v.orderMap.insert id norder } (n + 1) with h | ⟨o, r, h⟩
        · by_cases hk : k = id
          · subst hk
            refine .inr ⟨order, norder, List.mem_cons_self _ _, by simpa using hd, hget, ?_⟩
            rw [h]
            exact AList.lookup_insert _
          · exact .inl (h.trans (AList.lookup_insert_ne hk))
        · exact .inr ⟨o, r, List.mem_cons_of_mem _ h.1, h.2⟩

/-- Keys no visited entry names keep their entry. -/
theorem fetchOrderMap_lookup_of_not_mem (get : OrderID → Except String Order)
    (es : List (Σ _ : OrderID, Order)) (v : Limiter) (n : Nat) {k : OrderID}
    (h : ∀ o, (⟨k, o⟩ : Σ _ : OrderID, Order) ∉ es) :
    (fetchOrderMap get es v n).1.orderMap.lookup k = v.orderMap.lookup k :=
  (fetchOrderMap_lookup get es v n k).resolve_right fun ⟨o, _, ho, _⟩ => h o ho

/-- A refresh adds no key it did not visit. -/
theorem mem_fetchOrderMap (get : OrderID → Except String Order) (es : List (Σ _ : OrderID, Order))
    (v : Limiter) (n : Nat) {k : OrderID} (h : k ∈ (fetchOrderMap get es v n).1.orderMap) :
    k ∈ v.orderMap ∨ ∃ o, (⟨k, o⟩ : Σ _ : OrderID, Order) ∈ es := by
  rcases fetchOrderMap_lookup get es v n k with h' | ⟨o, _, ho, -⟩
  · rw [← AList.lookup_isSome, h'] at h
    exact .inl (AList.lookup_isSome.mp h)
  · exact .inr ⟨o, ho⟩

/-- After a refresh with no failed `Get`, every non-done order it visited holds the
exchange's answer. -/
theorem fetchOrderMap_ok (get : OrderID → Except String Order) (es : List (Σ _ : OrderID, Order))
    (hes : es.NodupKeys) (v : Limiter) (n : Nat) (hok : (fetchOrderMap get es v n).2.2 = .ok ())
    {k : OrderID} {o : Order} (hk : ⟨k, o⟩ ∈ es) (hd : o.done = false) :
    ∃ r, get k = .ok r ∧ (fetchOrderMap get es v n).1.orderMap.lookup k = some r := by
  induction es generalizing v n with
  | nil => cases hk
  | cons e es ih =>
    obtain ⟨id, order⟩ := e
    have hrest := List.nodupKeys_of_nodupKeys_cons hes
    have hid : ∀ o', (⟨id, o'⟩ : Σ _ : OrderID, Order) ∉ es := fun o' h' => by
      have := List.mem_keys_of_mem h'
      exact List.not_mem_keys_of_nodupKeys_cons hes this
    simp only [fetchOrderMap] at hok ⊢
    simp only [List.mem_cons, Sigma.mk.inj_iff] at hk
    rcases hk with ⟨rfl, he⟩ | hk
    · cases he
      simp only [hd, Bool.false_eq_true, if_false] at hok ⊢
      split at hok
      · cases hok
      · rename_i norder hget
        simp only [hget]
        refine ⟨norder, rfl, ?_⟩
        rw [fetchOrderMap_lookup_of_not_mem _ _ _ _ hid]
        exact AList.lookup_insert _
    · split
      · exact ih hrest v n (by rwa [if_pos ‹_›] at hok) hk
      · rename_i hdone
        rw [if_neg hdone] at hok
        split at hok
        · cases hok
        · exact ih hrest _ _ hok hk

end Limiter

end Tradebot
