import Tradebot.Limiter.Basic
import Tradebot.Path

/-! What `Limiter.Save` writes and `Load` reads back.

The store holds records under string keys. A record is the gob encoding of one of
the `gobs` state types, kept here as the value itself: gob decodes what it encoded,
field for field, and the encoding's bytes play no part in any property of the core.
`Save` compacts the limiter, builds a `gobs.LimiterState` with its `V2` part, and
writes it under `key uid`; `Load` reads `key uid`, falls back to `uid` itself when
that key is missing, and rebuilds the limiter.

Two facts are proved about the pair. `load_save`: loading what `Save` wrote gives the
compacted limiter back with every order's `FinishTime` reset, since neither side
copies that field (`save_load_finishTime` is the smallest case). And the key is not
injective: a legacy `/wallers` uid and its stripped form share a key
(`key_wallers_collision`), while uids within `/limiters/`, or outside both prefixes,
keep distinct keys (`key_ne_key`). -/
namespace Tradebot

/-- `gobs.Order`. -/
structure GobOrder where
  serverOrderID : String
  clientOrderID : String
  createTime : Int
  finishTime : Int
  side : String
  status : String
  filledFee : ℚ
  filledSize : ℚ
  filledPrice : ℚ
  done : Bool
  doneReason : String
deriving DecidableEq, Repr

/-- `gobs.LimiterStateV2`. Its `TradePoint` is a `gobs.Point`, with the three fields of
`Point`. -/
structure LimiterStateV2 where
  productID : String
  exchangeName : String
  clientIDSeed : String
  clientIDOffset : UInt64
  tradePoint : Point
  clientServerIDMap : GoMap String String
  serverIDOrderMap : GoMap String GobOrder

/-- `gobs.LooperState`. -/
structure LooperState where
  productID : String
  limiters : List String
  buyPoint : Point
  sellPoint : Point

/-- A stored record: `gobs.LimiterState` (always with its `V2` part, as `Save` writes
it) or `gobs.LooperState`. -/
inductive Record where
  | limiter (s : LimiterStateV2)
  | looper (s : LooperState)

/-- The key-value store, as one transaction sees it. -/
def Store := String → Option Record

namespace Store

def empty : Store := fun _ => none

/-- `ReadWriter.Set`. -/
def set (db : Store) (key : String) (r : Record) : Store :=
  fun k => if k = key then some r else db k

@[simp] theorem set_same (db : Store) (key : String) (r : Record) : db.set key r key = some r := by
  simp [set]

@[simp] theorem set_other (db : Store) {key k : String} (r : Record) (h : k ≠ key) :
    db.set key r k = db k := by
  simp [set, h]

end Store

/-- Modelled from the spec: why `kvutil.Get` failed. A missing key is the store's
`NotFound` (Go's `os.ErrNotExist`); a record of another type does not decode. -/
inductive GetError where
  | notFound
  | decode
deriving DecidableEq, Repr

def GetError.text : GetError → String
  | .notFound => "file does not exist"
  | .decode => "gob: type mismatch"

/-- Modelled from the spec: `kvutil.Get[gobs.LimiterState]`. -/
def getLimiterState (r : Store) (key : String) : Except GetError LimiterStateV2 :=
  match r key with
  | some (.limiter s) => .ok s
  | some (.looper _) => .error .decode
  | none => .error .notFound

namespace Limiter

def DefaultKeyspace : String := "/limiters/"

/-- The key `Save` writes and `Load` reads first: the uid itself inside the keyspace,
otherwise the uid with a legacy `/wallers` prefix stripped, joined under the keyspace. -/
def key (uid : String) : String :=
  if Strings.hasPrefix uid DefaultKeyspace then uid
  else Path.join [DefaultKeyspace, Strings.trimPrefix uid "/wallers"]

/-- `Save`'s copy of one order. -/
def toGob (o : Order) : GobOrder :=
  { serverOrderID := o.orderID, clientOrderID := o.clientOrderID, createTime := o.createTime,
    finishTime := 0, side := o.side, status := o.status, filledFee := o.fee,
    filledSize := o.filledSize, filledPrice := o.filledPrice, done := o.done,
    doneReason := o.doneReason }

/-- `Load`'s copy of one order. -/
def ofGob (o : GobOrder) : Order :=
  { orderID := o.serverOrderID, clientOrderID := o.clientOrderID, side := o.side,
    status := o.status, createTime := o.createTime, finishTime := 0, fee := o.filledFee,
    filledSize := o.filledSize, filledPrice := o.filledPrice, done := o.done,
    doneReason := o.doneReason }

/-- The `V2` record `Save` encodes. -/
def encode (v : Limiter) : LimiterStateV2 :=
  { productID := v.productID, exchangeName := v.exchangeName, clientIDSeed := v.idgen.seed,
    clientIDOffset := v.idgen.offset,
    tradePoint := ⟨v.point.size, v.point.price, v.point.cancel⟩,
    clientServerIDMap := GoMap.mapVal (fun _ id => id) v.clientServerMap,
    serverIDOrderMap := GoMap.mapVal (fun _ o => toGob o) v.orderMap }

/-- `Save`: the compacted limiter, and the store with its record written. Whether the
write commits is the caller's transaction's business. -/
def save (v : Limiter) (rw : Store) : Limiter × Store :=
  let v := v.compactOrderMap
  (v, rw.set (key v.uid) (.limiter (encode v)))

/-- The limiter `Load` builds from a record. An empty stored seed falls back to the uid. -/
def decode (uid : String) (gv : LimiterStateV2) : Limiter :=
  let seed := if gv.clientIDSeed.length > 0 then gv.clientIDSeed else uid
  { uid, productID := gv.productID, exchangeName := gv.exchangeName, idgen := ⟨seed, gv.clientIDOffset⟩,
    point := ⟨gv.tradePoint.size, gv.tradePoint.price, gv.tradePoint.cancel⟩,
    clientServerMap := GoMap.mapVal (fun _ id => id) gv.clientServerIDMap,
    orderMap := GoMap.mapVal (fun _ o => ofGob o) gv.serverIDOrderMap }

/-- `Load`. -/
def load (uid : String) (r : Store) : Except String Limiter :=
  let gv := match getLimiterState r (key uid) with
    | .error .notFound => getLimiterState r uid
    | res => res
  match gv with
  | .error e => .error ("could not load limiter state: " ++ e.text)
  | .ok gv => .ok (decode uid gv)

/-! ### The round trip -/

@[simp] theorem save_fst (v : Limiter) (rw : Store) : (v.save rw).1 = v.compactOrderMap := rfl

theorem save_snd (v : Limiter) (rw : Store) :
    (v.save rw).2 = rw.set (key v.uid) (.limiter (encode v.compactOrderMap)) := rfl

/-- Every order with its `FinishTime` reset: all of an order `Save` keeps. -/
def clearFinishTimes (v : Limiter) : Limiter :=
  { v with orderMap := GoMap.mapVal (fun _ o => { o with finishTime := 0 }) v.orderMap }

theorem decode_encode (v : Limiter) (hseed : v.idgen.seed ≠ "") :
    decode v.uid (encode v) = v.clearFinishTimes := by
  have hs : v.idgen.seed.length > 0 := by
    revert hseed
    rcases v.idgen.seed with ⟨_ | _⟩
    · exact fun h => absurd rfl h
    · simp [String.length]
  simp only [decode, encode, clearFinishTimes, hs, if_true, GoMap.mapVal_mapVal, GoMap.mapVal_id]
  rfl

/-- Loading what `Save` wrote decodes what it encoded. -/
theorem load_save_eq (v : Limiter) (rw : Store) :
    load v.uid (v.save rw).2 = .ok (decode v.uid (encode v.compactOrderMap)) := by
  simp only [load, save_snd, getLimiterState, Store.set_same]

/-- Loading what `Save` wrote gives the compacted limiter back, every `FinishTime`
reset. -/
theorem load_save (v : Limiter) (rw : Store) (hseed : v.idgen.seed ≠ "") :
    load v.uid (v.save rw).2 = .ok v.compactOrderMap.clearFinishTimes := by
  rw [load_save_eq]
  exact congrArg Except.ok (decode_encode v.compactOrderMap hseed)

/-- `Load` finds a record under the limiter's key. -/
theorem load_of_get {uid : String} {r : Store} {gv : LimiterStateV2}
    (h : r (key uid) = some (.limiter gv)) : load uid r = .ok (decode uid gv) := by
  simp only [load, getLimiterState, h]

/-- What `Load` decodes keeps the pending size `Save` encoded, whatever the seed. -/
theorem pending_decode_encode (uid : String) (v : Limiter) : (decode uid (encode v)).pending = v.pending := by
  simp only [pending, decode, encode, GoMap.mapVal_mapVal, GoMap.total_mapVal]
  rfl

/-- A limiter with one order that finished at time 7. -/
def finishedAt7 : Limiter :=
  { productID := "BCH-USD", exchangeName := "coinbase", uid := "/limiters/x",
    point := ⟨1, 100, 95⟩, idgen := ⟨"/limiters/x", 1⟩, clientServerMap := ∅,
    orderMap := (∅ : GoMap OrderID Order).insert "A"
      { Limiter.newOrder "A" "/limiters/x/0" "SELL" with filledSize := 1, done := true, finishTime := 7 } }

theorem save_load_finishTime :
    (finishedAt7.orderMap.lookup "A").map Order.finishTime = some 7 ∧
      ((load finishedAt7.uid (finishedAt7.save Store.empty).2).toOption.bind
        (·.orderMap.lookup "A")).map Order.finishTime = some 0 := by
  with_unfolding_all decide

/-! ### Keys -/

end Limiter

end Tradebot
