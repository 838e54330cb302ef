import Tradebot.Limiter.Store

/-! The looper: a buy limiter, then a sell limiter, then a buy again, at two fixed points.

`Looper` keeps the limiters it created in two lists, `buys` and `sells`, each named
after the looper's key and its index (`limiterUID`). `addNewBuy` and `addNewSell` are
one function, `addNew`, on either list: create the limiter, append it, and save the
looper in one transaction, dropping the limiter again when the transaction fails.
`Save` saves every limiter (which compacts it) and then the looper's own record, the
list of its limiters' uids; `Load` loads those limiters back and files each under the
list its side names. -/
namespace Tradebot

/-- `looper.Looper`. -/
structure Looper where
  productID : String
  key : String
  buyPoint : Point
  sellPoint : Point
  buys : List Limiter
  sells : List Limiter

/-- Modelled from the spec: a point as `%v` prints it in an error. `point.Point` is not in
the sources; its three fields stand for its text. -/
def Point.text (p : Point) : String :=
  "\x7b" ++ toString p.size ++ " " ++ toString p.price ++ " " ++ toString p.cancel ++ "\x7d"

/-- Go's `%q` of a string, for strings with nothing to escape. -/
def quote (s : String) : String := "\"" ++ s ++ "\""

namespace Looper

/-- The half of `check` for one point: `buy` or `sell`, and the side it must have. -/
def checkPoint (name side : String) (p : Point) : Except String Unit :=
  match p.check with
  | .error _ => .error (name ++ " point " ++ p.text ++ " is invalid")
  | .ok () => if p.side ≠ side then .error (name ++ " point " ++ p.text ++ " has invalid side") else .ok ()

def check (v : Looper) : Except String Unit :=
  if v.key.length = 0 ∨ !Path.isAbs v.key then .error ("looper uid/key " ++ quote v.key ++ " is invalid")
  else do
    checkPoint "buy" "BUY" v.buyPoint
    checkPoint "sell" "SELL" v.sellPoint

def new (uid productID : String) (buy sell : Point) : Except String Looper :=
  let v : Looper := { productID, key := uid, buyPoint := buy, sellPoint := sell, buys := [], sells := [] }
  match v.check with
  | .error e => .error e
  | .ok () => .ok v

/-- `fmt.Sprintf("%06d", n)`. -/
def pad6 (n : Nat) : String :=
  let s := toString n
  "".pushn '0' (6 - s.length) ++ s

/-- The uid of the `n`-th limiter of a kind: `path.Join(key, kind-NNNNNN)`. -/
def limiterUID (key kind : String) (n : Nat) : String :=
  Path.join [key, kind ++ "-" ++ pad6 n]

/-- The limiters on one side: the buys for `true`. -/
def side (v : Looper) (buy : Bool) : List Limiter := if buy then v.buys else v.sells

/-- The limiters on one side replaced. -/
def setSide (v : Looper) (buy : Bool) (ls : List Limiter) : Looper :=
  if buy then { v with buys := ls } else { v with sells := ls }

/-- Each limiter saved in turn into `rw`, which compacts it. -/
def saveAll : List Limiter → Store → List Limiter × Store
  | [], rw => ([], rw)
  | l :: ls, rw =>
    let r := saveAll ls (l.save rw).2
    ((l.save rw).1 :: r.1, r.2)

/-- `Save`: the buys, the sells, then the looper's record under its key. -/
def save (v : Looper) (rw : Store) : Looper × Store :=
  let b := saveAll v.buys rw
  let s := saveAll v.sells b.2
  ({ v with buys := b.1, sells := s.1 },
    s.2.set v.key (.looper ⟨v.productID, v.buys.map (·.uid) ++ v.sells.map (·.uid), v.buyPoint, v.sellPoint⟩))

/-- `addNewBuy` (for `true`) and `addNewSell` past the buy's wait: `limiter.New` for the
next uid of the side, the limiter appended, and the looper saved in a transaction that
ends in `db`; when it fails the limiter is dropped again, the others staying compacted.
`looper.go` calls `limiter.New` with three arguments, the uid, `product.ID()` and the
point, against a `New` that also takes an exchange name; the model passes none. -/
def addNew (P : Product) (buy : Bool) (db : Except String Unit) (rw : Store) (v : Looper) :
    Except String Unit × Looper × Store :=
  let uid := limiterUID v.key (if buy then "buy" else "sell") (v.side buy).length
  match Limiter.new uid "" P.productID (if buy then v.buyPoint else v.sellPoint) with
  | .error e => (.error e, v, rw)
  | .ok l =>
    let r := (v.setSide buy (v.side buy ++ [l])).save rw
    match db with
    | .ok () => (.ok (), r.1, r.2)
    | .error e => (.error e, r.1.setSide buy (r.1.side buy).dropLast, rw)

/-- `addNewBuy`, whose wait for the ticker to go above the buy price ends in `wait`: the
ticker, or the context's cause. -/
def addNewBuy (P : Product) (wait db : Except String Unit) (rw : Store) (v : Looper) :
    Except String Unit × Looper × Store :=
  match wait with
  | .error e => (.error e, v, rw)
  | .ok () => v.addNew P true db rw

def addNewSell (P : Product) (db : Except String Unit) (rw : Store) (v : Looper) :
    Except String Unit × Looper × Store :=
  v.addNew P false db rw

/-- Modelled from the spec: `kvutil.Get[gobs.LooperState]`. -/
def getLooperState (r : Store) (key : String) : Except GetError LooperState :=
  match r key with
  | some (.looper s) => .ok s
  | some (.limiter _) => .error .decode
  | none => .error .notFound

/-- `Load`'s loop: each limiter loaded, and appended to the list its side names. -/
def loadLimiters (r : Store) : List String → List Limiter → List Limiter →
    Except String (List Limiter × List Limiter)
  | [], buys, sells => .ok (buys, sells)
  | id :: ids, buys, sells =>
    match Limiter.load id r with
    | .error e => .error e
    | .ok v =>
      if v.point.side = "BUY" then loadLimiters r ids (buys ++ [v]) sells
      else if v.point.side = "SELL" then loadLimiters r ids buys (sells ++ [v])
      else .error ("unexpected limiter side " ++ quote v.point.side)

def load (uid : String) (r : Store) : Except String Looper :=
  match getLooperState r uid with
  | .error e => .error e.text
  | .ok gv =>
    match loadLimiters r gv.limiters [] [] with
    | .error e => .error e
    | .ok (buys, sells) =>
      let v : Looper :=
        { key := uid, productID := gv.productID, buys, sells, buyPoint := gv.buyPoint,
          sellPoint := gv.sellPoint }
      match v.check with
      | .error e => .error e
      | .ok () => .ok v

/-! ### What saving and adding do to the limiters -/

theorem saveAll_fst (ls : List Limiter) (rw : Store) :
    (saveAll ls rw).1 = ls.map Limiter.compactOrderMap := by
  induction ls generalizing rw with
  | nil => rfl
  | cons l ls ih => simp [saveAll, ih]

@[simp] theorem save_buys (v : Looper) (rw : Store) :
    (v.save rw).1.buys = v.buys.map Limiter.compactOrderMap := saveAll_fst _ _

@[simp] theorem save_sells (v : Looper) (rw : Store) :
    (v.save rw).1.sells = v.sells.map Limiter.compactOrderMap := saveAll_fst _ _

@[simp] theorem save_key (v : Looper) (rw : Store) : (v.save rw).1.key = v.key := rfl

@[simp] theorem side_true (v : Looper) : v.side true = v.buys := rfl
@[simp] theorem side_false (v : Looper) : v.side false = v.sells := rfl
@[simp] theorem setSide_true (v : Looper) (ls : List Limiter) : v.setSide true ls = { v with buys := ls } := rfl
@[simp] theorem setSide_false (v : Looper) (ls : List Limiter) :
    v.setSide false ls = { v with sells := ls } := rfl

@[simp] theorem side_setSide (v : Looper) (buy : Bool) (ls : List Limiter) : (v.setSide buy ls).side buy = ls := by
  cases buy <;> rfl

@[simp] theorem side_not_setSide (v : Looper) (buy : Bool) (ls : List Limiter) :
    (v.setSide buy ls).side (!buy) = v.side (!buy) := by
  cases buy <;> rfl

@[simp] theorem save_side (v : Looper) (rw : Store) (buy : Bool) :
    (v.save rw).1.side buy = (v.side buy).map Limiter.compactOrderMap := by
  cases buy <;> simp

/-- `addNew` ends in one of three loopers: `v` when `New` fails; `v` with every limiter
compacted when the transaction fails; and that with the new limiter appended to its
side when the transaction commits. -/
theorem addNew_cases (P : Product) (buy : Bool) (db : Except String Unit) (rw : Store) (v : Looper) :
    (v.addNew P buy db rw).2.1 = v ∨
      ∃ l, Limiter.new (limiterUID v.key (if buy then "buy" else "sell") (v.side buy).length) ""
          P.productID (if buy then v.buyPoint else v.sellPoint) = .ok l ∧
        ((v.addNew P buy db rw).2.1 = (v.save rw).1 ∨
          (v.addNew P buy db rw).2.1 = ((v.setSide buy (v.side buy ++ [l])).save rw).1) := by
  rcases hn : Limiter.new (limiterUID v.key (if buy then "buy" else "sell") (v.side buy).length) ""
      P.productID (if buy then v.buyPoint else v.sellPoint) with e | l
  · left
    simp only [addNew, hn]
  · refine .inr ⟨l, rfl, ?_⟩
    simp only [addNew, hn]
    cases db with
    | ok u => exact .inr rfl
    | error e =>
      left
      cases buy <;> simp [save, saveAll_fst]

/-- Compaction keeps every limiter's pending size. -/
theorem pending_map_compact (ls : List Limiter) :
    (ls.map Limiter.compactOrderMap).map Limiter.pending = ls.map Limiter.pending := by
  simp [Function.comp_def, Limiter.pending_compactOrderMap]

end Looper

end Tradebot
