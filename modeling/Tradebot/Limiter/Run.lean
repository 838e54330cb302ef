import Tradebot.Limiter.Store

/-! `Limiter.Run` against the exchange, as a state machine.

A `Sys` is one limiter with everything its runs touch: the exchange's book of its
orders, the store, and `Run`'s locals (`activeOrderID`, `lastSizeLimit`, `dirty`)
while the event loop is up. `next` takes one `Event` — a call of `Run` or
`Refresh`, a save between runs, one case of the loop's `select`, the loop guard
seeing nothing pending, or the exchange filling or finishing an order — together
with every answer the exchange and the store give to it, and returns the next state,
or `none` when the event cannot happen there or an answer breaks the exchange model.
So every interleaving of events, and every success or failure of every call, is a
list of events.

The handlers are the source's branches in its order: `start` is lines 260-316, the
loop cases are `onCanceled`, `onFlush`, `onUpdate` and `onTicker`, and `finish` is
lines 433-440. `Run`'s `return err` is `Except.error` carrying the state at that
point; `Sys.ret` records what `Run` returned and leaves the loop. -/
namespace Tradebot

/-- One limiter, the exchange's book of its orders, the store, and `Run`'s locals. -/
structure Sys where
  lim : Limiter
  book : Book
  db : Store
  /-- `Run` is inside its event loop. -/
  running : Bool
  active : OrderID
  lastSizeLimit : ℚ
  dirty : Nat
  /-- What the last call of `Run` returned. -/
  returned : Option (Except String Unit)
  /-- The ids the exchange gave this limiter's successful creates, oldest first. -/
  created : List OrderID

/-- One thing that can happen next, with the answers it gets. `es` is the order in
which a refresh visits `dupOrderMap()`, `get` the exchange's answer to each `Get`, and
`db` how the store transaction ends. -/
inductive Event where
  /-- `Run` is called, with the size-limit option as it is then. -/
  | run (sizeLimit : ℚ) (es : List (Σ _ : OrderID, Order)) (get : OrderID → Except String Order)
      (db : Except String Unit)
  /-- `Refresh` is called. -/
  | refresh (es : List (Σ _ : OrderID, Order)) (get : OrderID → Except String Order)
  /-- The looper saves the limiter between runs. -/
  | save (db : Except String Unit)
  /-- The loop sees the context canceled. -/
  | canceled (cause : String) (cancel : Except String Unit) (db : Except String Unit)
  /-- The flush timer fires. -/
  | flush (db : Except String Unit)
  /-- An update arrives on the product's order-update stream. -/
  | update (order : Order)
  /-- A ticker arrives, with the hold and size-limit options as they are then. -/
  | ticker (price : ℚ) (hold : Bool) (sizeLimit : ℚ) (cancel : Except String Unit)
      (create : Except String OrderID)
  /-- The loop guard sees nothing pending: the last refresh and save. -/
  | finish (es : List (Σ _ : OrderID, Order)) (get : OrderID → Except String Order)
      (db : Except String Unit)
  /-- The exchange fills part of a live order. -/
  | fill (id : OrderID) (size : ℚ)
  /-- The exchange finishes a live order by itself. -/
  | close (id : OrderID)

namespace Sys

/-- `Run` returns `r`. -/
def ret (r : Except String Unit) (s : Sys) : Sys :=
  { s with running := false, returned := some r }

/-- `kv.WithReadWriter(ctx, db, v.Save)`. `Save` compacts the limiter in memory whether
or not the transaction commits. -/
def save (db : Except String Unit) (s : Sys) : Sys :=
  { s with
    lim := (s.lim.save s.db).1
    db := match db with
      | .ok () => (s.lim.save s.db).2
      | .error _ => s.db }

/-- `cancel` with the exchange's answer. -/
def cancel (answer : Except String Unit) (id : OrderID) (s : Sys) : Except (String × Sys) Sys :=
  match answer with
  | .error e => .error (e, s)
  | .ok () => .ok { s with book := s.book.close id }

/-- `create` with the exchange's answer: the limiter's side, and on success a live order
in the book with the side and size the limiter asked for. -/
def create (P : Product) (sizeLimit : ℚ) (answer : Except String OrderID) (s : Sys) :
    Except (String × Sys) (OrderID × Sys) :=
  let size := s.lim.orderSize sizeLimit P.baseMinSize
  let side := if s.lim.isSell then "SELL" else "BUY"
  match s.lim.create answer with
  | (.error e, v) => .error (e, { s with lim := v })
  | (.ok id, v) =>
    .ok (id, { s with lim := v, book := s.book.place id side size, created := s.created ++ [id] })

/-- Cancel the active order and forget it, as the hold, size-limit and side branches do. -/
def dropActive (answer : Except String Unit) (s : Sys) : Except (String × Sys) Sys :=
  (s.cancel answer s.active).map fun s => { s with dirty := s.dirty + 1, active := "" }

/-- Create an order and make it the active one. -/
def addActive (P : Product) (sizeLimit : ℚ) (answer : Except String OrderID) (s : Sys) :
    Except (String × Sys) Sys :=
  (s.create P sizeLimit answer).map fun r => { r.2 with dirty := r.2.dirty + 1, active := r.1 }

/-- Lines 260-316: the product check, the refresh, the early return when nothing is
pending, and the live-order check before the event loop. -/
def start (P : Product) (sizeLimit : ℚ) (es : List (Σ _ : OrderID, Order))
    (get : OrderID → Except String Order) (db : Except String Unit) (s : Sys) : Sys :=
  if P.productID ≠ s.lim.productID then s.ret (.error "invalid argument")
  else
    let r := s.lim.fetchOrderMap get es 0
    let s : Sys := { s with lim := r.1 }
    match r.2.2 with
    | .error e => s.ret (.error e)
    | .ok () =>
      if s.lim.pendingSize = 0 then (if r.2.1 ≠ 0 then s.save db else s).ret (.ok ())
      else
        let live := s.lim.orderMap.entries.filter fun e => !e.2.done
        if live.length > 1 then
          s.ret (.error ("found " ++ toString live.length ++ " live orders (want 0 or 1)"))
        else
          { s with
            running := true
            active := (live.head?.map fun e => e.2.orderID).getD ""
            lastSizeLimit := sizeLimit
            dirty := 0
            returned := none }

/-- Lines 320-332: cancel the active order under the detached context, save, and
return the cause. -/
def onCanceled (cause : String) (answer : Except String Unit) (db : Except String Unit) (s : Sys) :
    Sys :=
  let r := if s.active ≠ "" then (s.cancel answer s.active).map fun s => { s with dirty := s.dirty + 1 }
    else .ok s
  match r with
  | .error (e, s) => s.ret (.error e)
  | .ok s => (s.save db).ret (.error cause)

/-- Lines 334-342. -/
def onFlush (db : Except String Unit) (s : Sys) : Sys :=
  if s.dirty > 0 then
    match db with
    | .ok () => { s.save db with dirty := 0 }
    | .error _ => s.save db
  else s

/-- Lines 344-350. -/
def onUpdate (order : Order) (s : Sys) : Sys :=
  let s : Sys := { s with dirty := s.dirty + 1, lim := s.lim.updateOrderMap order }
  if order.done ∧ order.orderID = s.active then { s with active := "" } else s

/-- Lines 352-429: hold, then a size-limit change, then the side's cancel and create. -/
def onTicker (P : Product) (price : ℚ) (hold : Bool) (sizeLimit : ℚ) (cancel : Except String Unit)
    (create : Except String OrderID) (s : Sys) : Except (String × Sys) Sys :=
  if hold then
    if s.active ≠ "" then s.dropActive cancel else .ok s
  else
    (if s.active ≠ "" ∧ s.lastSizeLimit ≠ sizeLimit then
        (s.dropActive cancel).map ({ · with lastSizeLimit := sizeLimit })
      else pure s) >>= fun s =>
    if s.active = "" ∧ !s.lim.isTickerSideReady price then pure s
    else if s.lim.isSell then
      (if price ≤ s.lim.point.cancel ∧ s.active ≠ "" then s.dropActive cancel else pure s) >>= fun s =>
      if s.lim.point.cancel < price ∧ s.active = "" then s.addActive P sizeLimit create else pure s
    else if s.lim.isBuy then
      (if s.lim.point.cancel ≤ price ∧ s.active ≠ "" then s.dropActive cancel else pure s) >>= fun s =>
      if price < s.lim.point.cancel ∧ s.active = "" then s.addActive P sizeLimit create else pure s
    else pure s

/-- A ticker case of the loop: an error from the exchange is returned by `Run`. -/
def tick (P : Product) (price : ℚ) (hold : Bool) (sizeLimit : ℚ) (cancel : Except String Unit)
    (create : Except String OrderID) (s : Sys) : Sys :=
  match s.onTicker P price hold sizeLimit cancel create with
  | .ok s => s
  | .error (e, s) => s.ret (.error e)

/-- Lines 433-440: the last refresh and save. -/
def finish (es : List (Σ _ : OrderID, Order)) (get : OrderID → Except String Order)
    (db : Except String Unit) (s : Sys) : Sys :=
  let r := s.lim.fetchOrderMap get es 0
  let s : Sys := { s with lim := r.1 }
  match r.2.2 with
  | .error e => s.ret (.error e)
  | .ok () => (s.save db).ret db

/-- The loop is up and its guard sees something pending. -/
def looping (s : Sys) : Bool := s.running && s.lim.pendingSize ≠ 0

/-- A refresh visits every entry once, and each answer to a `Get` of a non-done order
names the order asked for and is a report `F` allows. -/
def answers (F : Book → Order → Bool) (s : Sys) (es : List (Σ _ : OrderID, Order))
    (get : OrderID → Except String Order) : Bool :=
  decide (es.Perm s.lim.orderMap.entries) &&
    es.all fun e => e.2.done ||
      match get e.1 with
      | .ok r => r.orderID = e.1 && F s.book r
      | .error _ => true

/-- The exchange names a new order with a non-empty id it has not used. -/
def fresh (s : Sys) : Except String OrderID → Bool
  | .ok id => id ≠ "" && id ∉ s.book
  | .error _ => true

end Sys

/-- One step: the event `e` with its answers, or `none` when it cannot happen. `F` says
which reports the exchange may send. -/
def next (P : Product) (F : Book → Order → Bool) (s : Sys) : Event → Option Sys
  | .run sl es get db =>
    if !s.running && s.answers F es get then some (s.start P sl es get db) else none
  | .refresh es get =>
    if !s.running && s.answers F es get then some { s with lim := (s.lim.fetchOrderMap get es 0).1 }
    else none
  | .save db => if !s.running then some (s.save db) else none
  | .canceled cause a db => if s.looping then some (s.onCanceled cause a db) else none
  | .flush db => if s.looping then some (s.onFlush db) else none
  | .update o => if s.looping && F s.book o then some (s.onUpdate o) else none
  | .ticker t hold sl a c => if s.looping && s.fresh c then some (s.tick P t hold sl a c) else none
  | .finish es get db =>
    if s.running && s.lim.pendingSize = 0 && s.answers F es get then some (s.finish es get db)
    else none
  | .fill id q => if s.book.canFill id q then some { s with book := s.book.fill id q } else none
  | .close id => if s.book.isLive id then some { s with book := s.book.close id } else none

/-- The states a list of events can lead to from `s₀`. -/
inductive Reachable (P : Product) (F : Book → Order → Bool) (s₀ : Sys) : Sys → Prop where
  | refl : Reachable P F s₀ s₀
  | step {s s' : Sys} (e : Event) : Reachable P F s₀ s → next P F s e = some s' → Reachable P F s₀ s'

/-- Replays a list of events. -/
def replay (P : Product) (F : Book → Order → Bool) : Sys → List Event → Option Sys
  | s, [] => some s
  | s, e :: es => (next P F s e).bind (replay P F · es)

theorem reachable_of_replay {P : Product} {F : Book → Order → Bool} {s₀ : Sys} :
    ∀ {s s' : Sys} {es : List Event}, Reachable P F s₀ s → replay P F s es = some s' →
      Reachable P F s₀ s'
  | _, _, [], hs, h => by
    cases h
    exact hs
  | s, s', e :: es, hs, h => by
    simp only [replay] at h
    cases hn : next P F s e with
    | none => simp [hn] at h
    | some s₁ =>
      rw [hn, Option.some_bind] at h
      exact reachable_of_replay (hs.step e hn) h

/-! ### What one step can do

`Step` lists the events again with their guards as hypotheses; `step_of_next` is the
only proof that unfolds `next`, and every invariant is proved over `Step`. -/

/-- The steps `next` takes, one constructor per event. -/
inductive Step (P : Product) (F : Book → Order → Bool) (s : Sys) : Event → Sys → Prop where
  | run (sl es get db) : s.running = false → s.answers F es get = true →
      Step P F s (.run sl es get db) (s.start P sl es get db)
  | refresh (es get) : s.running = false → s.answers F es get = true →
      Step P F s (.refresh es get) { s with lim := (s.lim.fetchOrderMap get es 0).1 }
  | save (db) : s.running = false → Step P F s (.save db) (s.save db)
  | canceled (cause a db) : s.looping = true →
      Step P F s (.canceled cause a db) (s.onCanceled cause a db)
  | flush (db) : s.looping = true → Step P F s (.flush db) (s.onFlush db)
  | update (o) : s.looping = true → F s.book o = true → Step P F s (.update o) (s.onUpdate o)
  | ticker (t hold sl a c) : s.looping = true → s.fresh c = true →
      Step P F s (.ticker t hold sl a c) (s.tick P t hold sl a c)
  | finish (es get db) : s.running = true → s.lim.pendingSize = 0 → s.answers F es get = true →
      Step P F s (.finish es get db) (s.finish es get db)
  | fill (id q) : s.book.canFill id q = true →
      Step P F s (.fill id q) { s with book := s.book.fill id q }
  | close (id) : s.book.isLive id = true →
      Step P F s (.close id) { s with book := s.book.close id }

/-- The states reachable from `s₀` by events each of which `A` allows in the state it
happens in: the runs an environment assumption leaves. -/
inductive ReachableUnder (P : Product) (F : Book → Order → Bool) (A : Sys → Event → Prop)
    (s₀ : Sys) : Sys → Prop where
  | refl : ReachableUnder P F A s₀ s₀
  | step {s s' : Sys} (e : Event) : ReachableUnder P F A s₀ s → A s e → next P F s e = some s' →
      ReachableUnder P F A s₀ s'

/-- Replays a list of events, each only where `A` allows it. -/
def replayUnder (P : Product) (F : Book → Order → Bool) (A : Sys → Event → Prop) [∀ s e, Decidable (A s e)] :
    Sys → List Event → Option Sys
  | s, [] => some s
  | s, e :: es => if A s e then (next P F s e).bind (replayUnder P F A · es) else none

theorem reachableUnder_of_replayUnder {P : Product} {F : Book → Order → Bool} {A : Sys → Event → Prop}
    [∀ s e, Decidable (A s e)] {s₀ : Sys} :
    ∀ {s s' : Sys} {es : List Event}, ReachableUnder P F A s₀ s → replayUnder P F A s es = some s' →
      ReachableUnder P F A s₀ s'
  | _, _, [], hs, h => Option.some.inj h ▸ hs
  | s, _, e :: _, hs, h => by
    unfold replayUnder at h
    split at h
    · obtain ⟨_, hn, h⟩ := Option.bind_eq_some.mp h
      exact reachableUnder_of_replayUnder (hs.step e ‹_› hn) h
    · cases h

section Steps

variable {P : Product} {F : Book → Order → Bool} {s₀ s s' : Sys}

theorem step_of_next {e : Event} (h : next P F s e = some s') : Step P F s e s' := by
  cases e <;> simp only [next, Bool.and_eq_true, Bool.not_eq_true', decide_eq_true_eq] at h <;>
    split at h <;> cases h
  all_goals rename_i hg; first
    | exact .run _ _ _ _ hg.1 hg.2 | exact .refresh _ _ hg.1 hg.2 | exact .save _ hg
    | exact .canceled _ _ _ hg | exact .flush _ hg | exact .update _ hg.1 hg.2
    | exact .ticker _ _ _ _ _ hg.1 hg.2 | exact .finish _ _ _ hg.1.1 hg.1.2 hg.2
    | exact .fill _ _ hg | exact .close _ hg

/-- An invariant that every step keeps holds in every reachable state. -/
theorem Reachable.induction {I : Sys → Prop} (h₀ : I s₀)
    (hstep : ∀ {s s' e}, Reachable P F s₀ s → I s → Step P F s e s' → I s')
    (hr : Reachable P F s₀ s) : I s := by
  induction hr with
  | refl => exact h₀
  | step e hr hn ih => exact hstep hr ih (step_of_next hn)

/-- An invariant that every step the assumption allows keeps. -/
theorem ReachableUnder.induction {A : Sys → Event → Prop} {I : Sys → Prop} (h₀ : I s₀)
    (hstep : ∀ {s s' e}, I s → A s e → Step P F s e s' → I s')
    (hr : ReachableUnder P F A s₀ s) : I s := by
  induction hr with
  | refl => exact h₀
  | step e _ hA hn ih => exact hstep ih hA (step_of_next hn)

theorem ReachableUnder.reachable {A : Sys → Event → Prop} (hr : ReachableUnder P F A s₀ s) :
    Reachable P F s₀ s := by
  induction hr with
  | refl => exact .refl
  | step e _ _ hn ih => exact ih.step e hn

theorem Sys.running_of_looping (h : s.looping = true) : s.running = true := by
  simp only [Sys.looping, Bool.and_eq_true] at h
  exact h.1

theorem answers_iff {es : List (Σ _ : OrderID, Order)} {get : OrderID → Except String Order} :
    s.answers F es get = true ↔ es.Perm s.lim.orderMap.entries ∧
      ∀ e ∈ es, e.2.done = false → ∀ r, get e.1 = .ok r → r.orderID = e.1 ∧ F s.book r = true := by
  simp only [Sys.answers, Bool.and_eq_true, decide_eq_true_eq, List.all_eq_true, Bool.or_eq_true]
  refine and_congr_right fun _ => forall₂_congr fun e _ => ?_
  cases get e.1 <;> cases e.2.done <;> simp

end Steps

/-! ### Handlers that may fail

An `Outcome` says what holds of a handler's state on success and on failure; the
combinators follow `onTicker`'s `do` block. -/

/-- `I` of the state on success, `J` of the state carried by a failure. -/
def Outcome (I J : Sys → Prop) : Except (String × Sys) Sys → Prop
  | .ok s => I s
  | .error (_, s) => J s

theorem Outcome.bind {I K J : Sys → Prop} {r : Except (String × Sys) Sys}
    {f : Sys → Except (String × Sys) Sys} (hr : Outcome K J r) (hf : ∀ s, K s → Outcome I J (f s)) :
    Outcome I J (r >>= f) := by
  cases r with
  | error e => exact hr
  | ok s => exact hf s hr

theorem Outcome.map {I K J : Sys → Prop} {r : Except (String × Sys) Sys} {f : Sys → Sys}
    (hr : Outcome K J r) (hf : ∀ s, K s → I (f s)) : Outcome I J (r.map f) := by
  cases r with
  | error e => exact hr
  | ok s => exact hf s hr

theorem Outcome.mono {I K J : Sys → Prop} {r : Except (String × Sys) Sys} (hr : Outcome I J r)
    (h : ∀ s, I s → K s) : Outcome K J r := by
  cases r with
  | error e => exact hr
  | ok s => exact h s hr

theorem Outcome.ite {I J : Sys → Prop} {c : Prop} [Decidable c] {r r' : Except (String × Sys) Sys}
    (h : c → Outcome I J r) (h' : ¬c → Outcome I J r') : Outcome I J (if c then r else r') := by
  by_cases hc : c
  · rw [if_pos hc]
    exact h hc
  · rw [if_neg hc]
    exact h' hc

/-- What a ticker can do: every state it passes through, and every failure, comes from
`s` by cancelling the active order, setting `lastSizeLimit`, and, last, creating an
order when there is none. So when `R` is kept by the first two and a create turns it
into `S`, the ticker ends in `R` or `S`. -/
theorem Outcome.onTicker {R S J : Sys → Prop} {P : Product} {t sl : ℚ} {hold : Bool}
    {a : Except String Unit} {c : Except String OrderID} {s : Sys}
    (hdrop : ∀ s, R s → Outcome R J (s.dropActive a))
    (hadd : ∀ s, R s → s.active = "" → Outcome S J (s.addActive P sl c))
    (hlast : ∀ s, R s → R { s with lastSizeLimit := sl }) (hs : R s) :
    Outcome (fun s => R s ∨ S s) J (s.onTicker P t hold sl a c) := by
  -- the SELL and BUY branches: cancel when `d`, then create when `k`
  have side : ∀ (s : Sys) (d : Prop) (k : Sys → Prop) [Decidable d] [DecidablePred k], R s →
      Outcome (fun s => R s ∨ S s) J
        ((if d ∧ s.active ≠ "" then s.dropActive a else pure s) >>= fun s =>
          if k s ∧ s.active = "" then s.addActive P sl c else pure s) := fun s d k _ _ hs =>
    Outcome.bind (K := R) (Outcome.ite (fun _ => hdrop s hs) fun _ => hs) fun s₁ h₁ =>
      Outcome.ite (fun h => (hadd s₁ h₁ h.2).mono fun _ => .inr) fun _ => .inl h₁
  unfold Sys.onTicker
  refine Outcome.ite (fun _ => Outcome.ite (fun _ => (hdrop s hs).mono fun _ => .inl) fun _ => .inl hs)
    fun _ => Outcome.bind (K := R) (Outcome.ite (fun _ => (hdrop s hs).map hlast) fun _ => hs) fun s₁ h₁ => ?_
  exact Outcome.ite (fun _ => .inl h₁) fun _ =>
    Outcome.ite (fun _ => side s₁ _ (fun s => s.lim.point.cancel < t) h₁) fun _ =>
      Outcome.ite (fun _ => side s₁ _ (fun s => t < s.lim.point.cancel) h₁) fun _ => .inl h₁

/-- A ticker case ends where `onTicker` succeeds, or in `Run`'s return from the state a
failure carries. -/
theorem Outcome.tick {I J K : Sys → Prop} {P : Product} {t sl : ℚ} {hold : Bool}
    {a : Except String Unit} {c : Except String OrderID} {s : Sys}
    (h : Outcome I J (s.onTicker P t hold sl a c)) (hI : ∀ s, I s → K s)
    (hJ : ∀ s e, J s → K (s.ret (.error e))) : K (s.tick P t hold sl a c) := by
  unfold Sys.tick
  split <;> rename_i hs <;> rw [hs] at h
  · exact hI _ h
  · exact hJ _ _ h

/-! ### Fields each handler keeps -/

namespace Sys

@[simp] theorem ret_book (r : Except String Unit) (s : Sys) : (s.ret r).book = s.book := rfl
@[simp] theorem ret_lim (r : Except String Unit) (s : Sys) : (s.ret r).lim = s.lim := rfl
@[simp] theorem ret_running (r : Except String Unit) (s : Sys) : (s.ret r).running = false := rfl
@[simp] theorem ret_created (r : Except String Unit) (s : Sys) : (s.ret r).created = s.created := rfl
@[simp] theorem save_book (db : Except String Unit) (s : Sys) : (s.save db).book = s.book := rfl
@[simp] theorem save_lim (db : Except String Unit) (s : Sys) :
    (s.save db).lim = s.lim.compactOrderMap := rfl
@[simp] theorem save_active (db : Except String Unit) (s : Sys) : (s.save db).active = s.active := rfl
@[simp] theorem save_running (db : Except String Unit) (s : Sys) : (s.save db).running = s.running := rfl
@[simp] theorem save_created (db : Except String Unit) (s : Sys) : (s.save db).created = s.created := rfl

/-- An update counts as a change, updates the order map, and forgets the active order
when it reports that order done. -/
theorem onUpdate_eq (o : Order) (s : Sys) :
    s.onUpdate o = { s with
      dirty := s.dirty + 1
      lim := s.lim.updateOrderMap o
      active := if o.done ∧ o.orderID = s.active then "" else s.active } := by
  unfold onUpdate
  dsimp only
  split <;> rename_i h <;> simp only [h, if_true, if_false]

@[simp] theorem onUpdate_book (o : Order) (s : Sys) : (s.onUpdate o).book = s.book := by rw [onUpdate_eq]
@[simp] theorem onUpdate_lim (o : Order) (s : Sys) : (s.onUpdate o).lim = s.lim.updateOrderMap o := by
  rw [onUpdate_eq]
@[simp] theorem onUpdate_running (o : Order) (s : Sys) : (s.onUpdate o).running = s.running := by
  rw [onUpdate_eq]
@[simp] theorem onUpdate_created (o : Order) (s : Sys) : (s.onUpdate o).created = s.created := by
  rw [onUpdate_eq]

/-- What `start` ends in: `Run`'s return from the state before the refresh, from the
state after it, or from that state saved; or the loop, after a refresh with no failed
`Get` that left at most one order not done. -/
theorem start_cases (P : Product) (sl : ℚ) (es : List (Σ _ : OrderID, Order))
    (get : OrderID → Except String Order) (db : Except String Unit) (s : Sys) :
    (∃ r, s.start P sl es get db = s.ret r) ∨
    (∃ r, s.start P sl es get db = ({ s with lim := (s.lim.fetchOrderMap get es 0).1 } : Sys).ret r) ∨
    (∃ r, s.start P sl es get db = (({ s with lim := (s.lim.fetchOrderMap get es 0).1 } : Sys).save db).ret r) ∨
    ((s.lim.fetchOrderMap get es 0).2.2 = .ok () ∧
      ((s.lim.fetchOrderMap get es 0).1.orderMap.entries.filter fun e => !e.2.done).length ≤ 1 ∧
      s.start P sl es get db =
        { s with
          lim := (s.lim.fetchOrderMap get es 0).1
          running := true
          active := (((s.lim.fetchOrderMap get es 0).1.orderMap.entries.filter fun e => !e.2.done).head?.map
            fun e => e.2.orderID).getD ""
          lastSizeLimit := sl
          dirty := 0
          returned := none }) := by
  generalize hst : s.start P sl es get db = st
  unfold start at hst
  split at hst
  · exact .inl ⟨_, hst.symm⟩
  · dsimp only at hst
    split at hst
    · exact .inr (.inl ⟨_, hst.symm⟩)
    · rename_i hok
      split at hst
      · split at hst
        · exact .inr (.inr (.inl ⟨_, hst.symm⟩))
        · exact .inr (.inl ⟨_, hst.symm⟩)
      · split at hst
        · exact .inr (.inl ⟨_, hst.symm⟩)
        · exact .inr (.inr (.inr ⟨hok, Nat.le_of_not_gt ‹_›, hst.symm⟩))

@[simp] theorem start_book (P : Product) (sl : ℚ) (es : List (Σ _ : OrderID, Order))
    (get : OrderID → Except String Order) (db : Except String Unit) (s : Sys) :
    (s.start P sl es get db).book = s.book := by
  rcases start_cases P sl es get db s with ⟨r, h⟩ | ⟨r, h⟩ | ⟨r, h⟩ | ⟨-, -, h⟩ <;> rw [h] <;> rfl

/-- What `finish` ends in: `Run`'s return from the refreshed state, saved when no `Get`
failed. -/
theorem finish_cases (es : List (Σ _ : OrderID, Order)) (get : OrderID → Except String Order)
    (db : Except String Unit) (s : Sys) :
    (∃ e, s.finish es get db = ({ s with lim := (s.lim.fetchOrderMap get es 0).1 } : Sys).ret (.error e)) ∨
    s.finish es get db = (({ s with lim := (s.lim.fetchOrderMap get es 0).1 } : Sys).save db).ret db := by
  generalize hst : s.finish es get db = st
  unfold finish at hst
  dsimp only at hst
  split at hst
  · exact .inl ⟨_, hst.symm⟩
  · exact .inr hst.symm

/-- What a flush tick ends in: nothing when nothing is dirty, else a save, which clears
`dirty` when it commits. -/
theorem onFlush_cases (db : Except String Unit) (s : Sys) :
    (s.dirty = 0 ∧ s.onFlush db = s) ∨
    (0 < s.dirty ∧ db = .ok () ∧ s.onFlush db = { s.save (.ok ()) with dirty := 0 }) ∨
    (0 < s.dirty ∧ s.onFlush db = s.save db) := by
  generalize hst : s.onFlush db = st
  unfold onFlush at hst
  split at hst
  · rename_i hd
    split at hst
    · exact .inr (.inl ⟨hd, rfl, hst.symm⟩)
    · exact .inr (.inr ⟨hd, hst.symm⟩)
  · exact .inl ⟨Nat.eq_zero_of_not_pos ‹_›, hst.symm⟩

/-- What a cancellation ends in: with no active order, a save and the cause; with one
whose cancel succeeds, the same from the state with that order closed; with one whose
cancel fails, the cancel's error and no save. -/
theorem onCanceled_cases (cause : String) (a db : Except String Unit) (s : Sys) :
    (s.active = "" ∧ s.onCanceled cause a db = (s.save db).ret (.error cause)) ∨
    (s.active ≠ "" ∧ a = .ok () ∧ s.onCanceled cause a db =
      (({ s with book := s.book.close s.active, dirty := s.dirty + 1 } : Sys).save db).ret (.error cause)) ∨
    (∃ e, s.active ≠ "" ∧ a = .error e ∧ s.onCanceled cause a db = s.ret (.error e)) := by
  unfold onCanceled
  by_cases hact : s.active = ""
  · refine .inl ⟨hact, ?_⟩
    rw [if_neg (not_not.mpr hact)]
  · rw [if_pos hact]
    cases a with
    | ok u => exact .inr (.inl ⟨hact, rfl, rfl⟩)
    | error e => exact .inr (.inr ⟨e, hact, rfl, rfl⟩)

@[simp] theorem finish_book (es : List (Σ _ : OrderID, Order)) (get : OrderID → Except String Order)
    (db : Except String Unit) (s : Sys) : (s.finish es get db).book = s.book := by
  rcases finish_cases es get db s with ⟨e, h⟩ | h <;> rw [h] <;> rfl

@[simp] theorem onFlush_book (db : Except String Unit) (s : Sys) : (s.onFlush db).book = s.book := by
  rcases onFlush_cases db s with ⟨-, h⟩ | ⟨-, -, h⟩ | ⟨-, h⟩ <;> rw [h] <;> rfl

theorem onCanceled_book (cause : String) (a db : Except String Unit) (s : Sys) :
    (s.onCanceled cause a db).book = s.book ∨ (s.onCanceled cause a db).book = s.book.close s.active := by
  rcases onCanceled_cases cause a db s with ⟨-, h⟩ | ⟨-, -, h⟩ | ⟨e, -, -, h⟩ <;> rw [h]
  · exact .inl rfl
  · exact .inr rfl
  · exact .inl rfl

theorem onUpdate_active (o : Order) (s : Sys) :
    (s.onUpdate o).active = if o.done ∧ o.orderID = s.active then "" else s.active := by
  rw [onUpdate_eq]

theorem create_error (P : Product) (sl : ℚ) (e : String) (s : Sys) :
    s.create P sl (.error e) = .error (e, s) := by
  simp [create, Limiter.create_error]

theorem create_ok (P : Product) (sl : ℚ) (id : OrderID) (s : Sys) :
    s.create P sl (.ok id) = .ok (id, { s with
      lim := (s.lim.create (.ok id)).2
      book := s.book.place id (if s.lim.isSell then "SELL" else "BUY") (s.lim.orderSize sl P.baseMinSize)
      created := s.created ++ [id] }) := rfl

end Sys

/-! ### Relations every step keeps -/

/-- A relation between states that `Run`'s building blocks keep: a refresh over the
order map's entries, a save, `updateOrderMap`, a successful create, and any change that
leaves the limiter and `created` as they are. -/
structure Kept (Q : Sys → Sys → Prop) : Prop where
  refl : ∀ s, Q s s
  trans : ∀ {s₁ s₂ s₃}, Q s₁ s₂ → Q s₂ s₃ → Q s₁ s₃
  frame : ∀ {s s'}, s'.lim = s.lim → s'.created = s.created → Q s s'
  fetch : ∀ s (get : OrderID → Except String Order) (es : List (Σ _ : OrderID, Order)) (n : Nat),
    es.Perm s.lim.orderMap.entries → Q s { s with lim := (s.lim.fetchOrderMap get es n).1 }
  save : ∀ s db, Q s (s.save db)
  update : ∀ s (o : Order), Q s { s with lim := s.lim.updateOrderMap o }
  create : ∀ s (id : OrderID), Q s { s with lim := (s.lim.create (.ok id)).2, created := s.created ++ [id] }

namespace Kept

variable {Q : Sys → Sys → Prop} (hQ : Kept Q) {P : Product} {F : Book → Order → Bool} {s : Sys}
include hQ

theorem start {sl : ℚ} {es : List (Σ _ : OrderID, Order)} {get : OrderID → Except String Order}
    {db : Except String Unit} (hperm : es.Perm s.lim.orderMap.entries) :
    Q s (s.start P sl es get db) := by
  have hf := hQ.fetch s get es 0 hperm
  rcases Sys.start_cases P sl es get db s with ⟨r, h⟩ | ⟨r, h⟩ | ⟨r, h⟩ | ⟨-, -, h⟩ <;> rw [h]
  · exact hQ.frame rfl rfl
  · exact hQ.trans hf (hQ.frame rfl rfl)
  · exact hQ.trans (hQ.trans hf (hQ.save _ db)) (hQ.frame rfl rfl)
  · exact hQ.trans hf (hQ.frame rfl rfl)

theorem finish {es : List (Σ _ : OrderID, Order)} {get : OrderID → Except String Order}
    {db : Except String Unit} (hperm : es.Perm s.lim.orderMap.entries) :
    Q s (s.finish es get db) := by
  have hf := hQ.fetch s get es 0 hperm
  rcases Sys.finish_cases es get db s with ⟨e, h⟩ | h <;> rw [h]
  · exact hQ.trans hf (hQ.frame rfl rfl)
  · exact hQ.trans (hQ.trans hf (hQ.save _ db)) (hQ.frame rfl rfl)

theorem onCanceled {cause : String} {a db : Except String Unit} : Q s (s.onCanceled cause a db) := by
  rcases Sys.onCanceled_cases cause a db s with ⟨-, h⟩ | ⟨-, -, h⟩ | ⟨e, -, -, h⟩ <;> rw [h]
  · exact hQ.trans (hQ.save _ db) (hQ.frame rfl rfl)
  · exact hQ.trans (hQ.frame rfl rfl) (hQ.trans (hQ.save _ db) (hQ.frame rfl rfl))
  · exact hQ.frame rfl rfl

theorem onFlush {db : Except String Unit} : Q s (s.onFlush db) := by
  rcases Sys.onFlush_cases db s with ⟨-, h⟩ | ⟨-, -, h⟩ | ⟨-, h⟩ <;> rw [h]
  · exact hQ.refl s
  · exact hQ.trans (hQ.save _ (.ok ())) (hQ.frame rfl rfl)
  · exact hQ.save _ _

theorem onUpdate {o : Order} : Q s (s.onUpdate o) :=
  hQ.trans (hQ.update s o) (hQ.frame (by simp) (by simp))

theorem tick {t sl : ℚ} {hold : Bool} {a : Except String Unit} {c : Except String OrderID} :
    Q s (s.tick P t hold sl a c) := by
  have hdrop : ∀ s', Q s s' → Outcome (Q s) (Q s) (s'.dropActive a) := fun s' h => by
    cases a with
    | error e => exact h
    | ok u => exact hQ.trans h (hQ.frame rfl rfl)
  have hadd : ∀ s', Q s s' → Outcome (Q s) (Q s) (s'.addActive P sl c) := fun s' h => by
    cases c with
    | error e =>
      simp only [Sys.addActive, Sys.create_error, Except.map]
      exact h
    | ok id =>
      simp only [Sys.addActive, Sys.create_ok, Except.map, Outcome]
      exact hQ.trans h (hQ.trans (hQ.create s' id) (hQ.frame rfl rfl))
  have ho : Outcome (fun s' => Q s s' ∨ Q s s') (Q s) (s.onTicker P t hold sl a c) :=
    Outcome.onTicker hdrop (fun s' h _ => hadd s' h) (fun s' h => hQ.trans h (hQ.frame rfl rfl))
      (hQ.refl s)
  exact Outcome.tick ho (fun _ => or_self_iff.mp) fun _ _ h => hQ.trans h (hQ.frame rfl rfl)

/-- Every step keeps `Q`. -/
theorem step {e : Event} {s' : Sys} (h : Step P F s e s') : Q s s' := by
  cases h with
  | run sl es get db _ hans => exact hQ.start (answers_iff.mp hans).1
  | refresh es get _ hans => exact hQ.fetch s get es 0 (answers_iff.mp hans).1
  | save db _ => exact hQ.save s db
  | canceled cause a db _ => exact hQ.onCanceled
  | flush db _ => exact hQ.onFlush
  | update o _ _ => exact hQ.onUpdate
  | ticker t hold sl a c _ _ => exact hQ.tick
  | finish es get db _ _ hans => exact hQ.finish (answers_iff.mp hans).1
  | fill id q _ => exact hQ.frame rfl rfl
  | close id _ => exact hQ.frame rfl rfl

theorem reachable {s₀ : Sys} (hr : Reachable P F s₀ s) : Q s₀ s :=
  Reachable.induction (hQ.refl s₀) (fun _ h hs => hQ.trans h (hQ.step hs)) hr

end Kept

/-- The point is never changed. -/
theorem kept_point : Kept fun s s' => s'.lim.point = s.lim.point where
  refl _ := rfl
  trans h₁ h₂ := h₂.trans h₁
  frame h _ := by rw [h]
  fetch _ _ _ _ _ := Limiter.fetchOrderMap_point _ _ _ _
  save _ _ := rfl
  update _ _ := Limiter.updateOrderMap_point _ _
  create _ _ := Limiter.create_point _ _

/-- The uid is never changed. -/
theorem kept_uid : Kept fun s s' => s'.lim.uid = s.lim.uid where
  refl _ := rfl
  trans h₁ h₂ := h₂.trans h₁
  frame h _ := by rw [h]
  fetch _ _ _ _ _ := Limiter.fetchOrderMap_uid _ _ _ _
  save _ _ := rfl
  update _ _ := Limiter.updateOrderMap_uid _ _
  create _ _ := Limiter.create_uid _ _

/-! ### Fixed states for the runs below and in the modules that import this one -/

/-- The product of the runs below. -/
def product₀ : Product := ⟨"P", 1 / 2⟩

/-- A SELL limiter of size 1 above 100, cancelled at or below 95, holding the orders
`os` as it created them. -/
def sellLimiter (os : List OrderID) : Limiter where
  productID := "P"
  exchangeName := "X"
  uid := "u"
  point := ⟨1, 100, 95⟩
  idgen := ⟨"u", 0⟩
  clientServerMap := ∅
  orderMap := os.foldl (fun m id => m.insert id (Limiter.newOrder id "" "SELL")) ∅

/-- `sellLimiter os` between runs, each of `os` live on the exchange. -/
def withLive (os : List OrderID) : Sys where
  lim := sellLimiter os
  book := os.foldl (fun b id => b.place id "SELL" 1) ∅
  db := Store.empty
  running := false
  active := ""
  lastSizeLimit := 0
  dirty := 0
  returned := none
  created := []

/-- The exchange answers every `Get` with the order as the limiter holds it. -/
def echo (v : Limiter) (id : OrderID) : Except String Order :=
  (v.orderMap.lookup id).elim (.error "not found") .ok

end Tradebot
