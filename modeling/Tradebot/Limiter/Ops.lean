import Tradebot.Limiter.Store

/-! A limiter under its operations, one at a time.

Besides the loop's own bookkeeping a limiter changes only by `create`,
`updateOrderMap`, a refresh, `compactOrderMap`, and a restart: `Save` into the store and
`Load` of its own uid (`Limiter.reload`). `Limiter.runOps` applies a list of them and
collects the offset each successful create took from `idgen`.

A failed create gives its offset back and a successful one takes the next, so the
offsets taken are consecutive from the start, modulo 2^64 (`runOps_offsets`), and
distinct and below the current offset as long as the counter does not pass 2^64
(`consumed_offsets_distinct`); at the top of the range it wraps to 0
(`offset_wraps`). No operation writes `clientServerMap` (`runOps_clientServerMap`), so
the inverse of `orderMap` the spec asks for is never built
(`create_skips_clientServerMap`). -/
namespace Tradebot

/-- One operation on a limiter, with the answers it gets. -/
inductive Op where
  /-- `create`, with the exchange's answer. -/
  | create (answer : Except String OrderID)
  /-- `updateOrderMap`. -/
  | update (order : Order)
  /-- `fetchOrderMap`, visiting `es`, with the exchange's answers. -/
  | fetch (es : List (Σ _ : OrderID, Order)) (get : OrderID → Except String Order)
  /-- `compactOrderMap`. -/
  | compact
  /-- `Save` into `rw`, then `Load` of the limiter's uid. -/
  | reload (rw : Store)

namespace Limiter

/-- A restart: `Save` into `rw`, then `Load` of the limiter's own uid. -/
def reload (v : Limiter) (rw : Store) : Limiter :=
  match load v.uid (v.save rw).2 with
  | .ok v' => v'
  | .error _ => v

/-- One operation, and the offset a successful create took. -/
def apply (v : Limiter) : Op → Limiter × Option UInt64
  | .create a =>
    match v.create a with
    | (.ok _, v') => (v', some v.idgen.offset)
    | (.error _, v') => (v', none)
  | .update o => (v.updateOrderMap o, none)
  | .fetch es get => ((v.fetchOrderMap get es 0).1, none)
  | .compact => (v.compactOrderMap, none)
  | .reload rw => (v.reload rw, none)

/-- Operations one after another, and the offsets their successful creates took. -/
def runOps (v : Limiter) : List Op → Limiter × List UInt64
  | [] => (v, [])
  | op :: ops =>
    let r := (v.apply op).1.runOps ops
    (r.1, (v.apply op).2.toList ++ r.2)

theorem reload_eq (v : Limiter) (rw : Store) :
    v.reload rw = decode v.uid (encode v.compactOrderMap) := by
  simp only [reload, load_save_eq]

/-! ### The offset counter -/

theorem toNat_add_one (a : UInt64) : (a + 1).toNat = (a.toNat + 1) % 2 ^ 64 := by
  show (a.val + 1).val = _
  rw [Fin.val_add]
  rfl

theorem toNat_lt_two_pow (a : UInt64) : a.toNat < 2 ^ 64 := a.val.isLt

/-- A successful create takes the offset and moves it on; every other operation,
a failed create included, leaves it. -/
theorem apply_offset (v : Limiter) (op : Op) :
    ((v.apply op).2 = none ∧ (v.apply op).1.idgen.offset = v.idgen.offset) ∨
      ((v.apply op).2 = some v.idgen.offset ∧ (v.apply op).1.idgen.offset = v.idgen.offset + 1) := by
  cases op with
  | create a =>
    cases a with
    | error e => exact .inl (by simp [apply, create_error])
    | ok id => exact .inr (by simp [apply, create_ok, Generator.nextID])
  | update o => exact .inl (by simp [apply])
  | fetch es get => exact .inl (by simp [apply])
  | compact => exact .inl ⟨rfl, rfl⟩
  | reload rw => exact .inl (by simp [apply, reload_eq, decode, encode, compactOrderMap])

/-- The offsets taken are consecutive from the start, and the counter is past them,
all modulo 2^64. -/
theorem runOps_offsets (v : Limiter) (ops : List Op) :
    (v.runOps ops).2.map UInt64.toNat =
        (List.range (v.runOps ops).2.length).map (fun i => (v.idgen.offset.toNat + i) % 2 ^ 64) ∧
      (v.runOps ops).1.idgen.offset.toNat =
        (v.idgen.offset.toNat + (v.runOps ops).2.length) % 2 ^ 64 := by
  induction ops generalizing v with
  | nil => exact ⟨rfl, (Nat.mod_eq_of_lt (toNat_lt_two_pow _)).symm⟩
  | cons op ops ih =>
    obtain ⟨ih₁, ih₂⟩ := ih (v.apply op).1
    rcases apply_offset v op with ⟨hc, ho⟩ | ⟨hc, ho⟩
    · simp only [runOps, hc, Option.toList_none, List.nil_append]
      rw [ih₁, ih₂, ho]
      exact ⟨rfl, rfl⟩
    · simp only [runOps, hc, Option.toList_some, List.singleton_append, List.map_cons,
        List.length_cons]
      rw [ih₁, ih₂, ho, toNat_add_one]
      refine ⟨?_, by rw [Nat.mod_add_mod, Nat.add_right_comm, Nat.add_assoc]⟩
      rw [List.range_succ_eq_map, List.map_cons, List.map_map]
      congr 1
      · exact (Nat.mod_eq_of_lt (toNat_lt_two_pow _)).symm
      · refine List.map_congr_left fun i _ => ?_
        show ((v.idgen.offset.toNat + 1) % 2 ^ 64 + i) % 2 ^ 64 = (v.idgen.offset.toNat + (i + 1)) % 2 ^ 64
        rw [Nat.mod_add_mod, Nat.add_right_comm, Nat.add_assoc]

/-- **Offsets are taken once.** A failed create leaves the offset as it was; the
offsets successful creates took are consecutive from the start and the counter is past
them, modulo 2^64; and while the counter does not pass 2^64 they are distinct and below
the current offset. -/
theorem consumed_offsets_distinct (v : Limiter) (ops : List Op) :
    (∀ (w : Limiter) (e : String), (w.create (.error e)).2.idgen.offset = w.idgen.offset) ∧
      (v.runOps ops).2.map UInt64.toNat =
        (List.range (v.runOps ops).2.length).map (fun i => (v.idgen.offset.toNat + i) % 2 ^ 64) ∧
      (v.runOps ops).1.idgen.offset.toNat = (v.idgen.offset.toNat + (v.runOps ops).2.length) % 2 ^ 64 ∧
      (v.idgen.offset.toNat + (v.runOps ops).2.length < 2 ^ 64 →
        (v.runOps ops).2.Nodup ∧ ∀ o ∈ (v.runOps ops).2, o < (v.runOps ops).1.idgen.offset) := by
  obtain ⟨h₁, h₂⟩ := runOps_offsets v ops
  refine ⟨fun w e => by simp [create_error], h₁, h₂, fun hfit => ?_⟩
  have hr : (v.runOps ops).2.map UInt64.toNat =
      List.range' v.idgen.offset.toNat (v.runOps ops).2.length := by
    rw [h₁, List.range'_eq_map_range]
    refine List.map_congr_left fun i hi => Nat.mod_eq_of_lt ?_
    have := List.mem_range.mp hi
    omega
  refine ⟨List.Nodup.of_map _ (hr ▸ List.nodup_range' _ _), fun o ho => ?_⟩
  have hmem : o.toNat ∈ List.range' v.idgen.offset.toNat (v.runOps ops).2.length :=
    hr ▸ List.mem_map_of_mem _ ho
  show o.toNat < (v.runOps ops).1.idgen.offset.toNat
  rw [h₂, Nat.mod_eq_of_lt hfit]
  exact (List.mem_range'_1.mp hmem).2

/-- A SELL limiter with no orders, its counter at `o`. -/
def atOffset (o : UInt64) : Limiter :=
  { productID := "P", exchangeName := "X", uid := "u", point := ⟨1, 100, 95⟩, idgen := ⟨"u", o⟩,
    clientServerMap := ∅, orderMap := ∅ }

/-- Creates of `"A"` and `"B"` around one that fails. -/
def createsAB : List Op := [.create (.ok "A"), .create (.error "down"), .create (.ok "B")]

/-- The failed create gives its offset back: `"A"` and `"B"` take 0 and 1. -/
theorem consumed_offsets_distinct_createsAB :
    ((atOffset 0).runOps createsAB).2 = [0, 1] ∧
      (atOffset 0).idgen.offset.toNat + ((atOffset 0).runOps createsAB).2.length < 2 ^ 64 ∧
      ((atOffset 0).runOps createsAB).2.Nodup ∧
      ∀ o ∈ ((atOffset 0).runOps createsAB).2, o < ((atOffset 0).runOps createsAB).1.idgen.offset :=
  have hfit : (atOffset 0).idgen.offset.toNat + ((atOffset 0).runOps createsAB).2.length < 2 ^ 64 := by decide
  ⟨by decide, hfit, (consumed_offsets_distinct (atOffset 0) createsAB).2.2.2 hfit⟩

/-- At the last offset below 2^64 a successful create takes it, and the counter wraps
to 0, below the offset taken. -/
theorem offset_wraps :
    ((atOffset 18446744073709551615).runOps [.create (.ok "A")]).2 = [18446744073709551615] ∧
      ((atOffset 18446744073709551615).runOps [.create (.ok "A")]).1.idgen.offset = 0 := by
  decide

/-! ### The client-to-server map -/

theorem apply_clientServerMap (v : Limiter) (op : Op) :
    (v.apply op).1.clientServerMap = v.clientServerMap := by
  cases op with
  | create a => cases a <;> simp [apply, create_error, create_ok]
  | update o => simp [apply]
  | fetch es get => simp [apply]
  | compact => rfl
  | reload rw =>
    simp [apply, reload_eq, decode, encode, compactOrderMap, GoMap.mapVal_mapVal, GoMap.mapVal_id]

/-- No operation writes `clientServerMap`. -/
theorem runOps_clientServerMap (v : Limiter) (ops : List Op) :
    (v.runOps ops).1.clientServerMap = v.clientServerMap := by
  induction ops generalizing v with
  | nil => rfl
  | cons op ops ih => exact (ih _).trans (apply_clientServerMap v op)

/-- `New`, then a create the exchange accepts as order `A`: the order is in `orderMap`
under client id `u/0`, and `clientServerMap` has no entry for it. -/
theorem create_skips_clientServerMap :
    ((new "u" "X" "P" ⟨1, 100, 95⟩).map fun v =>
      ((((v.runOps [.create (.ok "A")]).1.orderMap.lookup "A").map Order.clientOrderID),
        (v.runOps [.create (.ok "A")]).1.clientServerMap.lookup "u/0")) = .ok (some "u/0", none) := by
  with_unfolding_all decide

end Limiter

end Tradebot
