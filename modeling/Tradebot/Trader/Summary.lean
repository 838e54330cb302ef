import Tradebot.Basic

/-! `trader.Summary` and `Summarize`.

`Summarize` walks the statuses once, adding each status's counters and amounts into a
running summary and merging its time period into the one so far. Decimal `Add` and
`Sub` are exact, so each field of the result is the sum of that field over the
statuses, and so is each quantity built from the fields by sums and differences:
`Sold`, `Bought`, `Fees` and `Profit` (`Additive.summarize`). From that, the counters
and amounts of a concatenation are the sums of those of its parts, and no reordering
of the statuses changes them (`summarize_append_totals`).

`timerange` is not in the sources: the type `T` of a time period, its zero value, and
`timerange.Union` (a nil range is `none`) are parameters. -/
namespace Tradebot

namespace Trader

/-- `trader.Summary`, over the type `T` of `timerange.Range`. -/
structure Summary (T : Type) where
  timePeriod : T
  numSells : Int
  numBuys : Int
  budget : ℚ
  soldFees : ℚ
  soldSize : ℚ
  soldValue : ℚ
  boughtFees : ℚ
  boughtSize : ℚ
  boughtValue : ℚ
  unsoldFees : ℚ
  unsoldSize : ℚ
  unsoldValue : ℚ
  oversoldFees : ℚ
  oversoldSize : ℚ
  oversoldValue : ℚ

/-- Modelled from its uses: `trader.Status`, of which `Summarize` reads the summary
fields it embeds. -/
structure Status (T : Type) extends Summary T

/-- The counter fields of a summary, by name. -/
inductive Counter where
  | numSells
  | numBuys

/-- The decimal fields of a summary, by name. -/
inductive Amount where
  | budget
  | soldFees
  | soldSize
  | soldValue
  | boughtFees
  | boughtSize
  | boughtValue
  | unsoldFees
  | unsoldSize
  | unsoldValue
  | oversoldFees
  | oversoldSize
  | oversoldValue

namespace Summary

variable {T : Type}

/-- `new(Summary)`: every field at its zero value. -/
def zero [Zero T] : Summary T := ⟨0, 0, 0, 0, 0, 0, 0, 0, 0, 0, 0, 0, 0, 0, 0, 0⟩

/-- The body of `Summarize`'s loop but for the time period: `s`'s counters and amounts
added into `sum`. -/
def add (sum s : Summary T) : Summary T :=
  { sum with
    numBuys := sum.numBuys + s.numBuys
    numSells := sum.numSells + s.numSells
    budget := sum.budget + s.budget
    soldFees := sum.soldFees + s.soldFees
    soldSize := sum.soldSize + s.soldSize
    soldValue := sum.soldValue + s.soldValue
    boughtFees := sum.boughtFees + s.boughtFees
    boughtSize := sum.boughtSize + s.boughtSize
    boughtValue := sum.boughtValue + s.boughtValue
    unsoldFees := sum.unsoldFees + s.unsoldFees
    unsoldSize := sum.unsoldSize + s.unsoldSize
    unsoldValue := sum.unsoldValue + s.unsoldValue
    oversoldFees := sum.oversoldFees + s.oversoldFees
    oversoldSize := sum.oversoldSize + s.oversoldSize
    oversoldValue := sum.oversoldValue + s.oversoldValue }

def sold (s : Summary T) : ℚ := s.soldValue - s.oversoldValue

def bought (s : Summary T) : ℚ := s.boughtValue - s.unsoldValue

def fees (s : Summary T) : ℚ :=
  let sfees := s.soldFees - s.oversoldFees
  let bfees := s.boughtFees - s.unsoldFees
  sfees + bfees

def profit (s : Summary T) : ℚ :=
  let svalue := s.soldValue - s.oversoldValue
  let bvalue := s.boughtValue - s.unsoldValue
  let sfees := s.soldFees - s.oversoldFees
  let bfees := s.boughtFees - s.unsoldFees
  svalue - bvalue - bfees - sfees

/-- A counter field. -/
def counter (s : Summary T) : Counter → Int
  | .numSells => s.numSells
  | .numBuys => s.numBuys

/-- A decimal field. -/
def amount (s : Summary T) : Amount → ℚ
  | .budget => s.budget
  | .soldFees => s.soldFees
  | .soldSize => s.soldSize
  | .soldValue => s.soldValue
  | .boughtFees => s.boughtFees
  | .boughtSize => s.boughtSize
  | .boughtValue => s.boughtValue
  | .unsoldFees => s.unsoldFees
  | .unsoldSize => s.unsoldSize
  | .unsoldValue => s.unsoldValue
  | .oversoldFees => s.oversoldFees
  | .oversoldSize => s.oversoldSize
  | .oversoldValue => s.oversoldValue

end Summary

section Summarize

variable {T : Type} [Zero T] (union : Option T → Option T → Option T)

/-- One pass of `Summarize`'s loop, at index `i` with status `s`: the time period so
far (nil before the first status) and the running summary. -/
def summarizeStep (acc : Option T × Summary T) (is : ℕ × Status T) : Option T × Summary T :=
  let tr := if is.1 = 0 then some is.2.timePeriod else union acc.1 (some is.2.timePeriod)
  (tr, acc.2.add is.2.toSummary)

/-- `Summarize`, with `timerange.Union` as `union`. -/
def summarize (statuses : List (Status T)) : Summary T :=
  let r := statuses.enum.foldl (summarizeStep union) (none, Summary.zero)
  match r.1 with
  | some tr => { r.2 with timePeriod := tr }
  | none => r.2

/-- A quantity of a summary that `add` adds up, that is zero on `new(Summary)`, and that
the time period does not enter. -/
structure Additive {M : Type} [AddCommMonoid M] (g : Summary T → M) : Prop where
  add : ∀ a b, g (a.add b) = g a + g b
  zero : g Summary.zero = 0
  period : ∀ a r, g { a with timePeriod := r } = g a

namespace Additive

variable {M : Type} [AddCommMonoid M] {g : Summary T → M}

/-- **Loop lemma.** From any running summary, the loop adds `g` of every status it
visits. -/
theorem foldl (hg : Additive g) (acc : Option T × Summary T) (l : List (ℕ × Status T)) :
    g (l.foldl (summarizeStep union) acc).2 = g acc.2 + (l.map fun is => g is.2.toSummary).sum := by
  induction l generalizing acc with
  | nil => rw [List.foldl_nil, List.map_nil, List.sum_nil, add_zero]
  | cons is l ih =>
    rw [List.foldl_cons, ih, List.map_cons, List.sum_cons, ← add_assoc]
    exact congrArg (· + _) (hg.add _ _)

/-- `g` of `Summarize` is the sum of `g` over the statuses. -/
theorem summarize (hg : Additive g) (xs : List (Status T)) :
    g (summarize union xs) = (xs.map fun s => g s.toSummary).sum := by
  have hperiod : g (Trader.summarize union xs) = g (xs.enum.foldl (summarizeStep union) (none, .zero)).2 := by
    unfold Trader.summarize
    dsimp only
    split
    · exact hg.period _ _
    · rfl
  rw [hperiod, hg.foldl, hg.zero, zero_add,
    show (fun is : ℕ × Status T => g is.2.toSummary) = (fun s => g s.toSummary) ∘ Prod.snd from rfl,
    ← List.map_map, List.enum_map_snd]

theorem summarize_append (hg : Additive g) (xs ys : List (Status T)) :
    g (Trader.summarize union (xs ++ ys)) = g (Trader.summarize union xs) + g (Trader.summarize union ys) := by
  rw [hg.summarize, hg.summarize, hg.summarize, List.map_append, List.sum_append]

theorem summarize_perm (hg : Additive g) {xs xs' : List (Status T)} (h : xs'.Perm xs) :
    g (Trader.summarize union xs') = g (Trader.summarize union xs) := by
  rw [hg.summarize, hg.summarize, (h.map _).sum_eq]

end Additive

theorem additive_counter (f : Counter) : Additive fun s : Summary T => s.counter f :=
  ⟨fun _ _ => by cases f <;> rfl, by cases f <;> rfl, fun _ _ => by cases f <;> rfl⟩

theorem additive_amount (f : Amount) : Additive fun s : Summary T => s.amount f :=
  ⟨fun _ _ => by cases f <;> rfl, by cases f <;> rfl, fun _ _ => by cases f <;> rfl⟩

theorem additive_sold : Additive fun s : Summary T => s.sold :=
  ⟨fun _ _ => by simp only [Summary.sold, Summary.add]; ring, sub_zero 0, fun _ _ => rfl⟩

theorem additive_bought : Additive fun s : Summary T => s.bought :=
  ⟨fun _ _ => by simp only [Summary.bought, Summary.add]; ring, sub_zero 0, fun _ _ => rfl⟩

theorem additive_fees : Additive fun s : Summary T => s.fees :=
  ⟨fun _ _ => by simp only [Summary.fees, Summary.add]; ring, by simp only [Summary.fees, Summary.zero]; ring,
    fun _ _ => rfl⟩

theorem additive_profit : Additive fun s : Summary T => s.profit :=
  ⟨fun _ _ => by simp only [Summary.profit, Summary.add]; ring, by simp only [Summary.profit, Summary.zero]; ring,
    fun _ _ => rfl⟩

/-- **Summaries add up.** Every counter and decimal field of the summary of `xs ++ ys`
is the sum of that field in the summaries of `xs` and `ys`; reordering the statuses
changes none of them; and `Profit`, `Fees`, `Sold` and `Bought` of a summary are the
sums of the same quantities over the statuses. -/
theorem summarize_append_totals (xs ys : List (Status T)) :
    (∀ f, (summarize union (xs ++ ys)).counter f = (summarize union xs).counter f + (summarize union ys).counter f) ∧
    (∀ f, (summarize union (xs ++ ys)).amount f = (summarize union xs).amount f + (summarize union ys).amount f) ∧
    (∀ xs' : List (Status T), xs'.Perm xs →
      (∀ f, (summarize union xs').counter f = (summarize union xs).counter f) ∧
      ∀ f, (summarize union xs').amount f = (summarize union xs).amount f) ∧
    (summarize union xs).profit = (xs.map (·.profit)).sum ∧ (summarize union xs).fees = (xs.map (·.fees)).sum ∧
    (summarize union xs).sold = (xs.map (·.sold)).sum ∧ (summarize union xs).bought = (xs.map (·.bought)).sum :=
  ⟨fun f => (additive_counter f).summarize_append union xs ys,
    fun f => (additive_amount f).summarize_append union xs ys,
    fun _ h => ⟨fun f => (additive_counter f).summarize_perm union h,
      fun f => (additive_amount f).summarize_perm union h⟩,
    additive_profit.summarize union xs, additive_fees.summarize union xs, additive_sold.summarize union xs,
    additive_bought.summarize union xs⟩

end Summarize

end Trader

end Tradebot
