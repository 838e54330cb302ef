import Tradebot.Looper.Basic

/-! Where a looper's records go.

`Save` writes the looper's record under its key `K`, and each limiter's record under
`Limiter.key` of the limiter's uid. The `n`-th limiter of a side has the uid
`path.Join(K, "buy-NNNNNN")` or `path.Join(K, "sell-NNNNNN")` (`limiterUID`), and
`Limiter.key` files a uid under `/limiters/`, stripping a legacy `/wallers` prefix
first; between two loopers that can map two uids to one key (`key_wallers_collision`).

Within one looper it does not. Under a rooted `K`, a limiter's uid is `K`'s kept
elements followed by its name (`limiterUID_toList`); its key is a clean rooted path
that ends in that name and whose other elements are not `K`'s (`key_ofSegs`), even
when `K` starts with `/wallers` and what the strip leaves begins with `..`. Names
differ by side and, `%06d` being injective on numbers (`pad6_inj`), by index; so the
keys of a looper's limiters are pairwise distinct and none is `K`
(`limiter_keys_distinct`). -/
namespace Tradebot

namespace Limiter

theorem kept_limiters : Path.Kept "limiters".toList := by
  unfold Path.Kept
  decide

theorem key_eq_join {uid : String} (h : Strings.hasPrefix uid DefaultKeyspace = false) :
    key uid = Path.join [DefaultKeyspace, Strings.trimPrefix uid "/wallers"] := by
  simp [key, h]

/-- Under `/limiters/`, `clean` goes on from the element `limiters`. -/
theorem join_keyspace {t : String} (ht : t ≠ "") :
    (Path.join [DefaultKeyspace, t]).toList =
      Path.ofSegs (Path.cleanElems true ["limiters".toList] (Path.elems t.toList)).reverse := by
  rw [Path.join_pair (by decide) ht]
  show Path.cleanList (DefaultKeyspace.toList ++ '/' :: t.toList) = _
  rw [show DefaultKeyspace.toList ++ '/' :: t.toList =
      Path.ofSegs ["limiters".toList] ++ '/' :: ([] ++ '/' :: t.toList) from rfl,
    Path.cleanList_ofSegs_append (by simpa using kept_limiters), Path.elems_append_slash]
  rfl

/-- A `/wallers` prefix of a clean rooted uid ending in an element that does not start
with `wallers` lies within its first element. -/
theorem wallers_split {segs : List (List Char)} {nm : List Char} (hk : ∀ s ∈ segs, '/' ∉ s)
    (hw : ¬"wallers".toList <+: nm) (h : Strings.hasPrefix ⟨Path.ofSegs (segs ++ [nm])⟩ "/wallers" = true) :
    ∃ X rest, segs = ("wallers".toList ++ X) :: rest ∧
      (Strings.trimPrefix ⟨Path.ofSegs (segs ++ [nm])⟩ "/wallers").toList =
        X ++ '/' :: List.intercalate ['/'] (rest ++ [nm]) := by
  have hp : '/' :: "wallers".toList <+: Path.ofSegs (segs ++ [nm]) := List.isPrefixOf_iff_prefix.mp h
  cases segs with
  | nil =>
    rw [show Path.ofSegs ([] ++ [nm]) = '/' :: nm by simp [Path.ofSegs, List.intercalate]] at hp
    exact absurd (List.cons_prefix_cons.mp hp).2 hw
  | cons s rest =>
    obtain ⟨r, rs, hr⟩ := List.exists_cons_of_ne_nil (List.append_ne_nil_of_right_ne_nil rest (List.cons_ne_nil nm []))
    have hsplit : Path.ofSegs (s :: rest ++ [nm]) = '/' :: (s ++ '/' :: List.intercalate ['/'] (rest ++ [nm])) := by
      rw [List.cons_append, Path.ofSegs, hr]
      rfl
    rw [hsplit] at hp
    obtain ⟨X, rfl⟩ := Path.prefix_of_prefix_append_slash (by decide) (List.cons_prefix_cons.mp hp).2
    refine ⟨X, rest, rfl, ?_⟩
    rw [Strings.trimPrefix, if_pos h]
    show List.drop 8 (Path.ofSegs _) = _
    rw [hsplit, List.drop_succ_cons, List.append_assoc, List.drop_left' (show "wallers".toList.length = 7 by decide)]

/-- What the pass does with the rest of the first element after `/wallers`. -/
theorem cleanStep_limiters {X : List Char} (hX : '/' ∉ X) :
    Path.cleanStep true ["limiters".toList] X = ["limiters".toList] ∨
      (X = ['.', '.'] ∧ Path.cleanStep true ["limiters".toList] X = []) ∨
      (Path.Kept X ∧ Path.cleanStep true ["limiters".toList] X = [X, "limiters".toList]) := by
  by_cases h1 : X = [] ∨ X = ['.']
  · exact .inl (if_pos h1)
  by_cases h2 : X = ['.', '.']
  · refine .inr (.inl ⟨h2, ?_⟩)
    rw [Path.cleanStep, if_neg h1, if_pos h2]
    exact if_neg (by decide)
  · refine .inr (.inr ⟨⟨fun h => h1 (.inl h), fun h => h1 (.inr h), h2, hX⟩, ?_⟩)
    rw [Path.cleanStep, if_neg h1, if_neg h2]

/-- **What `key` does to a clean rooted uid.** The key of the uid with the kept
elements `segs` and then `nm` is a clean rooted path that ends in `nm` and whose
elements are not `segs`. -/
theorem key_ofSegs {segs : List (List Char)} {nm : List Char} (hk : ∀ s ∈ segs, Path.Kept s)
    (hn : Path.Kept nm) (hw : ¬"wallers".toList <+: nm) :
    ∃ L, (∀ s ∈ L, Path.Kept s) ∧ L ++ [nm] ≠ segs ∧
      (key ⟨Path.ofSegs (segs ++ [nm])⟩).toList = Path.ofSegs (L ++ [nm]) := by
  have hk' : ∀ s ∈ segs ++ [nm], Path.Kept s := fun s hs =>
    (List.mem_append.mp hs).elim (hk s) fun h => List.mem_singleton.mp h ▸ hn
  have hlen : ∀ {L : List (List Char)}, segs.length ≤ L.length → L ++ [nm] ≠ segs := fun h he => by
    have := congrArg List.length he
    simp only [List.length_append, List.length_singleton] at this
    omega
  cases hl : Strings.hasPrefix ⟨Path.ofSegs (segs ++ [nm])⟩ DefaultKeyspace with
  | true => exact ⟨segs, hk, hlen le_rfl, by simp [key, hl]⟩
  | false =>
    rw [key_eq_join hl]
    cases hw' : Strings.hasPrefix ⟨Path.ofSegs (segs ++ [nm])⟩ "/wallers" with
    | false =>
      have ht : Strings.trimPrefix ⟨Path.ofSegs (segs ++ [nm])⟩ "/wallers" = ⟨Path.ofSegs (segs ++ [nm])⟩ := by
        simp [Strings.trimPrefix, hw']
      rw [ht, join_keyspace (t := ⟨Path.ofSegs (segs ++ [nm])⟩) (fun h => List.cons_ne_nil _ _ (congrArg String.data h))]
      erw [Path.cleanElems_ofSegs hk',
        List.reverse_append, List.reverse_reverse]
      refine ⟨"limiters".toList :: segs, ?_, hlen (Nat.le_succ _), rfl⟩
      exact List.forall_mem_cons.mpr ⟨kept_limiters, hk⟩
    | true =>
      obtain ⟨X, rest, rfl, ht⟩ := wallers_split (fun s hs => (hk s hs).2.2.2) hw hw'
      have hX : '/' ∉ X := fun h => (hk _ (List.mem_cons_self _ _)).2.2.2 (List.mem_append_right _ h)
      have hrest : ∀ s ∈ rest ++ [nm], Path.Kept s := fun s hs => hk' s (List.mem_cons_of_mem _ hs)
      have hne : rest ++ [nm] ≠ [] := List.append_ne_nil_of_right_ne_nil rest (List.cons_ne_nil nm [])
      have he : Path.elems (Strings.trimPrefix ⟨Path.ofSegs ((("wallers".toList ++ X) :: rest) ++ [nm])⟩
          "/wallers").toList = X :: (rest ++ [nm]) := by
        rw [ht, Path.elems_append_slash, Path.elems_of_not_mem hX,
          Path.elems_intercalate (fun s hs => (hrest s hs).2.2.2) hne]
        rfl
      rw [join_keyspace fun h => List.append_ne_nil_of_right_ne_nil X (List.cons_ne_nil _ _)
          (ht.symm.trans (congrArg String.toList h)), he, Path.cleanElems_eq_foldl, List.foldl_cons,
        ← Path.cleanElems_eq_foldl, Path.cleanElems_kept _ _ hrest, List.reverse_append, List.reverse_reverse]
      rcases cleanStep_limiters hX with h | ⟨rfl, h⟩ | ⟨hkX, h⟩ <;> rw [h]
      · refine ⟨"limiters".toList :: rest, List.forall_mem_cons.mpr ⟨kept_limiters, fun s hs => hrest s ?_⟩,
          hlen le_rfl, rfl⟩
        exact List.mem_append_left _ hs
      · refine ⟨rest, fun s hs => hrest s (List.mem_append_left _ hs), fun he => hw ?_, rfl⟩
        rw [Path.eq_of_append_singleton_eq_cons he]
        exact List.prefix_append _ _
      · refine ⟨"limiters".toList :: X :: rest, ?_, hlen (by simp), rfl⟩
        exact List.forall_mem_cons.mpr ⟨kept_limiters, List.forall_mem_cons.mpr ⟨hkX, fun s hs => hrest s (List.mem_append_left _ hs)⟩⟩

end Limiter

namespace Looper

/-! ### `%06d` -/

/-- The number a string of decimal digits stands for, leading zeros included. -/
def decimalValue (l : List Char) : Nat := l.foldl (fun a c => 10 * a + (c.toNat - '0'.toNat)) 0

theorem decimalValue_append_singleton (l : List Char) (c : Char) :
    decimalValue (l ++ [c]) = 10 * decimalValue l + (c.toNat - '0'.toNat) := by
  simp only [decimalValue, List.foldl_append, List.foldl_cons, List.foldl_nil]

theorem decimalValue_zeros (m : Nat) (l : List Char) : decimalValue (List.replicate m '0' ++ l) = decimalValue l := by
  have h : ∀ m, (List.replicate m '0').foldl (fun a c => 10 * a + (c.toNat - '0'.toNat)) 0 = 0 := fun m => by
    induction m with
    | zero => rfl
    | succ m ih => rw [List.replicate_succ', List.foldl_append, ih]; rfl
  rw [decimalValue, List.foldl_append, h]
  rfl

theorem digitChar_value {k : Nat} (hk : k < 10) :
    (Nat.digitChar k).toNat - '0'.toNat = k ∧ (Nat.digitChar k).isDigit :=
  (show ∀ k : Fin 10, (Nat.digitChar k).toNat - '0'.toNat = k ∧ (Nat.digitChar k).isDigit by decide) ⟨k, hk⟩

/-- One step of `Nat.toDigitsCore`: the last digit goes in front of the digits so far. -/
theorem toDigitsCore_succ (fuel n : Nat) (ds : List Char) :
    Nat.toDigitsCore 10 (fuel + 1) n ds =
      if n / 10 = 0 then Nat.digitChar (n % 10) :: ds
      else Nat.toDigitsCore 10 fuel (n / 10) (Nat.digitChar (n % 10) :: ds) := rfl

theorem toDigitsCore_append {fuel n : Nat} (h : n < fuel) (ds : List Char) :
    Nat.toDigitsCore 10 fuel n ds = Nat.toDigitsCore 10 fuel n [] ++ ds := by
  induction fuel generalizing n ds with
  | zero => omega
  | succ fuel ih =>
    rw [toDigitsCore_succ, toDigitsCore_succ]
    split
    · rfl
    · have : n / 10 < fuel := by omega
      rw [ih this, ih this [_], List.append_assoc, List.singleton_append]

theorem toDigitsCore_spec {fuel n : Nat} (h : n < fuel) :
    decimalValue (Nat.toDigitsCore 10 fuel n []) = n ∧ ∀ c ∈ Nat.toDigitsCore 10 fuel n [], c.isDigit := by
  induction fuel generalizing n with
  | zero => omega
  | succ fuel ih =>
    have hd := digitChar_value (Nat.mod_lt n (show 10 > 0 by decide))
    rw [toDigitsCore_succ]
    split
    · rename_i h0
      refine ⟨?_, by simpa using hd.2⟩
      rw [← List.nil_append [_], decimalValue_append_singleton]
      simp only [decimalValue, List.foldl_nil, mul_zero, zero_add, hd.1]
      omega
    · have hlt : n / 10 < fuel := by omega
      rw [toDigitsCore_append hlt, decimalValue_append_singleton, (ih hlt).1, hd.1]
      refine ⟨by omega, fun c hc => ?_⟩
      rcases List.mem_append.mp hc with hc | hc
      · exact (ih hlt).2 c hc
      · simpa [List.mem_singleton.mp hc] using hd.2

/-- The digits `Nat.repr` prints stand for the number. -/
theorem toDigits_spec (n : Nat) :
    decimalValue (Nat.toDigits 10 n) = n ∧ ∀ c ∈ Nat.toDigits 10 n, c.isDigit :=
  toDigitsCore_spec (Nat.lt_succ_self n)

theorem pushn_toList (c : Char) (k : Nat) : ("".pushn c k).toList = List.replicate k c := by
  induction k with
  | zero => rfl
  | succ k ih =>
    rw [List.replicate_succ', ← ih]
    rfl

theorem pad6_toList (n : Nat) :
    (pad6 n).toList = List.replicate (6 - (toString n).length) '0' ++ Nat.toDigits 10 n := by
  show ("".pushn '0' _ ++ toString n).data = _
  rw [String.data_append]
  exact congrArg (· ++ _) (pushn_toList _ _)

theorem pad6_inj {i j : Nat} (h : pad6 i = pad6 j) : i = j := by
  have h' := congrArg (fun s => decimalValue s.toList) h
  simpa only [pad6_toList, decimalValue_zeros, (toDigits_spec _).1] using h'

theorem isDigit_of_mem_pad6 {n : Nat} {c : Char} (h : c ∈ (pad6 n).toList) : c.isDigit := by
  rw [pad6_toList] at h
  rcases List.mem_append.mp h with h | h
  · rw [List.eq_of_mem_replicate h]
    rfl
  · exact (toDigits_spec n).2 c h

/-! ### The uids and keys of a looper's limiters -/

theorem name_toList (buy : Bool) (n : Nat) :
    ((if buy then "buy" else "sell") ++ "-" ++ pad6 n).toList =
      (if buy then ['b', 'u', 'y', '-'] else ['s', 'e', 'l', 'l', '-']) ++ (pad6 n).toList := by
  cases buy <;> simp [String.toList]

/-- The last element of a limiter's uid is one `clean` keeps, and does not start with
`wallers`. -/
theorem kept_name (buy : Bool) (n : Nat) :
    Path.Kept ((if buy then "buy" else "sell") ++ "-" ++ pad6 n).toList ∧
      ¬"wallers".toList <+: ((if buy then "buy" else "sell") ++ "-" ++ pad6 n).toList := by
  have hd : '/' ∉ (pad6 n).toList := fun h => absurd (isDigit_of_mem_pad6 h) (by decide)
  rw [name_toList]
  cases buy <;> exact ⟨⟨by simp, by simp, by simp, by simpa using hd⟩, fun ⟨t, ht⟩ => by simp [String.toList] at ht⟩

theorem name_inj {b b' : Bool} {i j : Nat}
    (h : ((if b then "buy" else "sell") ++ "-" ++ pad6 i).toList =
      ((if b' then "buy" else "sell") ++ "-" ++ pad6 j).toList) : b = b' ∧ i = j := by
  rw [name_toList, name_toList] at h
  cases b <;> cases b' <;>
    simp only [Bool.false_eq_true, if_false, if_true, List.cons_append, List.nil_append, List.cons.injEq, true_and] at h
  · exact ⟨rfl, pad6_inj (String.ext h)⟩
  · exact absurd h.1 (by decide)
  · exact absurd h.1 (by decide)
  · exact ⟨rfl, pad6_inj (String.ext h)⟩

theorem isAbs_cons {K : String} (h : Path.isAbs K = true) : ∃ w, K.toList = '/' :: w := by
  obtain ⟨t, ht⟩ := List.isPrefixOf_iff_prefix.mp h
  exact ⟨t, ht.symm⟩

/-- Under a rooted key, the uid of a limiter is the key's kept elements and its name. -/
theorem limiterUID_toList {K : String} (hK : Path.isAbs K = true) (buy : Bool) (n : Nat) :
    (limiterUID K (if buy then "buy" else "sell") n).toList =
      Path.ofSegs (Path.keptElems K.toList ++ [((if buy then "buy" else "sell") ++ "-" ++ pad6 n).toList]) := by
  obtain ⟨w, hw⟩ := isAbs_cons hK
  have hK' : K ≠ "" := fun h => List.cons_ne_nil '/' w (hw.symm.trans (congrArg String.toList h))
  rw [limiterUID, Path.join_pair hK' fun h => (kept_name buy n).1.1 (congrArg String.toList h)]
  show Path.cleanList (K.toList ++ _) = _
  rw [hw, List.cons_append, Path.cleanList_eq_ofSegs, ← List.cons_append,
    Path.keptElems_append_kept w (kept_name buy n).1]

/-- The key of a limiter of a looper under a rooted key ends in the limiter's name, and
its other elements are not the looper key's. -/
theorem key_limiterUID {K : String} (hK : Path.isAbs K = true) (buy : Bool) (n : Nat) :
    ∃ L, (∀ s ∈ L, Path.Kept s) ∧
      L ++ [((if buy then "buy" else "sell") ++ "-" ++ pad6 n).toList] ≠ Path.keptElems K.toList ∧
      (Limiter.key (limiterUID K (if buy then "buy" else "sell") n)).toList =
        Path.ofSegs (L ++ [((if buy then "buy" else "sell") ++ "-" ++ pad6 n).toList]) := by
  rw [String.ext (limiterUID_toList hK buy n)]
  exact Limiter.key_ofSegs (Path.kept_keptElems _) (kept_name buy n).1 (kept_name buy n).2

theorem kept_append_name {L : List (List Char)} (hL : ∀ s ∈ L, Path.Kept s) (buy : Bool) (n : Nat) :
    ∀ s ∈ L ++ [((if buy then "buy" else "sell") ++ "-" ++ pad6 n).toList], Path.Kept s := fun s hs =>
  (List.mem_append.mp hs).elim (hL s) fun h => List.mem_singleton.mp h ▸ (kept_name buy n).1

/-- A limiter's key is never its looper's. -/
theorem key_limiterUID_ne {K : String} (hK : Path.isAbs K = true) (buy : Bool) (n : Nat) :
    Limiter.key (limiterUID K (if buy then "buy" else "sell") n) ≠ K := fun h => by
  obtain ⟨L, hL, hne, hkey⟩ := key_limiterUID hK buy n
  rw [h] at hkey
  exact hne (by rw [hkey, Path.keptElems_ofSegs (kept_append_name hL buy n)])

/-- Limiters of a looper have one key only when they are the same limiter. -/
theorem key_limiterUID_inj {K : String} (hK : Path.isAbs K = true) {b b' : Bool} {i j : Nat}
    (h : Limiter.key (limiterUID K (if b then "buy" else "sell") i) =
      Limiter.key (limiterUID K (if b' then "buy" else "sell") j)) : b = b' ∧ i = j := by
  obtain ⟨L, hL, -, hkey⟩ := key_limiterUID hK b i
  obtain ⟨L', hL', -, hkey'⟩ := key_limiterUID hK b' j
  have he := congrArg Path.keptElems (hkey.symm.trans ((congrArg String.toList h).trans hkey'))
  rw [Path.keptElems_ofSegs (kept_append_name hL b i), Path.keptElems_ofSegs (kept_append_name hL' b' j)] at he
  exact name_inj (List.singleton_inj.mp (List.append_inj' he rfl).2)

end Looper

/-- **A looper's records never share a key.** Under every rooted looper key, the keys
`Save` files the looper's limiters under differ for different sides or indices, and
none is the looper's own key. -/
theorem limiter_keys_distinct {K : String} (hK : Path.isAbs K = true) :
    (∀ (buy : Bool) (n : Nat), Limiter.key (Looper.limiterUID K (if buy then "buy" else "sell") n) ≠ K) ∧
      ∀ (b b' : Bool) (i j : Nat), Limiter.key (Looper.limiterUID K (if b then "buy" else "sell") i) =
        Limiter.key (Looper.limiterUID K (if b' then "buy" else "sell") j) → b = b' ∧ i = j :=
  ⟨Looper.key_limiterUID_ne hK, fun _ _ _ _ => Looper.key_limiterUID_inj hK⟩

/-- A looper key that `/wallers` stripping turns into `../l`. -/
theorem limiter_keys_distinct_wallers :
    Path.isAbs "/wallers../l" = true ∧
      ((∀ (buy : Bool) (n : Nat), Limiter.key (Looper.limiterUID "/wallers../l" (if buy then "buy" else "sell") n) ≠
        "/wallers../l") ∧
      ∀ (b b' : Bool) (i j : Nat), Limiter.key (Looper.limiterUID "/wallers../l" (if b then "buy" else "sell") i) =
        Limiter.key (Looper.limiterUID "/wallers../l" (if b' then "buy" else "sell") j) → b = b' ∧ i = j) :=
  have h : Path.isAbs "/wallers../l" = true := by decide
  ⟨h, limiter_keys_distinct h⟩

end Tradebot
