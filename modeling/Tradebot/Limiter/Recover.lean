import Tradebot.Limiter.Persist

/-! A limiter after a crash.

`Run` writes the limiter's record only through `Save`, and a `Save` that commits
leaves the limiter in memory as it wrote it. The rest of a step changes no record: so
each step either leaves the store as it was, or ends in a state whose record the store
holds (`Sys.synced_or_db_step`). From a store that held the first state's record, at
every state of every run the store is as it was left at some state the run passed
through, and that state's record is what it holds (`Sys.synced_past`).

`limiter_load_gives_past_state`: a crash at any point of any run, followed by `Load`
of the limiter's uid, gives back the limiter of a state the run was in, compacted and
with its finish times reset, and the run went on from that state to the crash. The
store never holds a mix of two states, nor a state the limiter was not in. -/
namespace Tradebot

/-- The idgen seed is never changed. -/
theorem kept_seed : Kept fun s s' => s'.lim.idgen.seed = s.lim.idgen.seed where
  refl _ := rfl
  trans h₁ h₂ := h₂.trans h₁
  frame h _ := by rw [h]
  fetch _ _ _ _ _ := by rw [Limiter.fetchOrderMap_idgen]
  save _ _ := rfl
  update _ _ := by rw [Limiter.updateOrderMap_idgen]
  create _ _ := rfl

namespace Sys

variable {P : Product} {F : Book → Order → Bool} {s₀ s s' : Sys} {e : Event}

/-- A save leaves the store in sync, or as it was. -/
theorem save_synced_or (db : Except String Unit) (s : Sys) : (s.save db).Synced ∨ (s.save db).db = s.db := by
  cases db with
  | ok u => exact .inl (synced_save s)
  | error e => exact .inr rfl

/-- **Step lemma.** A step leaves the store as it was, or ends in a state whose record
the store holds. -/
theorem synced_or_db_step (h : Step P F s e s') : s'.Synced ∨ s'.db = s.db := by
  cases h with
  | run sl es get db _ _ =>
    rcases start_cases P sl es get db s with ⟨r, h⟩ | ⟨r, h⟩ | ⟨r, h⟩ | ⟨-, -, h⟩ <;> rw [h]
    · exact .inr rfl
    · exact .inr rfl
    · exact save_synced_or db { s with lim := (s.lim.fetchOrderMap get es 0).1 }
    · exact .inr rfl
  | refresh es get _ _ => exact .inr rfl
  | save db _ => exact save_synced_or db s
  | canceled cause a db _ =>
    rcases onCanceled_cases cause a db s with ⟨-, h⟩ | ⟨-, -, h⟩ | ⟨e, -, -, h⟩ <;> rw [h]
    · exact save_synced_or db s
    · exact save_synced_or db { s with book := s.book.close s.active, dirty := s.dirty + 1 }
    · exact .inr rfl
  | flush db _ =>
    rcases onFlush_cases db s with ⟨-, h⟩ | ⟨-, -, h⟩ | ⟨-, h⟩ <;> rw [h]
    · exact .inr rfl
    · exact .inl (synced_save s)
    · exact save_synced_or db s
  | update o _ _ =>
    rw [onUpdate_eq]
    exact .inr rfl
  | ticker t hold sl a c _ _ => exact .inr tick_db
  | finish es get db _ _ _ =>
    rcases finish_cases es get db s with ⟨e, h⟩ | h <;> rw [h]
    · exact .inr rfl
    · exact save_synced_or db { s with lim := (s.lim.fetchOrderMap get es 0).1 }
  | fill id q _ => exact .inr rfl
  | close id _ => exact .inr rfl

/-- **Run lemma.** From a synced store, at every reachable state the store is as it was
left at a synced state the run passed through. -/
theorem synced_past (h₀ : s₀.Synced) (hr : Reachable P F s₀ s) :
    ∃ m, Reachable P F s₀ m ∧ Reachable P F m s ∧ m.Synced ∧ s.db = m.db := by
  induction hr with
  | refl => exact ⟨s₀, .refl, .refl, h₀, rfl⟩
  | step e hr hn ih =>
    rcases synced_or_db_step (step_of_next hn) with hs | hs
    · exact ⟨_, hr.step e hn, .refl, hs, rfl⟩
    · obtain ⟨m, hm, hms, hsync, hdb⟩ := ih
      exact ⟨m, hm, hms.step e hn, hsync, hs.trans hdb⟩

end Sys

/-- **A crash gives back a state the limiter was in.** From a store holding `Save`'s
record of the first state, with a non-empty idgen seed, at every state of every run
`Load` of the limiter's uid succeeds and returns the limiter of a state the run passed
through on its way there, compacted and with every finish time reset. -/
theorem limiter_load_gives_past_state {P : Product} {F : Book → Order → Bool} {s₀ s : Sys} (h₀ : s₀.Synced)
    (hseed : s₀.lim.idgen.seed ≠ "") (hr : Reachable P F s₀ s) :
    ∃ m, Reachable P F s₀ m ∧ Reachable P F m s ∧
      Limiter.load s.lim.uid s.db = .ok m.lim.compactOrderMap.clearFinishTimes := by
  obtain ⟨m, hm, hms, hsync, hdb⟩ := Sys.synced_past h₀ hr
  have hs : m.lim.compactOrderMap.idgen.seed ≠ "" := by
    rwa [show m.lim.compactOrderMap.idgen.seed = m.lim.idgen.seed from rfl, kept_seed.reachable hm]
  refine ⟨m, hm, hms, ?_⟩
  rw [kept_uid.reachable hms, hdb, Limiter.load_of_get hsync]
  exact congrArg Except.ok (Limiter.decode_encode _ hs)

/-- `sellLimiter []` saved, then `Run` in its loop, having created `"A"` at 101. -/
def createdA : Sys :=
  (((withLive []).save (.ok ())).start product₀ 10 [] (echo (sellLimiter [])) (.ok ())).tick product₀ 101 false 10
    (.ok ()) (.ok "A")

/-- After the create, the store still holds the saved limiter, which `Load` gives back. -/
theorem limiter_load_gives_past_state_createdA :
    ((withLive []).save (.ok ())).Synced ∧ ((withLive []).save (.ok ())).lim.idgen.seed ≠ "" ∧
      ∃ m, Reachable product₀ exact ((withLive []).save (.ok ())) m ∧ Reachable product₀ exact m createdA ∧
        Limiter.load createdA.lim.uid createdA.db = .ok m.lim.compactOrderMap.clearFinishTimes :=
  have h₀ : ((withLive []).save (.ok ())).Synced := Sys.synced_save _
  have hseed : ((withLive []).save (.ok ())).lim.idgen.seed ≠ "" := by decide
  have h₁ : next product₀ exact ((withLive []).save (.ok ())) (.run 10 [] (echo (sellLimiter [])) (.ok ())) =
      some (((withLive []).save (.ok ())).start product₀ 10 [] (echo (sellLimiter [])) (.ok ())) :=
    by rw [next, if_pos (by with_unfolding_all decide)]
  have h₂ : next product₀ exact (((withLive []).save (.ok ())).start product₀ 10 [] (echo (sellLimiter [])) (.ok ()))
      (.ticker 101 false 10 (.ok ()) (.ok "A")) = some createdA :=
    by rw [next, if_pos (by with_unfolding_all decide)]; rfl
  ⟨h₀, hseed, limiter_load_gives_past_state h₀ hseed (.step _ (.step _ .refl h₁) h₂)⟩

end Tradebot
