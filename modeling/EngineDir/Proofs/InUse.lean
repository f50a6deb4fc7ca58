import EngineDir.Proofs.Lifetime
import EngineDir.Proofs.Lineage

/-!
# What is in use

What holds of the stores and the handles of every world that comes about: who has a lock,
and which files are open.

* `World.InUse`: a store that is not closed has its lock, and so has a store with an open
  handle.
* `World.run_inUse`: **that holds after every run.**
-/

namespace EngineDir

namespace World

/-- What holds of stores and handles in every world. -/
structure InUse (w : World) : Prop where
  /-- A store that is not closed has its owner and its lock. -/
  unclosed : ∀ s st, w.stores.get? s = some st → st.closed = false →
    st.owned = true ∧ ∃ l, st.lock = some l
  /-- A store that has a log has its lock. -/
  log : ∀ s st l, w.stores.get? s = some st → st.log = some l → ∃ k, st.lock = some k
  /-- A store with an open handle has its lock, and lists the file. -/
  handle : ∀ h s x, w.handles.get? h = some ⟨s, x⟩ → x.isClosed = false →
    ∃ st l, w.stores.get? s = some st ∧ st.lock = some l ∧ x.id ∈ st.openIds
  /-- No two open handles of a store have the same file. -/
  inj : ∀ h h' s x x', w.handles.get? h = some ⟨s, x⟩ → x.isClosed = false →
    w.handles.get? h' = some ⟨s, x'⟩ → x'.isClosed = false → x.id = x'.id → h = h'
  /-- A store lists no other files. -/
  listed : ∀ s st id, w.stores.get? s = some st → id ∈ st.openIds →
    ∃ h x, w.handles.get? h = some ⟨s, x⟩ ∧ x.isClosed = false ∧ x.id = id

theorem InUse.store {w : World} {h s : Nat} {x : Handle} {f : OpenFile} (hu : InUse w)
    (hx : w.handles.get? h = some ⟨s, x⟩) (hf : x.file = some f) :
    ∃ st, w.stores.get? s = some st := by
  obtain ⟨st, -, hst, -⟩ := hu.handle h s x hx (Handle.isClosed_of_file hf)
  exact ⟨st, hst⟩

theorem InUse.lock {w : World} {h s : Nat} {x : Handle} {f : OpenFile} {st : Store} (hu : InUse w)
    (hx : w.handles.get? h = some ⟨s, x⟩) (hf : x.file = some f)
    (hst : w.stores.get? s = some st) : ∃ l, st.lock = some l ∧ x.id ∈ st.openIds := by
  obtain ⟨st', l, hst', hl, hid⟩ := hu.handle h s x hx (Handle.isClosed_of_file hf)
  rw [← Option.some.inj (hst'.symm.trans hst)]
  exact ⟨l, hl, hid⟩

/-- A log goes together with the lock. -/
theorem run_log_lock (fs : FileSystem) (es : List (Clock.Reading × Event)) :
    ∀ s st l, ((ofFileSystem fs).run es).stores.get? s = some st → st.log = some l →
      ∃ k, st.lock = some k := by
  refine run_induction (P := fun _ w => ∀ s st l, w.stores.get? s = some st →
    st.log = some l → ∃ k, st.lock = some k) ?_ ?_ es
  · intro s st l hst
    cases hst
  · intro es now e ih s st' l hst' hl
    rcases step_stores hst' with ⟨st, hst, hbec⟩ | ⟨o, dir, log, k, -, -, rfl⟩
    · rcases hbec.hold with ⟨hk, hlater⟩ | ⟨-, hnone⟩
      · obtain ⟨l₀, hl₀, -⟩ := hlater l hl
        obtain ⟨k, hsome⟩ := ih s st l₀ hst hl₀
        exact ⟨k, hk.trans hsome⟩
      · rw [hnone] at hl
        cases hl
    · exact ⟨k, rfl⟩

/-- **What is in use after every run.** -/
theorem run_inUse (fs : FileSystem) (es : List (Clock.Reading × Event)) :
    InUse ((ofFileSystem fs).run es) := by
  have hbal := fun s => run_balanced fs s es
  have hlife := fun s => run_lifeOK fs s es
  refine ⟨?_, run_log_lock fs es, ?_, ?_, ?_⟩
  · intro s st hst hc
    have h := hlife s
    rw [LifeOK, life_of_get? hst, lifeOf, hc] at h
    cases ho : st.owned with
    | true =>
      rw [ho] at h
      exact ⟨rfl, Option.isSome_iff_exists.1 h.1⟩
    | false =>
      rw [ho] at h
      cases h.1
  · intro h s x hh hx
    have hbusy := (openIds_ne_nil (hbal s).perm).2 ⟨h, x, hh, hx⟩
    obtain ⟨st, hst⟩ : ∃ st, ((ofFileSystem fs).run es).stores.get? s = some st := by
      cases hst : ((ofFileSystem fs).run es).stores.get? s with
      | some st => exact ⟨st, rfl⟩
      | none =>
        rw [openIds, hst] at hbusy
        exact absurd rfl hbusy
    have hid : x.id ∈ st.openIds := by
      rw [← openIds_of_get? hst, (hbal s).perm.mem_iff]
      exact mem_unclosedIds.2 ⟨h, x, hh, hx, rfl⟩
    have hok := hlife s
    rw [LifeOK, life_of_get? hst, lifeOf] at hok
    have hlock : st.lock.isSome = true := by
      cases ho : st.owned with
      | true =>
        rw [ho] at hok
        rw [hok.1, hok.2.2 hbusy]
        rfl
      | false =>
        rw [ho] at hok
        exact hok.2.1.2 ⟨hok.2.2 hbusy, Or.inl ⟨h, x, hh⟩⟩
    obtain ⟨l, hl⟩ := Option.isSome_iff_exists.1 hlock
    exact ⟨st, l, hst, hl, hid⟩
  · exact fun h h' s x x' hh hx hh' hx' hid => (hbal s).inj hh hx hh' hx' hid
  · intro s st id hst hid
    rw [← openIds_of_get? hst, (hbal s).perm.mem_iff] at hid
    exact mem_unclosedIds.1 hid

end World

end EngineDir
