import EngineDir.Proofs.Runs

/-!
# Who holds the locks

A lock is held by a store that still has it or by a lock that is used without a
store, and by one of them only, through every run.

* `World.lockOf`: the lock that a holder has.
* `World.Grip`: all that a move can do to the locks.
* `World.LocksOK`: a node is locked exactly when one holder has it.
* `World.run_locksOK`: **every run keeps that.**
-/

namespace EngineDir

/-- What can hold a lock, by its number. -/
inductive Holder where
  | lock (l : Nat)
  | store (s : Nat)
  deriving DecidableEq

namespace World

variable {w w' w'' : World} {e : Event} {a : Except Failure Value} {s : Nat} {st : Store}
  {x y : Holder} {l : DirLock} {i : NodeId}

/-- The lock that a holder has. -/
def lockOf (w : World) : Holder → Option DirLock
  | .lock l => w.locks.get? l
  | .store s => (w.stores.get? s).bind Store.lock

/-- Every locked node is held, and every holder holds a node of its own. -/
structure LocksOK (w : World) : Prop where
  distinct : ∀ {x y l l'}, w.lockOf x = some l → w.lockOf y = some l' → l.node = l'.node → x = y
  locked : ∀ {i}, i ∈ w.fs.locked ↔ ∃ x l, w.lockOf x = some l ∧ l.node = i

/-- What a move does to the locks. -/
inductive Grip (w w' : World) : Prop
  | same (hx : ∀ x, w'.lockOf x = w.lockOf x) (hl : w'.fs.locked = w.fs.locked)
  | taken {x : Holder} {l : DirLock} (h : w.lockOf x = none) (h' : w'.lockOf x = some l)
      (hne : ∀ y, y ≠ x → w'.lockOf y = w.lockOf y) (hfree : l.node ∉ w.fs.locked)
      (hl : w'.fs.locked = l.node :: w.fs.locked)
  | dropped {x : Holder} {l : DirLock} (h : w.lockOf x = some l) (h' : w'.lockOf x = none)
      (hne : ∀ y, y ≠ x → w'.lockOf y = w.lockOf y)
      (hl : ∀ i, i ∈ w'.fs.locked ↔ i ∈ w.fs.locked ∧ i ≠ l.node)

theorem lockOf_store (hs : w.stores.get? s = some st) : w.lockOf (.store s) = st.lock := by
  simp [lockOf, hs]

theorem lockOf_none (hs : w.stores.get? s = none) : w.lockOf (.store s) = none := by
  simp [lockOf, hs]

/-- A world in which one store has changed. -/
theorem lockOf_insert_self (hw : w'.stores = w.stores.insert s st) :
    w'.lockOf (.store s) = st.lock := by
  simp [lockOf, hw]

theorem lockOf_insert_of_ne (hw : w'.stores = w.stores.insert s st) (hk : w'.locks = w.locks)
    (hx : x ≠ .store s) : w'.lockOf x = w.lockOf x := by
  cases x with
  | lock l => simp [lockOf, hk]
  | store s' =>
    have hne : s' ≠ s := fun h => hx (congrArg Holder.store h)
    simp only [lockOf, hw, Table.get?_insert_of_ne _ _ hne]

theorem lockOf_insert_same {st' : Store} (hs : w.stores.get? s = some st)
    (hw : w'.stores = w.stores.insert s st') (hk : w'.locks = w.locks) (hst : st'.lock = st.lock)
    (x : Holder) : w'.lockOf x = w.lockOf x := by
  by_cases hx : x = .store s
  · rw [hx, lockOf_insert_self hw, lockOf_store hs, hst]
  · exact lockOf_insert_of_ne hw hk hx

/-! ## Single moves -/

/-- A store that keeps its lock. -/
theorem grip_kept {st' : Store} (hs : w.stores.get? s = some st)
    (hw : w'.stores = w.stores.insert s st') (hk : w'.locks = w.locks) (hst : st'.lock = st.lock)
    (hl : w'.fs.locked = w.fs.locked) : Grip w w' :=
  .same (lockOf_insert_same hs hw hk hst) hl

/-- A store that gives its lock up, if it still has it. -/
theorem grip_released {st' : Store} {fs : FileSystem} (hs : w.stores.get? s = some st)
    (hw : w'.stores = w.stores.insert s st') (hk : w'.locks = w.locks) (hst : st'.lock = none)
    (hfs : w'.fs = st.releaseLock fs) (hl : fs.locked = w.fs.locked) : Grip w w' := by
  -- a store without a lock has nothing to give up
  cases hlock : st.lock with
  | none =>
    refine grip_kept hs hw hk (by rw [hst, hlock]) ?_
    rw [hfs, Store.releaseLock, hlock]
    exact hl
  | some l =>
    refine .dropped (x := .store s) (l := l) ?_ ?_ ?_ ?_
    · rw [lockOf_store hs, hlock]
    · rw [lockOf_insert_self hw, hst]
    · intro y hy
      exact lockOf_insert_of_ne hw hk hy
    · intro i
      rw [hfs, Store.releaseLock, hlock]
      simp only [DirLock.release, FileSystem.mem_locked_unlock, hl]

theorem grip_settle (w : World) (s : Nat) : Grip w (w.settle s) := by
  rcases w.settle_cases s with h | ⟨st, hs, -, h⟩
  · rw [h]
    exact .same (fun _ => rfl) rfl
  · rw [h]
    exact grip_released hs rfl rfl rfl rfl rfl

/-- What leaves the locks can come first. -/
theorem Grip.after_same (h : Grip w' w'') (hx : ∀ x, w'.lockOf x = w.lockOf x)
    (hl : w'.fs.locked = w.fs.locked) : Grip w w'' := by
  cases h with
  | same hx' hl' => exact .same (fun x => (hx' x).trans (hx x)) (hl'.trans hl)
  | taken h₀ h₁ hne hfree hl' =>
    refine .taken (by rw [← hx, h₀]) h₁ (fun y hy => (hne y hy).trans (hx y)) ?_ ?_
    · rw [← hl]; exact hfree
    · rw [hl', hl]
  | dropped h₀ h₁ hne hl' =>
    refine .dropped (by rw [← hx, h₀]) h₁ (fun y hy => (hne y hy).trans (hx y)) fun i => ?_
    rw [hl', hl]

/-- A store without a lock is settled. -/
theorem Grip.settle_unlocked (h : Grip w w') (hs : w'.lockOf (.store s) = none) :
    Grip w (w'.settle s) := by
  rcases w'.settle_cases s with he | ⟨st, hst, -, he⟩
  · rw [he]; exact h
  · rw [lockOf_store hst] at hs
    have hlocks : ∀ x, (w'.settle s).lockOf x = w'.lockOf x := by
      rw [he]
      exact lockOf_insert_same hst rfl rfl hs.symm
    have hfs : (w'.settle s).fs.locked = w'.fs.locked := by
      rw [he]
      simp only [Store.releaseLock, hs]
    cases h with
    | same hx hl => exact .same (fun x => (hlocks x).trans (hx x)) (hfs.trans hl)
    | taken h₀ h₁ hne hfree hl =>
      exact .taken h₀ ((hlocks _).trans h₁) (fun y hy => (hlocks y).trans (hne y hy)) hfree
        (hfs.trans hl)
    | dropped h₀ h₁ hne hl =>
      refine .dropped h₀ ((hlocks _).trans h₁) (fun y hy => (hlocks y).trans (hne y hy)) fun i => ?_
      rw [hfs, hl]

/-- **What a move does to the locks.** -/
theorem move_grip (hsound : w.fs.Sound) (hm : Move w e a w') : Grip w w' := by
  cases hm with
  | still hi hl => exact .same (fun x => by cases x <;> rfl) (hl hsound)
  | relogged hi hs hlog hl => exact grip_kept hs rfl rfl rfl (hl hsound)
  | moved hi hh hx hl => exact .same (fun x => by cases x <;> rfl) (hl hsound)
  | opened hs hlog hl =>
    rename_i fs s o dir log l
    obtain ⟨hfree, hl⟩ := hl hsound
    refine .taken (x := .store s) (l := l) (lockOf_none hs) ?_ ?_ hfree hl
    · simp [lockOf, Store.fresh]
    · intro y hy
      exact lockOf_insert_of_ne rfl rfl hy
  | granted he hs ho hc hid hx hh hl => exact grip_kept hs rfl rfl rfl (hl hsound)
  | turnTaken hs ho hc ht => exact grip_kept hs rfl rfl rfl rfl
  | closed hs ho hc hn => exact grip_released hs rfl rfl rfl rfl rfl
  | left hs ho hk hlog hl =>
    refine (grip_settle _ _).after_same ?_ (hl hsound)
    exact lockOf_insert_same hs rfl rfl rfl
  | ended hs ho hc hn hl =>
    rename_i fs s st
    -- the owner gives the lock up, and the settling finds none
    have hrel : Grip w { w with
        fs := st.releaseLock fs
        stores := w.stores.insert s { st.vacated with owned := false, closed := true } } :=
      grip_released hs rfl rfl rfl rfl (hl hsound)
    refine hrel.settle_unlocked ?_
    simp [lockOf, Store.vacated]
  | shut hh hs hx ha hlog hl => exact grip_kept hs rfl rfl rfl (hl hsound)
  | leaked hh hs hx hlog hl =>
    refine (grip_settle _ _).after_same ?_ (hl hsound)
    exact lockOf_insert_same hs rfl rfl rfl
  | dropped hh hx => exact (grip_settle _ _).after_same (fun x => by cases x <;> rfl) rfl
  | turnEnded ht hs =>
    refine (grip_settle _ _).after_same ?_ rfl
    exact lockOf_insert_same hs rfl rfl rfl
  | turnLost ht hs => exact .same (fun x => by cases x <;> rfl) rfl
  | acquired hk hl =>
    rename_i fs l dir lock
    obtain ⟨hfree, hl⟩ := hl hsound
    refine .taken (x := .lock l) (l := lock) hk (Table.get?_insert_self _ _ _) ?_ hfree hl
    intro y hy
    cases y with
    | lock l' =>
      have hne : l' ≠ l := fun h => hy (congrArg Holder.lock h)
      exact Table.get?_insert_of_ne _ _ hne
    | store s => rfl
  | released hk =>
    rename_i l lock
    refine .dropped (x := .lock l) (l := lock) hk (Table.get?_erase_self _ _) ?_
      fun i => FileSystem.mem_locked_unlock
    intro y hy
    cases y with
    | lock l' =>
      have hne : l' ≠ l := fun h => hy (congrArg Holder.lock h)
      exact Table.get?_erase_of_ne _ hne
    | store s => rfl

/-- A holder keeps its lock or loses it. -/
theorem Grip.lockOf_eq (h : Grip w w') (hx : w.lockOf x = some l) :
    w'.lockOf x = some l ∨ w'.lockOf x = none := by
  cases h with
  | same hx' hl => exact Or.inl ((hx' x).trans hx)
  | taken h₀ h₁ hne hfree hl =>
    rename_i y l'
    refine Or.inl ((hne x ?_).trans hx)
    rintro rfl
    rw [h₀] at hx
    cases hx
  | dropped h₀ h₁ hne hl =>
    rename_i y l'
    by_cases hy : x = y
    · subst hy
      exact Or.inr h₁
    · exact Or.inl ((hne x hy).trans hx)

/-! ## Runs -/

/-- A lock that was free is taken. -/
theorem LocksOK.taken (h : LocksOK w) (h₀ : w.lockOf x = none) (h₁ : w'.lockOf x = some l)
    (hne : ∀ y, y ≠ x → w'.lockOf y = w.lockOf y) (hfree : l.node ∉ w.fs.locked)
    (hl : w'.fs.locked = l.node :: w.fs.locked) : LocksOK w' := by
  -- no other holder has the new node, which was free
  have hnew : ∀ y l', y ≠ x → w'.lockOf y = some l' → l'.node ≠ l.node := by
    intro y l' hy hl' hn
    rw [hne y hy] at hl'
    exact hfree (h.locked.2 ⟨y, l', hl', hn⟩)
  refine ⟨?_, ?_⟩
  · intro y z l₁ l₂ hy hz hn
    by_cases hyx : y = x
    · by_cases hzx : z = x
      · rw [hyx, hzx]
      · rw [hyx, h₁] at hy
        cases hy
        exact absurd hn.symm (hnew z l₂ hzx hz)
    · by_cases hzx : z = x
      · rw [hzx, h₁] at hz
        cases hz
        exact absurd hn (hnew y l₁ hyx hy)
      · rw [hne y hyx] at hy
        rw [hne z hzx] at hz
        exact h.distinct hy hz hn
  · intro i
    rw [hl, List.mem_cons, h.locked]
    constructor
    · rintro (rfl | ⟨y, l', hy, hi⟩)
      · exact ⟨x, l, h₁, rfl⟩
      · refine ⟨y, l', ?_, hi⟩
        rw [hne y, hy]
        rintro rfl
        rw [h₀] at hy
        cases hy
    · rintro ⟨y, l', hy, hi⟩
      by_cases hyx : y = x
      · rw [hyx, h₁] at hy
        cases hy
        exact Or.inl hi.symm
      · rw [hne y hyx] at hy
        exact Or.inr ⟨y, l', hy, hi⟩

/-- A holder gives its lock up. -/
theorem LocksOK.dropped (h : LocksOK w) (h₀ : w.lockOf x = some l) (h₁ : w'.lockOf x = none)
    (hne : ∀ y, y ≠ x → w'.lockOf y = w.lockOf y)
    (hl : ∀ i, i ∈ w'.fs.locked ↔ i ∈ w.fs.locked ∧ i ≠ l.node) : LocksOK w' := by
  -- who has a lock now is another holder and had it before
  have hold : ∀ y l', w'.lockOf y = some l' → y ≠ x ∧ w.lockOf y = some l' := by
    intro y l' hy
    have hyx : y ≠ x := by
      rintro rfl
      rw [h₁] at hy
      cases hy
    exact ⟨hyx, (hne y hyx).symm.trans hy⟩
  refine ⟨?_, ?_⟩
  · intro y z l₁ l₂ hy hz hn
    exact h.distinct (hold y l₁ hy).2 (hold z l₂ hz).2 hn
  · intro i
    rw [hl, h.locked]
    constructor
    · rintro ⟨⟨y, l', hy, rfl⟩, hi⟩
      refine ⟨y, l', ?_, rfl⟩
      rw [hne y, hy]
      rintro rfl
      rw [h₀] at hy
      cases hy
      exact hi rfl
    · rintro ⟨y, l', hy, rfl⟩
      obtain ⟨hyx, hy⟩ := hold y l' hy
      exact ⟨⟨y, l', hy, rfl⟩, fun hn => hyx (h.distinct hy h₀ hn)⟩

/-- **A move keeps the locks in order.** -/
theorem LocksOK.grip (h : LocksOK w) (hg : Grip w w') : LocksOK w' := by
  cases hg with
  | same hx hl =>
    refine ⟨?_, ?_⟩
    · intro x y l l' h₁ h₂ hn
      rw [hx] at h₁ h₂
      exact h.distinct h₁ h₂ hn
    · intro i
      rw [hl, h.locked]
      simp only [hx]
  | taken h₀ h₁ hne hfree hl => exact h.taken h₀ h₁ hne hfree hl
  | dropped h₀ h₁ hne hl => exact h.dropped h₀ h₁ hne hl

theorem locksOK_ofFileSystem {fs : FileSystem} (hl : fs.locked = []) : LocksOK (ofFileSystem fs) := by
  have hnone : ∀ x, (ofFileSystem fs).lockOf x = none := by
    intro x
    cases x <;> rfl
  refine ⟨?_, ?_⟩
  · intro x y l l' hx
    rw [hnone] at hx
    cases hx
  · intro i
    simp only [hnone]
    simp [ofFileSystem, hl]

theorem step_locksOK (hs : w.fs.Sound) (h : LocksOK w) (now : Clock.Reading) (e : Event) :
    LocksOK (step now w e).world :=
  h.grip (move_grip hs (step_move now w e))

/-- **Every run keeps the locks in order.** -/
theorem run_locksOK (hs : w.fs.Sound) (h : LocksOK w) (es : List (Clock.Reading × Event)) :
    LocksOK (w.run es) :=
  run_induction (P := fun es w' => (w.run es).fs.Sound → LocksOK w') (fun _ => h)
    (fun es now e ih _ => step_locksOK (run_sound hs es) (ih (run_sound hs es)) now e) es
    (run_sound hs es)

end World

end EngineDir
