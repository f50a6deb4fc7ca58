import EngineDir.Proofs.Duties

/-!
# What becomes of stores and handles

An event changes the store that it is asked of and the handle that it names, and no
other. A store keeps its directory through its life, and a handle its file.

* `Store.Becomes`, `World.step_stores`: **what becomes of a store.**
* `World.step_elsewhere`: a store of which nothing is asked stays as it is.
* `Handle.Moved`, `World.Fate`: what becomes of a handle. `World.step_fate`: **every step is one
  of these fates.**
-/

namespace EngineDir

open FileSystem

variable {fs : FileSystem}

/-! ## Stores -/

/-- What a store becomes: its log is at most further on, or its log and its lock are gone. -/
structure Store.Becomes (st st' : Store) : Prop where
  dir : st'.dir = st.dir
  sync : st'.sync = st.sync
  hold : (st'.lock = st.lock ∧ SessionLog.Later st.log st'.log) ∨ (st'.lock = none ∧ st'.log = none)

namespace Store.Becomes

variable {st st' st'' : Store}

theorem refl (st : Store) : st.Becomes st := ⟨rfl, rfl, Or.inl ⟨rfl, .refl _⟩⟩

theorem vacated (st : Store) : st.Becomes st.vacated := ⟨rfl, rfl, Or.inr ⟨rfl, rfl⟩⟩

theorem trans (h : st.Becomes st') (h' : st'.Becomes st'') : st.Becomes st'' := by
  refine ⟨h'.dir.trans h.dir, h'.sync.trans h.sync, ?_⟩
  rcases h'.hold with ⟨hk', hl'⟩ | hgone
  · rcases h.hold with ⟨hk, hl⟩ | ⟨hk, hl⟩
    · exact Or.inl ⟨hk'.trans hk, hl.trans hl'⟩
    · refine Or.inr ⟨hk'.trans hk, Option.eq_none_iff_forall_not_mem.2 fun l hm => ?_⟩
      obtain ⟨l₀, hl₀, -⟩ := hl' l hm
      rw [hl] at hl₀
      cases hl₀
  · exact Or.inr hgone

/-- A lock that a store has it had before. -/
theorem lock_eq (h : st.Becomes st') {l : DirLock} (hl : st'.lock = some l) : st.lock = some l := by
  rcases h.hold with ⟨hk, -⟩ | ⟨hk, -⟩
  · rw [← hk, hl]
  · rw [hk] at hl
    cases hl

theorem log_later (h : st.Becomes st') : SessionLog.Later st.log st'.log := by
  rcases h.hold with ⟨-, hl⟩ | ⟨-, hl⟩
  · exact hl
  · rw [hl]
    exact .gone _

end Store.Becomes

namespace World

variable {w w' : World} {now : Clock.Reading} {e : Event} {a : Except Failure Value} {s k h : Nat}
  {st st' : Store} {x : Handle}

/-- Every store of `w'` is what became of one of `w`. -/
def StoresBecome (w w' : World) : Prop :=
  ∀ k st', w'.stores.get? k = some st' → ∃ st, w.stores.get? k = some st ∧ st.Becomes st'

theorem storesBecome_of_eq (h : w'.stores = w.stores) : StoresBecome w w' := by
  intro k st' hst'
  rw [h] at hst'
  exact ⟨st', hst', .refl st'⟩

theorem storesBecome_insert (hs : w.stores.get? s = some st) (hw : w'.stores = w.stores.insert s st')
    (hb : st.Becomes st') : StoresBecome w w' := by
  intro k st₁ hst₁
  rw [hw, Table.get?_insert] at hst₁
  split at hst₁
  · rename_i hk
    cases hst₁
    exact ⟨st, by rw [hk, hs], hb⟩
  · exact ⟨st₁, hst₁, .refl st₁⟩

theorem StoresBecome.settle (hb : StoresBecome w w') (s : Nat) : StoresBecome w (w'.settle s) := by
  intro k st' hst'
  obtain ⟨st₁, hst₁, rfl | ⟨-, -, rfl⟩⟩ := stores_settle hst'
  · exact hb k _ hst₁
  · obtain ⟨st, hst, hbec⟩ := hb k st₁ hst₁
    exact ⟨st, hst, hbec.trans (.vacated st₁)⟩

/-- What a move makes of the stores: a new one is opened, or each becomes something. -/
theorem move_stores (hm : Move w e a w') :
    StoresBecome w w' ∨ ∃ s o dir log l, e = .openStore s o ∧ w.stores.get? s = none ∧
      w'.stores = w.stores.insert s (.fresh dir o.syncManifest log l) := by
  cases hm with
  | still hi hl => exact Or.inl (storesBecome_of_eq rfl)
  | relogged hi hst hlog hl =>
    exact Or.inl (storesBecome_insert hst rfl ⟨rfl, rfl, Or.inl ⟨rfl, hlog⟩⟩)
  | moved hi hh hx hl => exact Or.inl (storesBecome_of_eq rfl)
  | opened hst hlog hl => exact Or.inr ⟨_, _, _, _, _, rfl, hst, rfl⟩
  | granted he hst ho hc hid hx hh hl =>
    exact Or.inl (storesBecome_insert hst rfl ⟨rfl, rfl, Or.inl ⟨rfl, .refl _⟩⟩)
  | turnTaken hst ho hc ht =>
    exact Or.inl (storesBecome_insert hst rfl ⟨rfl, rfl, Or.inl ⟨rfl, .refl _⟩⟩)
  | closed hst ho hc hn =>
    exact Or.inl (storesBecome_insert hst rfl ⟨rfl, rfl, Or.inr ⟨rfl, rfl⟩⟩)
  | left hst ho hk hlog hl =>
    refine Or.inl (StoresBecome.settle ?_ _)
    exact storesBecome_insert hst rfl ⟨rfl, rfl, Or.inl ⟨rfl, hlog⟩⟩
  | ended hst ho hc hn hl =>
    refine Or.inl (StoresBecome.settle ?_ _)
    exact storesBecome_insert hst rfl ⟨rfl, rfl, Or.inr ⟨rfl, rfl⟩⟩
  | shut hh hst hx ha hlog hl =>
    exact Or.inl (storesBecome_insert hst rfl ⟨rfl, rfl, Or.inl ⟨rfl, hlog⟩⟩)
  | leaked hh hst hx hlog hl =>
    refine Or.inl (StoresBecome.settle ?_ _)
    exact storesBecome_insert hst rfl ⟨rfl, rfl, Or.inl ⟨rfl, hlog⟩⟩
  | dropped hh hx => exact Or.inl ((storesBecome_of_eq rfl).settle _)
  | turnEnded ht hst =>
    refine Or.inl (StoresBecome.settle ?_ _)
    exact storesBecome_insert hst rfl ⟨rfl, rfl, Or.inl ⟨rfl, .refl _⟩⟩
  | turnLost ht hst => exact Or.inl (storesBecome_of_eq rfl)
  | acquired hk hl => exact Or.inl (storesBecome_of_eq rfl)
  | released hk => exact Or.inl (storesBecome_of_eq rfl)

/-- **What becomes of a store**: every store after a step came of one before it, or was opened. -/
theorem step_stores (hst' : (step now w e).world.stores.get? k = some st') :
    (∃ st, w.stores.get? k = some st ∧ st.Becomes st') ∨
      ∃ o dir log l, e = .openStore k o ∧ w.stores.get? k = none ∧
        st' = .fresh dir o.syncManifest log l := by
  rcases move_stores (step_move now w e) with hb | ⟨s, o, dir, log, l, he, hfree, hw⟩
  · exact Or.inl (hb k st' hst')
  · rw [hw, Table.get?_insert] at hst'
    split at hst'
    · rename_i hk
      cases hst'
      rw [hk]
      exact Or.inr ⟨o, dir, log, l, he, hfree, rfl⟩
    · exact Or.inl ⟨st', hst', .refl st'⟩

/-- What is asked of a store opens none: every store was there before. -/
theorem asked_stores (he : w.addressee? e = some s)
    (hst' : (step now w e).world.stores.get? k = some st') :
    ∃ st, w.stores.get? k = some st ∧ st.Becomes st' := by
  rcases step_stores hst' with hb | ⟨o, dir, log, l, rfl, -⟩
  · exact hb
  · cases he

/-- No store goes. -/
theorem move_keeps (hm : Move w e a w') (hst : ∃ st, w.stores.get? k = some st) :
    ∃ st', w'.stores.get? k = some st' := by
  have hinsert : ∀ s st', ∃ st'', (w.stores.insert s st').get? k = some st'' := by
    intro s st'
    rw [Table.get?_insert]
    split
    · exact ⟨_, rfl⟩
    · exact hst
  have hsettle : ∀ {w₁ : World} s, (∃ st, w₁.stores.get? k = some st) →
      ∃ st, (w₁.settle s).stores.get? k = some st := by
    intro w₁ s hst₁
    rcases w₁.settle_cases s with he | ⟨st, -, -, he⟩
    · rw [he]
      exact hst₁
    · rw [he]
      simp only [Table.get?_insert]
      split
      · exact ⟨_, rfl⟩
      · exact hst₁
  cases hm with
  | still | moved | turnLost | acquired | released => exact hst
  | relogged | opened | granted | turnTaken | closed | shut => exact hinsert _ _
  | left | ended | leaked | turnEnded => exact hsettle _ (hinsert _ _)
  | dropped => exact hsettle _ hst

/-- **What becomes of a store**, seen from before: it stays. -/
theorem step_becomes (now : Clock.Reading) (e : Event) (hst : w.stores.get? s = some st) :
    ∃ st', (step now w e).world.stores.get? s = some st' ∧ st.Becomes st' := by
  obtain ⟨st', hst'⟩ := move_keeps (step_move now w e) ⟨st, hst⟩
  rcases step_stores hst' with ⟨st₀, hst₀, hb⟩ | ⟨o, dir, log, l, -, hnone, -⟩
  · rw [Option.some.inj (hst.symm.trans hst₀)]
    exact ⟨st', hst', hb⟩
  · rw [hst] at hnone
    cases hnone

/-- A store keeps its directory. -/
theorem step_dir (hst : w.stores.get? s = some st)
    (hst' : (step now w e).world.stores.get? s = some st') : st'.dir = st.dir := by
  rcases step_stores hst' with ⟨st₀, hst₀, hb⟩ | ⟨o, dir, log, l, -, hnone, -⟩
  · rw [Option.some.inj (hst.symm.trans hst₀)]
    exact hb.dir
  · rw [hst] at hnone
    cases hnone

/-- To settle a store leaves the others. -/
theorem stores_settle_of_ne (w : World) (hk : k ≠ s) :
    (w.settle s).stores.get? k = w.stores.get? k := by
  rcases w.settle_cases s with he | ⟨st₁, -, -, he⟩
  · rw [he]
  · rw [he]
    exact Table.get?_insert_of_ne _ _ hk

theorem receiving_stores_of_ne {o : Outcome Handle} (hk : k ≠ s) :
    (w.receiving s h o).world.stores.get? k = w.stores.get? k := by
  unfold receiving
  split <;> exact Table.get?_insert_of_ne _ _ hk

theorem receivingTurn_stores_of_ne {l : Nat} {o : Outcome Nat} (hk : k ≠ s) :
    (w.receivingTurn s l o).world.stores.get? k = w.stores.get? k := by
  unfold receivingTurn
  split <;> exact Table.get?_insert_of_ne _ _ hk

theorem stepStore_stores_of_ne (hk : k ≠ s) (r : StoreRequest) :
    (w.stepStore now s st r).world.stores.get? k = w.stores.get? k := by
  cases r with
  | close => exact Table.get?_insert_of_ne _ _ hk
  | abandon => exact (stores_settle_of_ne _ hk).trans (Table.get?_insert_of_ne _ _ hk)
  | log text => exact Table.get?_insert_of_ne _ _ hk
  | list kinds => rfl
  | manifest => rfl
  | setManifest id => exact Table.get?_insert_of_ne _ _ hk
  | removeFile id => exact Table.get?_insert_of_ne _ _ hk
  | openFile h id =>
    simp only [stepStore]
    split
    · rfl
    · exact receiving_stores_of_ne hk
  | createFile h id =>
    simp only [stepStore]
    split
    · rfl
    · exact receiving_stores_of_ne hk
  | takeTurn l =>
    simp only [stepStore]
    split
    · rfl
    · exact receivingTurn_stores_of_ne hk

theorem stepHandle_stores_of_ne (hk : k ≠ s) (r : HandleRequest) :
    (w.stepHandle now h s st x r).world.stores.get? k = w.stores.get? k := by
  cases r with
  | close => exact Table.get?_insert_of_ne _ _ hk
  | abandon => exact (stores_settle_of_ne _ hk).trans (Table.get?_insert_of_ne _ _ hk)
  | _ => rfl

/-- **A store of which nothing is asked stays as it is.** -/
theorem step_elsewhere (he : w.addressee? e ≠ some k) (hk : w.stores.get? k = some st) :
    (step now w e).world.stores.get? k = some st := by
  cases e with
  | store s r =>
    have hne : k ≠ s := fun h => he (congrArg some h.symm)
    simp only [step]
    split
    · exact hk
    · split
      · exact (stepStore_stores_of_ne hne r).trans hk
      · exact hk
  | handle h r =>
    simp only [step]
    cases hh : w.handles.get? h with
    | none => exact hk
    | some x =>
      have hne : k ≠ x.store := fun h => he (by simp [addressee?, hh, h])
      simp only
      split
      · exact hk
      · split
        · exact (stepHandle_stores_of_ne hne r).trans hk
        · exact hk
  | endTurn l =>
    simp only [step]
    cases hl : w.turns.get? l with
    | none => exact hk
    | some t =>
      have hne : k ≠ t.store := fun h => he (by simp [addressee?, hl, h])
      simp only [answering, stepEndTurn]
      split
      · exact hk
      · exact (stores_settle_of_ne _ hne).trans ((Table.get?_insert_of_ne _ _ hne).trans hk)
  | openStore s o =>
    simp only [step]
    split
    · exact hk
    · rename_i hc
      have hne : k ≠ s := by
        rintro rfl
        rw [not_contains hc] at hk
        cases hk
      unfold stepOpen
      split
      · exact hk
      · exact (Table.get?_insert_of_ne _ _ hne).trans hk
  | outside o => exact hk
  | acquire l dir =>
    simp only [step]
    split
    · exact hk
    · split <;> exact hk
  | release l =>
    simp only [step]
    split <;> exact hk
  | openLog l dir rotate =>
    simp only [step]
    split
    · exact hk
    · split <;> exact hk
  | writeLog l text =>
    simp only [step]
    split
    · exact hk
    · simp only [answering]
      exact hk
  | closeLog l =>
    simp only [step]
    split <;> exact hk
  | abandonLog l =>
    simp only [step]
    split <;> exact hk
  | readManifest dir => exact hk

end World

/-! ## Handles -/

/-- The cursor of a handle has moved, at most. -/
def Handle.Moved (x x' : Handle) : Prop :=
  ∃ pos, x' = { x with file := x.file.map fun f => { f with pos := pos } }

namespace Handle

variable {x x' : Handle}

theorem moved_of_file {f : OpenFile} (hf : x.file = some f) (pos : Nat) :
    x.Moved { x with file := some { f with pos := pos } } := ⟨pos, by rw [hf]; rfl⟩

theorem Moved.refl (x : Handle) : x.Moved x := by
  cases hf : x.file with
  | none => exact ⟨0, by rw [hf]; cases x; simp_all⟩
  | some f => exact ⟨f.pos, by rw [hf]; cases x; simp_all⟩

theorem Moved.id (h : x.Moved x') : x'.id = x.id := by
  obtain ⟨pos, rfl⟩ := h
  rfl

theorem Moved.mode (h : x.Moved x') : x'.mode = x.mode := by
  obtain ⟨pos, rfl⟩ := h
  rfl

theorem Moved.trans {x'' : Handle} (h : x.Moved x') (h' : x'.Moved x'') : x.Moved x'' := by
  obtain ⟨pos, rfl⟩ := h
  obtain ⟨pos', rfl⟩ := h'
  exact ⟨pos', by cases x.file <;> rfl⟩

/-- A handle stays open on its file while its cursor moves. -/
theorem Moved.node (h : x.Moved x') : x'.file.map OpenFile.node = x.file.map OpenFile.node := by
  obtain ⟨pos, rfl⟩ := h
  cases x.file <;> rfl

theorem Moved.file {f : OpenFile} (h : x.Moved x') (hf : x.file = some f) :
    ∃ f', x'.file = some f' ∧ f'.node = f.node := by
  have hnode := h.node
  rwa [hf, Option.map_some, Option.map_eq_some_iff] at hnode

theorem file_of_file? {f : OpenFile} (hf : x.file? = .ok f) : x.file = some f := by
  unfold file? at hf
  split at hf
  · cases hf
  · rename_i f' hfile
    cases hf
    exact hfile

theorem moved_advanced {f : OpenFile} (hf : x.file? = .ok f) (count : Nat) :
    x.Moved (x.advanced fs f count) := by
  refine ⟨(fs.advance f count).pos, ?_⟩
  rw [file_of_file? hf]
  unfold advanced FileSystem.advance
  split <;> rfl

theorem moved_read (count : Nat) : x.Moved (x.read fs count).2 := by
  unfold read
  split
  · exact .refl x
  · rename_i f hf
    split
    · exact .refl x
    · exact moved_advanced hf _

theorem moved_readExact (count : Nat) : x.Moved (x.readExact fs count).2 := by
  have hr : x.Moved (x.read fs count).2 := moved_read count
  unfold readExact
  split
  · exact .refl x
  · split
    · rename_i e y he
      rw [he] at hr
      exact hr
    · rename_i b y he
      rw [he] at hr
      split <;> exact hr

theorem moved_readAll : x.Moved (x.readAll fs).2 := by
  unfold readAll
  split
  · exact .refl x
  · split
    · exact .refl x
    · split
      · exact .refl x
      · exact moved_read _

theorem moved_seek (m : Movement) : x.Moved (x.seek fs m).2 := by
  unfold seek
  split
  · exact .refl x
  · rename_i f hf
    split
    · exact .refl x
    · exact moved_of_file (file_of_file? hf) _

theorem moved_write (bytes : Bytes) : x.Moved (x.write fs bytes).2.1 := by
  unfold write
  split
  · exact .refl x
  · rename_i f hf
    simp only
    split
    · exact .refl x
    · exact moved_advanced hf _

end Handle

namespace World

variable {w w' : World} {now : Clock.Reading} {e : Event} {s k h : Nat} {st : Store} {x : Handle}

/-- What can become of the handle `h`. -/
inductive Fate (w : World) (h : Nat) (e : Event) (w' : World) : Prop
  | kept (hh : w'.handles.get? h = w.handles.get? h)
  /-- Its cursor moves, at most. -/
  | moved {r : HandleRequest} {s : Nat} {x x' : Handle} (he : e = .handle h r)
      (hh : w.handles.get? h = some ⟨s, x⟩) (hx : x.Moved x')
      (hh' : w'.handles.get? h = some ⟨s, x'⟩)
  | closed {s : Nat} {x : Handle} (he : e = .handle h .close)
      (hh : w.handles.get? h = some ⟨s, x⟩) (hh' : w'.handles.get? h = some ⟨s, x.shut⟩)
  | dropped (he : e = .handle h .abandon) (hh' : w'.handles.get? h = none)
  /-- It is a new handle of a file that was opened, or created. -/
  | opened {s : Nat} {st : Store} {id : FileId} {x : Handle} (he : e = .store s (.openFile h id))
      (hs : w.stores.get? s = some st) (ho : st.owned = true) (hfree : w.handles.get? h = none)
      (hx : (st.openFile w.fs id).result = .ok x) (hfs : w'.fs = (st.openFile w.fs id).fs)
      (hh' : w'.handles.get? h = some ⟨s, x⟩)
  | created {s : Nat} {st : Store} {id : FileId} {x : Handle}
      (he : e = .store s (.createFile h id)) (hs : w.stores.get? s = some st)
      (ho : st.owned = true) (hfree : w.handles.get? h = none)
      (hx : (st.createFile w.fs id).result = .ok x) (hfs : w'.fs = (st.createFile w.fs id).fs)
      (hh' : w'.handles.get? h = some ⟨s, x⟩)

theorem receivingTurn_handles {l : Nat} {o : Outcome Nat} :
    (w.receivingTurn s l o).world.handles = w.handles := by
  unfold receivingTurn
  split <;> rfl

/-- A handle that is received is a new one. -/
theorem receiving_cases (s h : Nat) (o : Outcome Handle) (k : Nat) :
    (w.receiving s h o).world.handles.get? k = w.handles.get? k ∨
      (k = h ∧ ∃ x, o.result = .ok x ∧
        (w.receiving s h o).world.handles.get? k = some ⟨s, x⟩) := by
  unfold receiving
  split
  · exact Or.inl rfl
  · rename_i x hx
    by_cases hk : k = h
    · exact Or.inr ⟨hk, x, hx, by rw [hk]; exact Table.get?_insert_self _ _ _⟩
    · exact Or.inl (Table.get?_insert_of_ne _ _ hk)

theorem stepStore_fate (hs : w.stores.get? s = some st) (ho : st.owned = true) (r : StoreRequest)
    (k : Nat) : Fate w k (.store s r) (w.stepStore now s st r).world := by
  cases r with
  | openFile h id =>
    simp only [stepStore]
    split
    · exact .kept rfl
    · rename_i hh
      rcases receiving_cases (w := w) s h (st.openFile w.fs id) k with hk | ⟨rfl, x, hx, hk⟩
      · exact .kept hk
      · exact .opened rfl hs ho (not_contains hh) hx (receiving_fs _) hk
  | createFile h id =>
    simp only [stepStore]
    split
    · exact .kept rfl
    · rename_i hh
      rcases receiving_cases (w := w) s h (st.createFile w.fs id) k with hk | ⟨rfl, x, hx, hk⟩
      · exact .kept hk
      · exact .created rfl hs ho (not_contains hh) hx (receiving_fs _) hk
  | abandon =>
    refine .kept ?_
    rw [stepStore]
    simp only [handles_settle]
    rfl
  | takeTurn l =>
    simp only [stepStore]
    split
    · exact .kept rfl
    · exact .kept (by rw [receivingTurn_handles])
  | _ => exact .kept rfl

/-- A transfer moves one cursor. -/
theorem fate_transferring {α : Type} {fs : FileSystem} {f : α → Value} {r : Except IoError α × Handle}
    {q : HandleRequest} (hh : w.handles.get? h = some ⟨s, x⟩) (hx : x.Moved r.2) (k : Nat) :
    Fate w k (.handle h q) ({ w with fs := fs }.transferring s h f r).world := by
  by_cases hk : k = h
  · subst hk
    exact .moved rfl hh hx (Table.get?_insert_self _ _ _)
  · exact .kept (Table.get?_insert_of_ne _ _ hk)

theorem stepHandle_fate (hh : w.handles.get? h = some ⟨s, x⟩) (r : HandleRequest) (k : Nat) :
    Fate w k (.handle h r) (w.stepHandle now h s st x r).world := by
  cases r with
  | close =>
    by_cases hk : k = h
    · subst hk
      have hself : (w.stepHandle now k s st x .close).world.handles.get? k =
          some ⟨s, (x.close w.fs st now).2⟩ := Table.get?_insert_self _ _ _
      rcases x.close_cases st w.fs now with ⟨-, he⟩ | ⟨-, hshut, -⟩
      · rw [he] at hself
        exact .kept (hself.trans hh.symm)
      · rw [hshut] at hself
        exact .closed rfl hh hself
    · exact .kept (Table.get?_insert_of_ne _ _ hk)
  | abandon =>
    have hhandles : (w.stepHandle now h s st x .abandon).world.handles = w.handles.erase h := by
      rw [stepHandle]
      simp only [handles_settle]
      rfl
    by_cases hk : k = h
    · subst hk
      exact .dropped rfl (by rw [hhandles, Table.get?_erase_self])
    · exact .kept (by rw [hhandles, Table.get?_erase_of_ne _ hk])
  | seek m => exact fate_transferring hh (Handle.moved_seek m) k
  | read n => exact fate_transferring hh (Handle.moved_read n) k
  | readExact n => exact fate_transferring hh (Handle.moved_readExact n) k
  | readAll => exact fate_transferring hh Handle.moved_readAll k
  | write bytes => exact fate_transferring hh (Handle.moved_write bytes) k
  | _ => exact .kept rfl

/-- **What becomes of a handle.** -/
theorem step_fate (now : Clock.Reading) (w : World) (e : Event) (k : Nat) :
    Fate w k e (step now w e).world := by
  cases e with
  | store s r =>
    simp only [step]
    split
    · exact .kept rfl
    · rename_i st hs
      split
      · rename_i ho
        exact stepStore_fate hs ho r k
      · exact .kept rfl
  | handle h r =>
    simp only [step]
    split
    · exact .kept rfl
    · rename_i x hh
      split
      · exact .kept rfl
      · split
        · exact stepHandle_fate hh r k
        · exact .kept rfl
  | endTurn l =>
    simp only [step]
    split
    · exact .kept rfl
    · refine .kept ?_
      simp only [answering, stepEndTurn]
      split
      · rfl
      · rw [handles_settle]
  | openStore s o =>
    simp only [step]
    split
    · exact .kept rfl
    · unfold stepOpen
      split <;> exact .kept rfl
  | outside o => exact .kept rfl
  | acquire l dir =>
    simp only [step]
    split
    · exact .kept rfl
    · split <;> exact .kept rfl
  | release l =>
    simp only [step]
    split <;> exact .kept rfl
  | openLog l dir rotate =>
    simp only [step]
    split
    · exact .kept rfl
    · split <;> exact .kept rfl
  | writeLog l text =>
    simp only [step]
    split
    · exact .kept rfl
    · refine .kept ?_
      simp only [answering]
  | closeLog l =>
    simp only [step]
    split <;> exact .kept rfl
  | abandonLog l =>
    simp only [step]
    split <;> exact .kept rfl
  | readManifest dir => exact .kept rfl

/-- **The handles of a store of which nothing is asked stay as they are.** -/
theorem handle_elsewhere (he : w.addressee? e ≠ some s)
    (hk : (step now w e).world.handles.get? k = some ⟨s, x⟩) : w.handles.get? k = some ⟨s, x⟩ := by
  cases step_fate now w e k with
  | kept hh => rw [← hh, hk]
  | moved he' hh hx hh' =>
    rw [hk] at hh'
    cases hh'
    exact absurd (by rw [he', addressee?, hh]; rfl) he
  | closed he' hh hh' =>
    rw [hk] at hh'
    cases hh'
    exact absurd (by rw [he', addressee?, hh]; rfl) he
  | dropped he' hh' =>
    rw [hk] at hh'
    cases hh'
  | opened he' hs ho hfree hx hfs hh' =>
    rw [hk] at hh'
    cases hh'
    exact absurd (by rw [he', addressee?]) he
  | created he' hs ho hfree hx hfs hh' =>
    rw [hk] at hh'
    cases hh'
    exact absurd (by rw [he', addressee?]) he

end World

end EngineDir
