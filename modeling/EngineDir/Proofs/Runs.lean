import EngineDir.Proofs.Moves

/-!
# Runs

* `World.settle_cases`: what becomes of a store when someone lets go of a share.
* `World.step_leads`: **a step keeps a sound file system sound**, and unless others
  take it, every entry `LOCK` stays bound to its node.
* `World.run_induction`: what each step keeps holds after every run.
-/

namespace EngineDir

/-- What an event may do to the file system: others take and free no lock, and all the rest leaves
the entries `LOCK`. -/
def Event.Allows : Event → Change → Prop
  | .outside _ => Change.Unlocking
  | _ => Change.Tame

namespace World

variable {w w₀ : World} {now : Clock.Reading} {e : Event} {s k : Nat} {st st' : Store}
  {es es' : List (Clock.Reading × Event)}

/-! ## Settling -/

/-- A store in which nobody has a share loses its log and its lock. -/
theorem settle_cases (w : World) (s : Nat) :
    w.settle s = w ∨ ∃ st, w.stores.get? s = some st ∧ w.isShared s st = false ∧
      w.settle s = { w with fs := st.releaseLock w.fs, stores := w.stores.insert s st.vacated } := by
  unfold settle
  split
  · exact Or.inl rfl
  · rename_i st hs
    split
    · exact Or.inl rfl
    · rename_i hsh
      exact Or.inr ⟨st, hs, by simpa using hsh, rfl⟩

@[simp] theorem handles_settle : (w.settle s).handles = w.handles := by
  rcases w.settle_cases s with h | ⟨st, -, -, h⟩ <;> rw [h]

@[simp] theorem turns_settle : (w.settle s).turns = w.turns := by
  rcases w.settle_cases s with h | ⟨st, -, -, h⟩ <;> rw [h]

theorem settle_leads (w : World) (s : Nat) : Leads Change.Tame w.fs (w.settle s).fs := by
  rcases w.settle_cases s with h | ⟨st, -, -, h⟩
  · rw [h]; exact .refl
  · rw [h]; exact Store.releaseLock_leads

/-- A store after a settling is what it was, perhaps without log and lock. -/
theorem stores_settle (h : (w.settle s).stores.get? k = some st') :
    ∃ st, w.stores.get? k = some st ∧
      (st' = st ∨ k = s ∧ w.isShared s st = false ∧ st' = st.vacated) := by
  rcases w.settle_cases s with he | ⟨st, hs, hsh, he⟩
  · rw [he] at h
    exact ⟨st', h, Or.inl rfl⟩
  · rw [he] at h
    simp only [Table.get?_insert] at h
    split at h
    · rename_i hk
      subst hk
      exact ⟨st, hs, Or.inr ⟨rfl, hsh, (Option.some.inj h).symm⟩⟩
    · exact ⟨st', h, Or.inl rfl⟩

/-! ## Steps -/

theorem receiving_fs {h : Nat} (o : Outcome Handle) : (w.receiving s h o).world.fs = o.fs := by
  unfold receiving
  split <;> rfl

theorem receivingTurn_fs {l : Nat} (o : Outcome Nat) :
    (w.receivingTurn s l o).world.fs = o.fs := by
  unfold receivingTurn
  split <;> rfl

theorem stepStore_leads (hs : w.fs.Sound) (r : StoreRequest) :
    Leads Change.Tame w.fs (w.stepStore now s st r).world.fs := by
  cases r with
  | close => exact Store.close_leads
  | abandon =>
    have hl : Leads Change.Tame w.fs (st.abandon w.fs now).fs := Store.abandon_leads
    exact hl.trans (settle_leads (w.withOutcome s (st.abandon w.fs now)) s)
  | log text =>
    have hl : Leads Change.Mild w.fs (st.logMessage w.fs now text).2 := Store.logMessage_leads
    exact hl.tame
  | list kinds => exact .refl
  | manifest => exact .refl
  | setManifest id => exact (Store.setManifest_leads hs).tame
  | removeFile id => exact (Store.removeFile_leads hs).tame
  | openFile h id =>
    simp only [stepStore]
    split
    · exact .refl
    · rw [receiving_fs, Store.openFile_fs]; exact .refl
  | createFile h id =>
    simp only [stepStore]
    split
    · exact .refl
    · rw [receiving_fs]; exact (Store.createFile_leads hs).tame
  | takeTurn l =>
    simp only [stepStore]
    split
    · exact .refl
    · rw [receivingTurn_fs, Store.takeTurn_fs]; exact .refl

theorem stepHandle_leads {h : Nat} {x : Handle} (r : HandleRequest) :
    Leads Change.Tame w.fs (w.stepHandle now h s st x r).world.fs := by
  cases r with
  | close =>
    have hl : Leads Change.Mild w.fs (x.close w.fs st now).1.fs := Handle.close_leads
    exact hl.tame
  | abandon =>
    have hl : Leads Change.Mild w.fs (x.abandon w.fs st now).fs := Handle.abandon_leads
    exact hl.tame.trans
      (settle_leads ({ w with handles := w.handles.erase h }.withOutcome s (x.abandon w.fs st now)) s)
  | write bytes =>
    have hl : Leads Change.Mild w.fs (x.write w.fs bytes).2.2 := Handle.write_leads bytes
    exact hl.tame
  | seek m => exact .refl
  | read n => exact .refl
  | readExact n => exact .refl
  | readAll => exact .refl
  | readAt pos n => exact .refl
  | readExactAt pos n => exact .refl
  | length => exact .refl
  | isEmpty => exact .refl
  | flush => exact .refl
  | sync => exact .refl

/-- **What a step does to the file system.** -/
theorem step_leads (hs : w.fs.Sound) (now : Clock.Reading) (e : Event) :
    Leads e.Allows w.fs (step now w e).world.fs := by
  cases e with
  | outside o => exact actOutside_leads hs o
  | openStore s o =>
    simp only [step]
    split
    · exact .refl
    · unfold stepOpen
      cases ho : Store.open? w.fs o with
      | mk r fs =>
        have hl := (Store.open?_cases hs ho).1
        cases r <;> exact hl
  | store s r =>
    simp only [step]
    split
    · exact .refl
    · split
      · exact stepStore_leads hs r
      · exact .refl
  | handle h r =>
    simp only [step]
    split
    · exact .refl
    · split
      · exact .refl
      · split
        · exact stepHandle_leads r
        · exact .refl
  | endTurn l =>
    simp only [step]
    split
    · exact .refl
    · rename_i t ht
      unfold stepEndTurn
      simp only
      split
      · exact .refl
      · rename_i st hst
        exact settle_leads { w with
          stores := w.stores.insert t.store (st.endTurn t.value)
          turns := w.turns.erase l } t.store
  | acquire l dir =>
    simp only [step]
    split
    · exact .refl
    · cases ha : DirLock.acquire w.fs dir with
      | mk r fs =>
        rcases DirLock.acquire_cases hs ha with ⟨_, rfl, hl⟩ | ⟨_, fs₁, rfl, hl, -, -, hfit, rfl⟩
        · exact hl.tame
        · exact hl.tame.step hfit trivial
  | release l =>
    simp only [step]
    split
    · exact .refl
    · exact unlock_leads _
  | openLog l dir rotate =>
    have hl : Leads Change.Mild w.fs (SessionLog.start w.fs dir rotate).2 :=
      SessionLog.start_leads hs rotate
    simp only [step]
    split
    · exact .refl
    · split
      · rename_i ho
        rw [ho] at hl
        exact hl.tame
      · rename_i ho
        rw [ho] at hl
        exact hl.tame
  | writeLog l text =>
    simp only [step]
    split
    · exact .refl
    · rename_i log hk
      have hl := log.write_leads w.fs now text
      generalize log.write w.fs now text = q at hl ⊢
      exact hl.tame
  | closeLog l =>
    simp only [step]
    split <;> exact .refl
  | abandonLog l =>
    simp only [step]
    split <;> exact .refl
  | readManifest dir => exact .refl

theorem step_sound (hs : w.fs.Sound) (now : Clock.Reading) (e : Event) :
    (step now w e).world.fs.Sound := (step_leads hs now e).sound hs

/-! ## Runs -/

theorem run_append : w.run (es ++ es') = (w.run es).run es' := by
  induction es generalizing w with
  | nil => rfl
  | cons p es ih => exact ih

theorem run_concat (w : World) (es : List (Clock.Reading × Event)) (now : Clock.Reading)
    (e : Event) : w.run (es ++ [(now, e)]) = (step now (w.run es) e).world := run_append

/-- What holds at the beginning and is kept by each further step holds after every run. -/
theorem run_induction {P : List (Clock.Reading × Event) → World → Prop} (h0 : P [] w₀)
    (hstep : ∀ es now e, P es (w₀.run es) → P (es ++ [(now, e)]) (step now (w₀.run es) e).world)
    (es : List (Clock.Reading × Event)) : P es (w₀.run es) := by
  -- on what is still to come, behind any run that came before
  have key : ∀ (rest pre : List (Clock.Reading × Event)), P pre (w₀.run pre) →
      P (pre ++ rest) (w₀.run (pre ++ rest)) := by
    intro rest
    induction rest with
    | nil => intro pre h; rw [List.append_nil]; exact h
    | cons p rest ih =>
      obtain ⟨now, e⟩ := p
      intro pre h
      have h' := hstep pre now e h
      rw [← run_concat] at h'
      rw [List.append_cons]
      exact ih _ h'
  exact key es [] h0

/-- So does what is kept by each step of this run. -/
theorem run_along {P : List (Clock.Reading × Event) → World → Prop}
    (es : List (Clock.Reading × Event)) (h0 : P [] w₀)
    (hstep : ∀ pre now e, pre ++ [(now, e)] <+: es → P pre (w₀.run pre) →
      P (pre ++ [(now, e)]) (step now (w₀.run pre) e).world) : P es (w₀.run es) := by
  refine run_induction (P := fun pre w => pre <+: es → P pre w) (fun _ => h0) ?_ es
    (List.prefix_refl _)
  intro pre now e ih hpre
  exact hstep pre now e hpre (ih ((List.prefix_append _ _).trans hpre))

/-- **Every run keeps a sound file system sound.** -/
theorem run_sound (hs : w.fs.Sound) (es : List (Clock.Reading × Event)) : (w.run es).fs.Sound :=
  run_induction (P := fun _ w => w.fs.Sound) hs (fun _ now e h => step_sound h now e) es

/-- No event changes what the system refuses. -/
theorem refusals_run (hs : w.fs.Sound) (es : List (Clock.Reading × Event)) :
    (w.run es).fs.refusals = w.fs.refusals := by
  induction es generalizing w with
  | nil => rfl
  | cons p es ih =>
    exact (ih (step_sound hs p.1 p.2)).trans (step_leads hs p.1 p.2).refusals

/-! ## The files of the logs -/

/-- The file of every log that a store has is there. -/
def LogsThere (w : World) : Prop :=
  ∀ s st l, w.stores.get? s = some st → st.log = some l → ∃ f, w.fs.face? l.file.node = some f

/-- The log of a store is in `w'` what has become of it since `w`. -/
def LogsLater (w w' : World) : Prop :=
  ∀ s st' l', w'.stores.get? s = some st' → st'.log = some l' →
    ∃ st l, w.stores.get? s = some st ∧ st.log = some l ∧ l'.file.node = l.file.node

theorem logsLater_of_eq {w' : World} (h : w'.stores = w.stores) : LogsLater w w' := by
  intro k st' l' hst' hl'
  rw [h] at hst'
  exact ⟨st', l', hst', hl', rfl⟩

theorem logsLater_insert {w' : World} (hs : w.stores.get? s = some st)
    (hw : w'.stores = w.stores.insert s st') (hlog : SessionLog.Later st.log st'.log) :
    LogsLater w w' := by
  intro k st₁ l' hst₁ hl'
  rw [hw, Table.get?_insert] at hst₁
  split at hst₁
  · rename_i hk
    cases hst₁
    obtain ⟨l, hl, hn⟩ := hlog l' hl'
    exact ⟨st, l, by rw [hk, hs], hl, hn⟩
  · exact ⟨st₁, l', hst₁, hl', rfl⟩

theorem LogsLater.settle {w' : World} (h : LogsLater w w') (s : Nat) : LogsLater w (w'.settle s) := by
  intro k st' l' hst' hl'
  obtain ⟨st₁, hst₁, rfl | ⟨-, -, rfl⟩⟩ := stores_settle hst'
  · exact h k _ l' hst₁ hl'
  · cases hl'

/-- A move leaves the log of a store, but for the store that it opens. -/
theorem move_logs {w' : World} {a : Except Failure Value} (hs : w.fs.Sound) (hm : Move w e a w') :
    LogsLater w w' ∨ ∃ s o dir log l, (∃ f, w'.fs.face? log.file.node = some f) ∧
      w'.stores = w.stores.insert s (Store.fresh dir (Options.syncManifest o) log l) := by
  cases hm with
  | still hi hl => exact Or.inl (logsLater_of_eq rfl)
  | relogged hi hst hlog hl => exact Or.inl (logsLater_insert hst rfl hlog)
  | moved hi hh hx hl => exact Or.inl (logsLater_of_eq rfl)
  | opened hst hlog hl => exact Or.inr ⟨_, _, _, _, _, hlog hs, rfl⟩
  | granted he hst ho hc hid hx hh hl => exact Or.inl (logsLater_insert hst rfl (.refl _))
  | turnTaken hst ho hc ht => exact Or.inl (logsLater_insert hst rfl (.refl _))
  | closed hst ho hc hn => exact Or.inl (logsLater_insert hst rfl (.gone _))
  | left hst ho hk hlog hl => exact Or.inl ((logsLater_insert hst rfl hlog).settle _)
  | ended hst ho hc hn hl =>
    exact Or.inl ((logsLater_insert hst rfl (.gone _)).settle _)
  | shut hh hst hx ha hlog hl => exact Or.inl (logsLater_insert hst rfl hlog)
  | leaked hh hst hx hlog hl => exact Or.inl ((logsLater_insert hst rfl hlog).settle _)
  | dropped hh hx => exact Or.inl ((logsLater_of_eq rfl).settle _)
  | turnEnded ht hst =>
    refine Or.inl (LogsLater.settle ?_ _)
    exact logsLater_insert hst rfl (.refl _)
  | turnLost ht hst => exact Or.inl (logsLater_of_eq rfl)
  | acquired hk hl => exact Or.inl (logsLater_of_eq rfl)
  | released hk => exact Or.inl (logsLater_of_eq rfl)

theorem step_logsThere (hs : w.fs.Sound) (h : LogsThere w) (now : Clock.Reading) (e : Event) :
    LogsThere (step now w e).world := by
  have hkept : LogsLater w (step now w e).world → LogsThere (step now w e).world := by
    intro hlater s st' l' hst' hl'
    obtain ⟨st, l, hst, hl, hn⟩ := hlater s st' l' hst' hl'
    rw [hn]
    exact (step_leads hs now e).exists_face? hs (h s st l hst hl)
  -- a new store brings a new log; all others are as they were
  rcases move_logs hs (step_move now w e) with hlater | ⟨s, o, dir, log, l, hface, hw⟩
  · exact hkept hlater
  intro k st' l' hst' hl'
  rw [hw, Table.get?_insert] at hst'
  split at hst'
  · cases hst'
    cases hl'
    exact hface
  · exact (step_leads hs now e).exists_face? hs (h k st' l' hst' hl')

/-- **After every run the file of every log is there**, under whatever name. -/
theorem run_logsThere {fs : FileSystem} (hs : fs.Sound) (es : List (Clock.Reading × Event)) :
    LogsThere ((ofFileSystem fs).run es) := by
  refine run_induction (P := fun es w => (w.fs.Sound → LogsThere w)) ?_ ?_ es (run_sound hs es)
  · intro _ s st l hst
    cases hst
  · intro es now e ih _
    exact step_logsThere (run_sound hs es) (ih (run_sound hs es)) now e

/-- The directory `/db` is opened, and a table created in it. -/
def session : List (Clock.Reading × Event) :=
  [(⟨⟨0, 0⟩, 0⟩, .openStore 0 { dir := Utf8.encode ['/', 'd', 'b'] }),
    (⟨⟨0, 0⟩, 0⟩, .store 0 (.createFile 0 ⟨.table, 1⟩))]

end World

end EngineDir
