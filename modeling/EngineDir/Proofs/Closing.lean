import EngineDir.Proofs.Refusals

/-!
# Closing a store

A store is closed while none of its files is open. Its log and its lock go with the
session, even if the log cannot be written back, and nothing brings them back.

* `Store.Paired`: a log and a lock, or neither. `World.run_paired`: **every store has both or
  neither.**
* `World.step_close_busy`, `World.step_close_ends`: what comes of a close.
* `World.Course.over`, `World.run_closed`: **what is closed stays closed.**
* `run_closing`: **a close is refused or final, in every world that comes about.**
-/

namespace EngineDir

open FileSystem

/-! ## Logs and locks -/

theorem SessionLog.record_isSome (log : Option SessionLog) (fs : FileSystem) (now : Clock.Reading)
    (text : String) : (record log fs now text).1.isSome = log.isSome := by
  cases log with
  | none => rfl
  | some l => rw [record_some]; rfl

theorem Publication.step_log_isSome (p : Proposal) (u : Publication) :
    (step p u).log.isSome = u.log.isSome := by
  have hwarned : ∀ text s, (u.warned p.now text s).log.isSome = u.log.isSome := by
    intro text s
    rw [warned_log]
    exact SessionLog.record_isSome _ _ _ _
  unfold step
  split
  · split <;> rfl
  · split <;> rfl
  · split <;> rfl
  · split <;> rfl
  · split <;> rfl
  · exact hwarned _ _
  · split <;> rfl
  · exact hwarned _ _
  · rfl

theorem Publication.after_log_isSome (p : Proposal) (k : Nat) (u : Publication) :
    (after p k u).log.isSome = u.log.isSome := by
  induction k with
  | zero => rfl
  | succ k ih => rw [after_succ, step_log_isSome, ih]

namespace Store

variable {fs : FileSystem} {s : Store} {now : Clock.Reading} {id : FileId}

/-- A store has a log and a lock, or neither. -/
def Paired (s : Store) : Prop := s.log.isSome = s.lock.isSome

theorem Paired.vacated (s : Store) : s.vacated.Paired := rfl

/-- A line in the log keeps the log. -/
theorem Paired.record (h : s.Paired) (fs : FileSystem) (now : Clock.Reading) (text : String) :
    ({ s with log := (SessionLog.record s.log fs now text).1 } : Store).Paired :=
  (SessionLog.record_isSome _ _ _ _).trans h

theorem Paired.close (h : s.Paired) : (s.close fs now).store.Paired := by
  unfold Store.close
  split
  · exact h
  · split
    · rw [warn_eq]
      exact h.record _ _ _
    · rfl

theorem Paired.abandon (h : s.Paired) : (s.abandon fs now).store.Paired := by
  unfold Store.abandon
  split
  · exact h
  · simp only [warn_eq]
    split
    · exact h.record _ _ _
    · rfl

theorem Paired.logMessage (h : s.Paired) (text : String) :
    (s.logMessage fs now text).1.Paired := by
  unfold Store.logMessage
  split
  · exact h
  · rw [record_eq]
    exact h.record _ _ _

theorem Paired.removeFile (h : s.Paired) : (s.removeFile fs now id).store.Paired := by
  unfold Store.removeFile
  split
  · exact h
  · simp only [warn_eq]
    split
    · exact h.record _ _ _
    · exact h

theorem Paired.setManifest (h : s.Paired) : (s.setManifest fs now id).store.Paired := by
  have hrun : (Publication.run (s.proposal now id) fs s.log).log.isSome = s.lock.isSome :=
    (Publication.after_log_isSome _ _ _).trans h
  unfold Store.setManifest
  split
  · exact h
  · split
    · exact h
    · simp only
      split <;> exact hrun

theorem Paired.openFile (h : s.Paired) : (s.openFile fs id).store.Paired := by
  rcases s.openFile_cases fs id with ⟨-, hst⟩ | ⟨x, hx⟩
  · rw [hst]
    exact h
  · rw [hx.store]
    exact h

theorem Paired.createFile (h : s.Paired) : (s.createFile fs id).store.Paired := by
  rcases s.createFile_cases fs id with ⟨-, hst⟩ | ⟨x, hx⟩
  · rw [hst]
    exact h
  · rw [hx.store]
    exact h

theorem Paired.takeTurn (h : s.Paired) : (s.takeTurn fs).store.Paired := by
  rcases s.takeTurn_cases fs with ⟨-, hst⟩ | ⟨-, -, hst⟩
  · rw [hst]
    exact h
  · rw [hst]
    exact h

theorem Paired.endTurn (h : s.Paired) (token : Nat) : (s.endTurn token).Paired := by
  obtain ⟨turn, hst⟩ := s.endTurn_eq token
  rw [hst]
  exact h

theorem Paired.closeHandle (h : s.Paired) (x : Handle) : (x.close fs s now).1.store.Paired := by
  unfold Handle.close
  split
  · exact h
  · simp only [warn_eq]
    split
    · exact Paired.record (s := s.freed x.id) h _ _ _
    · exact h

theorem Paired.abandonHandle (h : s.Paired) (x : Handle) : (x.abandon fs s now).store.Paired := by
  unfold Handle.abandon
  split
  · exact h
  · simp only [warn_eq]
    exact Paired.record (s := { s.freed x.id with leaked := s.leaked + 1 }) h _ _ _

end Store

namespace World

variable {w w' w₀ : World} {now : Clock.Reading} {e : Event} {s k : Nat} {st : Store}
  {es es' : List (Clock.Reading × Event)}

/-- Every store has a log and a lock, or neither. -/
def AllPaired (w : World) : Prop := ∀ s st, w.stores.get? s = some st → st.Paired

theorem AllPaired.insert (h : AllPaired w) (hst : st.Paired)
    (hw : w'.stores = w.stores.insert s st) : AllPaired w' := by
  intro k st' hst'
  rw [hw, Table.get?_insert] at hst'
  split at hst'
  · cases hst'
    exact hst
  · exact h k st' hst'

theorem AllPaired.settle (h : AllPaired w) (s : Nat) : AllPaired (w.settle s) := by
  intro k st' hst'
  obtain ⟨st, hst, rfl | ⟨-, -, rfl⟩⟩ := stores_settle hst'
  · exact h k _ hst
  · exact .vacated st

theorem AllPaired.receiving {h : Nat} {o : Outcome Handle} (hp : AllPaired w)
    (ho : o.store.Paired) : AllPaired (w.receiving s h o).world := by
  unfold World.receiving
  split <;> exact hp.insert ho rfl

theorem AllPaired.receivingTurn {l : Nat} {o : Outcome Nat} (hp : AllPaired w)
    (ho : o.store.Paired) : AllPaired (w.receivingTurn s l o).world := by
  unfold World.receivingTurn
  split <;> exact hp.insert ho rfl

theorem stepStore_paired (hp : AllPaired w) (hst : w.stores.get? s = some st) (r : StoreRequest) :
    AllPaired (w.stepStore now s st r).world := by
  have h := hp s st hst
  cases r with
  | close => exact hp.insert h.close rfl
  | abandon =>
    have hins : AllPaired (w.withOutcome s (st.abandon w.fs now)) := hp.insert h.abandon rfl
    exact hins.settle s
  | log text => exact hp.insert (h.logMessage text) rfl
  | list kinds => exact hp
  | manifest => exact hp
  | setManifest id => exact hp.insert h.setManifest rfl
  | removeFile id => exact hp.insert h.removeFile rfl
  | openFile k id =>
    simp only [stepStore]
    split
    · exact hp
    · exact hp.receiving h.openFile
  | createFile k id =>
    simp only [stepStore]
    split
    · exact hp
    · exact hp.receiving h.createFile
  | takeTurn l =>
    simp only [stepStore]
    split
    · exact hp
    · exact hp.receivingTurn h.takeTurn

theorem stepHandle_paired {h : Nat} {x : Handle} (hp : AllPaired w)
    (hst : w.stores.get? s = some st) (r : HandleRequest) :
    AllPaired (w.stepHandle now h s st x r).world := by
  have hpair := hp s st hst
  cases r with
  | close => exact hp.insert (hpair.closeHandle x) rfl
  | abandon =>
    have hins : AllPaired ({ w with handles := w.handles.erase h }.withOutcome s
        (x.abandon w.fs st now)) := hp.insert (hpair.abandonHandle x) rfl
    exact hins.settle s
  | _ => exact hp

/-- What is asked of a store leaves it its log and its lock, or takes both. -/
theorem asked_paired (hp : AllPaired w) (now : Clock.Reading) (he : w.addressee? e = some s)
    (hst : w.stores.get? s = some st) : AllPaired (step now w e).world := by
  cases e with
  | store k r =>
    obtain rfl : k = s := Option.some.inj he
    rw [step_store_owned hst]
    split
    · exact stepStore_paired hp hst r
    · exact hp
  | handle h r =>
    simp only [addressee?, Option.map_eq_some_iff] at he
    obtain ⟨⟨k, x⟩, hh, rfl⟩ := he
    simp only [step, hh, hst]
    split
    · exact stepHandle_paired hp hst r
    · exact hp
  | endTurn l =>
    simp only [addressee?, Option.map_eq_some_iff] at he
    obtain ⟨⟨k, token⟩, hl, rfl⟩ := he
    simp only [step, hl, stepEndTurn, hst]
    refine AllPaired.settle ?_ k
    exact hp.insert ((hp k st hst).endTurn token) rfl
  | _ => cases he

theorem step_paired (hp : AllPaired w) (now : Clock.Reading) (e : Event) :
    AllPaired (step now w e).world := by
  intro k st' hst'
  rcases step_stores hst' with ⟨st, hst, -⟩ | ⟨o, dir, log, l, -, -, rfl⟩
  · by_cases he : w.addressee? e = some k
    · exact asked_paired hp now he hst k st' hst'
    · rw [step_elsewhere he hst] at hst'
      cases hst'
      exact hp k _ hst
  · rfl

/-- **Every store has its log and its lock, or neither**, after every run. -/
theorem run_paired (fs : FileSystem) (es : List (Clock.Reading × Event)) :
    AllPaired ((ofFileSystem fs).run es) := by
  refine run_induction (P := fun _ w => AllPaired w) ?_ (fun es now e h => step_paired h now e) es
  intro s st hst
  cases hst

/-! ## Closing -/

/-- **A close is refused while files are open**, which costs one line in the log. -/
theorem step_close_busy (now : Clock.Reading) (hst : w.stores.get? s = some st)
    (ho : st.owned = true) (hc : st.closed = false) (hn : 0 < st.openCount) :
    ∃ fs log, SessionLog.Gains now (busyText st.openCount) w.fs st.log fs log ∧
      step now w (.store s .close) =
        { world := { w with fs := fs, stores := w.stores.insert s { st with log := log } }
          answer := .error (.store (.filesStillOpen st.openCount))
          notes := [⟨.warn, busyText st.openCount⟩] } := by
  refine ⟨_, _, SessionLog.record_gains st.log w.fs now (busyText st.openCount), ?_⟩
  rw [step_store_owned hst, if_pos ho]
  have hclose : st.close w.fs now =
      st.warn w.fs now (busyText st.openCount) (.error (.filesStillOpen st.openCount)) := by
    rw [Store.close, if_neg (by simp [hc]), if_pos (by omega)]
    rfl
  simp only [stepStore, hclose, Store.warn_eq]
  rfl

/-- **Otherwise the session ends**, whatever comes of writing back the log. -/
theorem step_close_ends (now : Clock.Reading) (hst : w.stores.get? s = some st)
    (ho : st.owned = true) (hc : st.closed = false) (hn : st.openCount = 0) :
    step now w (.store s .close) =
      { world := { w with
          fs := st.releaseLock w.fs
          stores := w.stores.insert s { st.vacated with closed := true } }
        answer := storeAnswer (fun _ => .done) (st.closeLog w.fs)
        notes := [st.closedNote] } := by
  rw [step_store_owned hst, if_pos ho]
  have hclose : st.close w.fs now =
      { result := st.closeLog w.fs
        fs := st.releaseLock w.fs
        store := { st.vacated with closed := true }
        notes := [st.closedNote] } := by
    rw [Store.close, if_neg (by simp [hc]), if_neg (by omega)]
  simp only [stepStore, hclose]
  rfl

/-- The lock of a node that nobody has locked is granted by every path that leads there. -/
theorem step_acquire_free {l : Nat} {dir : Bytes} {fs : FileSystem} {i : NodeId} (hs : w.fs.Sound)
    (hopen : w.fs.openForWriting false (DirLock.pathIn dir) = .ok (fs, i)) (hi : i ∉ w.fs.locked) :
    (step now w (.acquire l dir)).answer =
      if w.locks.contains l then .error .misnamed else .ok .done := by
  have hlocked : fs.locked = w.fs.locked :=
    (openForWriting_leads hs hopen).locked fun _ hc => hc.unlocking
  have hacq : DirLock.acquire w.fs dir =
      (.ok { path := DirLock.pathIn dir, node := i }, { fs with locked := i :: fs.locked }) := by
    simp only [DirLock.acquire, hopen, tryLock, hlocked, if_neg hi]
  simp only [step]
  split
  · rfl
  · rw [hacq]
    rfl

/-! ## After the session -/

/-- A session that is over does not begin again. -/
theorem Course.over {life : Life} (h : Course k w e w') (hl : w.life k = some life)
    (hc : life.closed = true) : ∃ life', w'.life k = some life' ∧ life'.closed = true := by
  have hlife : ∀ {life₁ : Life}, w.life k = some life₁ → life₁.closed = true := by
    intro life₁ h₁
    rw [← Option.some.inj (hl.symm.trans h₁)]
    exact hc
  cases h with
  | kept hl' hs hn he => exact ⟨life, hl'.trans hl, hc⟩
  | absent h₀ h₁ he => rw [h₀] at hl; cases hl
  | born h₀ h₁ he => rw [h₀] at hl; cases hl
  | granted h₀ h₁ he => cases hlife h₀
  | closed h₀ h₁ hn he => exact ⟨_, h₁, rfl⟩
  | left h₀ h₁ hb hn he => exact ⟨_, h₁, rfl⟩
  | lingers h₀ h₁ hs he => exact ⟨_, h₁, rfl⟩
  | ended h₀ h₁ hn he => exact ⟨_, h₁, rfl⟩
  | settled h₀ h₁ hb hs hn he =>
    have hover := hlife h₀
    exact ⟨_, h₁, hover⟩

/-- **What is closed stays closed.** -/
theorem run_closed {fs : FileSystem} (hst : ((ofFileSystem fs).run es).stores.get? s = some st)
    (hc : st.closed = true) (es' : List (Clock.Reading × Event)) :
    ∃ st', ((ofFileSystem fs).run (es ++ es')).stores.get? s = some st' ∧ st'.closed = true := by
  induction es' generalizing es st with
  | nil =>
    rw [List.append_nil]
    exact ⟨st, hst, hc⟩
  | cons p es' ih =>
    obtain ⟨now, e⟩ := p
    have hcourse := move_course (step_move now ((ofFileSystem fs).run es) e)
      (run_balanced fs s es).perm
    obtain ⟨life, hlife, hover⟩ := hcourse.over (life_of_get? hst) hc
    rw [← run_concat] at hlife
    obtain ⟨st₁, hst₁, rfl⟩ := Option.map_eq_some_iff.1 hlife
    rw [List.append_cons]
    exact ih hst₁ hover

/-- A closed store refuses everything but a line for its log and to be let go of. -/
theorem refusal?_of_closed {r : StoreRequest} (hc : st.closed = true) (ha : r ≠ .abandon)
    (hl : ∀ text, r ≠ .log text) : st.refusal? r = some .closed := by
  cases r with
  | abandon => exact absurd rfl ha
  | log text => exact absurd rfl (hl text)
  | _ => exact if_pos hc

/-- **A store after its session**, which has neither log nor lock. -/
structure Over (w : World) (s : Nat) (st : Store) : Prop where
  closed : st.closed = true
  refused : ∀ now r, r ≠ .abandon → (∀ text, r ≠ .log text) → w.admits r = true →
    step now w (.store s r) = w.answering (.error (.store .closed))
  log : ∀ now text, step now w (.store s (.log text)) = w.answering (.ok .done)
  dropped : ∀ now, step now w (.store s .abandon) =
    { w with stores := w.stores.insert s { st with owned := false } }.answering (.ok .done)

/-- Nothing goes when nobody has a share in it any more. -/
theorem settle_gone (hst : w.stores.get? s = some st) (hlog : st.log = none)
    (hlock : st.lock = none) : w.settle s = w := by
  have hvac : st.vacated = st := by
    rw [Store.vacated, ← hlog, ← hlock]
  rcases w.settle_cases s with he | ⟨st', hst', -, he⟩
  · exact he
  · obtain rfl := Option.some.inj (hst.symm.trans hst')
    rw [he, hvac, Table.insert_of_get? hst, Store.releaseLock, hlock]

theorem over_of_closed (hst : w.stores.get? s = some st) (ho : st.owned = true)
    (hc : st.closed = true) (hlog : st.log = none) (hlock : st.lock = none) : Over w s st := by
  refine ⟨hc, ?_, ?_, ?_⟩
  · intro now r ha hl hadm
    rw [step_store_owned hst, if_pos ho]
    exact stepStore_refused hst hadm (refusal?_of_closed hc ha hl)
  · intro now text
    rw [step_store_owned hst, if_pos ho]
    simp only [stepStore, Store.logMessage, if_pos hc, Table.insert_of_get? hst]
    rfl
  · intro now
    rw [step_store_owned hst, if_pos ho]
    have hself : ({ w with stores := w.stores.insert s { st with owned := false } } : World).settle s =
        { w with stores := w.stores.insert s { st with owned := false } } :=
      settle_gone (Table.get?_insert_self _ _ _) hlog hlock
    simp only [stepStore, reacting, withOutcome, Store.abandon, if_pos hc, hself]
    rfl

/-- A store counts its handles that are neither closed nor dropped. -/
theorem Balanced.count (hb : Balanced w₀ s es w) (hst : w.stores.get? s = some st) :
    st.openCount = (unclosed w.handles s).length := by
  rw [Store.openCount, ← openIds_of_get? hst, hb.perm.length_eq, unclosedIds, List.length_map]

/-- What a store that its owner has shows of its session. -/
structure Shows (w : World) (s : Nat) (st : Store) : Prop where
  log : st.closed = true ↔ st.log = none
  lock : st.log = none ↔ st.lock = none
  unused : st.closed = true → unclosed w.handles s = []

/-- **The log and the lock go with the session**, and no file is open after it. -/
theorem run_shows {fs : FileSystem} (hst : ((ofFileSystem fs).run es).stores.get? s = some st)
    (ho : st.owned = true) : Shows ((ofFileSystem fs).run es) s st := by
  have hpair : st.log.isSome = st.lock.isSome := run_paired fs es s st hst
  have hlife := run_lifeOK fs s es
  rw [LifeOK, life_of_get? hst, lifeOf, ho] at hlife
  obtain ⟨hlock, -, hbusy⟩ := hlife
  refine ⟨?_, ?_, ?_⟩
  · rw [← Option.isNone_iff_eq_none, ← Option.not_isSome, hpair, hlock]
    simp
  · rw [← Option.isNone_iff_eq_none, ← Option.isNone_iff_eq_none, ← Option.not_isSome,
      ← Option.not_isSome, hpair]
  · intro hc
    have hnil : st.openIds = [] := by
      rw [← openIds_of_get? hst]
      cases hopen : ((ofFileSystem fs).run es).openIds s with
      | nil => rfl
      | cons id ids =>
        have hne : ((ofFileSystem fs).run es).openIds s ≠ [] := by simp [hopen]
        rw [hbusy hne] at hc
        cases hc
    have hcount := Balanced.count (run_balanced fs s es) hst
    rw [Store.openCount, hnil] at hcount
    exact List.eq_nil_of_length_eq_zero hcount.symm

end World

/-! ## A close -/

open World

/-- A close of the store `s`, which is `st` after the run `es`, and what comes after it. -/
structure Closing (w₀ : World) (es : List (Clock.Reading × Event)) (s : Nat) (st : Store) :
    Prop where
  shows : Shows (w₀.run es) s st
  /-- A second close is refused. -/
  again : st.closed = true → ∀ now,
    step now (w₀.run es) (.store s .close) = (w₀.run es).answering (.error (.store .closed))
  /-- A close while files are open is refused, which costs one line in the log. -/
  busy : st.closed = false → ∀ n, n = (unclosed (w₀.run es).handles s).length → 0 < n → ∀ now,
    ∃ fs log, SessionLog.Gains now (busyText n) (w₀.run es).fs st.log fs log ∧
      step now (w₀.run es) (.store s .close) =
        { world := { w₀.run es with
            fs := fs
            stores := (w₀.run es).stores.insert s { st with log := log } }
          answer := .error (.store (.filesStillOpen n))
          notes := [⟨.warn, busyText n⟩] }
  /-- Any other close ends the session, and the log and the lock go, whatever comes of writing back
  the log. -/
  ends : st.closed = false → unclosed (w₀.run es).handles s = [] → ∀ now, ∃ l,
    st.lock = some l ∧ l.node ∈ (w₀.run es).fs.locked ∧
      step now (w₀.run es) (.store s .close) =
        { world := { w₀.run es with
            fs := (w₀.run es).fs.unlock l.node
            stores := (w₀.run es).stores.insert s
              { st with closed := true, log := none, lock := none } }
          answer := storeAnswer (fun _ => .done) (st.closeLog (w₀.run es).fs)
          notes := [st.closedNote] }
  /-- The lock is granted then, by every path that leads to the file that was locked. -/
  granted : st.closed = false → unclosed (w₀.run es).handles s = [] → ∀ now l, st.lock = some l →
    ∀ now' k dir fs, (step now (w₀.run es) (.store s .close)).world.fs.openForWriting false
        (DirLock.pathIn dir) = .ok (fs, l.node) →
      (step now' (step now (w₀.run es) (.store s .close)).world (.acquire k dir)).answer =
        if (w₀.run es).locks.contains k then .error .misnamed else .ok .done
  /-- So it is in the directory that was opened, if others leave its lock file alone. -/
  freed : st.closed = false → unclosed (w₀.run es).handles s = [] → ∀ D now,
    OpenedIn w₀ D s es → LockKept w₀ D (es ++ [(now, .store s .close)]) → ∀ now' k dir,
      (step now (w₀.run es) (.store s .close)).world.home? (.acquire k dir) = some D →
      (step now' (step now (w₀.run es) (.store s .close)).world (.acquire k dir)).answer =
        if (w₀.run es).locks.contains k then .error .misnamed else .ok .done
  /-- What is closed stays closed, whatever happens. -/
  final : st.closed = true → ∀ es', ∃ st', (w₀.run (es ++ es')).stores.get? s = some st' ∧
    st'.closed = true ∧ (st'.owned = true → Over (w₀.run (es ++ es')) s st')

/-- **A close is refused or final, in every world that comes about.** -/
theorem run_closing {fs : FileSystem} {es : List (Clock.Reading × Event)} {s : Nat} {st : Store}
    (hs : fs.Sound) (hl : fs.locked = []) (hst : ((ofFileSystem fs).run es).stores.get? s = some st)
    (ho : st.owned = true) : Closing (ofFileSystem fs) es s st := by
  have hsound : ((ofFileSystem fs).run es).fs.Sound := run_sound hs es
  have hok : LocksOK ((ofFileSystem fs).run es) := run_locksOK hs (locksOK_ofFileSystem hl) es
  have hcount : st.openCount = (unclosed ((ofFileSystem fs).run es).handles s).length :=
    Balanced.count (run_balanced fs s es) hst
  have hshows := run_shows hst ho
  -- a close that ends the session frees the lock
  have hends : st.closed = false → unclosed ((ofFileSystem fs).run es).handles s = [] → ∀ now,
      ∃ l, st.lock = some l ∧ l.node ∈ ((ofFileSystem fs).run es).fs.locked ∧
        step now ((ofFileSystem fs).run es) (.store s .close) =
          { world := { (ofFileSystem fs).run es with
              fs := ((ofFileSystem fs).run es).fs.unlock l.node
              stores := ((ofFileSystem fs).run es).stores.insert s
                { st with closed := true, log := none, lock := none } }
            answer := storeAnswer (fun _ => .done) (st.closeLog ((ofFileSystem fs).run es).fs)
            notes := [st.closedNote] } := by
    intro hc hn now
    obtain ⟨-, l, hlock⟩ := (run_inUse fs es).unclosed s st hst hc
    refine ⟨l, hlock, hok.locked.2 ⟨.store s, l, (lockOf_store hst).trans hlock, rfl⟩, ?_⟩
    rw [step_close_ends now hst ho hc (by rw [hcount, hn]; rfl), Store.releaseLock, hlock]
    rfl
  refine ⟨hshows, ?_, ?_, hends, ?_, ?_, ?_⟩
  · intro hc now
    rw [step_store_owned hst, if_pos ho]
    exact stepStore_refused hst rfl (if_pos hc)
  · rintro hc n rfl hn now
    rw [← hcount] at hn ⊢
    exact step_close_busy now hst ho hc hn
  · intro hc hn now l hlock now' k dir fs' hopen
    obtain ⟨l', hlock', -, heq⟩ := hends hc hn now
    obtain rfl := Option.some.inj (hlock.symm.trans hlock')
    have hsound' := step_sound hsound now (.store s .close)
    have hfree : l.node ∉ (step now ((ofFileSystem fs).run es) (.store s .close)).world.fs.locked := by
      rw [heq]
      exact fun hmem => (mem_locked_unlock.1 hmem).2 rfl
    rw [step_acquire_free hsound' hopen hfree, heq]
  · intro hc hn D now hin hk now' k dir hd
    obtain ⟨l, hlock, -, heq⟩ := hends hc hn now
    have hlockOf : ((ofFileSystem fs).run es).lockOf (.store s) = some l :=
      (lockOf_store hst).trans hlock
    have hown : ((ofFileSystem fs).run es).Owns D (.store s) :=
      owns_of_holds hs (holds_of_openedIn hin hlockOf) hk.before
    have hgone : ¬(step now ((ofFileSystem fs).run es) (.store s .close)).world.Held s := by
      rintro ⟨l', hl', -⟩
      rw [heq, lockOf_store (Table.get?_insert_self _ _ _)] at hl'
      cases hl'
    have hf := hk.file _ (List.prefix_refl _)
    rw [run_concat] at hf
    obtain ⟨lock, hlockOf', hlook⟩ := hown
    rw [step_granted_there (step_sound hsound now _) (step_locksOK hsound hok now _) hf
      (unowned_of_freed hsound hok hk ⟨lock, hlockOf', hlook⟩ hgone) hd
      (lookup_lock_step hsound hk hlook), heq]
  · intro hc es'
    obtain ⟨st', hst', hc'⟩ := run_closed hst hc es'
    refine ⟨st', hst', hc', fun ho' => ?_⟩
    have hshows' := run_shows hst' ho'
    have hlog := hshows'.log.1 hc'
    exact over_of_closed hst' ho' hc' hlog (hshows'.lock.1 hlog)

set_option maxRecDepth 2000 in
/-- A close that is refused while a file is open, and one that is not when the file has been
closed. -/
theorem run_closing_session :
    (∃ st, ((ofFileSystem .initial).run session).stores.get? 0 = some st ∧
      Closing (ofFileSystem .initial) session 0 st ∧
      (step ⟨⟨0, 0⟩, 0⟩ ((ofFileSystem .initial).run session) (.store 0 .close)).answer =
        .error (.store (.filesStillOpen 1))) ∧
    ∃ st, ((ofFileSystem .initial).run (session ++ [(⟨⟨0, 0⟩, 0⟩, .handle 0 .close)])).stores.get? 0 =
        some st ∧
      Closing (ofFileSystem .initial) (session ++ [(⟨⟨0, 0⟩, 0⟩, .handle 0 .close)]) 0 st ∧
      (step ⟨⟨0, 0⟩, 0⟩ ((ofFileSystem .initial).run (session ++ [(⟨⟨0, 0⟩, 0⟩, .handle 0 .close)]))
        (.store 0 .close)).world.fs.locked = [] := by
  have hopen : ∃ st, ((ofFileSystem .initial).run session).stores.get? 0 = some st ∧
      st.owned = true := ⟨_, rfl, rfl⟩
  have hidle : ∃ st, ((ofFileSystem .initial).run
      (session ++ [(⟨⟨0, 0⟩, 0⟩, .handle 0 .close)])).stores.get? 0 = some st ∧ st.owned = true :=
    ⟨_, rfl, rfl⟩
  obtain ⟨st, hst, ho⟩ := hopen
  obtain ⟨st', hst', ho'⟩ := hidle
  exact ⟨⟨st, hst, run_closing FileSystem.initial_sound rfl hst ho, rfl⟩,
    st', hst', run_closing FileSystem.initial_sound rfl hst' ho', rfl⟩

end EngineDir
