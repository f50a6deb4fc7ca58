import EngineDir.Proofs.Bookkeeping
import EngineDir.World

/-!
# Moves

All that an event can do to what is in use, apart from the contents of the file
system: one case for each kind of move (`Move`). Every invariant of runs follows
from the cases.

* `World.actOutside_leads`: what others can do.
* `World.step_move`: **every step is a move.**
-/

namespace EngineDir

namespace World

/-- Whether nothing was opened, closed or let go by `e`, which was answered with `a`. -/
def Idle (w : World) : Event → Except Failure Value → Prop
  | .store _ (.openFile _ _), a => a ≠ .ok .done
  | .store _ (.createFile _ _), a => a ≠ .ok .done
  | .store s .abandon, _ => ∀ st, w.stores.get? s = some st → st.owned = false
  | .handle _ .close, a => a = .error .misnamed ∨ a = .error (.store .closed)
  | _, _ => True

/-- The same locks are held in `fs` as in `w`, if `w` is sound. -/
def SameLocks (w : World) (fs : FileSystem) : Prop := w.fs.Sound → fs.locked = w.fs.locked

/-- One more lock is held in `fs` than in `w`. -/
def MoreLocks (w : World) (fs : FileSystem) (i : NodeId) : Prop :=
  w.fs.Sound → i ∉ w.fs.locked ∧ fs.locked = i :: w.fs.locked

/-- What an event `e` with the answer `a` can make of a world. -/
inductive Move (w : World) : Event → Except Failure Value → World → Prop
  /-- What is in use stays, but for logs without a store. -/
  | still {e : Event} {a : Except Failure Value} {fs : FileSystem} {logs : Table Nat SessionLog}
      (hi : Idle w e a) (hl : SameLocks w fs) : Move w e a { w with fs := fs, logs := logs }
  /-- A store writes to its log. -/
  | relogged {e : Event} {a : Except Failure Value} {fs : FileSystem} {s : Nat} {st : Store}
      {log : Option SessionLog} (hi : Idle w e a) (hs : w.stores.get? s = some st)
      (hlog : SessionLog.Later st.log log) (hl : SameLocks w fs) :
      Move w e a { w with fs := fs, stores := w.stores.insert s { st with log := log } }
  /-- The cursor of a handle moves. -/
  | moved {e : Event} {a : Except Failure Value} {fs : FileSystem} {h s : Nat} {x x' : Handle}
      (hi : Idle w e a) (hh : w.handles.get? h = some ⟨s, x⟩) (hx : Handle.Same x x')
      (hl : SameLocks w fs) :
      Move w e a { w with fs := fs, handles := w.handles.insert h ⟨s, x'⟩ }
  /-- A directory is opened. -/
  | opened {a : Except Failure Value} {fs : FileSystem} {s : Nat} {o : Options} {dir : Bytes}
      {log : SessionLog} {l : DirLock} (hs : w.stores.get? s = none)
      (hlog : w.fs.Sound → ∃ f, fs.face? log.file.node = some f) (hl : MoreLocks w fs l.node) :
      Move w (.openStore s o) a
        { w with fs := fs, stores := w.stores.insert s (Store.fresh dir o.syncManifest log l) }
  /-- A file is opened or created. -/
  | granted {e : Event} {fs : FileSystem} {s h : Nat} {st : Store} {x : Handle}
      (he : ∃ id, e = .store s (.openFile h id) ∨ e = .store s (.createFile h id))
      (hs : w.stores.get? s = some st) (ho : st.owned = true) (hc : st.closed = false)
      (hid : x.id ∉ st.openIds) (hx : x.isClosed = false) (hh : w.handles.get? h = none)
      (hl : SameLocks w fs) :
      Move w e (.ok .done)
        { w with
          fs := fs
          stores := w.stores.insert s { st with openIds := x.id :: st.openIds }
          handles := w.handles.insert h ⟨s, x⟩ }
  /-- The turn on a store is taken. -/
  | turnTaken {s l : Nat} {st : Store} (hs : w.stores.get? s = some st) (ho : st.owned = true)
      (hc : st.closed = false) (ht : w.turns.get? l = none) :
      Move w (.store s (.takeTurn l)) (.ok .done)
        { w with
          stores := w.stores.insert s
            { st with turn := some st.nextToken, nextToken := st.nextToken + 1 }
          turns := w.turns.insert l ⟨s, st.nextToken⟩ }
  /-- A store is closed. -/
  | closed {a : Except Failure Value} {s : Nat} {st : Store} (hs : w.stores.get? s = some st)
      (ho : st.owned = true) (hc : st.closed = false) (hn : st.openIds = []) :
      Move w (.store s .close) a
        { w with
          fs := st.releaseLock w.fs
          stores := w.stores.insert s { st.vacated with closed := true } }
  /-- The owner lets go of a store that is closed or has open files. -/
  | left {a : Except Failure Value} {fs : FileSystem} {s : Nat} {st : Store}
      {log : Option SessionLog} (hs : w.stores.get? s = some st) (ho : st.owned = true)
      (hk : st.closed = true ∨ st.openIds ≠ []) (hlog : SessionLog.Later st.log log)
      (hl : SameLocks w fs) :
      Move w (.store s .abandon) a
        ({ w with
          fs := fs
          stores := w.stores.insert s { st with owned := false, closed := true, log := log } }.settle
          s)
  /-- The owner lets go of any other store. -/
  | ended {a : Except Failure Value} {fs : FileSystem} {s : Nat} {st : Store}
      (hs : w.stores.get? s = some st) (ho : st.owned = true) (hc : st.closed = false)
      (hn : st.openIds = []) (hl : SameLocks w fs) :
      Move w (.store s .abandon) a
        ({ w with
          fs := st.releaseLock fs
          stores := w.stores.insert s { st.vacated with owned := false, closed := true } }.settle s)
  /-- A handle is closed. -/
  | shut {a : Except Failure Value} {fs : FileSystem} {h s : Nat} {st : Store} {x : Handle}
      {log : Option SessionLog} (hh : w.handles.get? h = some ⟨s, x⟩)
      (hs : w.stores.get? s = some st) (hx : x.isClosed = false)
      (ha : a ≠ .error .misnamed ∧ a ≠ .error (.store .closed))
      (hlog : SessionLog.Later st.log log) (hl : SameLocks w fs) :
      Move w (.handle h .close) a
        { w with
          fs := fs
          stores := w.stores.insert s { st.freed x.id with log := log }
          handles := w.handles.insert h ⟨s, x.shut⟩ }
  /-- A handle that is not closed is dropped. -/
  | leaked {a : Except Failure Value} {fs : FileSystem} {h s : Nat} {st : Store} {x : Handle}
      {log : Option SessionLog} (hh : w.handles.get? h = some ⟨s, x⟩)
      (hs : w.stores.get? s = some st) (hx : x.isClosed = false)
      (hlog : SessionLog.Later st.log log) (hl : SameLocks w fs) :
      Move w (.handle h .abandon) a
        ({ w with
          fs := fs
          stores := w.stores.insert s { st.freed x.id with leaked := st.leaked + 1, log := log }
          handles := w.handles.erase h }.settle s)
  /-- A handle that is closed is dropped. -/
  | dropped {a : Except Failure Value} {h s : Nat} {x : Handle}
      (hh : w.handles.get? h = some ⟨s, x⟩) (hx : x.isClosed = true) :
      Move w (.handle h .abandon) a ({ w with handles := w.handles.erase h }.settle s)
  /-- A turn ends. -/
  | turnEnded {a : Except Failure Value} {l s token : Nat} {st : Store} {turn : Option Nat}
      (ht : w.turns.get? l = some ⟨s, token⟩) (hs : w.stores.get? s = some st) :
      Move w (.endTurn l) a
        ({ w with
          stores := w.stores.insert s { st with turn := turn }
          turns := w.turns.erase l }.settle s)
  /-- A turn ends on a store that is not there. -/
  | turnLost {a : Except Failure Value} {l s token : Nat} (ht : w.turns.get? l = some ⟨s, token⟩)
      (hs : w.stores.get? s = none) :
      Move w (.endTurn l) a { w with turns := w.turns.erase l }
  /-- A lock is taken without a store. -/
  | acquired {a : Except Failure Value} {fs : FileSystem} {l : Nat} {dir : Bytes} {lock : DirLock}
      (hk : w.locks.get? l = none) (hl : MoreLocks w fs lock.node) :
      Move w (.acquire l dir) a { w with fs := fs, locks := w.locks.insert l lock }
  /-- It is given up. -/
  | released {a : Except Failure Value} {l : Nat} {lock : DirLock}
      (hk : w.locks.get? l = some lock) :
      Move w (.release l) a { w with fs := w.fs.unlock lock.node, locks := w.locks.erase l }

variable {w : World} {now : Clock.Reading} {s h l : Nat} {st : Store} {x : Handle}

theorem sameLocks_refl (w : World) : SameLocks w w.fs := fun _ => rfl

theorem sameLocks_of_leads {fs : FileSystem} (hl : Leads Change.Mild w.fs fs) : SameLocks w fs :=
  fun _ => hl.locked_mild

theorem not_contains {κ α : Type} [DecidableEq κ] {t : Table κ α} {k : κ}
    (hc : ¬t.contains k = true) : t.get? k = none := by
  simpa [Table.contains] using hc

theorem storeAnswer_ne_done {α : Type} {f : α → Value} {r : Except StoreError α}
    (hr : ∃ e, r = .error e) : storeAnswer f r ≠ .ok .done := by
  obtain ⟨e, rfl⟩ := hr
  simp [storeAnswer]

/-- An answer that changes nothing. -/
theorem move_answering {e : Event} {a : Except Failure Value} (hi : Idle w e a) :
    Move w e (w.answering a).answer (w.answering a).world :=
  .still hi (sameLocks_refl w)

/-- An operation after which the store has another log, at most. -/
theorem move_reacting {α : Type} {e : Event} {f : α → Value} {o : Outcome α}
    (hs : w.stores.get? s = some st) (hi : Idle w e (storeAnswer f o.result))
    (ho : st.Relogged o.store) (hl : SameLocks w o.fs) :
    Move w e (w.reacting s f o).answer (w.reacting s f o).world := by
  obtain ⟨log, hlog, ho⟩ := ho
  unfold reacting withOutcome
  simp only [ho]
  exact .relogged hi hs hlog hl

theorem move_receiving {e : Event} {id : FileId} {o : Outcome Handle}
    (he : ∃ id, e = .store s (.openFile h id) ∨ e = .store s (.createFile h id))
    (hs : w.stores.get? s = some st) (hown : st.owned = true) (hh : w.handles.get? h = none)
    (ho : ((∃ e, o.result = .error e) ∧ o.store = st) ∨ ∃ x, st.Opens id o x)
    (hl : SameLocks w o.fs) : Move w e (w.receiving s h o).answer (w.receiving s h o).world := by
  unfold receiving
  -- a refusal leaves the store, a success lists one more file
  rcases ho with ⟨⟨err, herr⟩, hst⟩ | ⟨x, hx⟩
  · rw [herr]
    refine move_reacting hs ?_ (by rw [hst]; exact .refl st) hl
    obtain ⟨id, rfl | rfl⟩ := he
    · exact storeAnswer_ne_done ⟨err, herr⟩
    · exact storeAnswer_ne_done ⟨err, herr⟩
  · simp only [hx.result, withOutcome, hx.store]
    have hid : x.id ∉ st.openIds := by rw [hx.id_eq]; exact hx.free
    have hm := Move.granted he hs hown hx.unclosed hid hx.live hh hl
    rw [hx.id_eq] at hm
    exact hm

/-- What is asked of a store is a move. -/
theorem stepStore_move (hs : w.stores.get? s = some st) (ho : st.owned = true) (r : StoreRequest) :
    Move w (.store s r) (w.stepStore now s st r).answer (w.stepStore now s st r).world := by
  cases r with
  | close =>
    rcases st.close_cases w.fs now with ⟨hlog, -, hl⟩ | ⟨hc, hn, hfs, hst⟩
    · exact move_reacting hs trivial hlog (sameLocks_of_leads hl)
    · simp only [stepStore, reacting, withOutcome, hfs, hst]
      exact .closed hs ho hc hn
  | abandon =>
    obtain ⟨fs₁, hl, ⟨log, hlog, hk, hfs, hst⟩ | ⟨hc, hn, hfs, hst⟩⟩ := st.abandon_cases w.fs now
    · simp only [stepStore, reacting, withOutcome, hfs, hst]
      exact .left hs ho hk hlog (sameLocks_of_leads hl)
    · simp only [stepStore, reacting, withOutcome, hfs, hst]
      exact .ended hs ho hc hn (sameLocks_of_leads hl)
  | log text =>
    obtain ⟨log, hlog, hst⟩ : st.Relogged (st.logMessage w.fs now text).1 := Store.logMessage_store
    simp only [stepStore, hst]
    exact .relogged trivial hs hlog (sameLocks_of_leads Store.logMessage_leads)
  | list kinds => exact move_answering trivial
  | manifest => exact move_answering trivial
  | setManifest id =>
    refine move_reacting hs trivial Store.setManifest_store fun hsound => ?_
    exact (Store.setManifest_leads hsound).locked_mild
  | removeFile id =>
    refine move_reacting hs trivial Store.removeFile_store fun hsound => ?_
    exact (Store.removeFile_leads hsound).locked_mild
  | openFile h id =>
    simp only [stepStore]
    split
    · exact move_answering (by simp [Idle])
    · rename_i hh
      refine move_receiving ⟨id, Or.inl rfl⟩ hs ho (not_contains hh) (st.openFile_cases w.fs id) ?_
      rw [Store.openFile_fs]
      exact sameLocks_refl w
  | createFile h id =>
    simp only [stepStore]
    split
    · exact move_answering (by simp [Idle])
    · rename_i hh
      refine move_receiving ⟨id, Or.inr rfl⟩ hs ho (not_contains hh) (st.createFile_cases w.fs id)
        fun hsound => ?_
      exact (Store.createFile_leads hsound).locked_mild
  | takeTurn l =>
    simp only [stepStore]
    split
    · exact move_answering trivial
    · rename_i ht
      unfold receivingTurn
      rcases st.takeTurn_cases w.fs with ⟨⟨err, he⟩, hst⟩ | ⟨hr, hc, hst⟩
      · rw [he]
        refine move_reacting hs trivial (by rw [hst]; exact .refl st) ?_
        rw [Store.takeTurn_fs]
        exact sameLocks_refl w
      · simp only [hr, withOutcome, hst, Store.takeTurn_fs]
        exact .turnTaken hs ho hc (not_contains ht)

theorem withHandle_self (hh : w.handles.get? h = some ⟨s, x⟩) : w.withHandle s h x = w := by
  rw [withHandle, Table.insert_of_get? hh]

theorem reacting_refuse {α : Type} (f : α → Value) (e : StoreError)
    (hs : w.stores.get? s = some st) :
    w.reacting s f (.refuse w.fs st e) = w.answering (.error (.store e)) := by
  simp [reacting, withOutcome, Outcome.refuse, Table.insert_of_get? hs, answering, storeAnswer]

/-- A transfer moves the cursor at most. -/
theorem move_transferring {α : Type} {e : Event} {fs : FileSystem} {f : α → Value}
    {r : Except IoError α × Handle} (hi : ∀ a, Idle w e a) (hh : w.handles.get? h = some ⟨s, x⟩)
    (hx : Handle.Same x r.2) (hl : SameLocks w fs) :
    Move w e ({ w with fs := fs }.transferring s h f r).answer
      ({ w with fs := fs }.transferring s h f r).world :=
  .moved (hi _) hh hx hl

/-- What is asked of a handle is a move. -/
theorem stepHandle_move (hh : w.handles.get? h = some ⟨s, x⟩) (hs : w.stores.get? s = some st)
    (r : HandleRequest) :
    Move w (.handle h r) (w.stepHandle now h s st x r).answer
      (w.stepHandle now h s st x r).world := by
  have hsame := sameLocks_refl w
  cases r with
  | close =>
    have hl : Leads Change.Mild w.fs (x.close w.fs st now).1.fs := Handle.close_leads
    have hc := x.close_cases st w.fs now
    simp only [stepHandle]
    -- the outcome by itself, so that each of its cases can be put in
    generalize x.close w.fs st now = q at hl hc
    obtain ⟨o, x'⟩ := q
    rcases hc with ⟨hx, he⟩ | ⟨hx, hshut, hr, log, hlog, hst⟩
    · cases he
      simp only [withHandle_self hh, reacting_refuse _ _ hs]
      exact move_answering (Or.inr rfl)
    · simp only at hshut hr hst hl
      simp only [reacting, withHandle, withOutcome, hst, hshut]
      refine .shut hh hs hx ⟨?_, ?_⟩ hlog (sameLocks_of_leads hl)
      · cases ho : o.result <;> simp [storeAnswer]
      · cases ho : o.result with
        | ok u => simp [storeAnswer]
        | error e =>
          rw [ho] at hr
          simpa [storeAnswer] using hr
  | abandon =>
    have hl : Leads Change.Mild w.fs (x.abandon w.fs st now).fs := Handle.abandon_leads
    simp only [stepHandle]
    rcases x.abandon_cases st w.fs now with ⟨hx, hfs, hst⟩ | ⟨hx, log, hlog, hst⟩
    · simp only [reacting, withOutcome, hfs, hst, Table.insert_of_get? hs]
      exact .dropped hh hx
    · simp only [reacting, withOutcome, hst]
      exact .leaked hh hs hx hlog (sameLocks_of_leads hl)
  | seek m => exact move_transferring (fun _ => trivial) hh (Handle.same_seek m) hsame
  | read n => exact move_transferring (fun _ => trivial) hh (Handle.same_read n) hsame
  | readExact n => exact move_transferring (fun _ => trivial) hh (Handle.same_readExact n) hsame
  | readAll => exact move_transferring (fun _ => trivial) hh Handle.same_readAll hsame
  | readAt pos n => exact move_answering trivial
  | readExactAt pos n => exact move_answering trivial
  | length => exact move_answering trivial
  | isEmpty => exact move_answering trivial
  | write bytes =>
    have hl : Leads Change.Mild w.fs (x.write w.fs bytes).2.2 := Handle.write_leads bytes
    have hx : Handle.Same x (x.write w.fs bytes).2.1 := Handle.same_write bytes
    simp only [stepHandle]
    generalize x.write w.fs bytes = q at hl hx
    obtain ⟨r, x', fs⟩ := q
    exact move_transferring (fun _ => trivial) hh hx (sameLocks_of_leads hl)
  | flush => exact move_answering trivial
  | sync => exact move_answering trivial

/-! ## Outside -/

theorem whole_leads {fs : FileSystem} {r : Except Errno FileSystem}
    (h : ∀ fs', r = .ok fs' → Leads Change.Unlocking fs fs') :
    Leads Change.Unlocking fs (whole fs r).2 := by
  cases r with
  | error e => exact .refl
  | ok fs' => exact h fs' rfl

/-- What others do is a sequence of changes that take and free no lock. -/
theorem actOutside_leads {fs : FileSystem} (hs : fs.Sound) (o : Outside) :
    Leads Change.Unlocking fs (actOutside fs o).2 := by
  cases o with
  | write path bytes =>
    simp only [actOutside, writeFile]
    split
    · exact .refl
    · rename_i fs₁ i ho
      have hl := (FileSystem.openForWriting_leads hs ho).mono fun _ hc => hc.unlocking
      split
      · exact hl
      · split
        · exact hl
        · rename_i fs₂ hw
          exact hl.trans ((FileSystem.writeAt_leads hw).mono fun _ hc => hc.gentle.unlocking)
  | makeDirectories path =>
    exact (FileSystem.makeDirectories_leads hs).mono fun _ hc => hc.adds.gentle.unlocking
  | makeLink target path =>
    exact whole_leads fun _ h =>
      (FileSystem.makeLink_leads hs h).mono fun _ hc => hc.gentle.unlocking
  | remove path => exact whole_leads fun _ h => FileSystem.remove_leads hs h
  | removeTree path => exact FileSystem.removeTree_leads hs
  | rename source target => exact whole_leads fun _ h => FileSystem.rename_leads hs h

/-! ## Steps -/

theorem idle_misnamed (r : StoreRequest)
    (hs : ∀ st, w.stores.get? s = some st → st.owned = false) :
    Idle w (.store s r) (.error .misnamed) := by
  cases r with
  | abandon => exact hs
  | _ => simp [Idle]

theorem move_misnamed (r : HandleRequest) :
    Move w (.handle h r) (w.answering (.error .misnamed)).answer
      (w.answering (.error .misnamed)).world := by
  refine move_answering ?_
  cases r <;> simp [Idle]

/-- To open a directory is a move. -/
theorem stepOpen_move {o : Options} (hfree : w.stores.get? s = none) :
    Move w (.openStore s o) (w.stepOpen s o).answer (w.stepOpen s o).world := by
  unfold stepOpen
  cases ho : Store.open? w.fs o with
  | mk r fs =>
    cases r with
    | error e =>
      refine .still trivial fun hs => ?_
      rcases (Store.open?_cases hs ho).2 with ⟨_, -, hk⟩ | ⟨_, _, _, _, he, -⟩
      · exact hk
      · cases he
    | ok st =>
      obtain ⟨dir, log, l, rfl⟩ := Store.fresh_of_open? ho
      -- the log and the lock of the store are those that the cases of an opening speak of
      have hcases : w.fs.Sound → (∃ f, fs.face? log.file.node = some f) ∧
          l.node ∉ w.fs.locked ∧ fs.locked = l.node :: w.fs.locked := by
        intro hs
        rcases (Store.open?_cases hs ho).2 with
          ⟨_, he, -⟩ | ⟨_, log', l', _, he, hfree, -, -, -, hlog, hk⟩
        · cases he
        · obtain rfl : log = log' := Option.some.inj (congrArg Store.log (Except.ok.inj he))
          obtain rfl : l = l' := Option.some.inj (congrArg Store.lock (Except.ok.inj he))
          exact ⟨hlog, hfree, hk⟩
      exact .opened hfree (fun hs => (hcases hs).1) fun hs => (hcases hs).2

/-- **Every step is a move.** -/
theorem step_move (now : Clock.Reading) (w : World) (e : Event) :
    Move w e (step now w e).answer (step now w e).world := by
  have hsame := sameLocks_refl w
  cases e with
  | outside o =>
    simp only [step]
    exact .still trivial fun hs => (actOutside_leads hs o).locked fun _ hc => hc
  | openStore s o =>
    simp only [step]
    split
    · exact move_answering trivial
    · rename_i hc
      exact stepOpen_move (not_contains hc)
  | store s r =>
    simp only [step]
    split
    · rename_i hs
      exact move_answering (idle_misnamed r fun st hst => by rw [hs] at hst; cases hst)
    · rename_i st hs
      split
      · rename_i ho
        exact stepStore_move hs ho r
      · rename_i ho
        refine move_answering (idle_misnamed r fun st' hst => ?_)
        rw [hs] at hst
        cases hst
        simpa using ho
  | handle h r =>
    simp only [step]
    split
    · exact move_misnamed r
    · rename_i x hh
      split
      · exact move_misnamed r
      · rename_i st hs
        split
        · exact stepHandle_move hh hs r
        · exact move_misnamed r
  | endTurn l =>
    simp only [step]
    split
    · exact move_answering trivial
    · rename_i t ht
      obtain ⟨s, token⟩ := t
      unfold stepEndTurn
      simp only
      split
      · rename_i hs
        exact .turnLost ht hs
      · rename_i st hs
        obtain ⟨turn, hturn⟩ := st.endTurn_eq token
        rw [hturn]
        exact .turnEnded ht hs
  | acquire l dir =>
    simp only [step]
    split
    · exact move_answering trivial
    · rename_i hc
      cases ha : DirLock.acquire w.fs dir with
      | mk r fs =>
        cases r with
        | error e =>
          refine .still trivial fun hs => ?_
          rcases DirLock.acquire_cases hs ha with ⟨_, -, hl⟩ | ⟨_, _, he, -⟩
          · exact hl.locked_mild
          · cases he
        | ok lock =>
          refine .acquired (not_contains hc) fun hs => ?_
          rcases DirLock.acquire_cases hs ha with ⟨_, he, -⟩ | ⟨_, fs₁, he, hl, -, hfree, -, rfl⟩
          · cases he
          · cases he
            refine ⟨hfree, ?_⟩
            simp only [Change.apply, hl.locked_mild]
  | release l =>
    simp only [step]
    split
    · exact move_answering trivial
    · rename_i lock hk
      exact .released hk
  | openLog l dir rotate =>
    have hl : SameLocks w (SessionLog.start w.fs dir rotate).2 := fun hs =>
      (SessionLog.start_leads hs rotate).locked_mild
    simp only [step]
    split
    · exact move_answering trivial
    · split
      · rename_i e fs ho
        rw [ho] at hl
        exact .still trivial hl
      · rename_i log fs ho
        rw [ho] at hl
        exact .still trivial hl
  | writeLog l text =>
    simp only [step]
    split
    · exact move_answering trivial
    · rename_i log hk
      exact .still trivial (sameLocks_of_leads (log.write_leads w.fs now text))
  | closeLog l =>
    simp only [step]
    split
    · exact move_answering trivial
    · exact .still trivial hsame
  | abandonLog l =>
    simp only [step]
    split
    · exact move_answering trivial
    · exact .still trivial hsame
  | readManifest dir => exact move_answering trivial

end World

end EngineDir
