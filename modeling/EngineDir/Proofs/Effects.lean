import EngineDir.Proofs.FileSystem.Operations
import EngineDir.Proofs.Names
import EngineDir.Store.Files
import EngineDir.Store.Handle

/-!
# What stores do to the file system

No operation of a store, a handle, a lock or a log removes or replaces an entry
`LOCK`, and only the lock's owner frees a lock.

* `Change.Tame`: a change that leaves every entry `LOCK` bound. `Change.Mild`: and
  every lock held.
* `DirLock.acquire_cases`, `Store.open?_cases`: what is locked afterwards.
* `Publication.run_leads`, `Store.setManifest_leads`, …: **all other operations are
  sequences of mild changes.**
-/

namespace EngineDir

open FileSystem

/-- A change that leaves every entry `LOCK` bound to its node. -/
def Change.Tame (c : Change) : Prop := c.Spares (Utf8.encode DirLock.fileName)

/-- A tame change that neither takes nor frees a lock. -/
def Change.Mild (c : Change) : Prop := c.Tame ∧ c.Unlocking

theorem Change.Gentle.mild {c : Change} (h : c.Gentle) : c.Mild := ⟨h.spares _, h.unlocking⟩

theorem Change.Adds.mild {c : Change} (h : c.Adds) : c.Mild := h.gentle.mild

theorem Change.Fills.mild {c : Change} (h : c.Fills) : c.Mild := h.gentle.mild

namespace Leads

variable {Q : Change → Prop} {fs fs' : FileSystem}

theorem mild (h : Leads Q fs fs') (hQ : ∀ c, Q c → c.Mild) : Leads Change.Mild fs fs' := h.mono hQ

theorem tame (h : Leads Change.Mild fs fs') : Leads Change.Tame fs fs' := h.mono fun _ hc => hc.1

theorem locked_mild (h : Leads Change.Mild fs fs') : fs'.locked = fs.locked :=
  h.locked fun _ hc => hc.2

end Leads

variable {fs fs' : FileSystem} {dir : Bytes} {now : Clock.Reading} {text : String}

/-! ## The lock -/

/-- What comes of taking a lock: a missing lock file is made, and then the lock was free. -/
theorem DirLock.acquire_cases (hs : fs.Sound) {r : Except StoreError DirLock}
    (h : DirLock.acquire fs dir = (r, fs')) :
    (∃ e, r = .error e ∧ Leads Change.Mild fs fs') ∨
      ∃ l fs₁, r = .ok l ∧ Leads Change.Mild fs fs₁ ∧
        fs.openForWriting false (DirLock.pathIn dir) = .ok (fs₁, l.node) ∧
        l.node ∉ fs.locked ∧ (Change.lock l.node).Fits fs₁ ∧
        fs' = (Change.lock l.node).apply fs₁ := by
  unfold DirLock.acquire at h
  simp only at h
  cases ho : fs.openForWriting false (DirLock.pathIn dir) with
  | error e =>
    rw [ho] at h
    cases h
    exact Or.inl ⟨_, rfl, .refl⟩
  | ok q =>
    obtain ⟨fs₁, i⟩ := q
    have hl : Leads Change.Mild fs fs₁ := (openForWriting_leads hs ho).mild fun _ hc => hc.mild
    rw [ho] at h
    simp only at h
    cases ht : fs₁.tryLock i with
    | none =>
      rw [ht] at h
      cases h
      exact Or.inl ⟨_, rfl, hl⟩
    | some fs₂ =>
      rw [ht] at h
      cases h
      obtain ⟨hfree, rfl⟩ := tryLock_eq_some.1 ht
      -- to open the file takes no lock, so it was free before as well
      refine Or.inr ⟨_, fs₁, rfl, hl, rfl, ?_, ⟨hfree, ?_⟩, rfl⟩
      · rw [← hl.locked_mild]; exact hfree
      · rcases openForWriting_face? hs ho with ⟨b, hb⟩ | ⟨d, hd⟩
        · exact ⟨_, hb⟩
        · exact ⟨_, hd⟩

theorem unlock_leads (i : NodeId) : Leads Change.Tame fs (fs.unlock i) :=
  .one (c := .unlock i) trivial trivial

/-! ## The log -/

theorem lockName_ne {cs : List Char} (h : cs ≠ DirLock.fileName) :
    Utf8.encode cs ≠ Utf8.encode DirLock.fileName := fun he => h (Utf8.encode_injective he)

/-- Writing a line gives the file behind the log new contents, or changes nothing. -/
theorem SessionLog.write_cases (l : SessionLog) (fs : FileSystem) (now : Clock.Reading)
    (text : String) :
    (l.write fs now text).1.file.node = l.file.node ∧
      ((l.write fs now text).2 = fs ∨ ∃ b b', fs.face? l.file.node = some (.file b) ∧
        (l.write fs now text).2 = (Change.fill l.file.node b').apply fs) := by
  rw [SessionLog.write_eq]
  cases hw : fs.writeAt l.file.node l.file.pos
      (fs.accepted l.file.node l.file.pos (SessionLog.line now text)) with
  | error e => exact ⟨rfl, Or.inl rfl⟩
  | ok fs₁ =>
    refine ⟨?_, ?_⟩
    · simp only [advance]
      split <;> rfl
    · rcases writeAt_cases hw with rfl | ⟨b, hb, rfl⟩
      · exact Or.inl rfl
      · exact Or.inr ⟨b, _, hb, rfl⟩

theorem SessionLog.write_leads (l : SessionLog) (fs : FileSystem) (now : Clock.Reading)
    (text : String) : Leads Change.Mild fs (l.write fs now text).2 := by
  rcases (l.write_cases fs now text).2 with h | ⟨b, b', hb, h⟩
  · rw [h]; exact .refl
  · rw [h]; exact .one ⟨b, hb⟩ ⟨trivial, trivial⟩

/-- What becomes of a log: it is still the same file, unless it is gone. -/
def SessionLog.Later (log log' : Option SessionLog) : Prop :=
  ∀ l', log' = some l' → ∃ l, log = some l ∧ l'.file.node = l.file.node

theorem SessionLog.Later.refl (log : Option SessionLog) : SessionLog.Later log log :=
  fun l h => ⟨l, h, rfl⟩

theorem SessionLog.Later.gone (log : Option SessionLog) : SessionLog.Later log none := by
  intro l hl
  cases hl

theorem SessionLog.Later.trans {log log' log'' : Option SessionLog} (h : SessionLog.Later log log')
    (h' : SessionLog.Later log' log'') : SessionLog.Later log log'' := by
  intro l'' hl''
  obtain ⟨l', hl', hn'⟩ := h' l'' hl''
  obtain ⟨l, hl, hn⟩ := h l' hl'
  exact ⟨l, hl, hn'.trans hn⟩

theorem SessionLog.record_some (l : SessionLog) :
    SessionLog.record (some l) fs now text =
      (some (l.write fs now text).1, (l.write fs now text).2) := by
  simp only [SessionLog.record]

theorem SessionLog.record_leads (log : Option SessionLog) :
    Leads Change.Mild fs (SessionLog.record log fs now text).2 := by
  cases log with
  | none => exact .refl
  | some l =>
    simp only [SessionLog.record_some]
    exact l.write_leads fs now text

theorem SessionLog.record_later (log : Option SessionLog) :
    SessionLog.Later log (SessionLog.record log fs now text).1 := by
  cases log with
  | none => intro l' hl'; cases hl'
  | some l =>
    simp only [SessionLog.record_some]
    intro l' hl'
    have hnode := (l.write_cases fs now text).1
    rw [Option.some.inj hl'] at hnode
    exact ⟨l, rfl, hnode⟩

theorem SessionLog.rotated_leads (hs : fs.Sound) :
    Leads Change.Mild fs (SessionLog.rotated fs dir) := by
  unfold SessionLog.rotated
  split
  · rename_i fs₁ h
    refine (rename_join hs nameable_log.proper nameable_oldLog.proper h).mild ?_
    rintro c ⟨i, i', k, rfl⟩
    exact ⟨⟨lockName_ne (by decide), lockName_ne (by decide)⟩, trivial⟩
  · exact .refl

theorem SessionLog.start_leads (hs : fs.Sound) (rotate : Bool) :
    Leads Change.Mild fs (SessionLog.start fs dir rotate).2 := by
  have hrot : Leads Change.Mild fs (if rotate then SessionLog.rotated fs dir else fs) := by
    split
    · exact SessionLog.rotated_leads hs
    · exact .refl
  unfold SessionLog.start
  simp only
  split
  · exact hrot
  · rename_i fs₁ i ho
    exact hrot.trans ((openForWriting_leads (hrot.sound hs) ho).mild fun _ hc => hc.mild)

/-- The file of a new log is there. -/
theorem SessionLog.start_face? (hs : fs.Sound) {rotate : Bool} {log : SessionLog}
    (h : SessionLog.start fs dir rotate = (.ok log, fs')) :
    ∃ f, fs'.face? log.file.node = some f := by
  have hrot : (if rotate then SessionLog.rotated fs dir else fs).Sound := by
    split
    · exact (SessionLog.rotated_leads hs).sound hs
    · exact hs
  unfold SessionLog.start at h
  simp only at h
  split at h
  · cases h
  · rename_i ho
    cases h
    rcases openForWriting_face? hrot ho with ⟨b, hb⟩ | ⟨d, hd⟩
    · exact ⟨_, hb⟩
    · exact ⟨_, hd⟩

/-! ## Publications -/

namespace Publication

variable {p : Proposal} {u : Publication}

theorem warned_fs (u : Publication) (now : Clock.Reading) (text : String) (s : Stage) :
    (u.warned now text s).fs = (SessionLog.record u.log u.fs now text).2 := rfl

theorem warned_log (u : Publication) (now : Clock.Reading) (text : String) (s : Stage) :
    (u.warned now text s).log = (SessionLog.record u.log u.fs now text).1 := rfl

theorem staging_ne_lock (seq : UInt64) : Current.stagingName seq ≠ DirLock.fileName := by
  intro h
  have hl := (List.cons.inj (h : 'C' :: _ = 'L' :: _)).1
  exact absurd hl (by decide)

/-- One call of a publication. -/
theorem step_leads (hs : u.fs.Sound) : Leads Change.Mild u.fs (step p u).fs := by
  have hstaged : Proper (Utf8.encode (Current.stagingName p.id.seq)) := (nameable_staging _).proper
  have hne := lockName_ne (staging_ne_lock p.id.seq)
  cases hst : u.stage with
  | create =>
    simp only [step, hst]
    split
    · exact .refl
    · rename_i fs₁ i ho
      exact (openForWriting_leads hs ho).mild fun _ hc => hc.mild
  | write file b rest =>
    simp only [step, hst]
    split
    · exact .refl
    · rename_i fs₁ hw
      exact (writeAt_leads hw).mild fun _ hc => hc.mild
  | sync file =>
    simp only [step, hst]
    split <;> exact .refl
  | rename =>
    simp only [step, hst]
    split
    · exact .refl
    · rename_i fs₁ hr
      refine (rename_join hs hstaged nameable_current.proper hr).mild ?_
      rintro c ⟨i, i', k, rfl⟩
      exact ⟨⟨hne, lockName_ne (by decide)⟩, trivial⟩
  | syncDirectory =>
    simp only [step, hst]
    split <;> exact .refl
  | report e =>
    simp only [step, hst, warned_fs]
    exact SessionLog.record_leads _
  | discard =>
    simp only [step, hst]
    split
    · exact .refl
    · exact .refl
    · rename_i fs₁ hr
      refine (remove_join hs hstaged hr).mild ?_
      rintro c ⟨i, rfl⟩
      exact ⟨hne, trivial⟩
  | remark text =>
    simp only [step, hst, warned_fs]
    exact SessionLog.record_leads _
  | finished =>
    simp only [step, hst]
    exact .refl

theorem step_later (p : Proposal) (u : Publication) : SessionLog.Later u.log (step p u).log := by
  have hwarned : ∀ text s, SessionLog.Later u.log (u.warned p.now text s).log := by
    intro text s
    rw [warned_log]
    exact SessionLog.record_later u.log
  unfold step
  split
  · split <;> exact .refl _
  · split <;> exact .refl _
  · split <;> exact .refl _
  · split <;> exact .refl _
  · split <;> exact .refl _
  · exact hwarned _ _
  · split <;> exact .refl _
  · exact hwarned _ _
  · exact .refl _

theorem after_later (p : Proposal) (k : Nat) (u : Publication) :
    SessionLog.Later u.log (after p k u).log := by
  induction k generalizing u with
  | zero => exact .refl _
  | succ k ih => exact (step_later p u).trans (ih (step p u))

theorem after_leads (hs : u.fs.Sound) (k : Nat) : Leads Change.Mild u.fs (after p k u).fs := by
  induction k generalizing u with
  | zero => exact .refl
  | succ k ih => exact (step_leads hs).trans (ih ((step_leads hs).sound hs))

theorem run_leads (hs : fs.Sound) (log : Option SessionLog) :
    Leads Change.Mild fs (run p fs log).fs :=
  after_leads (show (begin fs log).fs.Sound from hs) _

end Publication

/-! ## Stores -/

namespace Store

variable {s : Store} {o : Options} {id : FileId}

theorem record_eq :
    s.record fs now text =
      ({ s with log := (SessionLog.record s.log fs now text).1 },
        (SessionLog.record s.log fs now text).2) := by
  unfold record
  generalize SessionLog.record s.log fs now text = r
  rfl

/-- A warning changes the log and nothing else of the store. -/
theorem warn_eq {α : Type} (r : Except StoreError α) :
    s.warn fs now text r =
      { result := r
        fs := (SessionLog.record s.log fs now text).2
        store := { s with log := (SessionLog.record s.log fs now text).1 }
        notes := [⟨.warn, text⟩] } := by
  rw [warn, record_eq]

theorem warn_leads {α : Type} (r : Except StoreError α) :
    Leads Change.Mild fs (s.warn fs now text r).fs := by
  rw [warn_eq]
  exact SessionLog.record_leads s.log

/-- To prepare a directory makes directories and nothing else. -/
theorem prepare_leads (hs : fs.Sound) : Leads Change.AddsDirectory fs (prepare fs o).2 := by
  unfold prepare
  split
  · have hmk : Leads Change.AddsDirectory fs (fs.makeDirectories o.dir).2 := makeDirectories_leads hs
    split
    · rename_i hm; rw [hm] at hmk; exact hmk
    · rename_i hm; rw [hm] at hmk; exact hmk
  · split <;> exact .refl

/-- What comes of entering a directory: the lock was free, and is held if there is a store. -/
theorem enter_cases (hs : fs.Sound) {r : Except StoreError Store} (h : enter fs o dir = (r, fs')) :
    Leads Change.Tame fs fs' ∧
      ((∃ e, r = .error e ∧ fs'.locked = fs.locked) ∨
        ∃ log l fs₁, r = .ok (fresh dir o.syncManifest log l) ∧ l.node ∉ fs.locked ∧
          fs.openForWriting false (DirLock.pathIn dir) = .ok (fs₁, l.node) ∧
          Leads Change.Mild fs fs₁ ∧ Leads Change.Tame fs₁ fs' ∧
          (∃ f, fs'.face? log.file.node = some f) ∧ fs'.locked = l.node :: fs.locked) := by
  unfold enter at h
  cases ha : DirLock.acquire fs dir with
  | mk ra fsa =>
    rw [ha] at h
    rcases DirLock.acquire_cases hs ha with ⟨e, rfl, hl⟩ | ⟨l, fs₁, rfl, hl, hopen, hfree, hfit, rfl⟩
    · cases h
      exact ⟨hl.tame, Or.inl ⟨e, rfl, hl.locked_mild⟩⟩
    · have hl₁ : Leads Change.Tame fs ((Change.lock l.node).apply fs₁) := hl.tame.step hfit trivial
      have hst : Leads Change.Mild ((Change.lock l.node).apply fs₁)
          (SessionLog.start ((Change.lock l.node).apply fs₁) dir o.rotateLog).2 :=
        SessionLog.start_leads (hl₁.sound hs) o.rotateLog
      have hlocked : ((Change.lock l.node).apply fs₁).locked = l.node :: fs.locked := by
        simp only [Change.apply, hl.locked_mild]
      simp only at h
      cases hstart : SessionLog.start ((Change.lock l.node).apply fs₁) dir o.rotateLog with
      | mk rl fsl =>
        rw [hstart] at h hst
        have hlk := hst.locked_mild
        rw [hlocked] at hlk
        cases rl with
        | error e =>
          cases h
          -- without a log the lock is given up again, and no other lock with it
          refine ⟨(hl₁.trans hst.tame).trans (unlock_leads _), Or.inl ⟨e, rfl, ?_⟩⟩
          simp only [DirLock.release, unlock]
          rw [hlk, List.filter_cons_of_neg (by simp), List.filter_eq_self]
          intro j hj
          simp only [decide_eq_true_eq]
          rintro rfl
          exact hfree hj
        | ok log =>
          cases h
          have hlate : Leads Change.Tame fs₁ fs' := (Leads.one hfit trivial).trans hst.tame
          have hface := SessionLog.start_face? (hl₁.sound hs) hstart
          exact ⟨hl₁.trans hst.tame, Or.inr ⟨log, l, fs₁, rfl, hfree, hopen, hl, hlate, hface, hlk⟩⟩

/-- What comes of opening a directory: no lock is held but that of the new store. -/
theorem open?_cases (hs : fs.Sound) {r : Except StoreError Store} (h : open? fs o = (r, fs')) :
    Leads Change.Tame fs fs' ∧
      ((∃ e, r = .error e ∧ fs'.locked = fs.locked) ∨
        ∃ dir log l fs₁, r = .ok (fresh dir o.syncManifest log l) ∧ l.node ∉ fs.locked ∧
          (prepare fs o).2.canonical (Path.ofText o.dir) = .ok dir ∧
          (prepare fs o).2.openForWriting false (DirLock.pathIn dir) = .ok (fs₁, l.node) ∧
          Leads Change.Tame fs₁ fs' ∧ (∃ f, fs'.face? log.file.node = some f) ∧
          fs'.locked = l.node :: fs.locked) := by
  unfold open? at h
  split at h
  · cases h; exact ⟨.refl, Or.inl ⟨_, rfl, rfl⟩⟩
  · have hp := (prepare_leads (o := o) hs).mild fun _ hc => hc.adds.mild
    split at h
    · rename_i e fs₁ hpr
      rw [hpr] at hp
      cases h
      exact ⟨hp.tame, Or.inl ⟨_, rfl, hp.locked_mild⟩⟩
    · rename_i fs₁ hpr
      rw [hpr] at hp ⊢
      split at h
      · cases h; exact ⟨hp.tame, Or.inl ⟨_, rfl, hp.locked_mild⟩⟩
      · rename_i dir hdir
        -- what was prepared for the store left the locks
        obtain ⟨hl, hres⟩ := enter_cases (hp.sound hs) h
        refine ⟨hp.tame.trans hl, ?_⟩
        rw [← hp.locked_mild]
        rcases hres with ⟨e, he, hk⟩ | ⟨log, l, fs₂, he, hfree, hopen, -, hrest⟩
        · exact Or.inl ⟨e, he, hk⟩
        · exact Or.inr ⟨dir, log, l, fs₂, he, hfree, hdir, hopen, hrest⟩

theorem logMessage_leads : Leads Change.Mild fs (s.logMessage fs now text).2 := by
  unfold logMessage
  split
  · exact .refl
  · rw [record_eq]
    exact SessionLog.record_leads s.log

theorem openFile_fs : (s.openFile fs id).fs = fs := by
  unfold openFile
  split
  · rfl
  · simp only
    split <;> rfl

theorem createFile_leads (hs : fs.Sound) : Leads Change.Mild fs (s.createFile fs id).fs := by
  unfold createFile
  split
  · exact .refl
  · simp only
    split
    · exact .refl
    · rename_i fs₁ i ho
      exact (openForWriting_leads hs ho).mild fun _ hc => hc.mild

theorem access_ok {busy : FileId → StoreError} {name : List Char}
    (h : s.access id busy = .ok name) :
    s.closed = false ∧ id.name? = some name ∧ id ∉ s.openIds := by
  unfold access at h
  split at h
  · cases h
  · rename_i hc
    split at h
    · cases h
    · rename_i name' hn
      split at h
      · cases h
      · rename_i hid
        cases h
        exact ⟨by simpa using hc, hn, hid⟩

theorem removeFile_leads (hs : fs.Sound) : Leads Change.Mild fs (s.removeFile fs now id).fs := by
  unfold removeFile
  split
  · exact .refl
  · rename_i name ha
    have hn := (access_ok ha).2.1
    -- the name of a file begins with a digit or an `M`
    have hne : name ≠ DirLock.fileName := by
      rintro rfl
      exact FileId.name?_ne_upper (by decide) (by decide) hn
    simp only
    split
    · exact warn_leads _
    · rename_i fs₁ hr
      refine (remove_join hs (nameable_of_name? hn).proper hr).mild ?_
      rintro c ⟨i, rfl⟩
      exact ⟨lockName_ne hne, trivial⟩

theorem setManifest_leads (hs : fs.Sound) : Leads Change.Mild fs (s.setManifest fs now id).fs := by
  unfold setManifest
  split
  · exact .refl
  · split
    · exact .refl
    · simp only
      split <;> exact Publication.run_leads hs _

theorem takeTurn_fs : (s.takeTurn fs).fs = fs := by
  unfold takeTurn
  split
  · rfl
  · split <;> rfl

/-- What a release of a store's lock leads to. -/
theorem releaseLock_leads : Leads Change.Tame fs (s.releaseLock fs) := by
  unfold releaseLock
  split
  · exact .refl
  · exact unlock_leads _

theorem close_leads : Leads Change.Tame fs (s.close fs now).fs := by
  unfold close
  split
  · exact .refl
  · split
    · exact (warn_leads _).tame
    · exact releaseLock_leads

theorem abandon_leads : Leads Change.Tame fs (s.abandon fs now).fs := by
  unfold abandon
  split
  · exact .refl
  · have hl : Leads Change.Tame fs (SessionLog.record s.log fs now
        ("storage dropped without close, " ++ countText s.openCount ++ " files still open")).2 :=
      (SessionLog.record_leads s.log).tame
    simp only [warn_eq]
    split
    · exact hl
    · exact hl.trans releaseLock_leads

end Store

/-! ## Handles -/

namespace Handle

variable {s : Store} {h : Handle}

theorem close_leads : Leads Change.Mild fs (h.close fs s now).1.fs := by
  unfold close
  split
  · exact .refl
  · simp only [Store.warn_eq]
    split
    · exact SessionLog.record_leads _
    · exact .refl

theorem abandon_leads : Leads Change.Mild fs (h.abandon fs s now).fs := by
  unfold abandon
  split
  · exact .refl
  · exact Store.warn_leads _

theorem write_leads (bytes : Bytes) : Leads Change.Mild fs (h.write fs bytes).2.2 := by
  unfold write
  split
  · exact .refl
  · simp only
    split
    · exact .refl
    · rename_i fs₁ hw
      exact (writeAt_leads hw).mild fun _ hc => hc.mild

end Handle

end EngineDir
