import EngineDir.Proofs.FailedOpen

/-!
# The logs of two sessions

Where `LOG` and `LOG.old` are files of their own, or missing, a session always begins with an
empty `LOG`, if one can be made. If that is asked for, the `LOG` that was there becomes
`LOG.old`; otherwise, and if there was none or the system does not let it be moved,
`LOG.old` stays what it was.

* `FileSystem.Holds`, `FileSystem.Regular`: a name that is that of a file. `FileSystem.Separate`:
  two names that are not those of one file.
* `FileSystem.Keeps`, `LogKeeps`: what a file holds for which the system may set a limit.
* `SessionLog.Rotated`: what becomes of the old log. `SessionLog.rotated_regular`: **what is
  moved out of the way.**
* `SessionLog.start_regular`: **a log begins empty.**
* `Store.enter_regular`: **what an open makes of both logs.**
-/

namespace EngineDir

open FileSystem

variable {fs fs' fs'' : FileSystem} {t : Trail} {m : Nat} {D i j : NodeId} {dir n b : Bytes}
  {o : Options} {rotate : Bool}

/-- The name `n` of the directory `D` is free, or that of a file. -/
def FileSystem.Regular (fs : FileSystem) (D : NodeId) (n : Bytes) : Prop :=
  fs.lookup D n = none ∨ ∃ b, fs.Holds D n b

/-- The names `n` and `n'` of the directory `D` are not those of one file. -/
def FileSystem.Separate (fs : FileSystem) (D : NodeId) (n n' : Bytes) : Prop :=
  ∀ i, fs.lookup D n = some i → fs.lookup D n' ≠ some i

/-- The name `n` of the directory `D` is that of a file, which has the bytes `b` unless the system
sets a limit for it. -/
def FileSystem.Keeps (fs : FileSystem) (D : NodeId) (n b : Bytes) : Prop :=
  ∃ i, fs.lookup D n = some i ∧ (∃ b', fs.face? i = some (.file b')) ∧
    (fs.refusals.room i = none → fs.face? i = some (.file b))

namespace FileSystem

theorem OneName.separate {n' : Bytes} (h : fs.OneName D) (hne : n ≠ n') : fs.Separate D n n' :=
  fun i hi hi' => hne (h n n' i hi hi')

theorem Separate.stays {n' : Bytes} (h : fs.Separate D n n') (hn : Stays D n fs fs')
    (hn' : Stays D n' fs fs') : fs'.Separate D n n' := by
  intro i hi hi'
  exact h i (hn.lookup.symm.trans hi) (hn'.lookup.symm.trans hi')

theorem Keeps.regular (h : fs.Keeps D n b) : fs.Regular D n := by
  obtain ⟨i, hl, ⟨b', hb'⟩, -⟩ := h
  exact Or.inr ⟨b', i, hl, hb'⟩

theorem Keeps.holds (h : fs.Keeps D n b) (hroom : ∀ i, fs.refusals.room i = none) :
    fs.Holds D n b := by
  obtain ⟨i, hl, -, hface⟩ := h
  exact ⟨i, hl, hface (hroom i)⟩

theorem Keeps.stays (h : fs.Keeps D n b) (hst : Stays D n fs fs')
    (hr : fs'.refusals = fs.refusals) : fs'.Keeps D n b := by
  obtain ⟨i, hl, ⟨b', hb'⟩, hroom⟩ := h
  refine ⟨i, (hst.face_eq hl hb').1, ⟨b', (hst.face_eq hl hb').2⟩, fun hfree => ?_⟩
  rw [hr] at hfree
  exact (hst.face_eq hl (hroom hfree)).2

theorem Holds.stays (h : fs.Holds D n b) (hst : Stays D n fs fs') : fs'.Holds D n b := by
  obtain ⟨i, hl, hf⟩ := h
  exact ⟨i, hst.face_eq hl hf⟩

theorem Regular.stays (h : fs.Regular D n) (hst : Stays D n fs fs') : fs'.Regular D n := by
  rcases h with hfree | ⟨b, hb⟩
  · exact Or.inl (hst.lookup.trans hfree)
  · exact Or.inr ⟨b, hb.stays hst⟩

theorem Regular.face (h : fs.Regular D n) (hl : fs.lookup D n = some j) :
    ∃ b, fs.face? j = some (.file b) := by
  rcases h with hfree | ⟨b, i, hi, hb⟩
  · rw [hfree] at hl
    cases hl
  · obtain rfl := Option.some.inj (hl.symm.trans hi)
    exact ⟨b, hb⟩

theorem Regular.noLink (h : fs.Regular D n) : NoLink fs D n := by
  intro j g hj hlink
  obtain ⟨b, hb⟩ := h.face hj
  rw [hb] at hlink
  cases hlink

/-- A name that is free or that of a file is bound to an empty file when it is opened anew. -/
theorem openForWriting_regular (hs : fs.Sound) (ht : t.Stands fs) (hn : Proper n)
    (hlen : n.length ≤ nameLimit) (h : fs.Regular t.here n)
    (hmake : fs.refusals.make (join t.path n) = none) :
    ∃ fs' i, fs.openForWriting true (join t.path n) = .ok (fs', i) ∧
      fs'.lookup t.here n = some i ∧ fs'.face? i = some (.file []) ∧
      ∀ k, k ≠ n → fs.Separate t.here n k → Stays t.here k fs fs' := by
  have hopen := (ht.arrives hs).openForWriting hn hlen h.noLink true
  cases hl : fs.lookup t.here n with
  | none =>
    rw [hl, hmake] at hopen
    have hfits : (Change.make t.here n (.file [])).Fits fs :=
      ⟨ht.isDirectory hs, hn, hlen, hl, trivial⟩
    have hlook : ∀ k, (fs.make t.here n (.file [])).lookup t.here k =
        if t.here = t.here ∧ k = n then some (fs.nextId t.here) else fs.lookup t.here k := fun k =>
      lookup_make hfits.1 (hs.fresh _) hfits.2.2.2.2.entries
    refine ⟨_, _, hopen, (hlook n).trans (if_pos ⟨rfl, rfl⟩), (face?_make _).trans (if_pos rfl),
      fun k hk _ => ⟨(hlook k).trans (if_neg fun he => hk he.2), fun j hj => ?_⟩⟩
    rw [face?_make, if_neg (hs.ne_nextId hj)]
  | some i =>
    obtain ⟨b, hb⟩ := h.face hl
    rw [hl] at hopen
    simp only [face?_file.1 hb, if_true] at hopen
    refine ⟨_, _, hopen, (lookup_fill hb).trans hl, (face?_setNode _).trans (if_pos rfl),
      fun k _ hapart => ⟨lookup_fill hb, fun j hj => ?_⟩⟩
    have hji : j ≠ i := by
      rintro rfl
      exact hapart j hl hj
    exact (face?_setNode _).trans (if_neg hji)

end FileSystem

/-- The log is the file `LOG` of the directory `D`. It holds the bytes `b`, and the next line goes
behind them, unless the system sets a limit for it. -/
def LogKeeps (D : NodeId) (fs : FileSystem) (log : Option SessionLog) (b : Bytes) : Prop :=
  ∃ l, log = some l ∧ fs.lookup D SessionLog.entry = some l.file.node ∧
    (∃ b', fs.face? l.file.node = some (.file b')) ∧
    (fs.refusals.room l.file.node = none → Logged D fs log b)

namespace LogKeeps

variable {log log' : Option SessionLog} {F N : Bytes → Prop} {now : Clock.Reading}
  {said : List String}

/-- A log that was just opened is empty. -/
theorem opened {l : SessionLog} (hl : fs.lookup D SessionLog.entry = some l.file.node)
    (hf : fs.face? l.file.node = some (.file [])) (hpos : l.file.pos = 0) :
    LogKeeps D fs (some l) [] :=
  ⟨l, rfl, hl, ⟨[], hf⟩, fun hroom => ⟨l, rfl, hl, hf, hpos, hroom⟩⟩

theorem keeps (h : LogKeeps D fs log b) : fs.Keeps D SessionLog.entry b := by
  obtain ⟨l, hlog, hl, hfile, hroom⟩ := h
  refine ⟨l.file.node, hl, hfile, fun hfree => ?_⟩
  obtain ⟨l', hlog', -, hf, -⟩ := hroom hfree
  obtain rfl := Option.some.inj (hlog.symm.trans hlog')
  exact hf

/-- What leaves the entry `LOG` leaves the log. -/
theorem stays (h : LogKeeps D fs log b) (hst : Stays D SessionLog.entry fs fs')
    (hr : fs'.refusals = fs.refusals) : LogKeeps D fs' log b := by
  obtain ⟨l, hlog, hl, ⟨b', hb'⟩, hroom⟩ := h
  refine ⟨l, hlog, (hst.face_eq hl hb').1, ⟨b', (hst.face_eq hl hb').2⟩, fun hfree => ?_⟩
  rw [hr] at hfree
  exact (hroom hfree).stays hst hr

/-- **The log gains the lines**, as far as the system sets no limit. -/
theorem works (h : LogKeeps D fs log b) (hw : Works D F N now fs log said fs' log')
    (hs : fs.Sound) (hone : fs.OneName D) (hF : ¬F SessionLog.entry) (hN : ¬N SessionLog.entry) :
    LogKeeps D fs' log' (SessionLog.filled b (said.map (Prod.mk now))) := by
  obtain ⟨l, rfl, hl, ⟨b₀, hb₀⟩, hroom⟩ := h
  obtain ⟨l', hl', hnode⟩ := hw.same_log
  have hfile : ∃ b', fs'.face? l.file.node = some (.file b') := by
    rcases hw.leads.face? hs hb₀ with hf | ⟨-, b', -, hf⟩
    · exact ⟨b₀, hf⟩
    · exact ⟨b', hf⟩
  refine ⟨l', hl', ?_, by rwa [hnode], fun hfree => ?_⟩
  · rw [hnode]
    exact (hw.lookup hs (Or.inr hN)).trans hl
  · rw [hw.refusals, hnode] at hfree
    exact hw.logged hs hone (hroom hfree) hF hN

end LogKeeps

/-! ## Logs that are moved -/

namespace SessionLog

/-- A session that begins moves the log out of the way: that is asked for, and not refused. -/
def Moves (fs : FileSystem) (dir : Bytes) (rotate : Bool) : Prop :=
  rotate = true ∧ fs.refusals.rename (pathIn dir) (oldPathIn dir) = none

/-- What becomes of the old log when a session begins, which moves the log there if `moves` holds. -/
structure Rotated (D : NodeId) (moves : Prop) (fs fs' : FileSystem) : Prop where
  /-- The old log is still missing or a file. -/
  regular : fs'.Regular D oldEntry
  /-- It is the log that was there. -/
  moved : moves → ∀ b, fs.Holds D entry b → fs'.Holds D oldEntry b
  /-- If nothing was to be moved, it is what it was. -/
  kept : ¬moves ∨ fs.lookup D entry = none → Stays D oldEntry fs fs'

/-- What happens to other names before and afterwards makes no difference. -/
theorem Rotated.between {moves : Prop} {fs₁ fs₂ : FileSystem} (h : Rotated D moves fs₁ fs₂)
    (hlog : Stays D entry fs fs₁) (hold : Stays D oldEntry fs fs₁)
    (hold' : Stays D oldEntry fs₂ fs') : Rotated D moves fs fs' where
  regular := h.regular.stays hold'
  moved hr b hb := (h.moved hr b (hb.stays hlog)).stays hold'
  kept hr := hold.trans ((h.kept (hr.imp_right hlog.lookup.trans)).trans hold')

/-- An old log that stays was not replaced. -/
theorem Rotated.unmoved {moves : Prop} (h : fs.Regular D oldEntry) (hm : ¬moves)
    (hst : Stays D oldEntry fs fs') : Rotated D moves fs fs' :=
  ⟨h.stays hst, fun hmoves => absurd hmoves hm, fun _ => hst⟩

/-- A log that is missing is not moved. -/
theorem rotated_missing (hs : fs.Sound) (ha : fs.Arrives dir t m)
    (h : fs.lookup t.here entry = none) : rotated fs dir = fs := by
  unfold rotated
  split
  · rename_i fs₁ hr
    rcases ha.rename hs nameable_log.proper nameable_oldLog.proper hr with
      ⟨hsame, -⟩ | ⟨k, ⟨hbound, -⟩, -⟩
    · exact hsame
    · rw [h] at hbound
      cases hbound
  · rfl

/-- Nor is one that the system does not let be moved. -/
theorem rotated_refused (h : fs.refusals.rename (pathIn dir) (oldPathIn dir) ≠ none) :
    rotated fs dir = fs := by
  obtain ⟨err, herr⟩ := Option.ne_none_iff_exists'.1 h
  unfold rotated rename
  rw [herr]

/-- A log that is a file is moved. -/
theorem rotated_file (hs : fs.Sound) (ha : fs.Arrives dir t m) (hl : fs.lookup t.here entry = some i)
    (hb : fs.face? i = some (.file b)) (hold : fs.Regular t.here oldEntry)
    (hapart : fs.Separate t.here entry oldEntry)
    (hgrant : fs.refusals.rename (pathIn dir) (oldPathIn dir) = none) :
    (move t.here i).Fits fs ∧ rotated fs dir = (move t.here i).apply fs := by
  have hrename := ha.rename_granted hs nameable_log.proper nameable_log.length_le
    nameable_oldLog.proper nameable_oldLog.length_le (hapart i hl) hl
    (isDirectory_of_file hb) hgrant fun j hj => isDirectory_of_file (hold.face hj).choose_spec
  refine ⟨⟨hl, (ha.stands hs).isDirectory hs, nameable_oldLog.proper, nameable_oldLog.length_le⟩, ?_⟩
  unfold rotated pathIn oldPathIn
  rw [hrename]

/-- **What is moved out of the way**: the log, with all that it holds. Its name is free then. -/
theorem rotated_regular (hs : fs.Sound) (ht : t.Stands fs) (hlog : fs.Regular t.here entry)
    (hold : fs.Regular t.here oldEntry) (hapart : fs.Separate t.here entry oldEntry)
    (hgrant : fs.refusals.rename (pathIn t.path) (oldPathIn t.path) = none) :
    (rotated fs t.path).Sound ∧ t.Stands (rotated fs t.path) ∧
      (rotated fs t.path).refusals = fs.refusals ∧
      (rotated fs t.path).lookup t.here entry = none ∧
      Rotated t.here True fs (rotated fs t.path) := by
  cases hl : fs.lookup t.here entry with
  | none =>
    have hnone : ∀ b, ¬fs.Holds t.here entry b := by
      rintro b ⟨i, hi, -⟩
      rw [hl] at hi
      cases hi
    rw [rotated_missing hs (ht.arrives hs) hl]
    exact ⟨hs, ht, rfl, hl, hold, fun _ b hb => absurd hb (hnone b), fun _ => .refl _ _ _⟩
  | some i =>
    obtain ⟨b, hb⟩ := hlog.face hl
    obtain ⟨hfits, hmoved⟩ := rotated_file hs (ht.arrives hs) hl hb hold hapart hgrant
    have hw := move_works (F := fun _ => False) ⟨⟨0, 0⟩, 0⟩ hfits
    have hdir : (fs.unbind t.here entry).isDirectory t.here = true := by
      rw [isDirectory_unbind]
      exact ht.isDirectory hs
    have hnew : ((move t.here i).apply fs).Holds t.here oldEntry b := by
      refine ⟨i, (lookup_bind hdir).trans (if_pos ⟨rfl, rfl⟩), ?_⟩
      simpa [Change.apply] using hb
    rw [hmoved]
    refine ⟨hw.sound hs, hw.stands hs ht, hw.refusals, move_free (ht.isDirectory hs),
      Or.inr ⟨b, hnew⟩, ?_, ?_⟩
    · intro _ b' hb'
      obtain ⟨i', hi', hface⟩ := hb'
      obtain rfl := Option.some.inj (hl.symm.trans hi')
      rw [hb] at hface
      cases hface
      exact hnew
    · rintro (hr | hfree)
      · exact absurd trivial hr
      · rw [hl] at hfree
        cases hfree

/-- A log begins empty where it is, or where there is none. -/
theorem openForWriting_begins (hs : fs.Sound) (ht : t.Stands fs) (hlog : fs.Regular t.here entry)
    (hapart : fs.Separate t.here entry oldEntry)
    (hmake : fs.refusals.make (pathIn t.path) = none) :
    ∃ i fs', fs.openForWriting true (pathIn t.path) = .ok (fs', i) ∧
      LogKeeps t.here fs' (some ⟨pathIn t.path, ⟨i, 0⟩, .unused⟩) [] ∧
      Stays t.here oldEntry fs fs' := by
  obtain ⟨fs', i, hopen, hl, hf, hstay⟩ := openForWriting_regular hs ht nameable_log.proper
    nameable_log.length_le hlog hmake
  exact ⟨i, fs', hopen, .opened hl hf rfl, hstay _ entry_ne_oldEntry.symm hapart⟩

/-- **A log begins empty**, and the log before it is kept if that is asked for and not refused. -/
theorem start_regular (rotate : Bool) (hs : fs.Sound) (ht : t.Stands fs)
    (hlog : fs.Regular t.here entry) (hold : fs.Regular t.here oldEntry)
    (hapart : fs.Separate t.here entry oldEntry)
    (hmake : fs.refusals.make (pathIn t.path) = none) :
    ∃ l fs', start fs t.path rotate = (.ok l, fs') ∧ LogKeeps t.here fs' (some l) [] ∧
      Rotated t.here (Moves fs t.path rotate) fs fs' := by
  by_cases hmoves : Moves fs t.path rotate
  · obtain ⟨rfl, hgrant⟩ := hmoves
    obtain ⟨hs₁, ht₁, href, hfree, hrot⟩ := rotated_regular hs ht hlog hold hapart hgrant
    have hnone : (rotated fs t.path).Separate t.here entry oldEntry := by
      intro i hi
      rw [hfree] at hi
      cases hi
    obtain ⟨i, fs', hopen, hkeeps, hstay⟩ :=
      openForWriting_begins hs₁ ht₁ (Or.inl hfree) hnone (by rw [href]; exact hmake)
    refine ⟨_, fs', ?_, hkeeps, hrot.regular.stays hstay,
      fun _ b hb => (hrot.moved trivial b hb).stays hstay,
      fun hr => (hrot.kept (hr.imp_left fun hno => absurd ⟨rfl, hgrant⟩ hno)).trans hstay⟩
    simp only [start, if_true, hopen]
  · -- nothing is moved, and the log is emptied where it is
    have hsame : (if rotate = true then rotated fs t.path else fs) = fs := by
      split
      · rename_i hr
        exact rotated_refused fun hgrant => hmoves ⟨hr, hgrant⟩
      · rfl
    obtain ⟨i, fs', hopen, hkeeps, hstay⟩ := openForWriting_begins hs ht hlog hapart hmake
    refine ⟨_, fs', ?_, hkeeps, .unmoved hold hmoves hstay⟩
    simp only [start, hsame, hopen]

end SessionLog

/-! ## Opens -/

/-- What is made for a lock leaves every other name. -/
theorem FileSystem.LockMade.stays (h : LockMade fs t.path fs') (hs : fs.Sound) (ht : t.Stands fs)
    (hone : fs.OneName t.here) (hlock : NoLink fs t.here DirLock.entry) (hn : n ≠ DirLock.entry) :
    Stays t.here n fs fs' := by
  rcases h.of_noLink hs ht hlock with rfl | ⟨hfree, rfl⟩
  · exact .refl _ _ _
  · have hfits : (Change.make t.here DirLock.entry (.file [])).Fits fs :=
      ⟨ht.isDirectory hs, nameable_lock.proper, nameable_lock.length_le, hfree, trivial⟩
    have hwithin : (Change.make t.here DirLock.entry (.file [])).Within t.here (fun _ => False)
        (fun k => k = DirLock.entry) fs := ⟨rfl, rfl, rfl⟩
    exact hwithin.stays hfits hs hone not_false hn

namespace Store

/-- **What an open makes of both logs**: if it fails, it leaves them. -/
theorem enter_regular (hs : fs.Sound) (ht : t.Stands fs) (hone : fs.OneName t.here)
    (hlock : NoLink fs t.here DirLock.entry) (hlog : fs.Regular t.here SessionLog.entry)
    (hold : fs.Regular t.here SessionLog.oldEntry)
    (hmake : fs.refusals.make (SessionLog.pathIn t.path) = none) :
    (∃ e fs', enter fs o t.path = (.error e, fs') ∧ ∀ n, n ≠ DirLock.entry → Stays t.here n fs fs') ∨
      ∃ st fs', enter fs o t.path = (.ok st, fs') ∧ st.dir = t.path ∧ LogKeeps t.here fs' st.log [] ∧
        SessionLog.Rotated t.here (SessionLog.Moves fs t.path o.rotateLog) fs fs' := by
  have hlog_ne : SessionLog.entry ≠ DirLock.entry := lockName_ne (by decide)
  have hold_ne : SessionLog.oldEntry ≠ DirLock.entry := lockName_ne (by decide)
  cases hr : enter fs o t.path with
  | mk r fs' =>
    cases r with
    | error e =>
      obtain ⟨honly | haway, -⟩ := enter_error hs ht hr
      · exact Or.inl ⟨e, fs', rfl, fun n hn => honly.made.stays hs ht hone hlock hn⟩
      · obtain ⟨err, hrefused, -⟩ := haway.refused
        rw [hmake] at hrefused
        cases hrefused
    | ok st =>
      unfold enter at hr
      cases ha : DirLock.acquire fs t.path with
      | mk ra fs₁ =>
        rw [ha] at hr
        cases ra with
        | error e => cases hr
        | ok l =>
          obtain ⟨hw, -⟩ := DirLock.acquire_works ⟨⟨0, 0⟩, 0⟩ (F := fun _ => False) hs ht hlock ha
          have hstay : ∀ n, n ≠ DirLock.entry → Stays t.here n fs fs₁ := fun n hn =>
            hw.stays hs hone (.none _ _) (Or.inl rfl) (Or.inl rfl) not_false hn
          obtain ⟨log, fs₂, hstart, hkeeps, hrot⟩ := SessionLog.start_regular o.rotateLog
            (hw.sound hs) (hw.stands hs ht) (hlog.stays (hstay _ hlog_ne))
            (hold.stays (hstay _ hold_ne))
            ((hw.oneName hs hone).separate SessionLog.entry_ne_oldEntry) (by rw [hw.refusals, hmake])
          simp only [hstart] at hr
          cases hr
          rw [SessionLog.Moves, hw.refusals] at hrot
          exact Or.inr ⟨_, _, rfl, rfl, hkeeps,
            hrot.between (hstay _ hlog_ne) (hstay _ hold_ne) (.refl _ _ _)⟩

end Store

/-! ## Where a log is not kept -/

/-- Both logs of `/db` are one file. -/
def FileSystem.oneLog : FileSystem := twinned SessionLog.entry SessionLog.oldEntry [1]

/-- The system refuses to move a log. -/
def FileSystem.unmovable : FileSystem :=
  { FileSystem.furnished with
    refusals := { SystemRefusals.never with rename := fun _ _ => some .nameTooLong } }

/-- There is no room for a line. -/
def FileSystem.roomless : FileSystem :=
  { FileSystem.furnished with refusals := { SystemRefusals.never with room := fun _ => some 0 } }

theorem oneLog_sound : FileSystem.oneLog.Sound :=
  twinned_sound _ nameable_log.proper nameable_log.length_le nameable_oldLog.proper
    nameable_oldLog.length_le

end EngineDir
